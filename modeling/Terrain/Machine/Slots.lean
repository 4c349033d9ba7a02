import Terrain.Heap.Basic
import Terrain.Plan.Step

/-!
# Slots of raster handles

Which renderer slot stands behind each raster handle. Entries of destroyed handles are swept out
whenever the table has doubled since the last sweep, so that it stays in proportion to the rasters
alive.
-/

namespace Terrain

structure SlotTable where
  slots : List (ObjectId × Slot)
  /-- Number of entries at which the next sweep is due. -/
  sweepAt : Nat
  deriving Repr, DecidableEq, Inhabited

namespace SlotTable

def empty : SlotTable := ⟨[], 0⟩

def size (table : SlotTable) : Nat := table.slots.length

def isEmpty (table : SlotTable) : Bool := table.slots.isEmpty

/-- Forgets handles whose objects are gone. -/
def sweep (table : SlotTable) (heap : Heap) : SlotTable :=
  let slots := table.slots.filter fun entry => heap.contains entry.1
  ⟨slots, max (2 * slots.length) 64⟩

def get? (table : SlotTable) (id : ObjectId) : Option Slot := table.slots.lookup id

/-- Slot of a handle that must have one. -/
def slotOf (table : SlotTable) (id : ObjectId) : Except Breach Slot :=
  match table.get? id with
  | some slot => .ok slot
  | none => .error (.noSlot id)

/-- Gives a handle its slot. -/
def assign (table : SlotTable) (id : ObjectId) (slot : Slot) (heap : Heap) :
    Except Breach SlotTable :=
  let table := if table.sweepAt ≤ table.size then table.sweep heap else table
  if (table.get? id).isSome then .error (.slotTaken id)
  else .ok { table with slots := (id, slot) :: table.slots }

end SlotTable

end Terrain
