import Terrain.Decimal.Layout
import Terrain.Plan.Bounds
import Terrain.Plan.Step

/-!
# Tables of rasters

The rasters a renderer works on, by slot. A slot is empty before its maker has run and after its
release.
-/

namespace Terrain

namespace Raster

/-- Text used in listings: the logical bounds of a map, the physical ones of a profile. -/
def describe : Raster → String
  | .map raster =>
    s!"HeightMap {(Bounds.rectangle raster.logical).describe} scale {Decimal.plain raster.scale}"
  | .profile raster =>
    s!"HeightProfile {(Bounds.interval raster.interval).describe} scale {Decimal.plain raster.scale}"

end Raster

structure RasterTable where
  slots : Array (Option Raster)

namespace RasterTable

/-- A table of empty slots. -/
def ofSize (size : Nat) : RasterTable := ⟨Array.replicate size none⟩

def size (table : RasterTable) : Nat := table.slots.size

def isEmpty (table : RasterTable) : Bool := table.slots.isEmpty

def get? (table : RasterTable) (slot : Slot) : Option Raster := table.slots[slot]?.join

def contains (table : RasterTable) (slot : Slot) : Bool := (table.get? slot).isSome

/-- The raster in a slot that must be filled. -/
def get (table : RasterTable) (slot : Slot) : Except Breach Raster :=
  match table.get? slot with
  | some raster => .ok raster
  | none => .error (.emptySlot slot)

/-- Fills a slot; the table grows to hold it. -/
def set (table : RasterTable) (slot : Slot) (raster : Raster) : RasterTable :=
  let missing := slot + 1 - table.slots.size
  ⟨(table.slots ++ Array.replicate missing none).setIfInBounds slot (some raster)⟩

/-- Empties a slot; one that is empty or outside stays so. -/
def release (table : RasterTable) (slot : Slot) : RasterTable :=
  ⟨table.slots.setIfInBounds slot none⟩

/-- Takes the raster out of a slot that must be filled. -/
def take (table : RasterTable) (slot : Slot) : Except Breach (Raster × RasterTable) := do
  return (← table.get slot, table.release slot)

/-- Number of filled slots. -/
def liveCount (table : RasterTable) : Nat := table.slots.countP (·.isSome)

/-- Bytes held by all rasters. -/
def memorySize (table : RasterTable) : Nat :=
  table.slots.foldl (fun total entry => total + (entry.map Raster.memorySize).getD 0) 0

/-- Listing of the slots. -/
def dump (table : RasterTable) : String :=
  String.join (table.slots.mapIdx fun slot entry =>
    let content := (entry.map Raster.describe).getD "empty"
    s!"{slot}: {content}\n").toList

end RasterTable

end Terrain
