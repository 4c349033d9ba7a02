import Terrain.Heap.Value

/-!
# The object heap

Objects live in cells addressed by their handles, with a count of the references to each. An object
is destroyed when its count drops to zero, and its own references go with it; the cascade is a loop
over a list of pending releases. Every round of the loop takes one reference away, so the total
number of references bounds it.

* `Heap` — cells, the total of all counts, and whether the heap is being torn down.
* `HeapM` — actions on a heap; a failed action leaves the heap as it was at the failure.
* `register`, `addRef`, `release`, `destroy`, `teardown`.
-/

namespace Terrain

/-- An object with the number of references to it. -/
structure Cell where
  references : Nat
  value : Value
  deriving Inhabited

structure Heap where
  /-- Cell of every handle given out so far; `none` once the object is gone. -/
  cells : Array (Option Cell)
  /-- Total of the reference counts. -/
  references : Nat
  /-- Set by `teardown`: from then on counts no longer matter. -/
  closed : Bool

/-- Actions on a heap. -/
abbrev HeapM := EStateM Failure Heap

namespace Heap

def empty : Heap := ⟨#[], 0, false⟩

instance : Inhabited Heap := ⟨empty⟩

/-- The cell of a live object. -/
def cell? (heap : Heap) (id : ObjectId) : Option Cell := heap.cells[id]?.join

def contains (heap : Heap) (id : ObjectId) : Bool := (heap.cell? id).isSome

def refCount? (heap : Heap) (id : ObjectId) : Option Nat := (heap.cell? id).map (·.references)

/-- Live objects with their handles, in ascending order. -/
def toList (heap : Heap) : List (ObjectId × Cell) :=
  heap.cells.toList.zipIdx.filterMap fun (cell, id) => cell.map fun cell => (id, cell)

def liveCount (heap : Heap) : Nat :=
  heap.cells.foldl (fun count cell => if cell.isSome then count + 1 else count) 0

/-! ## Objects -/

/-- Ends an action with a broken invariant. -/
def fail {α : Type} (breach : Breach) : HeapM α := throw (.breach breach)

/-- A new object, with no references yet. Handles are numbers of 32 bits; a heap is assumed to give out
fewer than they can count. -/
def register (value : Value) : HeapM ObjectId :=
  modifyGet fun heap => (heap.cells.size, { heap with cells := heap.cells.push (some ⟨0, value⟩) })

/-- The cell of an object that must be live. -/
def cell (id : ObjectId) : HeapM Cell := do
  match (← get).cell? id with
  | some cell => return cell
  | none => fail (.notRegistered id)

/-- The value of an object that must be live. -/
def value (id : ObjectId) : HeapM Value := return (← cell id).value

/-- Changes a cell in place. -/
def modifyCell (heap : Heap) (id : ObjectId) (f : Cell → Cell) : Heap :=
  { heap with cells := heap.cells.modify id (Option.map f) }

/-- Forgets an object. -/
def forget (heap : Heap) (id : ObjectId) : Heap :=
  { heap with cells := heap.cells.modify id fun _ => none }

/-- Replaces the value of an object that must be live. -/
def modifyValue (id : ObjectId) (f : Value → Value) : HeapM Unit := do
  if (← get).contains id then
    modify fun heap => heap.modifyCell id fun cell => { cell with value := f cell.value }
  else fail (.notRegistered id)

/-! ## References -/

/-- Counts one more reference. -/
def addRef (id : ObjectId) : HeapM Unit := do
  if (← get).closed then return
  if (← get).contains id then
    modify fun heap =>
      { heap.modifyCell id fun cell => { cell with references := cell.references + 1 } with
        references := heap.references + 1 }
  else fail (.notRegistered id)

/-- Takes one reference away from each pending object. An object without references left is
forgotten, and the objects it referred to become pending, the last one first. -/
def drain : Nat → List ObjectId → HeapM Unit
  | _, [] => return
  | 0, id :: _ => fail (.noReference id)
  | fuel + 1, id :: pending => do
    let cell ← cell id
    match cell.references with
    | 0 => fail (.noReference id)
    | 1 =>
      modify fun heap => { heap.forget id with references := heap.references - 1 }
      drain fuel (cell.value.children.reverse ++ pending)
    | count + 2 =>
      modify fun heap =>
        { heap.modifyCell id fun cell => { cell with references := count + 1 } with
          references := heap.references - 1 }
      drain fuel pending

/-- Drops one reference, and every object that only it kept alive. -/
def release (id : ObjectId) : HeapM Unit := do
  let heap ← get
  if heap.closed then return
  drain (heap.references + 1) [id]

/-- Drops one reference to each of several objects, in order. -/
def releaseAll (ids : List ObjectId) : HeapM Unit := ids.forM release

/-- Destroys an object nothing refers to, and drops its own references. -/
def destroy (id : ObjectId) : HeapM Unit := do
  let cell ← cell id
  if cell.references = 0 then
    modify fun heap => heap.forget id
    releaseAll cell.value.children
  else fail (.liveReferences id cell.references)

/-- Destroys an object if nothing refers to it. -/
def destroyIfUnreferenced (id : ObjectId) : HeapM Unit := do
  if (← get).refCount? id = some 0 then destroy id

/-- Frees every object without counting; answers how many there were. -/
def teardown : HeapM Nat :=
  modifyGet fun heap =>
    (heap.liveCount,
      { cells := Array.replicate heap.cells.size none, references := 0, closed := true })

/-! ## Listing -/

/-- Text of a live object, or a remark that it is gone. -/
def describeCell (heap : Heap) (id : ObjectId) (text : Value → String) : String :=
  match heap.cell? id with
  | some cell => text cell.value
  | none => "<freed>"

/-- One line for every live object, after their number. -/
def dump (heap : Heap) : String :=
  let line (entry : ObjectId × Cell) : String :=
    let (id, cell) := entry
    s!"#{id}: {cell.value.typeName} {cell.value.describe}, {cell.references} refs\n"
  s!"objects: {heap.liveCount}\n" ++ String.join (heap.toList.map line)

end Heap

end Terrain
