import Terrain.Limits
import Terrain.Machine.Slots
import Terrain.Machine.Stacks
import Terrain.Plan.Sequence
import Terrain.Script.Parameters
import Terrain.Status

/-!
# State of the script machine

A run has a part that never changes, the program, and a state. Actions may fail at any point and
leave the state as it was then, so that what a failed step leaves behind can be looked at. Queries
only look at the state.

* `Program`, `Machine` — the two parts.
* `MachineM`, `Query` — actions and queries; `inspect` runs a query as an action.
* `onHeap` — an action on the heap as an action of the machine.
* `andFinally` — an action with a second one that also follows its errors.
-/

namespace Terrain

/-- What a run starts from. -/
structure Program where
  script : Script
  parameters : Parameters
  limits : Limits

/-- State of a run. -/
structure Machine where
  status : Status
  heap : Heap
  calls : CallStack
  operands : OperandStack
  globals : Bindings
  /-- Steps recorded so far. -/
  sequence : Sequence
  /-- Slots behind raster handles. -/
  slots : SlotTable
  random : RandomSequence
  /-- Names of the maps yielded so far. -/
  generated : Dictionary Unit
  /-- Messages printed so far. -/
  messages : Array String
  /-- References handed over by a native call, dropped when its result is on the stack. -/
  pending : List ObjectId
  /-- The one null object that operations share. -/
  null : ObjectId

/-- Actions of the machine. -/
abbrev MachineM := ReaderT Program (EStateM Failure Machine)

/-- Looks at the machine without changing it. -/
abbrev Query := ReaderT Program (ReaderT Machine (Except Failure))

namespace Machine

variable {α : Type}

/-- Runs a query. -/
def inspect (query : Query α) : MachineM α := fun program machine =>
  match query program machine with
  | .ok value => .ok value machine
  | .error failure => .error failure machine

/-- Runs an action on the heap. -/
def onHeap (action : HeapM α) : MachineM α := fun _ machine =>
  let heap := machine.heap
  let rest := { machine with heap := .empty }
  match action heap with
  | .ok value heap => .ok value { rest with heap }
  | .error failure heap => .error failure { rest with heap }

/-- Passes on an error. -/
def orRaise (result : Except Error α) : MachineM α :=
  match result with
  | .ok value => pure value
  | .error error => raise error

/-- Runs an action and then a second one, which also follows an error of the first. A broken
invariant ends everything at once. -/
def andFinally (action : MachineM α) (afterwards : MachineM Unit) : MachineM α :=
  fun program machine =>
    match action program machine with
    | .ok value machine =>
      match afterwards program machine with
      | .ok _ machine => .ok value machine
      | .error failure machine => .error failure machine
    | .error (.error error) machine =>
      match afterwards program machine with
      | .ok _ machine => .error (.error error) machine
      | .error failure machine => .error failure machine
    | .error (.breach breach) machine => .error (.breach breach) machine

/-- Runs a second action if the first one ends with an error, which is passed on. -/
def onError (action : MachineM α) (afterwards : MachineM Unit) : MachineM α :=
  fun program machine =>
    match action program machine with
    | .error (.error error) machine =>
      match afterwards program machine with
      | .ok _ machine => .error (.error error) machine
      | .error failure machine => .error failure machine
    | result => result

/-! ## Operands -/

/-- Pushes an object, which gains a reference. -/
def push (id : ObjectId) (location : Location) : MachineM Unit := do
  let operands ← onHeap ((← get).operands.push id location)
  modify fun machine => { machine with operands }

/-- Pops an object; its reference passes to the caller. -/
def pop : MachineM ObjectId := do
  let (id, operands) ← orRaise (← get).operands.pop
  modify fun machine => { machine with operands }
  return id

/-- Pops several objects, in the order they were pushed; their references pass to the caller. -/
def take (count : Nat) : MachineM (List ObjectId) := do
  let (ids, operands) ← orRaise ((← get).operands.take count)
  modify fun machine => { machine with operands }
  return ids

/-- Drops all operands above a height. -/
def truncate (height : Nat) : MachineM Unit := do
  let operands ← onHeap ((← get).operands.truncate height)
  modify fun machine => { machine with operands }

/-- Pushes a new object. If there is no room for it, it is gone again. -/
def pushNew (value : Value) (location : Location) : MachineM Unit := do
  let id ← onHeap (Heap.register value)
  onError (push id location) (onHeap (Heap.destroy id))

end Machine

namespace Query

variable {α : Type}

/-- The value of an object that must be live. -/
def value (id : ObjectId) : Query Value := fun _ machine =>
  match machine.heap.cell? id with
  | some cell => .ok cell.value
  | none => .error (.breach (.notRegistered id))

/-- The array in an object, which must be one. -/
def array (id : ObjectId) : Query ScriptArray := do
  match ← value id with
  | .array items => return items
  | other => throwThe Failure (.breach (.notAnArray id other.typeName))

/-- Slot of a raster handle. -/
def slot (id : ObjectId) : Query Slot := fun _ machine =>
  match machine.slots.slotOf id with
  | .ok slot => .ok slot
  | .error breach => .error (.breach breach)

end Query

end Terrain
