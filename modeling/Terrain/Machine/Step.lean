import Terrain.Machine.Execute
import Terrain.Script.Declarations

/-!
# Runs

A step executes one instruction and then leaves every block and call that has come to its end. A
block of a loop starts again instead.

* `Machine.start` — the machine before the first step.
* `Machine.step` — one step; an error faults the machine.
* `Machine.runFor` — as many steps as given, or fewer.
* `Machine.dispose` — the release of everything at the end.
-/

namespace Terrain.Machine

/-! ## Starting -/

/-- Types that are bound as constants before the script starts. -/
def builtinTypes : List String := ["HeightMap", "HeightProfile", "Array", "Direction"]

/-- The value a global variable starts with. -/
def initialValue : Constant → Value
  | .null => .null
  | .boolean value => .boolean value
  | .number value => .number value
  | .text value => .text value

/-- Binds a new object to a global name. -/
def declareNew (name : String) (value : Value) (isConst : Bool) : MachineM Unit := do
  let id ← onHeap (Heap.register value)
  declareGlobal .start name id isConst

/-- Makes the null object, binds types, parameters and globals, and calls the main block. -/
def boot : MachineM Unit := do
  let script := (← read).script
  let null ← onHeap (Heap.register .null)
  onHeap (Heap.addRef null)
  modify fun machine => { machine with null }
  (builtinTypes ++ script.enums.map (·.name)).forM fun name => declareNew name (.type name) true
  declareNew "Parameters" .parameters true
  script.globals.forM fun global =>
    declareNew global.name (initialValue global.initial) global.isConst
  enterCall .start Script.mainFunction script.main

/-- A machine with nothing in it. -/
def blank (program : Program) : Machine where
  status := .ready
  heap := .empty
  calls := .empty program.limits.calls
  operands := ⟨[], program.limits.operands⟩
  globals := .empty
  sequence := .empty program.parameters.scale program.limits.steps
  slots := .empty
  random := .ofSeed program.parameters.seed
  generated := []
  messages := #[]
  pending := []
  null := 0

/-- Checks that the parameters belong to the script and that the scale is one. -/
def checkProgram (program : Program) : Except Error Unit := do
  let declared ← program.script.parameters
  let scale := program.parameters.scale
  if !declared.sameDefinition program.parameters then
    throw (.apiUsage "script arguments do not match the script's parameter declarations")
  if (numberToScale? scale).isNone then
    throw (.apiUsage (s!"render scale {Decimal.plain scale} is outside " ++
      s!"[{Decimal.plain scaleMin}, {Decimal.plain scaleMax}]"))

/-- The machine before the first step. -/
def start (program : Program) : Except Failure Machine :=
  match checkProgram program with
  | .error error => .error (.error error)
  | .ok _ =>
    match boot program (blank program) with
    | .ok _ machine => .ok machine
    | .error failure _ => .error failure

/-! ## Stepping -/

/-- Takes the next instruction, if one is left. -/
def fetch : MachineM (Option Instruction) := do
  let calls := (← get).calls
  match calls.topBlock? with
  | none => return none
  | some block =>
    match block.code[block.cursor]? with
    | none => return none
    | some instruction =>
      let advanced := { block with cursor := block.cursor + 1 }
      modify fun machine => { machine with calls := calls.setTopBlock advanced }
      return some instruction

/-- Ends the run. A mandatory main map must have been yielded. -/
def finish : MachineM Unit := do
  truncate 0
  let script := (← read).script
  if script.mainIsMandatory && !(← get).generated.contains Script.mainMap then
    raise (.script ⟨.mainMapNotGenerated, .start,
      "the script finished without yielding the main map"⟩)
  modify fun machine => { machine with status := .finished }

/-- Leaves finished blocks and calls, at most so many of them, until an instruction is pending. -/
def unwindFor : Nat → MachineM Progress
  | 0 => return .running
  | fuel + 1 => do
    match (← get).calls.entries with
    | [] =>
      finish
      return .finished
    | call :: _ =>
      match call.blocks.top? with
      | none =>
        leaveCall false
        unwindFor fuel
      | some block =>
        if !block.isFinished then return .running
        else if block.looping then
          restartBlock
          return .running
        else
          leaveBlock
          unwindFor fuel

/-- Number of blocks and calls that can be left, and one for the end of the run. -/
def depth (machine : Machine) : Nat :=
  machine.calls.entries.foldl (fun total call => total + call.blocks.size + 1) 1

/-- Executes an instruction and leaves what is finished. -/
def advance : MachineM Progress := do
  if let some (location, operation) ← fetch then execute location operation
  let fuel := (← get).depth
  unwindFor fuel

/-- One step. An error faults the machine. -/
def step : MachineM Progress := do
  let status := (← get).status
  if status ≠ .ready then
    raise (.apiUsage s!"virtual machine is {status.describe}, not ready")
  onError advance (modify fun machine => { machine with status := .faulted })

/-- At most so many steps, until the machine is no longer ready. -/
def runFor (program : Program) : Nat → Machine → EStateM.Result Failure Machine Unit
  | 0, machine => .ok () machine
  | steps + 1, machine =>
    if machine.status = .ready then
      match step program machine with
      | .ok _ machine => runFor program steps machine
      | .error failure machine => .error failure machine
    else .ok () machine

/-! ## Ending -/

/-- Releases everything the machine holds; answers how many objects only kept each other alive. -/
def dispose : MachineM Nat := do
  truncate 0
  let calls := (← get).calls
  onHeap calls.releaseAll
  let globals := (← get).globals
  onHeap globals.releaseAll
  let pending := (← get).pending
  onHeap (Heap.releaseAll pending)
  let null := (← get).null
  onHeap (Heap.release null)
  onHeap Heap.teardown

/-! ## Listing -/

/-- Listing of the whole state. -/
def dump (machine : Machine) (program : Program) : String :=
  String.join [
    s!"status: {machine.status.describe}\n",
    "call stack:\n", machine.calls.dump machine.heap,
    "object stack:\n", machine.operands.dump machine.heap,
    "globals:\n", machine.globals.dump machine.heap,
    "parameters:\n", program.parameters.dump,
    "rendering sequence:\n", machine.sequence.dump,
    "memory:\n", machine.heap.dump]

end Terrain.Machine
