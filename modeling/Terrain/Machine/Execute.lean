import Terrain.Machine.Control
import Terrain.Native.Dispatch

/-!
# Executing instructions

What each operation does. References that an operation takes from the stack are dropped at its end,
also when it fails.
-/

namespace Terrain.Machine

/-! ## Declarations and conditions -/

/-- Pops a value and binds it in the innermost block. -/
def declareLocal (location : Location) (name : String) (isConst : Bool) : MachineM Unit := do
  let value ← pop
  let calls := (← get).calls
  match calls.topBlock? with
  | none =>
    onHeap (Heap.release value)
    raise (.intermediateCode "no block to declare in")
  | some block =>
    match ← onHeap (block.locals.declare? name value isConst) with
    | some locals =>
      modify fun machine => { machine with calls := calls.setTopBlock { block with locals } }
      onHeap (Heap.release value)
    | none =>
      onHeap (Heap.release value)
      raise (.script ⟨.variableAlreadyDefined, location,
        s!"variable {name} is already defined in this block"⟩)

/-- Pops the boolean a branch depends on. -/
def popCondition (location : Location) : MachineM Bool := do
  let condition ← pop
  let value ← inspect (Query.value condition)
  onHeap (Heap.release condition)
  match value with
  | .boolean taken => return taken
  | other =>
    raise (.script ⟨.incorrectConditionType, location,
      s!"condition must be a Boolean, got {other.typeName}"⟩)

/-! ## Calls -/

/-- Binds the parameters of a function in its frame. -/
def bindParameters (function : String) (block : Block) :
    List (String × ObjectId) → MachineM Unit
  | [] => return
  | (parameter, argument) :: rest => do
    match ← onHeap (block.locals.declare? parameter argument false) with
    | some locals =>
      let block := { block with locals }
      modify fun machine => { machine with calls := machine.calls.setTopBlock block }
      bindParameters function block rest
    | none => raise (.intermediateCode s!"{function} declares parameter {parameter} twice")

/-- Enters a function of the script. -/
def callFunction (location : Location) (name : String) (function : ScriptFunction)
    (arguments : List ObjectId) : MachineM Unit := do
  let expected := function.parameters.length
  if expected ≠ arguments.length then
    raise (.script ⟨.incorrectNumberOfArguments, location,
      s!"{name} takes {expected} arguments, {arguments.length} given"⟩)
  enterCall location name function.body
  bindParameters name (.start location function.body false) (function.parameters.zip arguments)

/-- Pushes the result of a native call, then drops the references of the arguments and those the call
has handed over. A result without references for which there is no room is gone again. -/
def finishNative (native : MachineM ObjectId) (arguments : List ObjectId) (location : Location) :
    MachineM Unit :=
  andFinally
    (do
      let result ← native
      onError (push result location) (onHeap (Heap.destroyIfUnreferenced result)))
    (do
      onHeap (Heap.releaseAll arguments)
      let pending := (← get).pending
      modify fun machine => { machine with pending := [] }
      onHeap (Heap.releaseAll pending))

/-- Calls a function of the script or, if it has none of the name, a native one. -/
def callGlobal (location : Location) (name : String) (count : Nat) : MachineM Unit := do
  let arguments ← take count
  match (← read).script.functions.get? name with
  | some function =>
    andFinally (callFunction location name function arguments)
      (onHeap (Heap.releaseAll arguments))
  | none => finishNative (Native.callGlobal ⟨location, name, arguments⟩) arguments location

/-- Calls a member function of the object on top of the arguments. -/
def callMember (location : Location) (name : String) (count : Nat) : MachineM Unit := do
  let receiver ← pop
  andFinally
    (do
      let arguments ← take count
      finishNative (Native.callMember receiver ⟨location, name, arguments⟩) arguments location)
    (onHeap (Heap.release receiver))

/-! ## Operations -/

/-- Executes an operation. -/
def execute (location : Location) : Operation → MachineM Unit
  | .loadNumber value => pushNew (.number value) location
  | .loadText value => pushNew (.text value) location
  | .loadBoolean value => pushNew (.boolean value) location
  | .loadNull => do push (← get).null location
  | .loadVariable name => do
    let target ← inspect (Query.target name location)
    push (← inspect (Query.binding target)).value location
  | .loadReference name => do
    pushNew (.reference (← inspect (Query.target name location))) location
  | .loadMember name => do
    let receiver ← pop
    andFinally (do push (← Native.loadMember receiver name location) location)
      (onHeap (Heap.release receiver))
  | .storeVariable name => do
    let value ← orRaise (← get).operands.top
    assign (← inspect (Query.target name location)) value location
  | .declareLocal name isConst => declareLocal location name isConst
  | .declareGlobal name isConst => do
    let value ← pop
    andFinally (Machine.declareGlobal location name value isConst) (onHeap (Heap.release value))
  | .callGlobal name count => callGlobal location name count
  | .callMember name count => callMember location name count
  | .pop => do onHeap (Heap.release (← pop))
  | .ifElse thenBranch elseBranch => do
    let taken ← popCondition location
    enterBlock location (if taken then thenBranch else elseBranch) false
  | .loop body => enterBlock location body true
  | .block body => enterBlock location body false
  | .breakLoop depth => breakLoop depth
  | .continueLoop depth => continueLoop depth
  | .returnCall => leaveCall true
  | .yieldNamed name => yieldTop name
  | .yieldMain => yieldTop Script.mainMap
where
  yieldTop (name : String) : MachineM Unit := do
    let id ← pop
    andFinally (yieldObject name id location) (onHeap (Heap.release id))

end Terrain.Machine
