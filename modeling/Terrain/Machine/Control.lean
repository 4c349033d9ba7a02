import Terrain.Machine.State

/-!
# Calls and blocks

Entering and leaving the blocks of a call and calls themselves. What a block or a call owned is
released when it is left.
-/

namespace Terrain.Machine

/-! ## Blocks -/

/-- Enters a block in the current call. -/
def enterBlock (location : Location) (code : CodeBlock) (looping : Bool) : MachineM Unit := do
  let calls := (← get).calls
  match calls.entries with
  | [] => raise (.intermediateCode "no active call")
  | call :: _ =>
    let blocks ← orRaise (call.blocks.push (.start location code looping))
    modify fun machine => { machine with calls := calls.setTopBlocks blocks }

/-- Leaves the innermost block. -/
def leaveBlock : MachineM Unit := do
  let calls := (← get).calls
  match calls.entries with
  | [] => raise (.intermediateCode "no active call")
  | call :: _ =>
    let blocks ← onHeap call.blocks.pop
    modify fun machine => { machine with calls := calls.setTopBlocks blocks }

/-- Leaves several blocks. -/
def leaveBlocks : Nat → MachineM Unit
  | 0 => return
  | count + 1 => do
    leaveBlock
    leaveBlocks count

/-- Restarts the innermost block. -/
def restartBlock : MachineM Unit := do
  let calls := (← get).calls
  match calls.topBlock? with
  | none => return
  | some block =>
    let restarted ← onHeap block.restart
    modify fun machine => { machine with calls := calls.setTopBlock restarted }

/-- The blocks of the current call, if one can leave so many of them and the outermost of those is a
loop. -/
def checkLoop (depth : Nat) : Query Unit := fun _ machine =>
  match machine.calls.entries with
  | [] => .error (.error (.intermediateCode "no active call"))
  | call :: _ =>
    let size := call.blocks.size
    if depth = 0 ∨ size < depth then
      .error (.error (.intermediateCode s!"cannot leave {depth} blocks out of {size}"))
    else if ((call.blocks.at? (size - depth)).map (·.looping)).getD false then .ok ()
    else .error (.error (.intermediateCode s!"block {depth} levels up is not a loop"))

/-- Leaves a loop that is so many blocks up. -/
def breakLoop (depth : Nat) : MachineM Unit := do
  inspect (checkLoop depth)
  leaveBlocks depth

/-- Restarts a loop that is so many blocks up. -/
def continueLoop (depth : Nat) : MachineM Unit := do
  inspect (checkLoop depth)
  leaveBlocks (depth - 1)
  restartBlock

/-! ## Calls -/

/-- Enters a call. -/
def enterCall (location : Location) (function : String) (code : CodeBlock) : MachineM Unit := do
  let limit := (← read).limits.blocks
  let blocks ← orRaise ((BlockStack.empty limit).push (.start location code false))
  let base := (← get).operands.size
  let calls ← orRaise ((← get).calls.push ⟨location, function, blocks, base⟩)
  modify fun machine => { machine with calls }

/-- The result of a call: the top of its own operands if it returns explicitly and has some, or else
null. The reference passes to the caller. -/
def takeResult (base : Nat) (explicit : Bool) : MachineM ObjectId := do
  if explicit && base < (← get).operands.size then pop
  else
    let null := (← get).null
    onHeap (Heap.addRef null)
    return null

/-- Leaves the current call. Its operands go, and its result takes their place, unless it was the
outermost call. -/
def leaveCall (explicit : Bool) : MachineM Unit := do
  let calls := (← get).calls
  match calls.entries with
  | [] => raise (.intermediateCode "return without an active call")
  | call :: callers =>
    modify fun machine => { machine with calls := { calls with entries := callers } }
    let result ← takeResult call.base explicit
    truncate call.base
    onHeap call.blocks.releaseAll
    andFinally (if callers.isEmpty then pure () else push result call.location)
      (onHeap (Heap.release result))

end Terrain.Machine
