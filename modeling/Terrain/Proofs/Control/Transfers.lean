import Terrain.Proofs.Control.Evaluation
import Terrain.Proofs.Control.Frames

/-!
# Transfers of control

What entering and leaving blocks and calls does to the control state. Every operation that neither
opens nor jumps leaves it alone, and no operation changes the status.

* `Machine.Stands` — a ready machine and the places it has reached.
* `Machine.Stands.enterBlock`, `Machine.Stands.leaveBlock`, … — the places after a transfer.
* `Machine.keeps_execute`, `Machine.steady_execute` — the operations that transfer nothing.
* `Machine.calm_execute` — all operations keep the status.
-/

namespace Terrain

/-! ## Control of a stack of calls -/

namespace CallStack

variable {stack : CallStack} {spot : Spot} {blocks outer : List Spot} {callers : List (List Spot)}

theorem exists_of_control (shape : stack.control = blocks :: callers) :
    ∃ call rest, stack.entries = call :: rest ∧ call.blocks.spots = blocks ∧
      rest.map (fun call => call.blocks.spots) = callers :=
  List.map_eq_cons_iff.1 shape

theorem topBlock?_of_control (shape : stack.control = (spot :: outer) :: callers) :
    ∃ block, stack.topBlock? = some block ∧ block.spot = spot := by
  obtain ⟨call, rest, entries, spots, -⟩ := exists_of_control shape
  obtain ⟨block, others, inner, same, -⟩ := List.map_eq_cons_iff.1 spots
  refine ⟨block, ?_, same⟩
  simp [topBlock?, entries, BlockStack.top?, inner]

theorem control_of_topBlock? {block : Block} (top : stack.topBlock? = some block) :
    ∃ outer callers, stack.control = (block.spot :: outer) :: callers := by
  unfold topBlock? BlockStack.top? at top
  cases entries : stack.entries with
  | nil => simp [entries] at top
  | cons call rest =>
    cases inner : call.blocks.entries with
    | nil => simp [entries, inner] at top
    | cons first others =>
      obtain rfl : first = block := by simpa [entries, inner] using top
      exact ⟨others.map Block.spot, rest.map fun call => call.blocks.spots,
        by simp [control, entries, BlockStack.spots, inner]⟩

theorem control_setTopBlock (block : Block) (shape : stack.control = (spot :: outer) :: callers) :
    (stack.setTopBlock block).control = (block.spot :: outer) :: callers := by
  obtain ⟨call, rest, entries, spots, others⟩ := exists_of_control shape
  obtain ⟨first, inner, blocks, -, same⟩ := List.map_eq_cons_iff.1 spots
  simp [control, setTopBlock, entries, BlockStack.setTop, blocks, BlockStack.spots, same, ← others]

theorem control_setTopBlocks (new : BlockStack) (shape : stack.control = blocks :: callers) :
    (stack.setTopBlocks new).control = new.spots :: callers := by
  obtain ⟨call, rest, entries, -, others⟩ := exists_of_control shape
  simp [control, setTopBlocks, entries, ← others]

end CallStack

namespace Machine

variable {α γ : Type} {view : OperandStack → Status → γ} {program : Program}
  {machine after : Machine} {spot : Spot}
  {blocks outer : List Spot} {callers : List (List Spot)} {location : Location}

/-- A ready machine that has reached these places in the blocks of the innermost call, above these
calls. -/
structure Stands (machine : Machine) (blocks : List Spot) (callers : List (List Spot)) : Prop where
  ready : machine.status = .ready
  control : machine.control = blocks :: callers

theorem control_of_steady {action : MachineM α} {value : α} (steady : Steady action)
    (run : action program machine = .ok value after) : after.control = machine.control :=
  congrArg Prod.fst (steady _ _ _ _ run)

theorem Stands.steady {action : MachineM α} {value : α} (stands : machine.Stands blocks callers)
    (steady : Steady action) (run : action program machine = .ok value after) :
    after.Stands blocks callers := by
  have status : after.status = machine.status := congrArg Prod.snd (steady _ _ _ _ run)
  exact ⟨status.trans stands.ready, (control_of_steady steady run).trans stands.control⟩

theorem status_of_calm {action : MachineM α} {value : α} (calm : Calm action)
    (run : action program machine = .ok value after) : after.status = machine.status :=
  calm _ _ _ _ run

theorem Keeps.calm {action : MachineM α} (steady : Steady action) : Calm action :=
  fun program machine value after run => congrArg Prod.snd (steady program machine value after run)

/-! ## Blocks -/

theorem keeps_enterBlock (location : Location) (code : CodeBlock) (looping : Bool) :
    Keeps (fun operands _ => view operands) (enterBlock location code looping) := by
  refine keeps_get.bind fun machine => ?_
  dsimp only
  cases machine.calls.entries with
  | nil => exact keeps_raise _
  | cons call rest => exact (keeps_orRaise _).bind fun _ => keeps_modify fun _ => rfl

theorem Stands.enterBlock {code : CodeBlock} {looping : Bool}
    (stands : machine.Stands blocks callers)
    (run : enterBlock location code looping program machine = .ok () after) :
    after.Stands (⟨code, 0, looping⟩ :: blocks) callers := by
  have status := status_of_calm (keeps_enterBlock _ _ _) run
  obtain ⟨call, rest, entries, spots, -⟩ := CallStack.exists_of_control stands.control
  obtain ⟨_, _, read, run⟩ := run_bind_eq_ok run
  cases read
  dsimp only at run
  rw [entries] at run
  obtain ⟨stack, between, pushed, run⟩ := run_bind_eq_ok run
  unfold BlockStack.push at pushed
  split at pushed
  case isTrue => cases pushed
  case isFalse =>
    cases pushed
    cases run
    refine ⟨status.trans stands.ready, ?_⟩
    rw [← spots]
    exact CallStack.control_setTopBlocks _ stands.control

theorem keeps_leaveBlock : Keeps (fun operands _ => view operands) leaveBlock := by
  refine keeps_get.bind fun machine => ?_
  dsimp only
  cases machine.calls.entries with
  | nil => exact keeps_raise _
  | cons call rest => exact (keeps_onHeap _).bind fun _ => keeps_modify fun _ => rfl

/-- Popping a block gives the others. -/
theorem entries_of_pop {stack popped : BlockStack} {heap heap' : Heap} {block : Block}
    {others : List Block} (entries : stack.entries = block :: others)
    (run : stack.pop heap = .ok popped heap') : popped.entries = others := by
  unfold BlockStack.pop at run
  rw [entries] at run
  obtain ⟨_, _, -, run⟩ := bind_eq_ok run
  cases run
  rfl

theorem Stands.leaveBlock (stands : machine.Stands (spot :: blocks) callers)
    (run : leaveBlock program machine = .ok () after) : after.Stands blocks callers := by
  have status := status_of_calm keeps_leaveBlock run
  obtain ⟨call, rest, entries, spots, -⟩ := CallStack.exists_of_control stands.control
  obtain ⟨first, inner, inBlocks, -, same⟩ := List.map_eq_cons_iff.1 spots
  obtain ⟨_, _, read, run⟩ := run_bind_eq_ok run
  cases read
  dsimp only at run
  rw [entries] at run
  obtain ⟨stack, between, popped, run⟩ := run_bind_eq_ok run
  unfold onHeap at popped
  dsimp only at popped
  split at popped
  case h_2 => cases popped
  case h_1 _ _ ended =>
    cases popped
    cases run
    refine ⟨status.trans stands.ready, ?_⟩
    have control := CallStack.control_setTopBlocks stack stands.control
    rwa [BlockStack.spots, entries_of_pop inBlocks ended, same] at control

theorem keeps_leaveBlocks : ∀ count, Keeps (fun operands _ => view operands) (leaveBlocks count)
  | 0 => keeps_pure ()
  | count + 1 => keeps_leaveBlock.bind fun _ => keeps_leaveBlocks count

theorem keeps_restartBlock : Keeps (fun operands _ => view operands) restartBlock := by
  refine keeps_get.bind fun machine => ?_
  dsimp only
  cases machine.calls.topBlock? with
  | none => exact keeps_pure _
  | some block => exact (keeps_onHeap _).bind fun _ => keeps_modify fun _ => rfl

theorem spot_of_restart {block restarted : Block} {heap heap' : Heap}
    (run : block.restart heap = .ok restarted heap') :
    restarted.spot = ⟨block.spot.code, 0, block.spot.looping⟩ := by
  obtain ⟨_, _, -, run⟩ := bind_eq_ok run
  cases run
  rfl

theorem Stands.restartBlock (stands : machine.Stands (spot :: outer) callers)
    (run : restartBlock program machine = .ok () after) :
    after.Stands (⟨spot.code, 0, spot.looping⟩ :: outer) callers := by
  have status := status_of_calm keeps_restartBlock run
  obtain ⟨block, top, rfl⟩ := CallStack.topBlock?_of_control stands.control
  obtain ⟨_, _, read, run⟩ := run_bind_eq_ok run
  cases read
  dsimp only at run
  rw [top] at run
  obtain ⟨restarted, between, started, run⟩ := run_bind_eq_ok run
  unfold onHeap at started
  dsimp only at started
  split at started
  case h_2 => cases started
  case h_1 _ _ ended =>
    cases started
    cases run
    refine ⟨status.trans stands.ready, ?_⟩
    rw [← spot_of_restart ended]
    exact CallStack.control_setTopBlock restarted stands.control

theorem keeps_breakLoop (depth : Nat) :
    Keeps (fun operands _ => view operands) (breakLoop depth) :=
  (keeps_inspect _).bind fun _ => keeps_leaveBlocks depth

theorem keeps_continueLoop (depth : Nat) :
    Keeps (fun operands _ => view operands) (continueLoop depth) :=
  (keeps_inspect _).bind fun _ => (keeps_leaveBlocks _).bind fun _ => keeps_restartBlock

/-! ## Calls -/

theorem keeps_takeResult {γ : Type} {view : CallStack → Status → γ} (base : Nat) (explicit : Bool) :
    Keeps (fun _ => view) (takeResult base explicit) := by
  refine keeps_get.bind fun machine => Keeps.ite keeps_pop ?_
  exact keeps_get.bind fun _ => (keeps_onHeap _).bind fun _ => keeps_pure _

/-- What is left of leaving a call when its frame is gone. -/
theorem keeps_leaveCall_rest {γ : Type} {view : CallStack → Status → γ} (call : Call)
    (isLast : Bool) (explicit : Bool) : Keeps (fun _ => view) (do
      let result ← takeResult call.base explicit
      truncate call.base
      onHeap call.blocks.releaseAll
      andFinally (if isLast then pure () else push result call.location)
        (onHeap (Heap.release result))) :=
  (keeps_takeResult _ _).bind fun _ => (keeps_truncate _).bind fun _ => (keeps_onHeap _).bind fun _ =>
    (Keeps.ite (keeps_pure ()) (keeps_push _ _)).andFinally (keeps_onHeap _)

theorem calm_leaveCall (explicit : Bool) : Calm (leaveCall explicit) := by
  refine keeps_get.bind fun machine => ?_
  dsimp only
  cases machine.calls.entries with
  | nil => exact keeps_raise _
  | cons call callers =>
    exact Keeps.bind (keeps_modify fun _ => rfl) fun _ => keeps_leaveCall_rest call _ explicit

/-- A call that is left makes way for its caller. -/
theorem control_of_leaveCall {explicit : Bool} (shape : machine.control = blocks :: callers)
    (run : leaveCall explicit program machine = .ok () after) : after.control = callers := by
  obtain ⟨call, rest, entries, -, others⟩ := CallStack.exists_of_control shape
  obtain ⟨_, _, read, run⟩ := run_bind_eq_ok run
  cases read
  dsimp only at run
  rw [entries] at run
  obtain ⟨_, _, changed, run⟩ := run_bind_eq_ok run
  cases changed
  exact (control_of_steady (keeps_leaveCall_rest call rest.isEmpty explicit) run).trans others

theorem keeps_enterCall (location : Location) (function : String) (code : CodeBlock) :
    Keeps (fun operands _ => view operands) (enterCall location function code) :=
  keeps_read.bind fun _ => (keeps_orRaise _).bind fun _ => keeps_get.bind fun _ =>
    keeps_get.bind fun _ => (keeps_orRaise _).bind fun _ => keeps_modify fun _ => rfl

/-- A call starts with the first instruction of its only block. -/
theorem control_of_enterCall {function : String} {code : CodeBlock}
    (run : enterCall location function code program machine = .ok () after) :
    after.control = [⟨code, 0, false⟩] :: machine.control := by
  obtain ⟨_, _, read, run⟩ := run_bind_eq_ok run
  cases read
  obtain ⟨stack, _, pushed, run⟩ := run_bind_eq_ok run
  unfold BlockStack.push at pushed
  split at pushed
  case isTrue => cases pushed
  case isFalse =>
    cases pushed
    obtain ⟨_, _, read, run⟩ := run_bind_eq_ok run
    cases read
    obtain ⟨_, _, read, run⟩ := run_bind_eq_ok run
    cases read
    obtain ⟨calls, _, entered, run⟩ := run_bind_eq_ok run
    unfold CallStack.push at entered
    split at entered
    case isTrue => cases entered
    case isFalse =>
      cases entered
      cases run
      rfl

theorem keeps_bindParameters (function : String) :
    ∀ (parameters : List (String × ObjectId)) (block : Block),
      Keeps (fun operands _ => view operands) (bindParameters function block parameters)
  | [], _ => keeps_pure ()
  | (parameter, argument) :: rest, block => by
    refine (keeps_onHeap _).bind fun declared => ?_
    cases declared with
    | none => exact keeps_raise _
    | some locals =>
      exact Keeps.bind (keeps_modify fun _ => rfl) fun _ => keeps_bindParameters function rest _

/-- Parameters are bound without moving on. -/
theorem control_of_bindParameters {function : String} {parameters : List (String × ObjectId)}
    {block : Block} (shape : machine.control = (block.spot :: outer) :: callers)
    (run : bindParameters function block parameters program machine = .ok () after) :
    after.control = (block.spot :: outer) :: callers := by
  induction parameters generalizing block machine with
  | nil =>
    cases run
    exact shape
  | cons first rest ih =>
    obtain ⟨parameter, argument⟩ := first
    obtain ⟨declared, between, onHeap, run⟩ := run_bind_eq_ok run
    have shape := (control_of_steady (keeps_onHeap _) onHeap).trans shape
    cases declared with
    | none => cases run
    | some locals =>
      obtain ⟨_, _, changed, run⟩ := run_bind_eq_ok run
      cases changed
      have moved := CallStack.control_setTopBlock { block with locals } shape
      have bound : after.control = ({ block with locals }.spot :: outer) :: callers := by
        refine ih ?_ run
        exact moved
      exact bound

theorem keeps_callFunction (location : Location) (name : String) (function : ScriptFunction)
    (arguments : List ObjectId) :
    Keeps (fun operands _ => view operands) (callFunction location name function arguments) := by
  have entered : Keeps (fun operands _ => view operands) (do
      enterCall location name function.body
      bindParameters name (.start location function.body false)
        (function.parameters.zip arguments)) :=
    (keeps_enterCall _ _ _).bind fun _ => keeps_bindParameters _ _ _
  unfold callFunction
  dsimp only
  split
  · exact (keeps_raise _).bind fun _ => entered
  · exact entered

theorem control_of_callFunction {name : String} {function : ScriptFunction}
    {arguments : List ObjectId}
    (run : callFunction location name function arguments program machine = .ok () after) :
    after.control = [⟨function.body, 0, false⟩] :: machine.control := by
  unfold callFunction at run
  dsimp only at run
  split at run
  · obtain ⟨_, _, raised, -⟩ := run_bind_eq_ok run
    cases raised
  · obtain ⟨_, between, entered, run⟩ := run_bind_eq_ok run
    exact control_of_bindParameters (control_of_enterCall entered) run

theorem keeps_finishNative {γ : Type} {view : CallStack → Status → γ} {native : MachineM ObjectId}
    (kept : Keeps (fun _ => view) native) (arguments : List ObjectId) (location : Location) :
    Keeps (fun _ => view) (finishNative native arguments location) := by
  have released : Keeps (fun _ => view) (do
      onHeap (Heap.releaseAll arguments)
      let pending := (← get).pending
      modify fun machine => { machine with pending := [] }
      onHeap (Heap.releaseAll pending)) :=
    (keeps_onHeap _).bind fun _ => keeps_get.bind fun _ =>
      Keeps.bind (keeps_modify fun _ => rfl) fun _ => keeps_onHeap _
  exact (kept.bind fun _ => (keeps_push _ _).onError).andFinally released

theorem calm_callGlobal (location : Location) (name : String) (count : Nat) :
    Calm (callGlobal location name count) := by
  refine (keeps_take _).bind fun arguments => keeps_read.bind fun program => ?_
  cases program.script.functions.get? name with
  | some function => exact (keeps_callFunction _ _ _ _).andFinally (keeps_onHeap _)
  | none => exact keeps_finishNative (Keeps.calm (Native.keeps_callGlobal fun _ => steady_assign)) _ _

theorem Stands.callGlobal {name : String} {count : Nat} {function : ScriptFunction}
    (stands : machine.Stands blocks callers)
    (known : program.script.functions.get? name = some function)
    (run : callGlobal location name count program machine = .ok () after) :
    after.Stands [⟨function.body, 0, false⟩] (blocks :: callers) := by
  refine ⟨(calm_callGlobal _ _ _ _ _ _ _ run).trans stands.ready, ?_⟩
  obtain ⟨arguments, taken, take, run⟩ := run_bind_eq_ok run
  obtain ⟨_, _, read, run⟩ := run_bind_eq_ok run
  cases read
  rw [known] at run
  obtain ⟨entered, called, released⟩ := andFinally_eq_ok run
  rw [control_of_steady (keeps_onHeap _) released, control_of_callFunction called,
    control_of_steady (keeps_take _) take, stands.control]

/-! ## Operations -/

/-- A local is bound without moving on. -/
theorem steady_declareLocal (location : Location) (name : String) (isConst : Bool) :
    Steady (declareLocal location name isConst) := by
  intro program machine value after run
  obtain ⟨id, popped, pop, run⟩ := run_bind_eq_ok run
  have steady : Steady Machine.pop := keeps_pop
  refine Eq.trans ?_ (steady _ _ _ _ pop)
  obtain ⟨_, _, read, run⟩ := run_bind_eq_ok run
  cases read
  dsimp only at run
  cases top : popped.calls.topBlock? with
  | none =>
    rw [top] at run
    obtain ⟨_, _, -, run⟩ := run_bind_eq_ok run
    cases run
  | some block =>
    rw [top] at run
    obtain ⟨declared, between, declares, run⟩ := run_bind_eq_ok run
    have status := status_of_calm (keeps_onHeap _) declares
    cases declared with
    | none =>
      obtain ⟨_, _, -, run⟩ := run_bind_eq_ok run
      cases run
    | some locals =>
      obtain ⟨_, _, changed, run⟩ := run_bind_eq_ok run
      cases changed
      obtain ⟨outer, callers, shape⟩ := CallStack.control_of_topBlock? top
      have control := CallStack.control_setTopBlock { block with locals } shape
      have released : Steady (onHeap (Heap.release id)) := keeps_onHeap _
      refine (released _ _ _ _ run).trans (Prod.ext ?_ status)
      exact control.trans shape.symm

theorem keeps_popCondition {γ : Type} {view : CallStack → Status → γ} (location : Location) :
    Keeps (fun _ => view) (popCondition location) := by
  refine keeps_pop.bind fun _ => (keeps_inspect _).bind fun value => (keeps_onHeap _).bind fun _ => ?_
  cases value with
  | boolean taken => exact keeps_pure taken
  | _ => exact keeps_raise _

/-- Operations that neither transfer control nor bind locals leave all calls alone. -/
theorem keeps_execute {γ : Type} {view : CallStack → Status → γ} {operation : Operation}
    (plain : operation.isPlain) (location : Location) :
    Keeps (fun _ => view) (execute location operation) := by
  have yields (name : String) : Keeps (fun _ => view) (execute.yieldTop location name) :=
    Keeps.bind keeps_pop fun _ => (keeps_yieldObject _ _ _).andFinally (keeps_onHeap _)
  cases operation with
  | loadNumber value => exact keeps_pushNew _ _
  | loadText value => exact keeps_pushNew _ _
  | loadBoolean value => exact keeps_pushNew _ _
  | loadNull => exact Keeps.bind keeps_get fun _ => keeps_push _ _
  | loadVariable name =>
    exact Keeps.bind (keeps_inspect _) fun _ => Keeps.bind (keeps_inspect _) fun _ => keeps_push _ _
  | loadReference name => exact Keeps.bind (keeps_inspect _) fun _ => keeps_pushNew _ _
  | loadMember name =>
    refine Keeps.bind keeps_pop fun receiver => Keeps.andFinally ?_ (keeps_onHeap _)
    exact Keeps.bind ((keeps_inspect _).bind fun _ => keeps_onHeap _) fun _ => keeps_push _ _
  | declareGlobal name isConst =>
    exact Keeps.bind keeps_pop fun _ => (keeps_declareGlobal _ _ _ _).andFinally (keeps_onHeap _)
  | callMember name count =>
    refine Keeps.bind keeps_pop fun receiver => Keeps.andFinally ?_ (keeps_onHeap _)
    exact Keeps.bind (keeps_take _) fun _ => keeps_finishNative (Native.keeps_callMember _ _) _ _
  | pop => exact Keeps.bind keeps_pop fun _ => keeps_onHeap _
  | yieldNamed name => exact yields name
  | yieldMain => exact yields _
  | storeVariable | declareLocal | callGlobal | ifElse | loop | block | breakLoop | continueLoop
  | returnCall => cases plain

/-- Operations that neither open nor jump transfer nothing. -/
theorem steady_execute {operation : Operation} (staysOpen : operation.opens program.script = false)
    (stays : operation.jumps = false) (location : Location) {machine after : Machine}
    (run : execute location operation program machine = .ok () after) :
    (after.control, after.status) = (machine.control, machine.status) := by
  by_cases plain : operation.isPlain
  case pos =>
    have steady : Steady (execute location operation) := keeps_execute plain location
    exact steady _ _ _ _ run
  cases operation with
  | storeVariable name =>
    have steady : Steady (execute location (.storeVariable name)) :=
      keeps_get.bind fun _ => (keeps_orRaise _).bind fun _ => (keeps_inspect _).bind fun _ =>
        steady_assign _ _ _
    exact steady _ _ _ _ run
  | declareLocal name isConst => exact steady_declareLocal _ _ _ _ _ _ _ run
  | callGlobal name count =>
    obtain ⟨arguments, taken, take, run⟩ := run_bind_eq_ok run
    obtain ⟨_, _, read, run⟩ := run_bind_eq_ok run
    cases read
    rw [Option.isNone_iff_eq_none.1 (Option.isSome_eq_false_iff.1 staysOpen)] at run
    have takes : Steady (Machine.take count) := keeps_take count
    have steady : Steady (finishNative (Native.callGlobal ⟨location, name, arguments⟩) arguments
      location) := keeps_finishNative (Native.keeps_callGlobal fun _ => steady_assign) _ _
    exact (steady _ _ _ _ run).trans (takes _ _ _ _ take)
  | ifElse | loop | block => cases staysOpen
  | breakLoop | continueLoop | returnCall => cases stays
  | _ => exact absurd rfl plain

theorem calm_execute (location : Location) (operation : Operation) :
    Calm (execute location operation) := by
  intro program machine value after run
  cases opens : operation.opens program.script with
  | false =>
    cases jumps : operation.jumps with
    | false => exact congrArg Prod.snd (steady_execute opens jumps location run)
    | true =>
      cases operation with
      | breakLoop depth => exact status_of_calm (keeps_breakLoop depth) run
      | continueLoop depth => exact status_of_calm (keeps_continueLoop depth) run
      | returnCall => exact calm_leaveCall true _ _ _ _ run
      | _ => cases jumps
  | true =>
    cases operation with
    | ifElse thenBranch elseBranch =>
      have calm : Calm (execute location (.ifElse thenBranch elseBranch)) :=
        (keeps_popCondition _).bind fun _ => keeps_enterBlock _ _ _
      exact calm _ _ _ _ run
    | loop body => exact status_of_calm (keeps_enterBlock _ _ _) run
    | block body => exact status_of_calm (keeps_enterBlock _ _ _) run
    | callGlobal name count => exact calm_callGlobal _ _ _ _ _ _ _ run
    | _ => cases opens

/-! ## Positions -/

/-- Counting an instruction moves the innermost block on. -/
theorem Stands.advanced (stands : machine.Stands (spot :: outer) callers) :
    machine.advanced.Stands (⟨spot.code, spot.cursor + 1, spot.looping⟩ :: outer) callers := by
  obtain ⟨block, top, rfl⟩ := CallStack.topBlock?_of_control stands.control
  unfold Machine.advanced
  rw [top]
  exact ⟨stands.ready, CallStack.control_setTopBlock _ stands.control⟩

/-- Which loops can be left depends on control alone. -/
theorem checkLoop_eq_checkDepth (stands : machine.Stands blocks callers) (depth : Nat) :
    checkLoop depth program machine =
      (checkDepth (blocks.map Spot.looping) depth).mapError Failure.error := by
  obtain ⟨call, rest, entries, rfl, -⟩ := CallStack.exists_of_control stands.control
  have size : (call.blocks.spots.map Spot.looping).length = call.blocks.size := by
    simp [BlockStack.spots, BlockStack.size]
  unfold checkLoop checkDepth
  rw [entries, size]
  dsimp only
  split
  case isTrue => rfl
  case isFalse inside =>
    have atDepth : (call.blocks.at? (call.blocks.size - depth)).map (·.looping) =
        (call.blocks.spots.map Spot.looping)[depth - 1]? := by
      unfold BlockStack.at? BlockStack.size BlockStack.spots at *
      rw [List.getElem?_reverse (by omega)]
      simp only [List.map_map, List.getElem?_map]
      rw [show call.blocks.entries.length - 1 - (call.blocks.entries.length - depth) = depth - 1 by
        omega]
      rfl
    rw [atDepth]
    split
    case isTrue => rfl
    case isFalse => rfl

end Machine

end Terrain
