import Terrain.Proofs.Control.Operands

/-!
# What is left of callers

An action of a call changes the innermost call and, by entering and leaving calls, what is above others.
The calls below are left alone with one exception: an increment binds the variable of a reference, and
references reach into callers.

* `Machine.Local` — actions that work in the innermost call.
* `Machine.Rebinds` — what binding a variable does to the calls.
* `Machine.Increments` — the next tick increments a variable through a reference.
* `Machine.Spares` — the outermost calls are as they were; `Machine.spares_tick` is about every tick.
-/

namespace Terrain

/-- A call without its locals: where and for which function it was made, its base, and its blocks with
their positions. -/
def Call.bare (call : Call) : Call :=
  { call with blocks := { call.blocks with
      entries := call.blocks.entries.map fun block => { block with locals := .empty } } }

theorem Dictionary.get?_insert {α : Type} (name other : String) (value : α) :
    ∀ dictionary : Dictionary α, get? (insert name value dictionary) other =
      if other = name then some value else get? dictionary other
  | [] => get?_cons _ _ _ _
  | (first, old) :: rest => by
    unfold insert
    split
    · exact get?_cons _ _ _ _
    split
    case isTrue same =>
      rw [get?_cons, get?_cons, ← same]
      split <;> rfl
    case isFalse different =>
      rw [get?_cons, get?_cons, get?_insert name other value rest]
      split
      case isTrue same => rw [if_neg (same ▸ Ne.symm different)]
      case isFalse => rfl

/-- A query goes on only if its first part has an answer. -/
theorem Query.bind_eq_ok {α β : Type} {query : Query α} {next : α → Query β} {program : Program}
    {machine : Machine} {value : β} (run : (query >>= next) program machine = .ok value) :
    ∃ middle, query program machine = .ok middle ∧ next middle program machine = .ok value := by
  change Except.bind (query program machine) (fun middle => next middle program machine) = _ at run
  cases outcome : query program machine with
  | error failure =>
    rw [outcome] at run
    cases run
  | ok middle =>
    rw [outcome] at run
    exact ⟨middle, rfl, run⟩

namespace Machine

variable {α : Type} {program : Program} {machine after : Machine} {location : Location}

/-! ## Working in the innermost call -/

def callers (calls : CallStack) : List Call × List Nat :=
  (calls.entries.tail, calls.entries.map (·.base))

theorem callers_setTopBlocks (calls : CallStack) (blocks : BlockStack) :
    callers (calls.setTopBlocks blocks) = callers calls := by
  unfold callers CallStack.setTopBlocks
  cases entries : calls.entries <;> simp [entries]

theorem callers_setTopBlock (calls : CallStack) (block : Block) :
    callers (calls.setTopBlock block) = callers calls := by
  unfold callers CallStack.setTopBlock
  cases entries : calls.entries <;> simp [entries]

/-- An action that ends has worked in the innermost call only. -/
abbrev Local (action : MachineM α) : Prop := Keeps (fun _ calls _ => callers calls) action

theorem callers_of_local {action : MachineM α} {value : α} (stays : Local action)
    (run : action program machine = .ok value after) : callers after.calls = callers machine.calls :=
  stays _ _ _ _ run

/-- Other blocks for the innermost call. -/
theorem local_changeBlocks (change : Call → MachineM BlockStack) (error : Error) : Local (do
    let calls := (← get).calls
    match calls.entries with
    | [] => raise error
    | call :: _ =>
      let blocks ← change call
      modify fun machine => { machine with calls := calls.setTopBlocks blocks }) := by
  intro program machine value after run
  obtain ⟨_, _, read, run⟩ := run_bind_eq_ok run
  cases read
  dsimp only at run
  cases entries : machine.calls.entries with
  | nil =>
    rw [entries] at run
    cases run
  | cons call rest =>
    rw [entries] at run
    obtain ⟨blocks, between, -, run⟩ := run_bind_eq_ok run
    cases run
    exact callers_setTopBlocks _ _

theorem local_enterBlock (location : Location) (code : CodeBlock) (looping : Bool) :
    Local (enterBlock location code looping) :=
  local_changeBlocks (fun call => orRaise (call.blocks.push (.start location code looping))) _

theorem local_leaveBlock : Local leaveBlock :=
  local_changeBlocks (fun call => onHeap call.blocks.pop) _

theorem local_leaveBlocks : ∀ count, Local (leaveBlocks count)
  | 0 => keeps_pure ()
  | count + 1 => local_leaveBlock.bind fun _ => local_leaveBlocks count

theorem local_restartBlock : Local restartBlock := by
  intro program machine value after run
  obtain ⟨_, _, read, run⟩ := run_bind_eq_ok run
  cases read
  dsimp only at run
  cases top : machine.calls.topBlock? with
  | none =>
    rw [top] at run
    cases run
    rfl
  | some block =>
    rw [top] at run
    obtain ⟨restarted, between, -, run⟩ := run_bind_eq_ok run
    cases run
    exact callers_setTopBlock _ _

theorem local_declareLocal (location : Location) (name : String) (isConst : Bool) :
    Local (declareLocal location name isConst) := by
  refine Keeps.bind keeps_pop fun value => ?_
  intro program machine _ after run
  obtain ⟨_, _, read, run⟩ := run_bind_eq_ok run
  cases read
  dsimp only at run
  cases top : machine.calls.topBlock? with
  | none =>
    rw [top] at run
    obtain ⟨_, _, -, run⟩ := run_bind_eq_ok run
    cases run
  | some block =>
    rw [top] at run
    obtain ⟨declared, between, -, run⟩ := run_bind_eq_ok run
    cases declared with
    | none =>
      obtain ⟨_, _, -, run⟩ := run_bind_eq_ok run
      cases run
    | some locals =>
      obtain ⟨_, _, changed, run⟩ := run_bind_eq_ok run
      cases changed
      exact (callers_of_local (keeps_onHeap _) run).trans (callers_setTopBlock _ _)

/-! ## Variables -/

theorem binding?_of_query {target : Target} {binding : Binding}
    (known : Query.binding target program machine = .ok binding) :
    machine.binding? target = some binding := by
  unfold Query.binding at known
  split at known
  case h_1 found =>
    cases known
    exact found
  case h_2 => cases known

theorem exists_of_scope? {height index : Nat} {name : String} {scope : Bindings}
    (found : machine.scope? (.inBlock height index name) = some scope) :
    ∃ call block, machine.calls.at? height = some call ∧ call.blocks.at? index = some block ∧
      block.locals = scope := by
  obtain ⟨call, inCalls, found⟩ := Option.bind_eq_some_iff.1 found
  obtain ⟨block, inBlocks, found⟩ := Option.bind_eq_some_iff.1 found
  exact ⟨call, block, inCalls, inBlocks, Option.some.inj found⟩

/-- The name of a target is bound to another object and all other names are bound as before; a global
name is in no block. -/
def Rebinds : Target → CallStack → CallStack → Prop
  | .global _, before, after => after = before
  | .inBlock height index name, before, after => ∃ call block bindings binding value,
      before.at? height = some call ∧ call.blocks.at? index = some block ∧
      block.locals.get? name = some binding ∧
      (∀ other, bindings.get? other =
        if other = name then some { binding with value } else block.locals.get? other) ∧
      after = before.setAt height
        { call with blocks := call.blocks.setAt index { block with locals := bindings } }

theorem rebind?_eq_some {scope bindings : Bindings} {binding : Binding} {name : String}
    {value : ObjectId} {heap left : Heap} (known : scope.get? name = some binding)
    (run : scope.rebind? name binding value heap = .ok (some bindings) left) (other : String) :
    bindings.get? other = if other = name then some { binding with value } else scope.get? other := by
  unfold Bindings.rebind? at run
  split at run
  · cases run
  split at run
  case isTrue same =>
    cases run
    subst same
    split
    case isTrue named => exact named ▸ known
    case isFalse => rfl
  case isFalse =>
    obtain ⟨_, _, -, run⟩ := bind_eq_ok run
    obtain ⟨_, _, -, run⟩ := bind_eq_ok run
    cases run
    exact Dictionary.get?_insert _ _ _ _

theorem rebinds_of_assign {target : Target} {value : ObjectId}
    (run : assign target value location program machine = .ok () after) :
    Rebinds target machine.calls after.calls := by
  obtain ⟨binding, known, run⟩ := inspect_bind_eq_ok run
  obtain ⟨_, _, read, run⟩ := run_bind_eq_ok run
  cases read
  obtain ⟨rebound, heap, rebinds, run⟩ := onHeap_bind_eq_ok run
  cases rebound with
  | none => cases run
  | some bindings =>
    cases run
    cases target with
    | global name => rfl
    | inBlock height index name =>
      -- the variable exists, so there are a call and a block it is in
      obtain ⟨scope, found, bound⟩ := binding?_eq_some (binding?_of_query known)
      obtain ⟨call, block, inCalls, inBlocks, rfl⟩ := exists_of_scope? found
      rw [found] at rebinds
      refine ⟨call, block, bindings, binding, value, inCalls, inBlocks, bound, ?_, ?_⟩
      · exact rebind?_eq_some bound rebinds
      · simp only [setScope, inCalls, inBlocks]

theorem targetIn?_eq_some {height : Nat} {name : String} {target : Target} :
    ∀ {blocks : List Block}, targetIn? height name blocks = some target →
      ∃ block, target = .inBlock height block name
  | [], found => by cases found
  | block :: outer, found => by
    unfold targetIn? at found
    split at found
    · cases found
      exact ⟨_, rfl⟩
    · exact targetIn?_eq_some found

/-- A name never means a variable of a caller. -/
theorem target?_eq_some {name : String} {target : Target} (found : machine.target? name = some target) :
    target = .global name ∨ ∃ index, target = .inBlock (machine.calls.size - 1) index name := by
  unfold target? at found
  rcases (Option.orElse_eq_some _ _ _).1 found with inCall | ⟨-, isGlobal⟩
  · obtain ⟨call, -, found⟩ := Option.bind_eq_some_iff.1 inCall
    exact .inr (targetIn?_eq_some found)
  · split at isGlobal
    · exact .inl (Option.some.inj isGlobal).symm
    · cases isGlobal

/-- Rebinding in the innermost call. -/
theorem Rebinds.callers {index : Nat} {name : String} {before after : CallStack}
    (rebinds : Rebinds (.inBlock (before.size - 1) index name) before after) :
    callers after = callers before := by
  obtain ⟨call, block, bindings, binding, value, inCalls, inBlocks, -, -, rfl⟩ := rebinds
  obtain ⟨entries, limit⟩ := before
  cases entries with
  | nil => cases inCalls
  | cons first rest =>
    obtain rfl : first = call := by simpa [CallStack.at?, CallStack.size] using inCalls
    simp [Machine.callers, CallStack.setAt, CallStack.size]

theorem rebinds_of_storeVariable {name : String}
    (run : execute location (.storeVariable name) program machine = .ok () after) :
    ∃ target, machine.target? name = some target ∧ Rebinds target machine.calls after.calls := by
  obtain ⟨_, _, read, run⟩ := run_bind_eq_ok run
  cases read
  obtain ⟨top, -, run⟩ := orRaise_bind_eq_ok run
  obtain ⟨target, found, run⟩ := inspect_bind_eq_ok run
  refine ⟨target, ?_, rebinds_of_assign run⟩
  unfold Query.target at found
  split at found
  case h_1 known =>
    cases found
    exact known
  case h_2 => cases found

theorem local_storeVariable (name : String) : Local (execute location (.storeVariable name)) := by
  intro program machine value after run
  obtain ⟨target, known, rebinds⟩ := rebinds_of_storeVariable run
  rcases target?_eq_some known with rfl | ⟨index, rfl⟩
  · exact congrArg callers rebinds
  · exact rebinds.callers

/-! ## Calls -/

theorem declare?_eq_some {bindings declared : Bindings} {name : String} {value : ObjectId}
    {isConst : Bool} {heap left : Heap}
    (run : bindings.declare? name value isConst heap = .ok (some declared) left) :
    bindings.get? name = none ∧ declared = bindings.insert name ⟨value, isConst⟩ := by
  unfold Bindings.declare? at run
  split at run
  case isTrue => cases run
  case isFalse free =>
    obtain ⟨_, _, -, run⟩ := bind_eq_ok run
    cases run
    exact ⟨by simpa [Bindings.contains] using free, rfl⟩

/-- Parameters are bound in the only block of the innermost call. -/
theorem bindParameters_eq_ok {function : String} {parameters : List (String × ObjectId)}
    {block : Block} {call : Call} {rest : List Call} (entries : machine.calls.entries = call :: rest)
    (single : call.blocks.entries = [block])
    (run : bindParameters function block parameters program machine = .ok () after) :
    ∃ frame final, after.calls.entries = frame :: rest ∧ frame.base = call.base ∧
      frame.blocks.entries = [final] ∧ ∀ name, final.locals.get? name ≠ none →
        block.locals.get? name ≠ none ∨ name ∈ parameters.map (·.1) := by
  -- the block that is carried along is the one on top of the stack
  induction parameters generalizing machine block call with
  | nil =>
    cases run
    exact ⟨call, block, entries, rfl, single, fun name bound => .inl bound⟩
  | cons first others ih =>
    obtain ⟨parameter, argument⟩ := first
    obtain ⟨declared, heap, declares, run⟩ := onHeap_bind_eq_ok run
    cases declared with
    | none => cases run
    | some locals =>
      obtain ⟨-, rfl⟩ := declare?_eq_some declares
      obtain ⟨_, _, changed, run⟩ := run_bind_eq_ok run
      cases changed
      obtain ⟨frame, final, entries, base, single, names⟩ := ih
        (by simp only [CallStack.setTopBlock, entries]; rfl)
        (by simp only [BlockStack.setTop, single]; rfl) run
      refine ⟨frame, final, entries, base, single, fun name bound => ?_⟩
      refine (names name bound).elim (fun bound => ?_) fun member => .inr (.tail _ member)
      rw [Bindings.get?, Bindings.insert, Dictionary.get?_insert] at bound
      split at bound
      case isTrue same => exact .inr (same ▸ .head _)
      case isFalse => exact .inl bound

theorem enterCall_eq_ok {function : String} {code : CodeBlock}
    (run : enterCall location function code program machine = .ok () after) :
    ∃ limit, after.calls.entries =
      ⟨location, function, ⟨[.start location code false], limit⟩, machine.operands.size⟩ ::
        machine.calls.entries := by
  obtain ⟨_, _, read, run⟩ := run_bind_eq_ok run
  cases read
  obtain ⟨blocks, opened, run⟩ := orRaise_bind_eq_ok run
  obtain ⟨_, _, read, run⟩ := run_bind_eq_ok run
  cases read
  obtain ⟨_, _, read, run⟩ := run_bind_eq_ok run
  cases read
  obtain ⟨calls, pushed, run⟩ := orRaise_bind_eq_ok run
  cases run
  unfold BlockStack.push at opened
  split at opened
  case isTrue => cases opened
  case isFalse =>
    cases opened
    unfold CallStack.push at pushed
    split at pushed
    case isTrue => cases pushed
    case isFalse =>
      cases pushed
      exact ⟨_, rfl⟩

/-- A script function is entered above the current call, and its parameters are its locals. -/
theorem callFunction_eq_ok {name : String} {function : ScriptFunction} {arguments : List ObjectId}
    (run : callFunction location name function arguments program machine = .ok () after) :
    ∃ frame block, after.calls.entries = frame :: machine.calls.entries ∧
      frame.base = machine.operands.size ∧ frame.blocks.entries = [block] ∧
      ∀ name, block.locals.get? name ≠ none → name ∈ function.parameters := by
  unfold callFunction at run
  dsimp only at run
  split at run
  · obtain ⟨_, _, raised, -⟩ := run_bind_eq_ok run
    cases raised
  · obtain ⟨_, between, entered, run⟩ := run_bind_eq_ok run
    obtain ⟨limit, entries⟩ := enterCall_eq_ok entered
    obtain ⟨frame, block, entries, base, single, names⟩ := bindParameters_eq_ok entries rfl run
    refine ⟨frame, block, entries, base, single, fun name bound => ?_⟩
    rcases names name bound with start | member
    · exact absurd rfl start
    · obtain ⟨⟨_, _⟩, paired, rfl⟩ := List.mem_map.1 member
      exact (List.of_mem_zip paired).1

/-! ## Increments -/

/-- The reference an increment is applied to. -/
theorem incrementOperand_eq_ok {delta : Float} {call : NativeCall} {target : Target} {old new : Float}
    (looked : Native.incrementOperand delta call program machine = .ok (target, old, new)) :
    ∃ reference, call.arguments = [reference] ∧
      machine.heap.value? reference = some (.reference target) := by
  obtain ⟨_, expected, looked⟩ := Query.bind_eq_ok looked
  obtain ⟨value, found, looked⟩ := Query.bind_eq_ok looked
  obtain ⟨reference, first, found⟩ := Query.bind_eq_ok found
  -- one argument is expected and the first is looked at
  have single : call.arguments = [reference] := by
    unfold NativeCall.expect at expected
    split at expected
    case isFalse => cases expected
    case isTrue one =>
      obtain ⟨only, shape⟩ := List.length_eq_one_iff.1 (Nat.le_antisymm one.2 one.1)
      unfold NativeCall.object at first
      simp only [shape, List.getElem?_cons_zero] at first
      cases first
      exact shape
  have stored : machine.heap.value? reference = some value := by
    unfold Query.value at found
    unfold Heap.value?
    split at found
    case h_1 cell known =>
      cases found
      rw [known]
      rfl
    case h_2 => cases found
  refine ⟨reference, single, stored.trans ?_⟩
  cases value with
  | reference other =>
    obtain ⟨binding, -, looked⟩ := Query.bind_eq_ok looked
    obtain ⟨number, -, looked⟩ := Query.bind_eq_ok looked
    cases number with
    | number value =>
      obtain ⟨_, -, looked⟩ := Query.bind_eq_ok looked
      cases looked
      rfl
    | _ => cases looked
  | _ => cases looked

/-- An increment binds the variable of its reference to a new object. -/
theorem increment_eq_ok {delta : Float} {answersNew : Bool} {call : NativeCall} {id : ObjectId}
    (run : Native.increment delta answersNew call program machine = .ok id after) :
    ∃ reference target value heap between left, call.arguments = [reference] ∧
      machine.heap.value? reference = some (.reference target) ∧
      assign target value call.location program { machine with heap } = .ok () between ∧
      after = { between with heap := left } := by
  obtain ⟨⟨target, old, new⟩, looked, run⟩ := inspect_bind_eq_ok run
  obtain ⟨reference, single, stored⟩ := incrementOperand_eq_ok looked
  obtain ⟨number, registered, -, run⟩ := onHeap_bind_eq_ok run
  obtain ⟨_, counted, -, run⟩ := onHeap_bind_eq_ok run
  obtain ⟨_, between, both, run⟩ := run_bind_eq_ok run
  obtain ⟨bound, assigned, released⟩ := andFinally_eq_ok both
  obtain ⟨_, -, rfl⟩ := onHeap_eq_ok run
  obtain ⟨_, -, rfl⟩ := onHeap_eq_ok released
  exact ⟨reference, target, number, counted, bound, _, single, stored, assigned, rfl⟩

theorem callGlobal_of_increments {call : NativeCall} (increments : call.name ∈ Native.increments) :
    ∃ delta answersNew, Native.callGlobal call = Native.increment delta answersNew call := by
  unfold Native.callGlobal Native.operator? Native.valueOperator?
  simp only [Native.increments, List.mem_cons, List.not_mem_nil, or_false] at increments
  rcases increments with name | name | name | name <;> simp only [name] <;> exact ⟨_, _, rfl⟩

/-- Of the native functions only increments touch the calls. -/
theorem calls_of_callGlobal {call : NativeCall} {id : ObjectId}
    (run : Native.callGlobal call program machine = .ok id after) :
    after.calls = machine.calls ∨ call.name ∈ Native.increments ∧ ∃ reference target,
      call.arguments = [reference] ∧ machine.heap.value? reference = some (.reference target) ∧
      Rebinds target machine.calls after.calls := by
  by_cases binds : call.name ∈ Native.increments
  case neg =>
    have kept : Keeps (fun _ calls _ => calls) (Native.callGlobal call) :=
      Native.keeps_callGlobal fun named => absurd named binds
    exact .inl (kept _ _ _ _ run)
  case pos =>
    obtain ⟨delta, answersNew, same⟩ := callGlobal_of_increments binds
    rw [same] at run
    obtain ⟨reference, target, _, _, _, _, single, stored, assigned, rfl⟩ := increment_eq_ok run
    have rebinds := rebinds_of_assign assigned
    exact .inr ⟨binds, reference, target, single, stored, rebinds⟩

/-! ## Operations -/

/-- The next tick increments a variable through a reference. -/
def Increments (program : Program) (machine : Machine) (target : Target) : Prop :=
  ∃ location name count reference, machine.pending? = some (location, .callGlobal name count) ∧
    name ∈ Native.increments ∧ program.script.functions.get? name = none ∧
    machine.operands.items.head? = some reference ∧
    machine.heap.value? reference = some (.reference target)

/-- Giving back the arguments of a native call and what it has handed over. -/
theorem giveBack_eq_ok {arguments : List ObjectId}
    (run : (do
      onHeap (Heap.releaseAll arguments)
      let pending := (← get).pending
      modify fun machine => { machine with pending := [] }
      onHeap (Heap.releaseAll pending) : MachineM Unit) program machine = .ok () after) :
    ∃ heap, after = { machine with heap, pending := [] } := by
  obtain ⟨_, _, -, run⟩ := onHeap_bind_eq_ok run
  obtain ⟨_, _, read, run⟩ := run_bind_eq_ok run
  cases read
  obtain ⟨_, _, changed, run⟩ := run_bind_eq_ok run
  cases changed
  obtain ⟨heap, -, rfl⟩ := onHeap_eq_ok run
  exact ⟨heap, rfl⟩

/-- After a native function only the operands and the heap change. -/
theorem finishNative_eq_ok {native : MachineM ObjectId} {arguments : List ObjectId}
    (run : finishNative native arguments location program machine = .ok () after) :
    ∃ id between heap operands, native program machine = .ok id between ∧
      after = { between with heap, operands, pending := [] } := by
  obtain ⟨pushed, first, last⟩ := andFinally_eq_ok run
  obtain ⟨id, between, called, push⟩ := run_bind_eq_ok first
  obtain ⟨_, -, rfl⟩ := push_eq_ok (onError_eq_ok push)
  obtain ⟨_, rfl⟩ := giveBack_eq_ok last
  exact ⟨id, between, _, _, called, rfl⟩

/-- A global call works in the innermost call, enters another one, or increments a variable. -/
theorem calls_of_callGlobal_eq_ok {name : String} {count : Nat}
    (run : callGlobal location name count program machine = .ok () after) :
    (∃ function frame block, program.script.functions.get? name = some function ∧
        after.calls.entries = frame :: machine.calls.entries ∧ frame.blocks.entries = [block] ∧
        (∀ parameter, block.locals.get? parameter ≠ none → parameter ∈ function.parameters) ∧
        frame.base = after.operands.size ∧
        after.operands.items = machine.operands.items.drop count) ∨
      program.script.functions.get? name = none ∧
      (after.calls = machine.calls ∨ name ∈ Native.increments ∧ ∃ reference target,
        machine.operands.items.head? = some reference ∧
        machine.heap.value? reference = some (.reference target) ∧
        Rebinds target machine.calls after.calls) := by
  obtain ⟨arguments, taken, take, run⟩ := run_bind_eq_ok run
  obtain ⟨listed, enough, rfl⟩ := take_eq_ok take
  obtain ⟨_, _, read, run⟩ := run_bind_eq_ok run
  cases read
  cases known : program.script.functions.get? name with
  | some function =>
    rw [known] at run
    obtain ⟨entered, called, released⟩ := andFinally_eq_ok run
    obtain ⟨_, -, rfl⟩ := onHeap_eq_ok released
    obtain ⟨frame, block, entries, base, single, names⟩ := callFunction_eq_ok called
    have kept : Keeps (fun operands _ _ => operands)
      (callFunction location name function arguments) := keeps_callFunction _ _ _ _
    have operands := kept _ _ _ _ called
    refine .inl ⟨function, frame, block, rfl, entries, single, names, base.trans ?_, ?_⟩
    · exact congrArg OperandStack.size operands.symm
    · exact congrArg OperandStack.items operands
  | none =>
    rw [known] at run
    obtain ⟨id, between, _, _, called, rfl⟩ := finishNative_eq_ok run
    refine .inr ⟨rfl, ?_⟩
    refine (calls_of_callGlobal called).imp_right ?_
    rintro ⟨named, reference, target, single, stored, rebinds⟩
    refine ⟨named, reference, target, ?_, stored, rebinds⟩
    -- the only argument is the operand on top
    have shape := List.reverse_eq_iff.1 (listed.symm.trans single)
    have first := congrArg List.head? shape
    rw [List.head?_take] at first
    split at first
    · cases first
    · exact first

theorem local_execute {operation : Operation} (stays : operation ≠ .returnCall)
    (native : ∀ name count, operation ≠ .callGlobal name count) (location : Location) :
    Local (execute location operation) := by
  by_cases plain : operation.isPlain
  case pos => exact keeps_execute plain location
  cases operation with
  | storeVariable name => exact local_storeVariable name
  | declareLocal name isConst => exact local_declareLocal _ _ _
  | callGlobal name count => exact absurd rfl (native name count)
  | ifElse thenBranch elseBranch =>
    exact Keeps.bind (keeps_popCondition _) fun _ => local_enterBlock _ _ _
  | loop body => exact local_enterBlock _ _ _
  | block body => exact local_enterBlock _ _ _
  | breakLoop depth => exact Keeps.bind (keeps_inspect _) fun _ => local_leaveBlocks depth
  | continueLoop depth =>
    exact Keeps.bind (keeps_inspect _) fun _ => (local_leaveBlocks _).bind fun _ => local_restartBlock
  | returnCall => exact absurd rfl stays
  | _ => exact absurd rfl plain

/-! ## Callers -/

/-- The outermost calls of a machine are as they were, but for their locals; variables in them are
bound as they were, but for some. The call above them keeps its base. -/
structure Spares (depth : Nat) (rebound : Target → Prop) (before after : Machine) : Prop where
  bases : (after.calls.entries.map (·.base)).rtake (depth + 1) =
    (before.calls.entries.map (·.base)).rtake (depth + 1)
  frames : (after.calls.entries.map Call.bare).rtake depth =
    (before.calls.entries.map Call.bare).rtake depth
  bindings : ∀ height index name, height < depth → ¬rebound (.inBlock height index name) →
    after.binding? (.inBlock height index name) = before.binding? (.inBlock height index name)

variable {depth : Nat} {rebound : Target → Prop}

theorem Spares.mono {more : Target → Prop} (spares : Spares depth rebound machine after)
    (named : ∀ target, rebound target → more target) : Spares depth more machine after :=
  { spares with bindings := fun height index name low kept =>
      spares.bindings height index name low fun bound => kept (named _ bound) }

theorem Spares.trans {between : Machine} (first : Spares depth rebound machine between)
    (second : Spares depth rebound between after) : Spares depth rebound machine after where
  bases := second.bases.trans first.bases
  frames := second.frames.trans first.frames
  bindings height index name low kept :=
    (second.bindings height index name low kept).trans (first.bindings height index name low kept)

theorem rtake_map {α β : Type} (view : α → β) (items : List α) (count : Nat) :
    (items.map view).rtake count = (items.rtake count).map view := by
  simp [List.rtake, List.map_drop]

theorem getElem?_reverse_eq {α : Type} {items others : List α} {index count : Nat}
    (same : items.rtake count = others.rtake count) (low : index < count) :
    items.reverse[index]? = others.reverse[index]? := by
  rw [List.rtake_eq_reverse_take_reverse, List.rtake_eq_reverse_take_reverse,
    List.reverse_inj] at same
  rw [← List.getElem?_take_of_lt low, same, List.getElem?_take_of_lt low]

theorem binding?_of_rtake {height index : Nat} {name : String}
    (same : after.calls.entries.rtake depth = machine.calls.entries.rtake depth)
    (low : height < depth) :
    after.binding? (.inBlock height index name) = machine.binding? (.inBlock height index name) := by
  simp only [binding?, scope?, CallStack.at?, getElem?_reverse_eq same low]

/-- Calls that are the same are bound the same. -/
theorem Spares.of_rtake
    (bases : (after.calls.entries.map (·.base)).rtake (depth + 1) =
      (machine.calls.entries.map (·.base)).rtake (depth + 1))
    (same : after.calls.entries.rtake depth = machine.calls.entries.rtake depth) :
    Spares depth rebound machine after where
  bases := bases
  frames := by rw [rtake_map, rtake_map, same]
  bindings height index name low _ := binding?_of_rtake same low

theorem rtake_of_tail_eq {α : Type} {items others : List α} (tails : items.tail = others.tail)
    (sizes : items.length = others.length) (low : depth < others.length) :
    items.rtake depth = others.rtake depth := by
  cases items with
  | nil => simp [← sizes] at low
  | cons item rest =>
    have shape : item :: rest = [item] ++ others.drop 1 := by
      rw [List.drop_one, ← tails]
      rfl
    rw [shape]
    exact rtake_exchange [item] (Nat.le_sub_one_of_lt low)

theorem Spares.of_callers (same : callers after.calls = callers machine.calls)
    (low : depth < machine.calls.size) : Spares depth rebound machine after := by
  obtain ⟨tails, bases⟩ := Prod.mk.inj same
  refine .of_rtake (by rw [bases]) (rtake_of_tail_eq tails ?_ low)
  simpa using congrArg List.length bases

theorem getElem?_setFromEnd {α : Type} {items : List α} {height other : Nat} {old new : α}
    (found : items.reverse[height]? = some old) :
    (items.reverse.set height new).reverse.reverse[other]? =
      if height = other then some new else items.reverse[other]? := by
  rw [List.reverse_reverse, List.getElem?_set]
  split
  · rw [if_pos (List.getElem?_eq_some_iff.1 found).1]
  · rfl

theorem bare_setAt {call : Call} {block : Block} {index : Nat} {locals : Bindings}
    (found : call.blocks.at? index = some block) :
    Call.bare { call with blocks := call.blocks.setAt index { block with locals } } = call.bare := by
  have same := @map_setFromEnd _ _ (fun block : Block => { block with locals := .empty }) _ _ _
    { block with locals } found rfl
  simp only [Call.bare, BlockStack.setAt, same]

/-- Binding a variable anew leaves all others as they are. -/
theorem Rebinds.binding? {target : Target} (rebinds : Rebinds target machine.calls after.calls)
    (height index : Nat) (name : String) :
    ∃ value, after.binding? (.inBlock height index name) =
      if target = .inBlock height index name then
        (machine.binding? (.inBlock height index name)).map ({ · with value })
      else machine.binding? (.inBlock height index name) := by
  cases target with
  | global =>
    have same : after.calls = machine.calls := rebinds
    refine ⟨0, ?_⟩
    rw [if_neg nofun]
    simp only [Machine.binding?, scope?, same, Target.name]
  | inBlock callHeight blockHeight bound =>
    obtain ⟨call, block, bindings, binding, value, inCalls, inBlocks, known, names, same⟩ := rebinds
    refine ⟨value, ?_⟩
    simp only [Machine.binding?, scope?, Target.name, same, CallStack.at?, CallStack.setAt,
      Target.inBlock.injEq]
    -- a place differs in the call, in the block or in the name
    rw [getElem?_setFromEnd inCalls]
    by_cases sameCall : callHeight = height
    case neg => simp only [sameCall, false_and, ↓reduceIte]
    subst sameCall
    rw [show machine.calls.entries.reverse[callHeight]? = some call from inCalls]
    simp only [↓reduceIte, true_and, Option.bind_eq_bind, Option.bind_some, BlockStack.at?,
      BlockStack.setAt]
    rw [getElem?_setFromEnd inBlocks]
    by_cases sameBlock : blockHeight = index
    case neg => simp only [sameBlock, false_and, ↓reduceIte]
    subst sameBlock
    rw [show call.blocks.entries.reverse[blockHeight]? = some block from inBlocks]
    simp only [↓reduceIte, true_and, Option.bind_some, Option.pure_def, names]
    by_cases sameName : bound = name
    case neg => rw [if_neg (Ne.symm sameName), if_neg sameName]
    subst sameName
    rw [if_pos rfl, if_pos rfl, known]
    rfl

/-- Binding a variable anew spares all others. -/
theorem Rebinds.spares {target : Target} (rebinds : Rebinds target machine.calls after.calls)
    (named : rebound target) : Spares depth rebound machine after := by
  have bound (height index : Nat) (name : String) (kept : ¬rebound (.inBlock height index name)) :
      after.binding? (.inBlock height index name) = machine.binding? (.inBlock height index name) := by
    obtain ⟨value, bound⟩ := rebinds.binding? height index name
    rw [bound, if_neg]
    rintro rfl
    exact kept named
  cases target with
  | global name =>
    have same : after.calls = machine.calls := rebinds
    exact .of_rtake (by rw [same]) (by rw [same])
  | inBlock height index name =>
    obtain ⟨call, block, bindings, binding, value, inCalls, inBlocks, -, -, same⟩ := rebinds
    constructor
    case bases =>
      rw [same]
      exact congrArg (List.rtake · _) (map_setFromEnd inCalls rfl)
    case frames =>
      rw [same]
      exact congrArg (List.rtake · _) (map_setFromEnd inCalls (bare_setAt inBlocks))
    case bindings => exact fun height index name _ => bound height index name

/-! ## Ticks -/

theorem calls_of_leaveCall {explicit : Bool} {call : Call} {rest : List Call}
    (entries : machine.calls.entries = call :: rest)
    (run : leaveCall explicit program machine = .ok () after) :
    after.calls = { machine.calls with entries := rest } := by
  obtain ⟨_, _, read, run⟩ := run_bind_eq_ok run
  cases read
  dsimp only at run
  rw [entries] at run
  obtain ⟨_, _, changed, run⟩ := run_bind_eq_ok run
  cases changed
  have kept : Keeps (fun _ calls _ => calls) _ := keeps_leaveCall_rest call rest.isEmpty explicit
  exact kept _ _ _ _ run

/-- Calls that are entered or left above others spare them. -/
theorem Spares.of_exchange {put : List Call} {taken : Nat}
    (entries : after.calls.entries = put ++ machine.calls.entries.drop taken)
    (low : depth + 1 ≤ machine.calls.size - taken) : Spares depth rebound machine after := by
  refine .of_rtake ?_ ?_
  · rw [rtake_map, rtake_map, entries, rtake_exchange put low]
  · rw [entries, rtake_exchange put (Nat.le_of_lt low)]

/-- A nested call that is left spares the calls below it. -/
theorem Spares.of_leaveCall {explicit : Bool}
    (run : leaveCall explicit program machine = .ok () after) (low : depth < after.calls.size) :
    Spares depth rebound machine after := by
  cases entries : machine.calls.entries with
  | nil =>
    obtain ⟨_, _, read, run⟩ := run_bind_eq_ok run
    cases read
    dsimp only at run
    rw [entries] at run
    cases run
  | cons call rest =>
    have left := calls_of_leaveCall entries run
    have shape : after.calls.entries = [] ++ machine.calls.entries.drop 1 := by
      rw [left, entries]
      rfl
    refine .of_exchange shape ?_
    rw [CallStack.size, shape, List.nil_append, List.length_drop] at low
    exact low

theorem advanced_eq (machine : Machine) :
    ∃ calls, machine.advanced = { machine with calls } ∧ callers calls = callers machine.calls := by
  unfold advanced
  split
  · exact ⟨_, rfl, callers_setTopBlock _ _⟩
  · exact ⟨_, rfl, rfl⟩

theorem size_of_callers {before after : CallStack} (same : callers after = callers before) :
    after.size = before.size := by
  simpa [CallStack.size] using congrArg List.length (Prod.mk.inj same).2

/-- What an instruction spares while a call is active. -/
theorem spares_execute {operation : Operation}
    (pending : machine.pending? = some (location, operation)) (low : depth < machine.calls.size)
    (run : execute location operation program machine.advanced = .ok () after)
    (active : depth < after.calls.size) :
    Spares depth (Increments program machine) machine after := by
  obtain ⟨calls, moved, same⟩ := advanced_eq machine
  rw [moved] at run
  have first : Spares depth (Increments program machine) machine { machine with calls } :=
    .of_callers same low
  have low : depth < calls.size := by rwa [size_of_callers same]
  refine first.trans ?_
  by_cases returns : operation = .returnCall
  · subst returns
    exact .of_leaveCall run active
  by_cases calling : ∃ name count, operation = .callGlobal name count
  case neg =>
    have plain (name : String) (count : Nat) : operation ≠ .callGlobal name count :=
      fun same => calling ⟨name, count, same⟩
    exact .of_callers (callers_of_local (local_execute returns plain location) run) low
  obtain ⟨name, count, rfl⟩ := calling
  rcases calls_of_callGlobal_eq_ok run with ⟨-, frame, -, -, entries, -⟩ | ⟨native, kept | rebinds⟩
  · have shape : after.calls.entries = [frame] ++ calls.entries.drop 0 := entries
    exact .of_exchange shape low
  · exact .of_callers (congrArg callers kept) low
  · obtain ⟨named, reference, target, head, stored, rebinds⟩ := rebinds
    exact rebinds.spares ⟨location, name, count, reference, pending, named, native, head, stored⟩

/-- What one tick spares while a call is active. -/
theorem spares_tick (low : depth < machine.calls.size)
    (run : tick program machine = .ok () after) (active : depth < after.calls.size) :
    Spares depth (Increments program machine) machine after := by
  unfold tick at run
  split at run
  case h_1 location operation pending => exact spares_execute pending low run active
  case h_2 =>
    split at run
    case h_1 none => simp [CallStack.size, none] at low
    case h_2 =>
      split at run
      case h_1 => exact .of_leaveCall run active
      case h_2 =>
        split at run
        · exact .of_callers (callers_of_local local_restartBlock run) low
        · exact .of_callers (callers_of_local local_leaveBlock run) low

end Machine

end Terrain
