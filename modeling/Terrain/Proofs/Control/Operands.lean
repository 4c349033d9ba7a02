import Mathlib.Data.List.DropRight
import Terrain.Proofs.Control.Ticks
import Terrain.Proofs.Machine.References

/-!
# What operations do to the operands

An operation takes a number of operands off the stack, which can be read off the operation, and puts
others on. It does not look further down, so that what is below a height it does not reach stays there.
Leaving a call is the exception: it takes off all operands of the call.

* `Operation.takes` — how many operands an operation takes.
* `Machine.Exchanges` — an action that takes operands off and puts others on.
* `Machine.exchanges_execute` — operations that stay in their call.
* `Machine.exists_leaveCall_eq` — what leaving a call does.
-/

namespace Terrain

/-- How many operands an operation takes off the stack before it puts any on. -/
def Operation.takes : Operation → Nat
  | .callGlobal _ count => count
  | .callMember _ count => count + 1
  | .loadMember _ | .declareLocal .. | .declareGlobal .. | .pop | .ifElse .. | .yieldNamed _
  | .yieldMain => 1
  | _ => 0

/-- What is further down than an exchange at the front of a list reaches stays. -/
theorem rtake_exchange {α : Type} {items : List α} {taken height : Nat} (put : List α)
    (low : height ≤ items.length - taken) :
    (put ++ items.drop taken).rtake height = items.rtake height := by
  have above : (put ++ items.drop taken).length - height =
      put.length + (items.length - taken - height) := by
    rw [List.length_append, List.length_drop]
    omega
  rw [List.rtake, List.rtake, above, List.drop_length_add_append, List.drop_drop]
  by_cases reached : taken ≤ items.length
  case pos =>
    congr 1
    omega
  case neg =>
    -- nothing is left, and the height is zero
    rw [List.drop_eq_nil_of_le (by omega), List.drop_eq_nil_of_le (by omega)]

namespace Machine

variable {α β : Type} {taken : Nat} {program : Program} {machine after : Machine}
  {location : Location}

/-- An action that ends has taken so many operands off the stack and put others on. -/
def Exchanges (taken : Nat) (action : MachineM α) : Prop :=
  ∀ program machine value after, action program machine = .ok value after →
    ∃ put, after.operands =
      { machine.operands with items := put ++ machine.operands.items.drop taken }

/-! ## Combinators -/

theorem exchanges_of_keeps {action : MachineM α}
    (kept : Keeps (fun operands _ _ => operands) action) : Exchanges 0 action :=
  fun program machine value after run => ⟨[], kept program machine value after run⟩

theorem Exchanges.bind {action : MachineM α} {next : α → MachineM β} (first : Exchanges taken action)
    (second : ∀ value, Exchanges 0 (next value)) : Exchanges taken (action >>= next) := by
  intro program machine value after run
  obtain ⟨middle, between, started, ended⟩ := run_bind_eq_ok run
  obtain ⟨below, first⟩ := first _ _ _ _ started
  obtain ⟨above, second⟩ := second _ _ _ _ _ ended
  refine ⟨above ++ below, ?_⟩
  rw [second, first, List.drop_zero, List.append_assoc]

/-- An action that looks at the machine first. -/
theorem Exchanges.keepsBind {action : MachineM α} {next : α → MachineM β}
    (first : Keeps (fun operands _ _ => operands) action)
    (second : ∀ value, Exchanges taken (next value)) : Exchanges taken (action >>= next) := by
  intro program machine value after run
  obtain ⟨middle, between, started, ended⟩ := run_bind_eq_ok run
  have same : between.operands = machine.operands := first _ _ _ _ started
  rw [← same]
  exact second _ _ _ _ _ ended

theorem Exchanges.andFinally {action : MachineM α} {afterwards : MachineM Unit}
    (first : Exchanges taken action) (second : Keeps (fun operands _ _ => operands) afterwards) :
    Exchanges taken (andFinally action afterwards) := by
  intro program machine value after run
  obtain ⟨between, started, ended⟩ := andFinally_eq_ok run
  have same : after.operands = between.operands := second _ _ _ _ ended
  rw [same]
  exact first _ _ _ _ started

theorem Exchanges.onError {action : MachineM α} {afterwards : MachineM Unit}
    (exchanges : Exchanges taken action) : Exchanges taken (onError action afterwards) :=
  fun program machine value after run => exchanges program machine value after (onError_eq_ok run)

/-! ## Elementary actions -/

theorem push_eq_ok {id : ObjectId} (run : push id location program machine = .ok () after) :
    ∃ heap, Heap.addRef id machine.heap = .ok () heap ∧ after = { machine with
      heap, operands := { machine.operands with items := id :: machine.operands.items } } := by
  obtain ⟨_, _, read, run⟩ := run_bind_eq_ok run
  cases read
  obtain ⟨operands, heap, pushed, run⟩ := onHeap_bind_eq_ok run
  cases run
  unfold OperandStack.push at pushed
  split at pushed
  case isTrue => cases pushed
  case isFalse =>
    obtain ⟨_, _, counted, ended⟩ := bind_eq_ok pushed
    cases ended
    exact ⟨heap, counted, rfl⟩

theorem exchanges_push (id : ObjectId) (location : Location) : Exchanges 0 (push id location) := by
  intro program machine value after run
  obtain ⟨heap, -, rfl⟩ := push_eq_ok run
  exact ⟨[id], rfl⟩

theorem exchanges_pushNew (value : Value) (location : Location) :
    Exchanges 0 (pushNew value location) :=
  .keepsBind (keeps_onHeap _) fun _ => (exchanges_push _ _).onError

theorem pop_eq_ok {id : ObjectId} (run : pop program machine = .ok id after) :
    machine.operands.items = id :: after.operands.items ∧
      after = { machine with operands := { machine.operands with items := after.operands.items } } := by
  obtain ⟨_, _, read, run⟩ := run_bind_eq_ok run
  cases read
  obtain ⟨⟨top, operands⟩, popped, run⟩ := orRaise_bind_eq_ok run
  cases run
  unfold OperandStack.pop at popped
  split at popped
  case h_1 items shape =>
    cases popped
    exact ⟨shape, rfl⟩
  case h_2 => cases popped

/-- An action that pops an operand first takes one more. -/
theorem exchanges_pop_bind {next : ObjectId → MachineM β} (rest : ∀ id, Exchanges taken (next id)) :
    Exchanges (taken + 1) (pop >>= next) := by
  intro program machine value after run
  obtain ⟨id, between, popped, run⟩ := run_bind_eq_ok run
  obtain ⟨shape, same⟩ := pop_eq_ok popped
  obtain ⟨put, exchanged⟩ := rest id _ _ _ _ run
  refine ⟨put, exchanged.trans ?_⟩
  rw [same, shape, List.drop_succ_cons]

theorem take_eq_ok {count : Nat} {arguments : List ObjectId}
    (run : take count program machine = .ok arguments after) :
    arguments = (machine.operands.items.take count).reverse ∧ count ≤ machine.operands.size ∧
      after = { machine with
        operands := { machine.operands with items := machine.operands.items.drop count } } := by
  obtain ⟨_, _, read, run⟩ := run_bind_eq_ok run
  cases read
  obtain ⟨⟨ids, operands⟩, taken, run⟩ := orRaise_bind_eq_ok run
  cases run
  unfold OperandStack.take OperandStack.checkSize at taken
  split at taken
  case isTrue => cases taken
  case isFalse enough =>
    cases taken
    exact ⟨rfl, Nat.not_lt.1 enough, rfl⟩

theorem exchanges_take (count : Nat) : Exchanges count (take count) := by
  intro program machine value after run
  obtain ⟨-, -, rfl⟩ := take_eq_ok run
  exact ⟨[], rfl⟩

/-! ## Operations -/

theorem operands_setScope (machine : Machine) (bindings : Bindings) (target : Target) :
    (machine.setScope bindings target).operands = machine.operands := by
  cases target with
  | global name => rfl
  | inBlock callHeight blockHeight name =>
    unfold setScope
    dsimp only
    split
    case h_1 => rfl
    case h_2 => split <;> rfl

theorem keeps_operands_assign (target : Target) (value : ObjectId) (location : Location) :
    Keeps (fun operands _ _ => operands) (assign target value location) := by
  refine (keeps_inspect _).bind fun binding => keeps_get.bind fun _ => (keeps_onHeap _).bind ?_
  intro rebound
  cases rebound with
  | none => exact keeps_raise _
  | some bindings => exact keeps_modify fun machine => operands_setScope machine bindings target

theorem exchanges_finishNative {native : MachineM ObjectId}
    (kept : Keeps (fun operands _ _ => operands) native) (arguments : List ObjectId)
    (location : Location) : Exchanges 0 (finishNative native arguments location) := by
  refine Exchanges.andFinally (.keepsBind kept fun _ => (exchanges_push _ _).onError) ?_
  exact (keeps_onHeap _).bind fun _ => keeps_get.bind fun _ =>
    Keeps.bind (keeps_modify fun _ => rfl) fun _ => keeps_onHeap _

theorem exchanges_callGlobal (location : Location) (name : String) (count : Nat) :
    Exchanges count (callGlobal location name count) := by
  refine (exchanges_take count).bind fun arguments => .keepsBind keeps_read fun program => ?_
  cases program.script.functions.get? name with
  | some function =>
    exact Exchanges.andFinally (exchanges_of_keeps (keeps_callFunction _ _ _ _)) (keeps_onHeap _)
  | none =>
    exact exchanges_finishNative (Native.keeps_callGlobal fun _ => keeps_operands_assign) _ _

theorem exchanges_declareLocal (location : Location) (name : String) (isConst : Bool) :
    Exchanges 1 (declareLocal location name isConst) := by
  refine exchanges_pop_bind fun value => exchanges_of_keeps (keeps_get.bind fun machine => ?_)
  dsimp only
  cases machine.calls.topBlock? with
  | none => exact (keeps_onHeap _).bind fun _ => keeps_raise _
  | some block =>
    refine (keeps_onHeap _).bind fun declared => ?_
    cases declared with
    | none => exact (keeps_onHeap _).bind fun _ => keeps_raise _
    | some locals => exact Keeps.bind (keeps_modify fun _ => rfl) fun _ => keeps_onHeap _

/-- Every operation that does not leave its call exchanges operands. -/
theorem exchanges_execute {operation : Operation} (stays : operation ≠ .returnCall)
    (location : Location) : Exchanges operation.takes (execute location operation) := by
  have yields (name : String) : Exchanges 1 (execute.yieldTop location name) :=
    exchanges_pop_bind fun _ =>
      Exchanges.andFinally (exchanges_of_keeps (keeps_yieldObject _ _ _)) (keeps_onHeap _)
  cases operation with
  | loadNumber value => exact exchanges_pushNew _ _
  | loadText value => exact exchanges_pushNew _ _
  | loadBoolean value => exact exchanges_pushNew _ _
  | loadNull => exact .keepsBind keeps_get fun _ => exchanges_push _ _
  | loadVariable name =>
    exact .keepsBind (keeps_inspect _) fun _ => .keepsBind (keeps_inspect _) fun _ =>
      exchanges_push _ _
  | loadReference name => exact .keepsBind (keeps_inspect _) fun _ => exchanges_pushNew _ _
  | loadMember name =>
    refine exchanges_pop_bind fun receiver => Exchanges.andFinally ?_ (keeps_onHeap _)
    exact .keepsBind ((keeps_inspect _).bind fun _ => keeps_onHeap _) fun _ => exchanges_push _ _
  | storeVariable name =>
    exact exchanges_of_keeps (keeps_get.bind fun _ => (keeps_orRaise _).bind fun _ =>
      (keeps_inspect _).bind fun _ => keeps_operands_assign _ _ _)
  | declareLocal name isConst => exact exchanges_declareLocal _ _ _
  | declareGlobal name isConst =>
    exact exchanges_pop_bind fun _ =>
      Exchanges.andFinally (exchanges_of_keeps (keeps_declareGlobal _ _ _ _)) (keeps_onHeap _)
  | callGlobal name count => exact exchanges_callGlobal _ _ _
  | callMember name count =>
    refine exchanges_pop_bind fun receiver => Exchanges.andFinally ?_ (keeps_onHeap _)
    exact (exchanges_take count).bind fun _ => exchanges_finishNative (Native.keeps_callMember _ _) _ _
  | pop => exact exchanges_pop_bind fun _ => exchanges_of_keeps (keeps_onHeap _)
  | ifElse thenBranch elseBranch =>
    refine Exchanges.bind (exchanges_pop_bind fun condition => exchanges_of_keeps ?_) fun _ =>
      exchanges_of_keeps (keeps_enterBlock _ _ _)
    refine (keeps_inspect _).bind fun value => (keeps_onHeap _).bind fun _ => ?_
    cases value with
    | boolean taken => exact keeps_pure taken
    | _ => exact keeps_raise _
  | loop body => exact exchanges_of_keeps (keeps_enterBlock _ _ _)
  | block body => exact exchanges_of_keeps (keeps_enterBlock _ _ _)
  | breakLoop depth => exact exchanges_of_keeps (keeps_breakLoop depth)
  | continueLoop depth => exact exchanges_of_keeps (keeps_continueLoop depth)
  | returnCall => exact absurd rfl stays
  | yieldNamed name => exact yields name
  | yieldMain => exact yields _

/-! ## Leaving a call -/

def overflow (limit : Nat) (location : Location) : Error :=
  .resourceLimit ⟨.objectStackOverflow, location, s!"object stack exceeded {limit} entries"⟩

/-- The result of a call is its own topmost operand or null, and is held by the action that leaves the
call. -/
theorem exists_takeResult_eq_ok {base : Nat} (explicit : Bool) (program : Program)
    {others : Multiset ObjectId} {handles : Heap.Handles}
    (accounted : machine.heap.Accounted (↑machine.operands.items + others) ∅ handles)
    (live : machine.heap.contains machine.null) :
    ∃ result items heap, takeResult base explicit program machine =
        .ok result { machine with heap, operands := { machine.operands with items } } ∧
      items.drop (items.length - base) =
        machine.operands.items.drop (machine.operands.size - base) ∧
      heap.Accounted (↑items + (result ::ₘ others)) ∅ handles := by
  by_cases own : explicit = true ∧ base < machine.operands.size
  case pos =>
    cases shape : machine.operands.items with
    | nil => simp [OperandStack.size, shape] at own
    | cons id items =>
      have popped : machine.operands.pop = .ok (id, { machine.operands with items }) := by
        simp [OperandStack.pop, shape]
      refine ⟨id, items, machine.heap, ?_, ?_, ?_⟩
      · change (if explicit && decide (base < machine.operands.size) then Machine.pop else _ :
          MachineM ObjectId) program machine = _
        rw [if_pos (by simpa using own)]
        change (orRaise machine.operands.pop >>= _ : MachineM ObjectId) program machine = _
        rw [popped]
        rfl
      · have above : machine.operands.size - base = items.length - base + 1 := by
          have size := own.2
          rw [OperandStack.size, shape, List.length_cons] at size ⊢
          omega
        rw [above, List.drop_succ_cons]
      · rw [shape] at accounted
        refine accounted.of_eq ?_
        rw [← Multiset.cons_coe, Multiset.cons_add, Multiset.add_cons]
  case neg =>
    obtain ⟨heap, counted, accounted⟩ := Heap.exists_addRef_eq_ok accounted live
    refine ⟨machine.null, machine.operands.items, heap, ?_, rfl, ?_⟩
    · change (if explicit && decide (base < machine.operands.size) then Machine.pop else _ :
        MachineM ObjectId) program machine = _
      rw [if_neg (by simpa using own)]
      exact run_onHeap_bind counted
    · refine (accounted.mono (by simp)).of_eq ?_
      rw [Multiset.add_cons]

/-- A push counts the reference, or fails for want of room. -/
theorem exists_push_eq {id : ObjectId} {held : Multiset ObjectId} {handles : Heap.Handles}
    (location : Location) (program : Program) (accounted : machine.heap.Accounted held ∅ handles)
    (live : machine.heap.contains id) :
    (machine.operands.size < machine.operands.limit ∧ ∃ heap, push id location program machine =
        .ok () { machine with
          heap, operands := { machine.operands with items := id :: machine.operands.items } } ∧
        heap.Accounted (id ::ₘ held) ∅ handles) ∨
      machine.operands.limit ≤ machine.operands.size ∧ push id location program machine =
        .error (.error (overflow machine.operands.limit location)) machine := by
  by_cases room : machine.operands.limit ≤ machine.operands.size
  case pos =>
    refine .inr ⟨room, ?_⟩
    change (onHeap (machine.operands.push id location) >>= _ : MachineM Unit) program machine = _
    unfold OperandStack.push
    rw [if_pos room]
    rfl
  case neg =>
    obtain ⟨heap, counted, accounted⟩ := Heap.exists_addRef_eq_ok accounted live
    refine .inl ⟨Nat.lt_of_not_le room, heap, ?_, accounted.mono (by simp)⟩
    have pushed : machine.operands.push id location machine.heap =
        .ok { machine.operands with items := id :: machine.operands.items } heap := by
      unfold OperandStack.push
      rw [if_neg room]
      change EStateM.bind (Heap.addRef id) _ machine.heap = _
      simp only [EStateM.bind, counted]
      rfl
    exact run_onHeap_bind pushed

theorem andFinally_onHeap_of_ok {action : MachineM Unit} {afterwards : HeapM Unit} {heap : Heap}
    (run : action program machine = .ok () after) (released : afterwards after.heap = .ok () heap) :
    andFinally action (onHeap afterwards) program machine = .ok () { after with heap } := by
  simp only [andFinally, run, onHeap, released]

theorem andFinally_onHeap_of_error {action : MachineM Unit} {afterwards : HeapM Unit} {heap : Heap}
    {error : Error} (run : action program machine = .error (.error error) after)
    (released : afterwards after.heap = .ok () heap) :
    andFinally action (onHeap afterwards) program machine =
      .error (.error error) { after with heap } := by
  simp only [andFinally, run, onHeap, released]

/-- A call that is left takes its operands along and puts its result in their place, if there is room
and it is not the outermost one. -/
theorem exists_leaveCall_eq {ledger : Ledger} {call : Call} {callers : List Call} (explicit : Bool)
    (program : Program) (sound : machine.Sound ledger 0 ∅)
    (entries : machine.calls.entries = call :: callers) :
    ∃ result heap, leaveCall explicit program machine =
      let below := machine.operands.items.drop (machine.operands.size - call.base)
      let left (items : List ObjectId) := { machine with
        heap
        calls := { machine.calls with entries := callers }
        operands := { machine.operands with items } }
      if callers = [] then .ok () (left below)
      else if below.length < machine.operands.limit then .ok () (left (result :: below))
      else .error (.error (overflow machine.operands.limit call.location)) (left below) := by
  -- what is held beside the operands and by the call that is left
  let others := (⟨callers, machine.calls.limit⟩ : CallStack).held + machine.globals.held +
    ↑machine.pending + {machine.null}
  have accounted : machine.heap.Accounted
      (↑machine.operands.items + (call.blocks.held + others)) ∅ machine.handles := by
    refine sound.accounted.of_eq ?_
    simp only [others, held, CallStack.held, entries, List.map_cons, List.sum_cons]
    abel
  obtain ⟨result, items, first, taken, same, accounted⟩ :=
    @exists_takeResult_eq_ok { machine with calls := { machine.calls with entries := callers } }
      call.base explicit program _ _ accounted sound.null_live
  rw [← same]
  generalize machine.operands.items.drop (machine.operands.size - call.base) = before at same
  subst same
  -- the operands of the call
  have parts := congrArg Multiset.ofList (List.take_append_drop (items.length - call.base) items)
  rw [← Multiset.coe_add] at parts
  rw [← parts, add_assoc] at accounted
  obtain ⟨second, truncated, accounted, -⟩ := @exists_truncate_eq_ok
    { machine with
      heap := first
      calls := { machine.calls with entries := callers }
      operands := { machine.operands with items } } _ call.base _ _ program accounted
  -- its locals
  have accounted : second.Accounted (call.blocks.held +
      (result ::ₘ (↑(items.drop (items.length - call.base)) + others))) ∅ machine.handles := by
    refine accounted.of_eq ?_
    simp only [← Multiset.singleton_add]
    abel
  obtain ⟨third, released, accounted, -⟩ := call.blocks.drops_releaseAll _ _ _ _ accounted
  generalize below : items.drop (items.length - call.base) = rest at *
  let left : Machine := { machine with
    heap := third
    calls := { machine.calls with entries := callers }
    operands := { machine.operands with items := rest } }
  have start : leaveCall explicit program machine =
      andFinally (if callers.isEmpty then pure () else push result call.location)
        (onHeap (Heap.release result)) program left := by
    have read : (get : MachineM Machine) program machine = .ok machine machine := rfl
    refine (run_bind_of_eq_ok read).trans ?_
    rw [entries]
    refine (run_bind_of_eq_ok taken).trans ?_
    refine (run_bind_of_eq_ok truncated).trans ?_
    refine (run_onHeap_bind released).trans ?_
    subst below
    rfl
  rw [start]
  by_cases last : callers = []
  case pos =>
    obtain ⟨fourth, dropped, -⟩ := Heap.drops_release result _ _ _ _ accounted
    refine ⟨result, fourth, ?_⟩
    rw [if_pos last, if_pos (List.isEmpty_iff.2 last)]
    have nothing : (pure () : MachineM Unit) program left = .ok () left := rfl
    exact andFinally_onHeap_of_ok nothing dropped
  case neg =>
    rw [if_neg (mt List.isEmpty_iff.1 last)]
    have live : left.heap.contains result := accounted.contains (Multiset.mem_cons_self _ _)
    rcases exists_push_eq call.location program accounted live with
      ⟨room, heap, pushed, accounted⟩ | ⟨full, failed⟩
    · obtain ⟨fourth, dropped, -⟩ := Heap.drops_release result _ _ _ _ accounted
      refine ⟨result, fourth, ?_⟩
      have room : rest.length < machine.operands.limit := room
      rw [if_neg last, if_pos room]
      exact andFinally_onHeap_of_ok pushed dropped
    · obtain ⟨fourth, dropped, -⟩ := Heap.drops_release result _ _ _ _ accounted
      refine ⟨result, fourth, ?_⟩
      have full : ¬rest.length < machine.operands.limit := Nat.not_lt.2 full
      rw [if_neg last, if_neg full]
      exact andFinally_onHeap_of_error failed dropped

end Machine

end Terrain
