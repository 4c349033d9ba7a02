import Terrain.Machine.Step
import Terrain.Proofs.Outcome

/-!
# What actions leave alone

The control state of a machine is what decides which instruction comes next: for every block of every
call its code, the position in it and whether it is a loop. Only the actions that enter and leave
blocks and calls change it; everything a script computes leaves it alone.

* `CallStack.control`, `Machine.control` — the control state.
* `Machine.Steady` — an action that leaves the control state and the status alone.
* `Native.keeps_callGlobal`, `Native.keeps_callMember` — native functions leave the operands and, but
  for increments, the calls alone.
-/

namespace Terrain

/-- A block as far as control is concerned: its code, the position in it, and whether it is a loop. -/
structure Spot where
  code : CodeBlock
  cursor : Nat
  looping : Bool

def Block.spot (block : Block) : Spot := ⟨block.code, block.cursor, block.looping⟩

def BlockStack.spots (stack : BlockStack) : List Spot := stack.entries.map Block.spot

def CallStack.control (stack : CallStack) : List (List Spot) :=
  stack.entries.map fun call => call.blocks.spots

namespace Machine

def control (machine : Machine) : List (List Spot) := machine.calls.control

/-- An action that ends leaves what can be seen of the operands, the calls and the status as it was. -/
def Keeps {α γ : Type} (view : OperandStack → CallStack → Status → γ) (action : MachineM α) : Prop :=
  ∀ program machine value after, action program machine = .ok value after →
    view after.operands after.calls after.status = view machine.operands machine.calls machine.status

/-- An action that ends leaves control and status as they were. -/
abbrev Steady {α : Type} (action : MachineM α) : Prop :=
  Keeps (fun _ calls status => (calls.control, status)) action

/-- An action that ends leaves the status as it was. -/
abbrev Calm {α : Type} (action : MachineM α) : Prop := Keeps (fun _ _ status => status) action

/-! ## Combinators -/

section Combinators

variable {α β γ : Type} {view : OperandStack → CallStack → Status → γ}

/-- A sequence of actions ends with a value only if both of them do. -/
theorem run_bind_eq_ok {action : MachineM α} {next : α → MachineM β} {program : Program}
    {machine after : Machine} {value : β}
    (run : (action >>= next) program machine = .ok value after) :
    ∃ middle between, action program machine = .ok middle between ∧
      next middle program between = .ok value after :=
  @bind_eq_ok _ _ _ (action program) (fun value => next value program) _ _ _ run

theorem Keeps.bind {action : MachineM α} {next : α → MachineM β} (first : Keeps view action)
    (second : ∀ value, Keeps view (next value)) : Keeps view (action >>= next) := by
  intro program machine value after run
  obtain ⟨middle, between, started, ended⟩ := run_bind_eq_ok run
  exact (second _ _ _ _ _ ended).trans (first _ _ _ _ started)

theorem keeps_pure (value : α) : Keeps view (pure value) := by
  intro program machine value after run
  cases run
  rfl

theorem keeps_get : Keeps view (get : MachineM Machine) := by
  intro program machine value after run
  cases run
  rfl

theorem keeps_read : Keeps view (read : MachineM Program) := by
  intro program machine value after run
  cases run
  rfl

theorem keeps_modify {change : Machine → Machine}
    (kept : ∀ machine, view (change machine).operands (change machine).calls (change machine).status =
      view machine.operands machine.calls machine.status) :
    Keeps view (modify change : MachineM PUnit) := by
  intro program machine value after run
  cases run
  exact kept machine

theorem keeps_throw (failure : Failure) : Keeps view (throw failure : MachineM α) := by
  intro program machine value after run
  cases run

theorem keeps_raise (error : Error) : Keeps view (raise error : MachineM α) := by
  intro program machine value after run
  cases run

theorem keeps_orRaise (result : Except Error α) : Keeps view (orRaise result) := by
  cases result with
  | ok value => exact keeps_pure value
  | error error => exact keeps_raise error

theorem orRaise_eq_ok {result : Except Error α} {program : Program} {machine after : Machine}
    {value : α} (run : orRaise result program machine = .ok value after) :
    result = .ok value ∧ after = machine := by
  cases result with
  | ok value =>
    cases run
    exact ⟨rfl, rfl⟩
  | error error => cases run

theorem inspect_eq_ok {query : Query α} {program : Program} {machine after : Machine} {value : α}
    (run : inspect query program machine = .ok value after) :
    query program machine = .ok value ∧ after = machine := by
  unfold inspect at run
  split at run
  case h_1 found =>
    cases run
    exact ⟨found, rfl⟩
  case h_2 => cases run

theorem keeps_inspect (query : Query α) : Keeps view (inspect query) := by
  intro program machine value after run
  rw [(inspect_eq_ok run).2]

theorem onHeap_eq_ok {action : HeapM α} {program : Program} {machine after : Machine} {value : α}
    (run : onHeap action program machine = .ok value after) :
    ∃ heap, action machine.heap = .ok value heap ∧ after = { machine with heap } := by
  unfold onHeap at run
  dsimp only at run
  split at run
  case h_1 heap outcome =>
    cases run
    exact ⟨heap, outcome, rfl⟩
  case h_2 => cases run

theorem keeps_onHeap (action : HeapM α) : Keeps view (onHeap action) := by
  intro program machine value after run
  obtain ⟨heap, -, rfl⟩ := onHeap_eq_ok run
  rfl

section Binds

variable {β : Type} {next : α → MachineM β} {program : Program} {machine after : Machine} {value : β}

theorem orRaise_bind_eq_ok {result : Except Error α}
    (run : (orRaise result >>= next) program machine = .ok value after) :
    ∃ middle, result = .ok middle ∧ next middle program machine = .ok value after := by
  obtain ⟨middle, between, raised, rest⟩ := run_bind_eq_ok run
  obtain ⟨found, rfl⟩ := orRaise_eq_ok raised
  exact ⟨middle, found, rest⟩

theorem inspect_bind_eq_ok {query : Query α}
    (run : (inspect query >>= next) program machine = .ok value after) :
    ∃ middle, query program machine = .ok middle ∧ next middle program machine = .ok value after := by
  obtain ⟨middle, between, looked, rest⟩ := run_bind_eq_ok run
  obtain ⟨found, rfl⟩ := inspect_eq_ok looked
  exact ⟨middle, found, rest⟩

theorem onHeap_bind_eq_ok {action : HeapM α}
    (run : (onHeap action >>= next) program machine = .ok value after) :
    ∃ middle heap, action machine.heap = .ok middle heap ∧
      next middle program { machine with heap } = .ok value after := by
  obtain ⟨middle, between, acted, rest⟩ := run_bind_eq_ok run
  obtain ⟨heap, done, rfl⟩ := onHeap_eq_ok acted
  exact ⟨middle, heap, done, rest⟩

end Binds

/-- An action with a second one behind it ends with a value only if both of them do. -/
theorem andFinally_eq_ok {action : MachineM α} {afterwards : MachineM Unit} {program : Program}
    {machine after : Machine} {value : α}
    (run : andFinally action afterwards program machine = .ok value after) :
    ∃ between, action program machine = .ok value between ∧
      afterwards program between = .ok () after := by
  unfold andFinally at run
  split at run
  case h_1 _ between started =>
    split at run
    case h_1 ended =>
      cases run
      exact ⟨between, started, ended⟩
    case h_2 => cases run
  case h_2 => split at run <;> cases run
  case h_3 => cases run

theorem Keeps.andFinally {action : MachineM α} {afterwards : MachineM Unit}
    (first : Keeps view action) (second : Keeps view afterwards) :
    Keeps view (andFinally action afterwards) := by
  intro program machine value after run
  obtain ⟨between, started, ended⟩ := andFinally_eq_ok run
  exact (second _ _ _ _ ended).trans (first _ _ _ _ started)

theorem onError_eq_ok {action : MachineM α} {afterwards : MachineM Unit} {program : Program}
    {machine after : Machine} {value : α}
    (run : onError action afterwards program machine = .ok value after) :
    action program machine = .ok value after := by
  unfold Machine.onError at run
  split at run
  case h_1 => split at run <;> cases run
  case h_2 => exact run

theorem Keeps.onError {action : MachineM α} {afterwards : MachineM Unit} (steady : Keeps view action) :
    Keeps view (onError action afterwards) :=
  fun program machine value after run => steady program machine value after (onError_eq_ok run)

theorem Keeps.discard {action : MachineM α} (steady : Keeps view action) : Keeps view (discard action) := by
  intro program machine value after run
  change EStateM.map (fun _ => PUnit.unit) (action program) machine = _ at run
  unfold EStateM.map at run
  split at run
  case h_1 ended =>
    cases run
    exact steady _ _ _ _ ended
  case h_2 => cases run

theorem Keeps.ite {condition : Prop} [Decidable condition] {action other : MachineM α}
    (first : Keeps view action) (second : Keeps view other) :
    Keeps view (if condition then action else other) := by
  split
  · exact first
  · exact second

theorem keeps_forM {action : β → MachineM PUnit} (steady : ∀ item, Keeps view (action item)) :
    ∀ items : List β, Keeps view (items.forM action)
  | [] => keeps_pure ()
  | item :: items => (steady item).bind fun _ => keeps_forM steady items

end Combinators

/-! ## Operands and variables -/

section Operands

variable {γ : Type} {view : CallStack → Status → γ}

theorem keeps_push (id : ObjectId) (location : Location) : Keeps (fun _ => view) (push id location) :=
  keeps_get.bind fun _ => (keeps_onHeap _).bind fun _ => keeps_modify fun _ => rfl

theorem keeps_pop : Keeps (fun _ => view) pop :=
  keeps_get.bind fun _ => (keeps_orRaise _).bind fun ⟨_, _⟩ =>
    Keeps.bind (keeps_modify fun _ => rfl) fun _ => keeps_pure _

theorem keeps_take (count : Nat) : Keeps (fun _ => view) (take count) :=
  keeps_get.bind fun _ => (keeps_orRaise _).bind fun ⟨_, _⟩ =>
    Keeps.bind (keeps_modify fun _ => rfl) fun _ => keeps_pure _

theorem keeps_truncate (height : Nat) : Keeps (fun _ => view) (truncate height) :=
  keeps_get.bind fun _ => (keeps_onHeap _).bind fun _ => keeps_modify fun _ => rfl

theorem keeps_pushNew (value : Value) (location : Location) : Keeps (fun _ => view) (pushNew value location) :=
  (keeps_onHeap _).bind fun _ => (keeps_push _ _).onError

end Operands

/-- Replacing an entry by one that looks the same to a function changes nothing for it. -/
theorem map_setFromEnd {α β : Type} {view : α → β} {items : List α} {height : Nat} {old new : α}
    (found : items.reverse[height]? = some old) (same : view new = view old) :
    (items.reverse.set height new).reverse.map view = items.map view := by
  have unchanged : (items.reverse.map view).set height (view new) = items.reverse.map view := by
    rw [same]
    apply List.ext_getElem?
    intro index
    rw [List.getElem?_set]
    split
    case isTrue here =>
      subst here
      simp only [List.length_map, List.getElem?_map, found, Option.map_some]
      rw [if_pos (List.getElem?_eq_some_iff.1 found).1]
    case isFalse => rfl
  rw [List.map_reverse, List.map_set, unchanged, ← List.map_reverse, List.reverse_reverse]

theorem control_setScope (machine : Machine) (bindings : Bindings) (target : Target) :
    ((machine.setScope bindings target).control, (machine.setScope bindings target).status) =
      (machine.control, machine.status) := by
  cases target with
  | global name => rfl
  | inBlock callHeight blockHeight name =>
    unfold setScope
    dsimp only
    split
    case h_1 => rfl
    case h_2 call inCalls =>
      split
      case h_1 => rfl
      case h_2 block inBlocks =>
        exact congrArg (·, _) (map_setFromEnd inCalls (map_setFromEnd inBlocks rfl))

theorem steady_assign (target : Target) (value : ObjectId) (location : Location) :
    Steady (assign target value location) := by
  refine (keeps_inspect _).bind fun binding => keeps_get.bind fun _ => (keeps_onHeap _).bind ?_
  intro rebound
  cases rebound with
  | none => exact keeps_raise _
  | some bindings => exact keeps_modify fun machine => control_setScope machine bindings target

section Recording

variable {γ : Type} {view : OperandStack → CallStack → Status → γ}

theorem keeps_declareGlobal (location : Location) (name : String) (value : ObjectId)
    (isConst : Bool) : Keeps view (Machine.declareGlobal location name value isConst) := by
  refine keeps_get.bind fun _ => (keeps_onHeap _).bind fun declared => ?_
  cases declared with
  | none => exact (keeps_onHeap _).bind fun _ => keeps_raise _
  | some globals => exact keeps_modify fun _ => rfl

/-! ## Recording -/

theorem keeps_record (step : Step) : Keeps view (record step) := by
  refine keeps_get.bind fun machine => ?_
  cases machine.sequence.check step with
  | ok _ => exact keeps_modify fun _ => rfl
  | error failure => exact keeps_throw failure

theorem keeps_make (action : Action) (arguments : List Slot) (location : Location) :
    Keeps view (make action arguments location) := by
  have reserves : Keeps view reserve := by
    intro program machine value after run
    cases run
    rfl
  have assigns (id : ObjectId) (slot : Slot) : Keeps view (assignSlot id slot) := by
    intro program machine value after run
    obtain ⟨_, _, read, run⟩ := run_bind_eq_ok run
    cases read
    cases assigned : machine.slots.assign id slot machine.heap with
    | error breach =>
      rw [assigned] at run
      cases run
    | ok slots =>
      rw [assigned] at run
      cases run
      rfl
  exact reserves.bind fun _ => (keeps_record _).bind fun _ => (keeps_onHeap _).bind fun _ =>
    (assigns _ _).bind fun _ => keeps_pure _

theorem keeps_edit (receiver : ObjectId) (action : Action) (arguments : List Slot)
    (location : Location) : Keeps view (edit receiver action arguments location) :=
  (keeps_inspect _).bind fun _ => (keeps_record _).bind fun _ => keeps_pure _

theorem keeps_yieldObject (name : String) (id : ObjectId) (location : Location) :
    Keeps view (yieldObject name id location) := by
  refine keeps_read.bind fun program => (keeps_inspect _).bind fun value => ?_
  have recorded : Keeps view (do
      modify fun machine => { machine with generated := Dictionary.insert name () machine.generated }
      if program.parameters.isEnabled name then
        let target ← inspect (Query.slot id)
        record ⟨location, .yield name program.parameters.window, [], target⟩) :=
    Keeps.bind (keeps_modify fun _ => rfl) fun _ =>
      Keeps.ite ((keeps_inspect _).bind fun _ => keeps_record _) (keeps_pure ())
  split
  case h_2 => exact keeps_raise _
  case h_1 =>
    cases program.script.supports name with
    | false => exact (keeps_raise _).bind fun _ => recorded
    | true => exact recorded

end Recording

end Machine

/-! ## Native functions -/

namespace Native

open Machine

def increments : List String := ["++pre", "++post", "--pre", "--post"]

variable {γ : Type} {view : OperandStack → CallStack → Status → γ}

theorem keeps_increment
    (assigns : ∀ target value location, Keeps view (assign target value location))
    (delta : Float) (answersNew : Bool) (call : NativeCall) :
    Keeps view (increment delta answersNew call) :=
  (keeps_inspect _).bind fun ⟨_, _, _⟩ => (keeps_onHeap _).bind fun _ =>
    (keeps_onHeap _).bind fun _ => ((assigns _ _ _).andFinally (keeps_onHeap _)).bind fun _ =>
    keeps_onHeap _

theorem keeps_setIndex (call : NativeCall) : Keeps view (setIndex call) := by
  refine (keeps_inspect _).bind fun ⟨array, key?, value⟩ => ?_
  cases key? with
  | none => exact (keeps_onHeap _).bind fun _ => keeps_pure _
  | some key => exact (keeps_onHeap _).bind fun _ => keeps_pure _

theorem keeps_operator {call : NativeCall} {action : MachineM ObjectId}
    (assigns : call.name ∈ increments →
      ∀ target value location, Keeps view (assign target value location))
    (found : operator? call = some action) : Keeps view action := by
  unfold operator? at found
  split at found
  case h_1 =>
    cases found
    exact (keeps_inspect _).bind fun _ => keeps_onHeap _
  case h_2 =>
    split at found <;> cases found
    case h_5 => exact keeps_inspect _
    case h_6 => exact keeps_setIndex call
    all_goals exact keeps_increment (assigns (by simp [increments, *])) _ _ call

theorem keeps_random (call : NativeCall) : Keeps view (random call) := by
  refine (keeps_inspect _).bind fun bounds => ?_
  cases bounds with
  | none =>
    refine keeps_get.bind fun machine => ?_
    rcases machine.random.nextUnit with ⟨value, random⟩
    exact Keeps.bind (keeps_modify fun _ => rfl) fun _ => keeps_onHeap _
  | some bounds =>
    refine keeps_get.bind fun machine => ?_
    rcases machine.random.nextInt bounds.1 bounds.2 with ⟨value, random⟩
    refine Keeps.bind (keeps_modify fun _ => rfl) fun _ => ?_
    cases value with
    | ok value => exact keeps_onHeap _
    | error breach => exact keeps_throw _

theorem keeps_function {call : NativeCall} {action : MachineM ObjectId}
    (found : function? call = some action) : Keeps view action := by
  unfold function? at found
  split at found
  case h_1 =>
    cases found
    exact (keeps_inspect _).bind fun _ => keeps_onHeap _
  case h_2 =>
    split at found <;> cases found
    case h_1 => exact keeps_random call
    case h_2 =>
      exact (keeps_inspect _).bind fun _ => Keeps.bind (keeps_modify fun _ => rfl) fun _ =>
        keeps_get.bind fun _ => keeps_pure _

/-- Only increments bind variables. -/
theorem keeps_callGlobal {call : NativeCall}
    (assigns : call.name ∈ increments →
      ∀ target value location, Keeps view (assign target value location)) : Keeps view (callGlobal call) := by
  unfold callGlobal
  cases operator : operator? call with
  | some action => exact keeps_operator assigns operator
  | none =>
    cases function : function? call with
    | some action => exact keeps_function function
    | none => exact keeps_raise _

theorem keeps_arrayOfList (values : List ObjectId) : Keeps view (arrayOfList values) :=
  (keeps_onHeap _).bind fun _ => (keeps_forM (fun _ => keeps_onHeap _) values).bind fun _ =>
    keeps_pure _

theorem keeps_popEntry (receiver : ObjectId) (choose : ScriptArray → Option Entry)
    (remove : ObjectId → HeapM (Option Entry)) (call : NativeCall) :
    Keeps view (popEntry receiver choose remove call) :=
  (keeps_inspect _).bind fun _ => (keeps_onHeap _).discard.bind fun _ =>
    Keeps.bind (keeps_modify fun _ => rfl) fun _ => keeps_pure _

theorem keeps_removeKey (receiver : ObjectId) (call : NativeCall) :
    Keeps view (removeKey receiver call) :=
  (keeps_inspect _).bind fun _ => (keeps_onHeap _).bind fun _ =>
    Keeps.ite (keeps_pure _) ((keeps_inspect _).bind fun _ => keeps_raise _)

theorem keeps_arrayMethod {receiver : ObjectId} {call : NativeCall} {action : MachineM ObjectId}
    (found : arrayMethod? receiver call = some action) : Keeps view action := by
  have probed {α : Type} {change : ObjectId → HeapM α} {answer : α → MachineM ObjectId}
      (answers : ∀ value, Keeps view (answer value)) :
      Keeps view (do answer (← onHeap (change (← inspect (probe call))))) :=
    (keeps_inspect _).bind fun _ => (keeps_onHeap _).bind answers
  have reordered (change : HeapM Unit) :
      Keeps view (do inspect (call.expect 0 0); onHeap change; return receiver) :=
    (keeps_inspect _).bind fun _ => (keeps_onHeap _).bind fun _ => keeps_pure _
  unfold arrayMethod? at found
  split at found <;> cases found
  case h_1 =>
    exact (keeps_inspect _).bind fun _ => (keeps_inspect _).bind fun _ => keeps_onHeap _
  case h_2 => exact keeps_inspect _
  case h_3 => exact keeps_inspect _
  case h_4 => exact probed fun _ => keeps_pure _
  case h_5 => exact keeps_popEntry _ _ _ _
  case h_6 => exact keeps_popEntry _ _ _ _
  case h_7 => exact probed fun _ => keeps_onHeap _
  case h_8 => exact probed fun _ => keeps_onHeap _
  case h_9 => exact keeps_removeKey receiver call
  case h_10 =>
    exact (keeps_inspect _).bind fun _ => (keeps_onHeap _).discard.bind fun _ => keeps_pure _
  case h_11 => exact keeps_inspect _
  case h_12 => exact keeps_inspect _
  case h_13 => exact reordered _
  case h_14 => exact reordered _
  case h_15 =>
    exact (keeps_inspect _).bind fun _ => keeps_get.bind fun _ => (keeps_onHeap _).bind fun _ =>
      Keeps.bind (keeps_modify fun _ => rfl) fun _ => keeps_pure _

theorem keeps_memberFunction {script : Script} {receiver : ObjectId} {value : Value}
    {call : NativeCall} {action : MachineM ObjectId}
    (found : memberFunction? script receiver value call = some action) : Keeps view action := by
  unfold memberFunction? staticFunction? at found
  split at found
  case h_1 =>
    split at found
    case h_1 =>
      obtain ⟨query, -, rfl⟩ := Option.map_eq_some_iff.1 found
      exact (keeps_inspect _).bind fun _ => keeps_make _ _ _
    case h_2 =>
      obtain ⟨query, -, rfl⟩ := Option.map_eq_some_iff.1 found
      exact (keeps_inspect _).bind fun _ => keeps_make _ _ _
    case h_3 =>
      unfold arrayStatic? at found
      split at found <;> cases found
      · exact (keeps_inspect _).bind fun _ => keeps_arrayOfList _
      · exact keeps_arrayOfList _
    case h_4 =>
      obtain ⟨query, -, rfl⟩ := Option.map_eq_some_iff.1 found
      exact (keeps_inspect _).bind fun _ => keeps_onHeap _
  case h_2 =>
    obtain ⟨query, -, rfl⟩ := Option.map_eq_some_iff.1 found
    exact (keeps_inspect _).bind fun _ => keeps_edit _ _ _ _
  case h_3 =>
    obtain ⟨query, -, rfl⟩ := Option.map_eq_some_iff.1 found
    exact (keeps_inspect _).bind fun _ => keeps_edit _ _ _ _
  case h_4 => exact keeps_arrayMethod found
  case h_5 => cases found

theorem keeps_callMember (receiver : ObjectId) (call : NativeCall) :
    Keeps view (callMember receiver call) := by
  refine (keeps_inspect _).bind fun value => ?_
  cases value with
  | null => exact keeps_raise _
  | _ =>
    refine keeps_read.bind fun program => ?_
    split
    case h_1 _ found => exact keeps_memberFunction found
    case h_2 => exact keeps_raise _

end Native

end Terrain
