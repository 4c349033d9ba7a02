import Terrain.Proofs.Control.Evaluation
import Terrain.Proofs.Control.Frames
import Terrain.Proofs.Heap.Arrays
import Terrain.Proofs.Machine.References

/-!
# Native calls that fail

A native call looks before it acts: once it changes something it can no longer end with an error. The
exceptions clean up behind themselves. An increment stores its number before it finds that the
variable is read-only, and drops it again. A new raster reserves a slot before the sequence turns out
to be full; the number of reserved slots is the one thing that stays raised.

* `Unfailing` — an action that ends with no error.
* `Machine.Untouched` — two machines between which a script cannot tell a difference.
* `Machine.Cautious` — an action whose errors leave the machine untouched.
* `Machine.refused_call_untouched` — native calls are cautious in every state of a run.
-/

namespace Terrain

/-! ## Actions without errors -/

/-- An action never ends with an error; a broken invariant may still end it. -/
def Unfailing {σ α : Type} (action : EStateM Failure σ α) : Prop :=
  ∀ state error after, action state ≠ .error (.error error) after

section Unfailing

variable {σ α β : Type}

/-- A sequence fails in its first part or, once that is done, in its second. -/
theorem bind_eq_error {action : EStateM Failure σ α} {next : α → EStateM Failure σ β}
    {state after : σ} {failure : Failure} (run : (action >>= next) state = .error failure after) :
    action state = .error failure after ∨
      ∃ middle between, action state = .ok middle between ∧
        next middle between = .error failure after := by
  change EStateM.bind action next state = _ at run
  unfold EStateM.bind at run
  split at run
  case h_1 middle between first => exact .inr ⟨middle, between, first, run⟩
  case h_2 first =>
    cases run
    exact .inl first

theorem Unfailing.bind {action : EStateM Failure σ α} {next : α → EStateM Failure σ β}
    (first : Unfailing action) (second : ∀ value, Unfailing (next value)) :
    Unfailing (action >>= next) := by
  intro state error after run
  rcases bind_eq_error run with failed | ⟨middle, between, -, failed⟩
  · exact first _ _ _ failed
  · exact second _ _ _ _ failed

theorem unfailing_pure (value : α) : Unfailing (pure value : EStateM Failure σ α) := nofun

theorem unfailing_get : Unfailing (get : EStateM Failure σ σ) := nofun

theorem unfailing_modify (change : σ → σ) : Unfailing (modify change : EStateM Failure σ PUnit) :=
  nofun

theorem Unfailing.ite {condition : Prop} [Decidable condition] {action other : EStateM Failure σ α}
    (first : Unfailing action) (second : Unfailing other) :
    Unfailing (if condition then action else other) := by
  split
  · exact first
  · exact second

theorem unfailing_mapM {action : β → EStateM Failure σ α} (each : ∀ item, Unfailing (action item)) :
    ∀ items : List β, Unfailing (items.mapM action)
  | [] => by
    rw [List.mapM_nil]
    exact unfailing_pure []
  | item :: items => by
    rw [List.mapM_cons]
    exact (each item).bind fun _ => (unfailing_mapM each items).bind fun _ => unfailing_pure _

theorem unfailing_anyM {test : β → EStateM Failure σ Bool} (each : ∀ item, Unfailing (test item)) :
    ∀ items : List β, Unfailing (items.anyM test)
  | [] => unfailing_pure false
  | item :: items => by
    unfold List.anyM
    refine (each item).bind fun found => ?_
    cases found with
    | true => exact unfailing_pure true
    | false => exact unfailing_anyM each items

theorem unfailing_filterAuxM {test : β → EStateM Failure σ Bool}
    (each : ∀ item, Unfailing (test item)) :
    ∀ items kept : List β, Unfailing (items.filterAuxM test kept)
  | [], kept => unfailing_pure kept
  | item :: items, kept => by
    unfold List.filterAuxM
    exact (each item).bind fun _ => unfailing_filterAuxM each items _

theorem unfailing_filterM {test : β → EStateM Failure σ Bool} (each : ∀ item, Unfailing (test item))
    (items : List β) : Unfailing (items.filterM test) :=
  (unfailing_filterAuxM each items []).bind fun _ => unfailing_pure _

end Unfailing

namespace Heap

/-! ### The heap raises no errors -/

theorem unfailing_fail {α : Type} (breach : Breach) : Unfailing (fail breach : HeapM α) := nofun

theorem unfailing_register (value : Value) : Unfailing (register value) := nofun

theorem unfailing_cell (id : ObjectId) : Unfailing (cell id) := by
  refine unfailing_get.bind fun heap => ?_
  cases heap.cell? id with
  | none => exact unfailing_fail _
  | some cell => exact unfailing_pure cell

theorem unfailing_value (id : ObjectId) : Unfailing (value id) :=
  (unfailing_cell id).bind fun _ => unfailing_pure _

theorem unfailing_addRef (id : ObjectId) : Unfailing (addRef id) :=
  unfailing_get.bind fun _ => .ite (unfailing_pure _)
    (unfailing_get.bind fun _ => .ite (unfailing_modify _) (unfailing_fail _))

theorem unfailing_drain : ∀ (fuel : Nat) (pending : List ObjectId), Unfailing (drain fuel pending)
  | 0, [] | _ + 1, [] => by
    unfold drain
    exact unfailing_pure _
  | 0, _ :: _ => by
    unfold drain
    exact unfailing_fail _
  | fuel + 1, id :: pending => by
    unfold drain
    refine (unfailing_cell id).bind fun cell => ?_
    obtain _ | _ | count := cell.references
    · exact unfailing_fail _
    · exact (unfailing_modify _).bind fun _ => unfailing_drain fuel _
    · exact (unfailing_modify _).bind fun _ => unfailing_drain fuel _

theorem unfailing_release (id : ObjectId) : Unfailing (release id) :=
  unfailing_get.bind fun _ => .ite (unfailing_pure _) (unfailing_drain _ _)

theorem unfailing_releaseAll : ∀ ids : List ObjectId, Unfailing (releaseAll ids)
  | [] => unfailing_pure _
  | id :: ids => (unfailing_release id).bind fun _ => unfailing_releaseAll ids

theorem unfailing_releaseEntry (entry : Entry) : Unfailing (releaseEntry entry) :=
  (unfailing_release _).bind fun _ => unfailing_release _

theorem unfailing_keyOf (id : ObjectId) : Unfailing (keyOf id) :=
  (unfailing_value id).bind fun _ => unfailing_pure _

theorem unfailing_compareObjects (a b : ObjectId) : Unfailing (compareObjects a b) :=
  (unfailing_keyOf a).bind fun _ => (unfailing_keyOf b).bind fun _ => unfailing_pure _

theorem unfailing_arrayAt (id : ObjectId) : Unfailing (arrayAt id) := by
  refine (unfailing_value id).bind fun value => ?_
  cases value with
  | array items => exact unfailing_pure items
  | _ => exact unfailing_fail _

theorem unfailing_modifyArray (id : ObjectId) (change : ScriptArray → ScriptArray) :
    Unfailing (modifyArray id change) :=
  unfailing_get.bind fun _ => .ite (unfailing_modify _) (unfailing_fail _)

theorem unfailing_setEntry (array key value : ObjectId) : Unfailing (setEntry array key value) := by
  refine (unfailing_keyOf key).bind fun arrayKey => (unfailing_addRef key).bind fun _ =>
    (unfailing_addRef value).bind fun _ => (unfailing_arrayAt array).bind fun items =>
    (unfailing_modifyArray _ _).bind fun _ => ?_
  cases items.get? arrayKey with
  | none => exact unfailing_pure _
  | some old => exact (unfailing_release _).bind fun _ => unfailing_release _

theorem unfailing_pushBack (array value : ObjectId) : Unfailing (pushBack array value) := by
  refine (unfailing_arrayAt array).bind fun items => ?_
  cases items.nextIntegerKey with
  | ok next => exact (unfailing_register _).bind fun _ => unfailing_setEntry _ _ _
  | error breach => exact unfailing_fail breach

theorem unfailing_entryOf? (array key : ObjectId) : Unfailing (entryOf? array key) :=
  (unfailing_keyOf key).bind fun _ => (unfailing_arrayAt array).bind fun _ => unfailing_pure _

theorem unfailing_containsValue (array value : ObjectId) : Unfailing (containsValue array value) :=
  (unfailing_arrayAt array).bind fun _ =>
    unfailing_anyM (fun _ => (unfailing_compareObjects _ _).bind fun _ => unfailing_pure _) _

theorem unfailing_eraseKey (array : ObjectId) (key : ArrayKey) : Unfailing (eraseKey array key) := by
  refine (unfailing_arrayAt array).bind fun items => ?_
  cases items.get? key with
  | none => exact unfailing_pure false
  | some entry =>
    exact (unfailing_modifyArray _ _).bind fun _ => (unfailing_releaseEntry entry).bind fun _ =>
      unfailing_pure true

theorem unfailing_removeKey (array key : ObjectId) : Unfailing (removeKey array key) :=
  (unfailing_keyOf key).bind fun _ => unfailing_eraseKey _ _

theorem unfailing_keysOfValue (array value : ObjectId) : Unfailing (keysOfValue array value) := by
  refine (unfailing_arrayAt array).bind fun items => unfailing_filterM (fun key => ?_) _
  cases items.get? key with
  | none => exact unfailing_pure false
  | some entry => exact (unfailing_compareObjects _ _).bind fun _ => unfailing_pure _

theorem unfailing_eraseKeys (array : ObjectId) : ∀ keys : List ArrayKey,
    Unfailing (forIn keys PUnit.unit fun key _ => do
      let _ ← eraseKey array key
      pure (ForInStep.yield PUnit.unit) : HeapM PUnit)
  | [] => unfailing_pure _
  | key :: keys => by
    rw [List.forIn_cons]
    exact ((unfailing_eraseKey array key).bind fun _ => unfailing_pure _).bind fun step => by
      cases step with
      | done value => exact unfailing_pure value
      | yield value => exact unfailing_eraseKeys array keys

theorem unfailing_removeValue (array value : ObjectId) : Unfailing (removeValue array value) :=
  (unfailing_keysOfValue array value).bind fun keys =>
    (unfailing_eraseKeys array keys).bind fun _ => unfailing_pure _

theorem unfailing_popFront? (array : ObjectId) : Unfailing (popFront? array) := by
  refine (unfailing_arrayAt array).bind fun items => ?_
  cases items.popFront? with
  | none => exact unfailing_pure none
  | some popped => exact (unfailing_modifyArray _ _).bind fun _ => unfailing_pure _

theorem unfailing_popBack? (array : ObjectId) : Unfailing (popBack? array) := by
  refine (unfailing_arrayAt array).bind fun items => ?_
  cases items.popBack? with
  | none => exact unfailing_pure none
  | some popped => exact (unfailing_modifyArray _ _).bind fun _ => unfailing_pure _

theorem unfailing_sortByKeys (array : ObjectId) : Unfailing (sortByKeys array) :=
  (unfailing_arrayAt array).bind fun _ => unfailing_modifyArray _ _

theorem unfailing_sortByValues (array : ObjectId) : Unfailing (sortByValues array) := by
  refine (unfailing_arrayAt array).bind fun items =>
    (unfailing_mapM (fun key => ?_) _).bind fun _ => unfailing_modifyArray _ _
  refine Unfailing.bind ?_ fun _ => unfailing_pure _
  unfold valueKeyOf
  cases items.get? key with
  | none => exact unfailing_pure _
  | some entry => exact unfailing_keyOf _

theorem unfailing_shuffle (array : ObjectId) (random : RandomSequence) :
    Unfailing (shuffle array random) :=
  (unfailing_arrayAt array).bind fun _ => (unfailing_modifyArray _ _).bind fun _ => unfailing_pure _

/-! ### Changes that are undone -/

/-- A key that is not there is not removed. -/
theorem eq_of_removeKey_eq_false {array key : ObjectId} {heap after : Heap}
    (run : removeKey array key heap = .ok false after) : after = heap := by
  obtain ⟨arrayKey, between, read, erased⟩ := bind_eq_ok run
  obtain rfl := keyOf_eq_ok read
  obtain ⟨items, between, found, answered⟩ := bind_eq_ok erased
  obtain rfl := arrayAt_eq_ok found
  cases stored : items.get? arrayKey with
  | none =>
    rw [stored] at answered
    cases answered
    rfl
  | some entry =>
    rw [stored] at answered
    obtain ⟨_, _, -, rest⟩ := bind_eq_ok answered
    obtain ⟨_, _, -, last⟩ := bind_eq_ok rest
    cases last

/-- An object that is made, counted once and released again is gone without a trace. -/
theorem cell?_of_register_release {value : Value} {heap registered counted after : Heap}
    {id : ObjectId} (isOpen : heap.closed = false) (leaf : value.children = [])
    (made : register value heap = .ok id registered) (owned : addRef id registered = .ok () counted)
    (dropped : release id counted = .ok () after) : after.cell? = heap.cell? := by
  cases made
  have live : { heap with cells := heap.cells.push (some ⟨0, value⟩) }.contains heap.cells.size := by
    rw [contains, cell?_register, if_pos rfl]
    rfl
  have run := @addRef_run { heap with cells := heap.cells.push (some ⟨0, value⟩) } _ isOpen live
  cases run.symm.trans owned
  obtain ⟨_, _, read, drained⟩ := bind_eq_ok dropped
  cases read
  rw [if_neg (by exact Bool.eq_false_iff.1 isOpen)] at drained
  unfold drain at drained
  obtain ⟨cell, _, read, drained⟩ := bind_eq_ok drained
  obtain ⟨rfl, found⟩ := cell_eq_ok read
  have stored : cell = ⟨1, value⟩ := by
    refine Option.some.inj (found.symm.trans ?_)
    refine (cell?_modifyCell _ _ _ _).trans ?_
    rw [if_pos rfl, cell?_register, if_pos rfl]
    rfl
  subst stored
  obtain ⟨_, _, changed, drained⟩ := bind_eq_ok drained
  cases changed
  rw [leaf] at drained
  unfold drain at drained
  cases drained
  funext other
  refine (cell?_forget _ _ _).trans ?_
  split
  case isTrue same => simp [cell?, ← same]
  case isFalse different =>
    refine (cell?_modifyCell _ _ _ _).trans ?_
    rw [if_neg different, cell?_register, if_neg (Ne.symm different)]

end Heap

namespace Machine

/-! ## Machines alike -/

/-- A script cannot tell the two machines apart: the same objects are alive, with the same values and
counts, names are bound to the same objects, and the same was recorded, printed, yielded and drawn. -/
structure Untouched (before after : Machine) : Prop where
  cells : after.heap.cell? = before.heap.cell?
  globals : after.globals = before.globals
  calls : after.calls = before.calls
  operands : after.operands = before.operands
  steps : after.sequence.steps = before.sequence.steps
  slots : after.slots = before.slots
  random : after.random = before.random
  messages : after.messages = before.messages
  generated : after.generated = before.generated
  pending : after.pending = before.pending
  null : after.null = before.null
  status : after.status = before.status

theorem Untouched.refl (machine : Machine) : machine.Untouched machine :=
  ⟨rfl, rfl, rfl, rfl, rfl, rfl, rfl, rfl, rfl, rfl, rfl, rfl⟩

/-- On an open heap, an error of the action leaves the machine untouched. -/
def Cautious {α : Type} (action : MachineM α) : Prop :=
  ∀ program machine error after, machine.heap.closed = false →
    action program machine = .error (.error error) after → machine.Untouched after

def Sure {α : Type} (action : MachineM α) : Prop := ∀ program, Unfailing (action program)

/-! ## Combinators -/

section Combinators

variable {α β : Type}

theorem run_bind_eq_error {action : MachineM α} {next : α → MachineM β} {program : Program}
    {machine after : Machine} {failure : Failure}
    (run : (action >>= next) program machine = .error failure after) :
    action program machine = .error failure after ∨
      ∃ middle between, action program machine = .ok middle between ∧
        next middle program between = .error failure after :=
  @bind_eq_error _ _ _ (action program) (fun value => next value program) _ _ _ run

theorem Sure.bind {action : MachineM α} {next : α → MachineM β} (first : Sure action)
    (second : ∀ value, Sure (next value)) : Sure (action >>= next) :=
  fun program => (first program).bind fun value => second value program

theorem sure_pure (value : α) : Sure (pure value) := fun _ => unfailing_pure value

theorem sure_get : Sure (get : MachineM Machine) := fun _ => unfailing_get

theorem sure_modify (change : Machine → Machine) : Sure (modify change : MachineM PUnit) :=
  fun _ => unfailing_modify change

theorem sure_onHeap {action : HeapM α} (unfailing : Unfailing action) : Sure (onHeap action) := by
  intro program machine error after failed
  unfold onHeap at failed
  dsimp only at failed
  split at failed
  case h_1 => cases failed
  case h_2 outcome =>
    cases failed
    exact unfailing _ _ _ outcome

theorem sure_forM {action : β → MachineM PUnit} (each : ∀ item, Sure (action item)) :
    ∀ items : List β, Sure (items.forM action)
  | [] => sure_pure ()
  | item :: items => (each item).bind fun _ => sure_forM each items

theorem Sure.discard {action : MachineM α} (sure : Sure action) : Sure (discard action) := by
  intro program machine error after failed
  change EStateM.map (fun _ => PUnit.unit) (action program) machine = _ at failed
  unfold EStateM.map at failed
  split at failed
  case h_1 => cases failed
  case h_2 outcome =>
    cases failed
    exact sure program _ _ _ outcome

theorem Sure.cautious {action : MachineM α} (sure : Sure action) : Cautious action :=
  fun program _ _ _ _ failed => absurd failed (sure program _ _ _)

theorem cautious_raise (error : Error) : Cautious (raise error : MachineM α) := by
  intro program machine error after isOpen failed
  cases failed
  exact .refl machine

theorem cautious_inspect (query : Query α) : Cautious (inspect query) := by
  intro program machine error after isOpen failed
  unfold inspect at failed
  split at failed <;> cases failed
  exact .refl machine

theorem Cautious.inspect_bind {query : Query α} {next : α → MachineM β}
    (cautious : ∀ value, Cautious (next value)) : Cautious (inspect query >>= next) := by
  intro program machine error after isOpen failed
  rcases run_bind_eq_error failed with refused | ⟨value, between, looked, refused⟩
  · exact cautious_inspect query program machine error after isOpen refused
  · obtain ⟨-, rfl⟩ := inspect_eq_ok looked
    exact cautious value program _ error after isOpen refused

/-- With a second action that cannot fail, an error comes from the first one. -/
theorem andFinally_eq_error {action : MachineM α} {afterwards : MachineM Unit} {program : Program}
    {machine after : Machine} {error : Error} (sure : Sure afterwards)
    (failed : andFinally action afterwards program machine = .error (.error error) after) :
    ∃ between, action program machine = .error (.error error) between ∧
      afterwards program between = .ok () after := by
  unfold andFinally at failed
  split at failed
  case h_1 =>
    split at failed <;> cases failed
    case h_2.refl second => exact absurd second (sure program _ _ _)
  case h_2 between first =>
    split at failed <;> cases failed
    case h_1.refl second => exact ⟨between, first, second⟩
    case h_2.refl second => exact absurd second (sure program _ _ _)
  case h_3 => cases failed

theorem Cautious.read_bind {next : Program → MachineM β} (cautious : ∀ value, Cautious (next value)) :
    Cautious (read >>= next) :=
  fun program => cautious program program

end Combinators

/-! ## Recording -/

theorem cautious_record (step : Step) : Cautious (record step) := by
  intro program machine error after isOpen failed
  rcases run_bind_eq_error failed with refused | ⟨_, _, read, refused⟩
  · cases refused
  cases read
  cases checked : machine.sequence.check step with
  | ok value =>
    rw [checked] at refused
    cases refused
  | error failure =>
    rw [checked] at refused
    cases refused
    exact .refl machine

theorem sure_assignSlot (id : ObjectId) (slot : Slot) : Sure (assignSlot id slot) := by
  intro program machine error after failed
  rcases run_bind_eq_error failed with refused | ⟨_, _, read, refused⟩
  · cases refused
  cases read
  cases assigned : machine.slots.assign id slot machine.heap with
  | ok slots =>
    rw [assigned] at refused
    cases refused
  | error breach =>
    rw [assigned] at refused
    cases refused

/-- A sequence that is full keeps its steps; the slot reserved for the new raster is never used. -/
theorem cautious_make (action : Action) (arguments : List Slot) (location : Location) :
    Cautious (make action arguments location) := by
  intro program machine error after isOpen failed
  rcases run_bind_eq_error failed with refused | ⟨slot, reserved, reserving, refused⟩
  · cases refused
  cases reserving
  rcases run_bind_eq_error refused with full | ⟨_, recorded, -, refused⟩
  · have kept := cautious_record _ program { machine with sequence := machine.sequence.reserve.2 }
      error after isOpen full
    exact { kept with }
  · have rest : Sure (do
        let id ← onHeap (Heap.register (.raster action.kind))
        assignSlot id machine.sequence.slotCount
        return id : MachineM ObjectId) :=
      (sure_onHeap (Heap.unfailing_register _)).bind fun _ =>
        (sure_assignSlot _ _).bind fun _ => sure_pure _
    exact absurd refused (rest program _ _ _)

theorem cautious_edit (receiver : ObjectId) (action : Action) (arguments : List Slot)
    (location : Location) : Cautious (edit receiver action arguments location) := by
  refine Cautious.inspect_bind fun target program machine error after isOpen failed => ?_
  rcases run_bind_eq_error failed with full | ⟨_, recorded, -, refused⟩
  · exact cautious_record _ program machine error after isOpen full
  · cases refused

end Machine

/-! ## Native functions -/

namespace Native

open Machine

/-- A variable that cannot be bound again is as it was, and so is the heap. -/
theorem assign_eq_error {target : Target} {value : ObjectId} {location : Location}
    {program : Program} {machine after : Machine} {error : Error}
    (failed : assign target value location program machine = .error (.error error) after) :
    after = machine := by
  rcases run_bind_eq_error failed with dangling | ⟨binding, between, looked, refused⟩
  · unfold inspect at dangling
    split at dangling <;> cases dangling
    rfl
  obtain ⟨-, rfl⟩ := inspect_eq_ok looked
  obtain dangling | ⟨_, _, read, refused⟩ := run_bind_eq_error refused
  · cases dangling
  cases read
  obtain broken | ⟨rebound, after', changed, refused⟩ := run_bind_eq_error refused
  · refine absurd broken (sure_onHeap ?_ program _ _ _)
    exact .ite (unfailing_pure _) (.ite (unfailing_pure _)
      ((Heap.unfailing_addRef _).bind fun _ => (Heap.unfailing_release _).bind fun _ =>
        unfailing_pure _))
  cases rebound with
  | some bindings => cases refused
  | none =>
    cases refused
    unfold onHeap at changed
    dsimp only at changed
    split at changed
    case h_2 => cases changed
    case h_1 heap rebinds =>
      cases changed
      unfold Bindings.rebind? at rebinds
      split at rebinds
      case isTrue =>
        cases rebinds
        rfl
      case isFalse =>
        split at rebinds
        case isTrue => cases rebinds
        case isFalse =>
          obtain ⟨_, _, -, rebinds⟩ := bind_eq_ok rebinds
          obtain ⟨_, _, -, rebinds⟩ := bind_eq_ok rebinds
          cases rebinds

theorem cautious_increment (delta : Float) (answersNew : Bool) (call : NativeCall) :
    Cautious (increment delta answersNew call) := by
  refine Cautious.inspect_bind ?_
  rintro ⟨target, old, new⟩ program machine error after isOpen failed
  obtain broken | ⟨stored, registered, made, refused⟩ := run_bind_eq_error failed
  · exact absurd broken (sure_onHeap (Heap.unfailing_register _) program _ _ _)
  obtain broken | ⟨_, counted, owned, refused⟩ := run_bind_eq_error refused
  · exact absurd broken (sure_onHeap (Heap.unfailing_addRef _) program _ _ _)
  obtain refused | ⟨_, _, -, broken⟩ := run_bind_eq_error refused
  case inr => exact absurd broken (sure_onHeap (Heap.unfailing_register _) program _ _ _)
  obtain ⟨between, readOnly, released⟩ := andFinally_eq_error
    (sure_onHeap (Heap.unfailing_release stored)) refused
  obtain rfl := assign_eq_error readOnly
  obtain ⟨_, registers, rfl⟩ := onHeap_eq_ok made
  obtain ⟨_, counts, rfl⟩ := onHeap_eq_ok owned
  obtain ⟨_, drops, rfl⟩ := onHeap_eq_ok released
  have cells := Heap.cell?_of_register_release isOpen rfl registers counts drops
  exact { Untouched.refl machine with cells }

theorem cautious_setIndex (call : NativeCall) : Cautious (setIndex call) := by
  refine Cautious.inspect_bind ?_
  rintro ⟨array, key?, value⟩
  cases key? with
  | none => exact ((sure_onHeap (Heap.unfailing_pushBack _ _)).bind fun _ => sure_pure _).cautious
  | some key => exact ((sure_onHeap (Heap.unfailing_setEntry _ _ _)).bind fun _ => sure_pure _).cautious

theorem cautious_register (query : Query Value) :
    Cautious (do onHeap (Heap.register (← inspect query))) :=
  Cautious.inspect_bind fun _ => (sure_onHeap (Heap.unfailing_register _)).cautious

theorem cautious_operator {call : NativeCall} {action : MachineM ObjectId}
    (found : operator? call = some action) : Cautious action := by
  unfold operator? at found
  split at found
  case h_1 =>
    cases found
    exact cautious_register _
  case h_2 =>
    split at found <;> cases found
    case h_5 => exact cautious_inspect _
    case h_6 => exact cautious_setIndex call
    all_goals exact cautious_increment _ _ call

theorem cautious_random (call : NativeCall) : Cautious (random call) := by
  refine Cautious.inspect_bind fun bounds => Sure.cautious ?_
  cases bounds with
  | none =>
    refine sure_get.bind fun machine => ?_
    rcases machine.random.nextUnit with ⟨value, random⟩
    exact Sure.bind (sure_modify _) fun _ => sure_onHeap (Heap.unfailing_register _)
  | some bounds =>
    refine sure_get.bind fun machine => ?_
    rcases machine.random.nextInt bounds.1 bounds.2 with ⟨value, random⟩
    refine Sure.bind (sure_modify _) fun _ => ?_
    cases value with
    | ok value => exact sure_onHeap (Heap.unfailing_register _)
    | error breach =>
      intro program machine error after failed
      cases failed

theorem cautious_function {call : NativeCall} {action : MachineM ObjectId}
    (found : function? call = some action) : Cautious action := by
  unfold function? at found
  split at found
  case h_1 =>
    cases found
    exact cautious_register _
  case h_2 =>
    split at found <;> cases found
    case h_1 => exact cautious_random call
    case h_2 =>
      exact Cautious.inspect_bind fun _ =>
        (Sure.bind (sure_modify _) fun _ => sure_get.bind fun _ => sure_pure _).cautious

theorem cautious_callGlobal (call : NativeCall) : Cautious (callGlobal call) := by
  unfold callGlobal
  cases operator : operator? call with
  | some action => exact cautious_operator operator
  | none =>
    cases function : function? call with
    | some action => exact cautious_function function
    | none => exact cautious_raise _

theorem sure_arrayOfList (values : List ObjectId) : Sure (arrayOfList values) :=
  (sure_onHeap (Heap.unfailing_register _)).bind fun _ =>
    (sure_forM (fun _ => sure_onHeap (Heap.unfailing_pushBack _ _)) values).bind fun _ => sure_pure _

theorem cautious_popEntry (receiver : ObjectId) (choose : ScriptArray → Option Entry)
    {remove : ObjectId → HeapM (Option Entry)} (unfailing : ∀ id, Unfailing (remove id))
    (call : NativeCall) : Cautious (popEntry receiver choose remove call) :=
  Cautious.inspect_bind fun _ => ((sure_onHeap (unfailing receiver)).discard.bind fun _ =>
    Sure.bind (sure_modify _) fun _ => sure_pure _).cautious

theorem cautious_removeKey (receiver : ObjectId) (call : NativeCall) :
    Cautious (removeKey receiver call) := by
  refine Cautious.inspect_bind fun key program machine error after isOpen failed => ?_
  obtain broken | ⟨removed, between, erased, refused⟩ := run_bind_eq_error failed
  · exact absurd broken (sure_onHeap (Heap.unfailing_removeKey _ _) program _ _ _)
  cases removed with
  | true => cases refused
  | false =>
    obtain ⟨heap, kept, rfl⟩ := onHeap_eq_ok erased
    obtain rfl := Heap.eq_of_removeKey_eq_false kept
    have cautious : Cautious (do
        let value ← inspect (Query.value key)
        raise (call.error .arrayKeyNotFound s!"key {value.describe} not found") : MachineM ObjectId) :=
      Cautious.inspect_bind fun _ => cautious_raise _
    exact cautious program machine error after isOpen refused

theorem cautious_arrayMethod {receiver : ObjectId} {call : NativeCall} {action : MachineM ObjectId}
    (found : arrayMethod? receiver call = some action) : Cautious action := by
  have probed {α : Type} {change : ObjectId → HeapM α} {answer : α → MachineM ObjectId}
      (unfailing : ∀ id, Unfailing (change id)) (answers : ∀ value, Sure (answer value)) :
      Cautious (do answer (← onHeap (change (← inspect (probe call))))) :=
    Cautious.inspect_bind fun id => ((sure_onHeap (unfailing id)).bind answers).cautious
  have reordered {change : HeapM Unit} (unfailing : Unfailing change) :
      Cautious (do inspect (call.expect 0 0); onHeap change; return receiver) :=
    Cautious.inspect_bind fun _ => ((sure_onHeap unfailing).bind fun _ => sure_pure _).cautious
  unfold arrayMethod? at found
  split at found <;> cases found
  case h_1 =>
    exact Cautious.inspect_bind fun _ => Cautious.inspect_bind fun _ =>
      (sure_onHeap (Heap.unfailing_register _)).cautious
  case h_2 => exact cautious_inspect _
  case h_3 => exact cautious_inspect _
  case h_4 => exact probed (Heap.unfailing_pushBack receiver) fun _ => sure_pure _
  case h_5 => exact cautious_popEntry _ _ Heap.unfailing_popFront? _
  case h_6 => exact cautious_popEntry _ _ Heap.unfailing_popBack? _
  case h_7 =>
    exact probed (Heap.unfailing_entryOf? receiver) fun _ => sure_onHeap (Heap.unfailing_register _)
  case h_8 =>
    exact probed (Heap.unfailing_containsValue receiver) fun _ => sure_onHeap (Heap.unfailing_register _)
  case h_9 => exact cautious_removeKey receiver call
  case h_10 =>
    exact Cautious.inspect_bind fun _ =>
      ((sure_onHeap (Heap.unfailing_removeValue _ _)).discard.bind fun _ => sure_pure _).cautious
  case h_11 => exact cautious_inspect _
  case h_12 => exact cautious_inspect _
  case h_13 => exact reordered (Heap.unfailing_sortByKeys receiver)
  case h_14 => exact reordered (Heap.unfailing_sortByValues receiver)
  case h_15 =>
    exact Cautious.inspect_bind fun _ => (sure_get.bind fun _ =>
      (sure_onHeap (Heap.unfailing_shuffle _ _)).bind fun _ => Sure.bind (sure_modify _) fun _ =>
      sure_pure _).cautious

theorem cautious_memberFunction {script : Script} {receiver : ObjectId} {value : Value}
    {call : NativeCall} {action : MachineM ObjectId}
    (found : memberFunction? script receiver value call = some action) : Cautious action := by
  unfold memberFunction? staticFunction? at found
  split at found
  case h_1 =>
    split at found
    case h_1 =>
      obtain ⟨query, -, rfl⟩ := Option.map_eq_some_iff.1 found
      exact Cautious.inspect_bind fun _ => cautious_make _ _ _
    case h_2 =>
      obtain ⟨query, -, rfl⟩ := Option.map_eq_some_iff.1 found
      exact Cautious.inspect_bind fun _ => cautious_make _ _ _
    case h_3 =>
      unfold arrayStatic? at found
      split at found <;> cases found
      · exact Cautious.inspect_bind fun _ => (sure_arrayOfList _).cautious
      · exact (sure_arrayOfList _).cautious
    case h_4 =>
      obtain ⟨query, -, rfl⟩ := Option.map_eq_some_iff.1 found
      exact cautious_register _
  case h_2 =>
    obtain ⟨query, -, rfl⟩ := Option.map_eq_some_iff.1 found
    exact Cautious.inspect_bind fun _ => cautious_edit _ _ _ _
  case h_3 =>
    obtain ⟨query, -, rfl⟩ := Option.map_eq_some_iff.1 found
    exact Cautious.inspect_bind fun _ => cautious_edit _ _ _ _
  case h_4 => exact cautious_arrayMethod found
  case h_5 => cases found

theorem cautious_callMember (receiver : ObjectId) (call : NativeCall) :
    Cautious (callMember receiver call) := by
  refine Cautious.inspect_bind fun value => ?_
  cases value with
  | null => exact cautious_raise _
  | _ =>
    refine Cautious.read_bind fun program => ?_
    split
    case h_1 _ found => exact cautious_memberFunction found
    case h_2 => exact cautious_raise _

theorem cautious_loadMember (receiver : ObjectId) (name : String) (location : Location) :
    Cautious (loadMember receiver name location) :=
  cautious_register _

end Native

/-! ## Runs -/

namespace Machine

variable {program : Program} {machine : Machine}

/-- A native call that ends with an error has changed nothing, whatever the call and its arguments.
`calling` is the machine when an instruction makes the call: the instruction is counted and the
arguments are off the stack, which leaves the heap of the state of the run as it is. -/
theorem refused_call_untouched (reached : Reachable program machine) {calling : Machine}
    (same : calling.heap = machine.heap) :
    (∀ call error after, Native.callGlobal call program calling = .error (.error error) after →
        calling.Untouched after) ∧
      (∀ receiver call error after,
        Native.callMember receiver call program calling = .error (.error error) after →
        calling.Untouched after) ∧
      ∀ receiver name location error after,
        Native.loadMember receiver name location program calling = .error (.error error) after →
        calling.Untouched after := by
  have isOpen : calling.heap.closed = false := same ▸ reached.sound.accounted.isOpen
  refine ⟨fun call error after => ?_, fun receiver call error after => ?_,
    fun receiver name location error after => ?_⟩
  · exact Native.cautious_callGlobal call program calling error after isOpen
  · exact Native.cautious_callMember receiver call program calling error after isOpen
  · exact Native.cautious_loadMember receiver name location program calling error after isOpen

/-- The copy in the second call is refused when it has reserved a slot, and so is counting up a constant
when the next number has been registered. -/
theorem survey_refused_call_untouched : ∃ machine, Reachable (survey 6) machine ∧
    machine.status = .ready ∧ machine.operands.items = [1, 13] ∧
    (∃ error after,
      Native.callMember 1 ⟨.start, "Clone", [13]⟩ (survey 6) { machine with operands := ⟨[], 10000⟩ } =
        .error (.error error) after ∧
      after.sequence.slotCount = machine.sequence.slotCount + 1 ∧
      { machine with operands := ⟨[], 10000⟩ }.Untouched after) ∧
    ∃ error after,
      Native.callGlobal ⟨.start, "++pre", [8]⟩ (survey 6) machine = .error (.error error) after ∧
      after.heap.cells.size = machine.heap.cells.size + 1 ∧ machine.Untouched after := by
  obtain ⟨machine, reached, ready, operands, cloned, counted⟩ :
      ∃ machine, Reachable (survey 6) machine ∧ machine.status = .ready ∧
      machine.operands.items = [1, 13] ∧
      ((Upshot.refused? (Native.callMember 1 ⟨.start, "Clone", [13]⟩ (survey 6)
          { machine with operands := ⟨[], 10000⟩ })).any fun (_, after) =>
        after.sequence.slotCount = machine.sequence.slotCount + 1) ∧
      (Upshot.refused? (Native.callGlobal ⟨.start, "++pre", [8]⟩ (survey 6) machine)).any
        fun (_, after) => after.heap.cells.size = machine.heap.cells.size + 1 :=
    exists_reachable 58 (by decide +kernel)
  obtain ⟨⟨error, after⟩, refused, slots⟩ := (Option.any_eq_true _ _).1 cloned
  obtain ⟨⟨error', after'⟩, refused', cells⟩ := (Option.any_eq_true _ _).1 counted
  have called := Upshot.eq_error_of_refused? refused
  have called' := Upshot.eq_error_of_refused? refused'
  -- the member call is made when its operands have been taken, which leaves the heap as it is
  have same : { machine with operands := ⟨[], 10000⟩ }.heap = machine.heap := rfl
  have member := (refused_call_untouched reached same).2.1 _ _ _ _ called
  have global := (refused_call_untouched reached rfl).1 _ _ _ called'
  exact ⟨machine, reached, ready, operands, ⟨error, after, called, of_decide_eq_true slots, member⟩,
    error', after', called', of_decide_eq_true cells, global⟩

end Machine

end Terrain
