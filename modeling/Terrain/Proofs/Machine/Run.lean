import Terrain.Machine.Step
import Terrain.Proofs.Native.Functions

/-!
# Soundness of runs

Every instruction keeps the counts exact and records at most one step, whether it ends or fails, and
so does every step of the machine. All states a run can reach are therefore sound.

* `Machine.ends_execute`, `Machine.ends_step` — what one instruction and one step preserve.
* `Machine.Reachable` — the states of runs; `Machine.Reachable.sound` is the invariant.
-/

namespace Terrain.Machine

variable {program : Program} {machine : Machine} {ledger : Ledger} {steps : Array Step}
  {extra : Multiset ObjectId} {location : Location}

/-! ## Declarations and conditions -/

/-- Declaring a name in the innermost block. -/
theorem ends_declareIn {block : Block} {name : String} {value : ObjectId} {isConst : Bool}
    {refused : Machine → Prop} (sound : machine.Sound ledger extra ∅)
    (top : machine.calls.topBlock? = some block) (live : machine.heap.contains value) :
    Ends (onHeap (block.locals.declare? name value isConst) program machine)
      (fun declared after => match declared with
        | some locals => after.calls = machine.calls ∧ Sound { after with
            calls := machine.calls.setTopBlock { block with locals } } ledger extra ∅
        | none => after = machine)
      refused := by
  have emptied := @CallStack.held_setTopBlock machine.calls { block with locals := .empty } block top
  rw [Bindings.held_empty, add_zero] at emptied
  have accounted : machine.heap.Accounted (block.locals.held + ((machine.calls.setTopBlock
      { block with locals := .empty }).held + (↑machine.operands.items + machine.globals.held +
        ↑machine.pending + {machine.null}) + extra)) ∅ machine.handles := by
    refine sound.accounted.of_eq ?_
    unfold held
    rw [← emptied]
    abel
  refine ends_onHeap ((Bindings.ends_declare? (sound.calls.topBlock? top) accounted live).weaken.then ?_)
  intro declared heap outcome
  cases declared with
  | none =>
    cases (outcome : heap = machine.heap)
    exact rfl
  | some locals =>
    obtain ⟨ordered, accounted, -⟩ : locals.Ordered ∧ _ := outcome
    refine ⟨rfl, { sound with
      accounted := (accounted.mono Set.sdiff_subset).of_eq ?_
      calls := sound.calls.setTopBlock ordered }⟩
    have filled := @CallStack.held_setTopBlock machine.calls { block with locals } block top
    have both : (machine.calls.setTopBlock { block with locals }).held =
        locals.held + (machine.calls.setTopBlock { block with locals := .empty }).held := by
      apply add_right_cancel (b := block.locals.held)
      rw [filled, ← emptied]
      abel
    simp only [held]
    rw [both]
    abel

theorem ends_declareLocal {name : String} {isConst : Bool} (sound : machine.Sound ledger extra ∅) :
    Ends (declareLocal location name isConst program machine)
      (fun _ machine => machine.Sound ledger extra ∅)
      (fun machine => machine.Sound ledger extra ∅) := by
  refine ends_bind ((ends_pop sound).imp ?_ (by rintro _ rfl; exact sound))
  intro value machine sound
  have live := sound.live (Multiset.mem_cons_self value extra)
  refine ends_get ?_
  cases top : machine.calls.topBlock? with
  | none => exact ends_bind ((ends_release sound).then fun _ _ sound => ends_raise sound)
  | some block =>
    refine ends_bind ((ends_declareIn sound top live).then fun declared after outcome => ?_)
    cases declared with
    | none =>
      cases (outcome : after = machine)
      exact ends_bind ((ends_release sound).then fun _ _ sound => ends_raise sound)
    | some locals => exact ends_modify (ends_release outcome.2)

/-- Looking at a live object does not fail. -/
theorem ends_inspectValue {id : ObjectId} {done : Value → Machine → Prop} {refused : Machine → Prop}
    (live : machine.heap.contains id) (ends : ∀ value, done value machine) :
    Ends (inspect (Query.value id) program machine) done refused := by
  obtain ⟨cell, found⟩ := Option.isSome_iff_exists.1 live
  unfold inspect Query.value
  rw [found]
  exact ends cell.value

theorem ends_popCondition (sound : machine.Sound ledger extra ∅) :
    Ends (popCondition location program machine) (fun _ machine => machine.Sound ledger extra ∅)
      (fun machine => machine.Sound ledger extra ∅) := by
  refine ends_bind ((ends_pop sound).imp ?_ (by rintro _ rfl; exact sound))
  intro condition machine sound
  have live := sound.live (Multiset.mem_cons_self condition extra)
  refine ends_bind (ends_inspectValue live fun value => ?_)
  refine ends_bind ((ends_release sound).then fun _ machine sound => ?_)
  cases value with
  | boolean taken => exact ends_pure sound
  | _ => exact ends_raise sound

/-! ## Calls -/

theorem topBlock?_setTopBlock {calls : CallStack} {old block : Block}
    (top : calls.topBlock? = some old) : (calls.setTopBlock block).topBlock? = some block := by
  obtain ⟨call, callers, outer, shape, blocks⟩ := CallStack.topBlock?_eq_some top
  simp [CallStack.setTopBlock, shape, CallStack.topBlock?, BlockStack.setTop, BlockStack.top?]

theorem ends_bindParameters {function : String} : ∀ (parameters : List (String × ObjectId))
    (block : Block) (machine : Machine), machine.Sound ledger extra ∅ →
      machine.calls.topBlock? = some block → (∀ parameter ∈ parameters, parameter.2 ∈ extra) →
      Ends (bindParameters function block parameters program machine)
        (fun _ machine => machine.Sound ledger extra ∅)
        (fun machine => machine.Sound ledger extra ∅)
  | [], _, _, sound, _, _ => ends_pure sound
  | (parameter, argument) :: rest, block, machine, sound, top, owned => by
    have live := sound.live (owned _ List.mem_cons_self)
    refine ends_bind ((ends_declareIn sound top live).then fun declared after outcome => ?_)
    cases declared with
    | none =>
      cases (outcome : after = machine)
      exact ends_raise sound
    | some locals =>
      obtain ⟨same, sound⟩ := outcome
      refine ends_modify (ends_bindParameters rest _ _ (same ▸ sound) ?_ ?_)
      · exact topBlock?_setTopBlock (same ▸ top)
      · exact fun other member => owned other (List.mem_cons_of_mem _ member)

theorem ends_callFunction {name : String} {function : ScriptFunction} {arguments : List ObjectId}
    (sound : machine.Sound ledger extra ∅) (owned : ∀ id ∈ arguments, id ∈ extra) :
    Ends (callFunction location name function arguments program machine)
      (fun _ machine => machine.Sound ledger extra ∅)
      (fun machine => machine.Sound ledger extra ∅) := by
  have entered : Ends ((do
      enterCall location name function.body
      bindParameters name (.start location function.body false)
        (function.parameters.zip arguments) : MachineM Unit) program machine)
      (fun _ machine => machine.Sound ledger extra ∅)
      (fun machine => machine.Sound ledger extra ∅) := by
    refine ends_bind ((ends_enterCall sound).imp ?_ (by rintro _ rfl; exact sound))
    rintro - machine ⟨sound, -, top⟩
    exact ends_bindParameters _ _ _ sound top fun parameter member =>
      owned _ (List.of_mem_zip member).2
  unfold callFunction
  dsimp only
  split
  · exact ends_bind (ends_raise sound)
  · exact entered

/-- The arguments and what a native call has handed over are given back in the end, and its result is
on the stack or gone. -/
theorem ends_finishNative {native : MachineM ObjectId} {arguments : List ObjectId}
    (delivers : Delivers native program machine ledger (↑arguments + extra)) :
    Ends (finishNative native arguments location program machine)
      (fun _ machine => machine.Recorded ⟨[], ledger.steps⟩ extra ∅)
      (fun machine => machine.Recorded ⟨[], ledger.steps⟩ extra ∅) := by
  have givenBack (machine : Machine) (grown : machine.Grown ledger (↑arguments + extra) ∅) :
      Ends ((do
          onHeap (Heap.releaseAll arguments)
          let pending := (← get).pending
          modify fun machine => { machine with pending := [] }
          onHeap (Heap.releaseAll pending) : MachineM Unit) program machine)
        (fun _ machine => machine.Recorded ⟨[], ledger.steps⟩ extra ∅)
        (fun machine => machine.Recorded ⟨[], ledger.steps⟩ extra ∅) := by
    obtain ⟨after, grows, sound⟩ := grown
    refine ends_bind ((ends_releaseAll sound).then fun _ machine sound => ends_get (ends_modify ?_))
    have emptied : ({ machine with pending := [] } : Machine).Sound ⟨[], after.steps⟩
        (↑machine.pending + extra) ∅ := by
      refine { sound with accounted := sound.accounted.of_eq ?_, pending := rfl }
      simp only [held, Multiset.coe_nil]
      abel
    exact (ends_releaseAll emptied).then fun _ machine sound => ⟨after.steps, grows, sound⟩
  refine ends_andFinally (ends_bind (Ends.imp delivers ?_ fun machine grown => ?_))
  · rintro result machine ⟨⟨after, grows, sound⟩, live⟩
    refine ends_onError ((ends_push sound live).imp ?_ ?_)
    · intro _ machine sound
      exact givenBack machine ⟨after, grows, sound.mono (by simp)⟩
    · rintro _ rfl
      refine (ends_destroyIfUnreferenced sound).then fun _ machine sound => ?_
      exact givenBack machine ⟨after, grows, sound.mono (by simp)⟩
  · exact givenBack machine grown

theorem ends_callGlobal {name : String} {count : Nat} (sound : machine.Sound ⟨[], steps⟩ extra ∅) :
    Ends (callGlobal location name count program machine)
      (fun _ machine => machine.Recorded ⟨[], steps⟩ extra ∅)
      (fun machine => machine.Recorded ⟨[], steps⟩ extra ∅) := by
  refine ends_bind ((ends_take sound).imp ?_ (by rintro _ rfl; exact sound.atRest))
  intro arguments machine sound
  have owned (id : ObjectId) (member : id ∈ arguments) : id ∈ (↑arguments + extra : Multiset ObjectId) :=
    Multiset.mem_add.2 (.inl (Multiset.mem_coe.2 member))
  refine ends_read ?_
  cases program.script.functions.get? name with
  | none => exact ends_finishNative (Native.delivers_callGlobal sound owned)
  | some function =>
    refine ends_andFinally ((ends_callFunction sound owned).imp ?_ ?_)
    · intro _ machine sound
      exact (ends_releaseAll sound).then fun _ _ sound => sound.atRest
    · intro machine sound
      exact (ends_releaseAll sound).then fun _ _ sound => sound.atRest

theorem ends_releaseRecorded {id : ObjectId} {refused : Machine → Prop}
    (recorded : machine.Recorded ⟨[], steps⟩ (id ::ₘ extra) ∅) :
    Ends (onHeap (Heap.release id) program machine)
      (fun _ machine => machine.Recorded ⟨[], steps⟩ extra ∅) refused := by
  obtain ⟨after, grows, sound⟩ := recorded
  exact (ends_release sound).then fun _ _ sound => ⟨after, grows, sound⟩

theorem ends_callMember {name : String} {count : Nat} (sound : machine.Sound ⟨[], steps⟩ extra ∅) :
    Ends (callMember location name count program machine)
      (fun _ machine => machine.Recorded ⟨[], steps⟩ extra ∅)
      (fun machine => machine.Recorded ⟨[], steps⟩ extra ∅) := by
  refine ends_bind ((ends_pop sound).imp ?_ (by rintro _ rfl; exact sound.atRest))
  intro receiver machine sound
  refine ends_andFinally (ends_bind ((ends_take sound).imp ?_ ?_))
  · intro arguments machine sound
    have owned (id : ObjectId) (member : id ∈ arguments) :
        id ∈ (↑arguments + receiver ::ₘ extra : Multiset ObjectId) :=
      Multiset.mem_add.2 (.inl (Multiset.mem_coe.2 member))
    have ownReceiver : receiver ∈ (↑arguments + receiver ::ₘ extra : Multiset ObjectId) :=
      Multiset.mem_add.2 (.inr (Multiset.mem_cons_self _ _))
    refine (ends_finishNative (Native.delivers_callMember sound owned ownReceiver)).imp ?_ ?_
    · intro _ machine recorded
      exact ends_releaseRecorded recorded
    · intro machine recorded
      exact ends_releaseRecorded recorded
  · rintro _ rfl
    exact ends_releaseRecorded sound.atRest

/-! ## Operations -/

theorem ends_yieldTop {name : String} (sound : machine.Sound ⟨[], steps⟩ extra ∅) :
    Ends (execute.yieldTop location name program machine)
      (fun _ machine => machine.Recorded ⟨[], steps⟩ extra ∅)
      (fun machine => machine.Recorded ⟨[], steps⟩ extra ∅) := by
  refine ends_bind ((ends_pop sound).imp ?_ (by rintro _ rfl; exact sound.atRest))
  intro id machine sound
  have live := sound.live (Multiset.mem_cons_self id extra)
  refine ends_andFinally ((ends_yieldObject sound live).imp ?_ ?_)
  · intro _ machine recorded
    exact ends_releaseRecorded recorded
  · intro machine recorded
    exact ends_releaseRecorded recorded

theorem answers_target {name : String} :
    Answers (Query.target name location program machine) fun _ => True := by
  unfold Query.target
  cases machine.target? name <;> trivial

theorem mem_held_of_top {id : ObjectId} (top : machine.operands.top = .ok id) : id ∈ machine.held := by
  unfold OperandStack.top at top
  split at top
  case h_1 first items shape =>
    cases top
    simp [held, shape]
  case h_2 => cases top

/-- An instruction that records nothing. -/
theorem ends_atRest {α : Type} {result : EStateM.Result Failure Machine α}
    (ends : Ends result (fun _ machine => machine.Sound ⟨[], steps⟩ extra ∅)
      (fun machine => machine.Sound ⟨[], steps⟩ extra ∅)) :
    Ends result (fun _ machine => machine.Recorded ⟨[], steps⟩ extra ∅)
      (fun machine => machine.Recorded ⟨[], steps⟩ extra ∅) :=
  ends.imp (fun _ _ sound => sound.atRest) fun _ sound => sound.atRest

/-- A push of a live object. -/
theorem ends_pushLive {id : ObjectId} (sound : machine.Sound ledger extra ∅)
    (live : machine.heap.contains id) :
    Ends (push id location program machine) (fun _ machine => machine.Sound ledger extra ∅)
      (fun machine => machine.Sound ledger extra ∅) :=
  (ends_push sound live).imp (fun _ _ sound => sound.mono (by simp)) (by rintro _ rfl; exact sound)

theorem ends_enterBlockHere {code : CodeBlock} {looping : Bool}
    (sound : machine.Sound ledger extra ∅) :
    Ends (enterBlock location code looping program machine)
      (fun _ machine => machine.Sound ledger extra ∅)
      (fun machine => machine.Sound ledger extra ∅) :=
  (ends_enterBlock sound).imp (fun _ _ => id) (by rintro _ rfl; exact sound)

/-- Every instruction keeps the counts exact and records at most one step. -/
theorem ends_execute {operation : Operation} (sound : machine.Sound ⟨[], steps⟩ extra ∅) :
    Ends (execute location operation program machine)
      (fun _ machine => machine.Recorded ⟨[], steps⟩ extra ∅)
      (fun machine => machine.Recorded ⟨[], steps⟩ extra ∅) := by
  cases operation with
  | loadNumber value => exact ends_atRest (ends_pushNew sound (Value.isPlain_number value))
  | loadText value => exact ends_atRest (ends_pushNew sound (Value.isPlain_text value))
  | loadBoolean value => exact ends_atRest (ends_pushNew sound (Value.isPlain_boolean value))
  | loadNull => exact ends_atRest (ends_get (ends_pushLive sound sound.null_live))
  | loadVariable name =>
    refine ends_atRest (ends_bind (ends_inspect (answers_target.imp fun target _ => ?_) sound))
    refine ends_bind (ends_inspect (answers_binding.imp fun binding found => ?_) sound)
    exact ends_pushLive sound (sound.binding_live found)
  | loadReference name =>
    refine ends_atRest (ends_bind (ends_inspect (answers_target.imp fun target _ => ?_) sound))
    exact ends_pushNew sound ⟨rfl, by simp⟩
  | loadMember name =>
    refine ends_atRest (ends_bind ((ends_popRoom sound).imp ?_ (by rintro _ rfl; exact sound)))
    rintro receiver machine ⟨sound, room⟩
    have live := sound.live (Multiset.mem_cons_self receiver extra)
    -- the receiver has left room for the member, so that the new object is not left over
    refine ends_andFinally (ends_bind (ends_bind (ends_inspect
      ((Native.answers_member live).imp fun value plain => ?_) (ends_release sound))))
    refine ends_onHeap ((Heap.ends_register sound.accounted plain).weaken.then ?_)
    rintro id heap ⟨accounted, stored, -⟩
    have extended : ({ machine with heap } : Machine).Sound ⟨[], steps⟩ (receiver ::ₘ extra)
        (insert id ∅) := sound.withHeap accounted
    refine (ends_pushRoom extended (Heap.contains_of_cell? stored) room).then fun _ machine sound => ?_
    exact ends_release (sound.mono (by simp))
  | storeVariable name =>
    refine ends_atRest (ends_get (ends_bind (ends_orRaise sound fun value top => ?_)))
    refine ends_bind (ends_inspect (answers_target.imp fun target _ => ?_) sound)
    exact ends_assign sound (sound.live_of_mem_held (mem_held_of_top top))
  | declareLocal name isConst => exact ends_atRest (ends_declareLocal sound)
  | declareGlobal name isConst =>
    refine ends_atRest (ends_bind ((ends_pop sound).imp ?_ (by rintro _ rfl; exact sound)))
    intro value machine sound
    have live := sound.live (Multiset.mem_cons_self value extra)
    refine ends_andFinally ((ends_declareGlobal sound live).imp ?_ ?_)
    · intro _ machine sound
      exact ends_release (sound.mono (by simp))
    · intro machine sound
      exact ends_release (sound.mono (by simp))
  | callGlobal name count => exact ends_callGlobal sound
  | callMember name count => exact ends_callMember sound
  | pop =>
    refine ends_atRest (ends_bind ((ends_pop sound).imp ?_ (by rintro _ rfl; exact sound)))
    exact fun _ _ sound => ends_release sound
  | ifElse thenBranch elseBranch =>
    exact ends_atRest (ends_bind ((ends_popCondition sound).then fun _ _ sound =>
      ends_enterBlockHere sound))
  | loop body => exact ends_atRest (ends_enterBlockHere sound)
  | block body => exact ends_atRest (ends_enterBlockHere sound)
  | breakLoop depth => exact ends_atRest (ends_breakLoop sound)
  | continueLoop depth => exact ends_atRest (ends_continueLoop sound)
  | returnCall => exact ends_atRest (ends_leaveCall sound)
  | yieldNamed name => exact ends_yieldTop sound
  | yieldMain => exact ends_yieldTop sound

/-! ## Steps -/

theorem ends_fetch {refused : Machine → Prop} (sound : machine.Sound ledger extra ∅) :
    Ends (fetch program machine) (fun _ machine => machine.Sound ledger extra ∅) refused := by
  refine ends_get ?_
  cases top : machine.calls.topBlock? with
  | none => exact ends_pure sound
  | some block =>
    dsimp only
    cases block.code[block.cursor]? with
    | none => exact ends_pure sound
    | some instruction =>
      refine ends_modify (ends_pure ?_)
      have same := @CallStack.held_setTopBlock machine.calls
        { block with cursor := block.cursor + 1 } block top
      have ordered : block.locals.Ordered := sound.calls.topBlock? top
      refine sound.withCalls (sound.calls.setTopBlock ordered) ?_
      rw [← add_right_cancel same]

theorem ends_finish (sound : machine.Sound ledger extra ∅) :
    Ends (finish program machine) (fun _ machine => machine.Sound ledger extra ∅)
      (fun machine => machine.Sound ledger extra ∅) := by
  refine ends_bind ((ends_truncate sound).then fun _ machine sound => ends_read (ends_get ?_))
  refine ends_ite (fun _ => ends_bind (ends_raise sound)) fun _ => ?_
  have finished : ({ machine with status := .finished } : Machine).Sound ledger extra ∅ :=
    { sound with }
  exact finished

theorem ends_unwindFor : ∀ (fuel : Nat) (machine : Machine), machine.Sound ledger extra ∅ →
    Ends (unwindFor fuel program machine) (fun _ machine => machine.Sound ledger extra ∅)
      (fun machine => machine.Sound ledger extra ∅)
  | 0, machine, sound => ends_pure sound
  | fuel + 1, machine, sound => by
    refine ends_get ?_
    cases machine.calls.entries with
    | nil => exact ends_bind ((ends_finish sound).then fun _ _ sound => ends_pure sound)
    | cons call callers =>
      dsimp only
      cases call.blocks.top? with
      | none =>
        exact ends_bind ((ends_leaveCall sound).then fun _ machine sound =>
          ends_unwindFor fuel machine sound)
      | some block =>
        dsimp only
        split
        · exact ends_pure sound
        split
        · exact ends_bind ((ends_restartBlock sound).then fun _ _ sound => ends_pure sound)
        · refine ends_bind ((ends_leaveBlock sound).imp ?_ (by rintro _ rfl; exact sound))
          exact fun _ machine sound => ends_unwindFor fuel machine sound

theorem ends_advance (sound : machine.Sound ⟨[], steps⟩ extra ∅) :
    Ends (advance program machine) (fun _ machine => machine.Recorded ⟨[], steps⟩ extra ∅)
      (fun machine => machine.Recorded ⟨[], steps⟩ extra ∅) := by
  have unwound (machine : Machine) (recorded : machine.Recorded ⟨[], steps⟩ extra ∅) :
      Ends ((do unwindFor (← get).depth : MachineM Progress) program machine)
        (fun _ machine => machine.Recorded ⟨[], steps⟩ extra ∅)
        (fun machine => machine.Recorded ⟨[], steps⟩ extra ∅) := by
    obtain ⟨after, grows, sound⟩ := recorded
    exact ends_get ((ends_unwindFor _ machine sound).imp (fun _ _ sound => ⟨after, grows, sound⟩)
      fun _ sound => ⟨after, grows, sound⟩)
  refine ends_bind ((ends_fetch sound).then fun fetched machine sound => ?_)
  cases fetched with
  | none => exact unwound machine sound.atRest
  | some instruction =>
    exact ends_bind ((ends_execute sound).then fun _ machine recorded => unwound machine recorded)

/-- A step keeps the counts exact and records at most one rendering step, also when it fails. -/
theorem ends_step (sound : machine.Sound ⟨[], steps⟩ extra ∅) :
    Ends (step program machine) (fun _ machine => machine.Recorded ⟨[], steps⟩ extra ∅)
      (fun machine => machine.Recorded ⟨[], steps⟩ extra ∅) := by
  refine ends_get (ends_ite (fun _ => ends_bind (ends_raise sound.atRest)) fun _ => ?_)
  refine ends_onError ((ends_advance sound).imp (fun _ _ => id) fun machine recorded => ?_)
  obtain ⟨after, grows, sound⟩ := recorded
  have faulted : ({ machine with status := .faulted } : Machine).Sound ⟨[], after⟩ extra ∅ :=
    { sound with }
  exact ⟨after, grows, faulted⟩

/-! ## Starting -/

theorem ends_declareNew {name : String} {value : Value} {isConst : Bool}
    (sound : machine.Sound ledger extra ∅) (plain : value.IsPlain) :
    Ends (declareNew name value isConst program machine)
      (fun _ machine => machine.Sound ledger extra ∅) (fun _ => True) := by
  refine ends_bind ((ends_register sound plain).then ?_)
  rintro id machine ⟨sound, stored⟩
  refine (ends_declareGlobal sound (Heap.contains_of_cell? stored)).imp ?_ fun _ _ => trivial
  exact fun _ machine sound => sound.mono (by simp)

theorem ends_declareEach {α : Type} {name : α → String} {value : α → Value} {isConst : α → Bool}
    (plain : ∀ item, (value item).IsPlain) : ∀ (items : List α) (machine : Machine),
      machine.Sound ledger extra ∅ →
      Ends ((items.forM fun item => declareNew (name item) (value item) (isConst item)) program machine)
        (fun _ machine => machine.Sound ledger extra ∅) (fun _ => True)
  | [], _, sound => ends_pure sound
  | item :: items, _, sound =>
    ends_bind ((ends_declareNew sound (plain item)).then fun _ machine sound =>
      ends_declareEach plain items machine sound)

theorem isPlain_initialValue (constant : Constant) : (initialValue constant).IsPlain := by
  cases constant <;> exact ⟨rfl, by simp [initialValue]⟩

/-- Nothing is held, bound, called or recorded yet. -/
structure Blank (machine : Machine) : Prop where
  heap : machine.heap = .empty
  operands : machine.operands.items = []
  calls : machine.calls.entries = []
  globals : machine.globals = .empty
  pending : machine.pending = []
  slots : machine.slots = .empty
  slotCount : machine.sequence.WellFormed
  steps : machine.sequence.steps = #[]

theorem blank_blank (program : Program) : Blank (blank program) :=
  ⟨rfl, rfl, rfl, rfl, rfl, rfl, Sequence.wellFormed_empty _ _, rfl⟩

theorem ends_boot (blank : Blank machine) : Ends (boot program machine)
    (fun _ machine => machine.Sound ⟨[], #[]⟩ 0 ∅) (fun _ => True) := by
  have empty : machine.heap.Accounted 0 ∅ machine.handles := by
    rw [blank.heap]
    exact Heap.accounted_empty _ (by simp [handles, blank.slots, SlotTable.floor, SlotTable.empty])
  have nothing : (Value.null).IsPlain := ⟨rfl, by simp⟩
  refine ends_read (ends_bind (ends_onHeap ((Heap.ends_register empty nothing).weaken.then ?_)))
  rintro null heap ⟨accounted, stored, -⟩
  refine ends_bind (ends_onHeap
    ((Heap.ends_addRef accounted (Heap.contains_of_cell? stored)).weaken.then ?_))
  rintro - heap ⟨accounted, -⟩
  refine ends_modify ?_
  have sound : ({ machine with heap, null } : Machine).Sound ⟨[], #[]⟩ 0 ∅ :=
    { accounted := (accounted.mono (by simp)).of_eq (by
        simp [held, blank.operands, CallStack.held, blank.calls, blank.globals, blank.pending])
      globals := by simpa only [blank.globals] using Bindings.ordered_empty
      calls := fun call member => by simp [blank.calls] at member
      room := by simp [OperandStack.size, blank.operands]
      recorded := blank.slotCount
      pending := blank.pending
      steps := blank.steps }
  refine ends_bind ((ends_declareEach (fun _ => ⟨rfl, by simp⟩) _ _ sound).then fun _ machine sound => ?_)
  refine ends_bind ((ends_declareNew sound ⟨rfl, by simp⟩).then fun _ machine sound => ?_)
  refine ends_bind ((ends_declareEach (fun _ => isPlain_initialValue _) _ _ sound).then
    fun _ machine sound => ?_)
  exact (ends_enterCall sound).imp (fun _ _ entered => entered.1) fun _ _ => trivial

/-! ## Runs -/

/-- The states of runs: the one before the first step and those after any number of steps, the last
of which may have failed. -/
inductive Reachable (program : Program) : Machine → Prop where
  | start {machine : Machine} (started : start program = .ok machine) : Reachable program machine
  | step {machine after : Machine} {progress : Progress} (reached : Reachable program machine)
      (stepped : step program machine = .ok progress after) : Reachable program after
  | failed {machine after : Machine} {error : Error} (reached : Reachable program machine)
      (stepped : step program machine = .error (.error error) after) : Reachable program after

theorem boot_of_start (started : start program = .ok machine) :
    boot program (blank program) = .ok () machine := by
  unfold start at started
  split at started
  case h_1 => cases started
  case h_2 =>
    split at started
    case h_1 _ _ outcome =>
      rw [outcome]
      cases started
      rfl
    case h_2 => cases started

theorem sound_start (started : start program = .ok machine) : machine.Sound ⟨[], #[]⟩ 0 ∅ := by
  have unstarted := blank_blank program
  have booted := boot_of_start started
  generalize blank program = before at unstarted booted
  have sound := @ends_boot program before unstarted
  rw [booted] at sound
  exact sound

/-- Every state of a run is sound. -/
theorem Reachable.sound (reached : Reachable program machine) :
    machine.Sound ⟨[], machine.sequence.steps⟩ 0 ∅ := by
  have whole : ∃ steps, machine.Sound ⟨[], steps⟩ 0 ∅ := by
    induction reached with
    | start started => exact ⟨_, sound_start started⟩
    | step _ stepped ih =>
      obtain ⟨steps, sound⟩ := ih
      have stepSound := @ends_step program _ _ _ sound
      rw [stepped] at stepSound
      obtain ⟨after, -, sound⟩ := stepSound
      exact ⟨after, sound⟩
    | failed _ stepped ih =>
      obtain ⟨steps, sound⟩ := ih
      have stepSound := @ends_step program _ _ _ sound
      rw [stepped] at stepSound
      obtain ⟨after, -, sound⟩ := stepSound
      exact ⟨after, sound⟩
  obtain ⟨steps, sound⟩ := whole
  cases sound.steps
  exact sound

theorem Reachable.runFor {after : Machine} {steps : Nat}
    (reached : Reachable program machine) (ran : Machine.runFor program steps machine = .ok () after) :
    Reachable program after := by
  induction steps generalizing machine with
  | zero =>
    cases ran
    exact reached
  | succ steps ih =>
    unfold Machine.runFor at ran
    split at ran
    · split at ran
      case h_1 stepped => exact ih (reached.step stepped) ran
      case h_2 => cases ran
    · cases ran
      exact reached

theorem Reachable.runFor_failed {after : Machine} {error : Error} {steps : Nat}
    (reached : Reachable program machine)
    (ran : Machine.runFor program steps machine = .error (.error error) after) :
    Reachable program after := by
  induction steps generalizing machine with
  | zero => cases ran
  | succ steps ih =>
    unfold Machine.runFor at ran
    split at ran
    · split at ran
      case h_1 stepped => exact ih (reached.step stepped) ran
      case h_2 stepped =>
        cases ran
        exact reached.failed stepped
    · cases ran

/-- What holds of the machine before the first step. -/
theorem exists_start {holds : Machine → Prop} [DecidablePred holds]
    (checked : (start program).toOption.any (fun machine => holds machine) = true) :
    ∃ machine, start program = .ok machine ∧ holds machine := by
  cases started : start program with
  | error failure =>
    rw [started] at checked
    cases checked
  | ok machine =>
    rw [started] at checked
    exact ⟨machine, rfl, of_decide_eq_true checked⟩

/-- The state after so many steps or fewer, the last of which may have failed. -/
def stateAfter? (program : Program) (steps : Nat) : Option Machine :=
  match start program with
  | .error _ => none
  | .ok machine =>
    match runFor program steps machine with
    | .ok _ after | .error (.error _) after => some after
    | .error (.breach _) _ => none

theorem reachable_of_stateAfter? {after : Machine} {steps : Nat}
    (found : stateAfter? program steps = some after) : Reachable program after := by
  unfold stateAfter? at found
  split at found
  case h_1 => cases found
  case h_2 started =>
    split at found
    case h_1 ran =>
      cases found
      exact (Reachable.start started).runFor ran
    case h_2 ran =>
      cases found
      exact (Reachable.start started).runFor_failed ran
    case h_3 => cases found

/-- What holds after so many steps holds in a state of the run. -/
theorem exists_reachable {holds : Machine → Prop} [DecidablePred holds] (steps : Nat)
    (checked : (stateAfter? program steps).any (fun machine => holds machine) = true) :
    ∃ machine, Reachable program machine ∧ holds machine := by
  obtain ⟨machine, found, held⟩ := (Option.any_eq_true _ _).1 checked
  exact ⟨machine, reachable_of_stateAfter? found, of_decide_eq_true held⟩

end Terrain.Machine
