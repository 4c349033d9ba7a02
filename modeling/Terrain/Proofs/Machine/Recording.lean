import Terrain.Machine.Recording
import Terrain.Proofs.Machine.Holdings

/-!
# Soundness of recording

Recording keeps the steps well-formed: a slot that is filled is the one reserved last, and a slot that
is read or changed belongs to a raster handle, which some recorded step has filled.

* `Grows` — at most one step is recorded.
* `Machine.Recorded`, `Machine.Grown` — soundness after at most one more recorded step.
* `Machine.ends_make`, `Machine.ends_edit`, `Machine.ends_yieldObject` — the recording actions.
-/

namespace Terrain

/-- At most one step is appended. -/
def Grows (before after : Array Step) : Prop := after = before ∨ ∃ step, after = before.push step

namespace SlotTable

variable {table : SlotTable} {heap : Heap} {id : ObjectId}

theorem get?_sweep (live : heap.contains id) : (table.sweep heap).get? id = table.get? id := by
  simp only [sweep, get?]
  induction table.slots with
  | nil => rfl
  | cons entry entries ih =>
    obtain ⟨other, slot⟩ := entry
    rw [List.filter_cons]
    by_cases same : id = other
    · subst same
      rw [if_pos live, List.lookup_cons_self, List.lookup_cons_self]
    · have different : (id == other) = false := beq_eq_false_iff_ne.2 same
      split <;> simp only [List.lookup_cons, different, ih]

theorem floor_sweep_le : (table.sweep heap).floor ≤ table.floor := by
  refine floor_le_iff.2 fun entry member => ?_
  exact floor_le_iff.1 (Nat.le_refl table.floor) entry (List.mem_of_mem_filter member)

theorem get?_eq_none_of_floor_le (new : table.floor ≤ id) : table.get? id = none := by
  refine List.lookup_eq_none_iff.2 fun entry member => ?_
  have less := floor_le_iff.1 new entry member
  exact bne_iff_ne.2 (Nat.ne_of_gt less)

/-- A new handle gets its slot, and the handles that are live keep theirs. -/
theorem exists_assign_eq_ok (slot : Slot) (heap : Heap) (new : table.floor ≤ id) :
    ∃ table', table.assign id slot heap = .ok table' ∧ table'.get? id = some slot ∧
      table'.floor ≤ id + 1 ∧
      ∀ other, other ≠ id → heap.contains other → table'.get? other = table.get? other := by
  -- whether the table is swept first makes no difference to live handles
  obtain ⟨swept, shape, less, kept⟩ : ∃ swept : SlotTable,
      (if table.sweepAt ≤ table.size then table.sweep heap else table) = swept ∧
      swept.floor ≤ id ∧ ∀ other, heap.contains other → swept.get? other = table.get? other := by
    refine ⟨_, rfl, ?_, ?_⟩
    · split
      · exact Nat.le_trans floor_sweep_le new
      · exact new
    · intro other live
      split
      · exact get?_sweep live
      · rfl
  refine ⟨{ swept with slots := (id, slot) :: swept.slots }, ?_, ?_, ?_, ?_⟩
  · simp [assign, shape, get?_eq_none_of_floor_le less]
  · exact List.lookup_cons_self
  · refine floor_le_iff.2 fun entry member => ?_
    rcases List.mem_cons.1 member with rfl | member
    · exact Nat.lt_succ_self _
    · exact Nat.lt_succ_of_lt (floor_le_iff.1 less entry member)
  · intro other different live
    rw [get?, List.lookup_cons, beq_eq_false_iff_ne.2 different]
    exact kept other live

end SlotTable

namespace Machine

variable {program : Program} {machine : Machine} {ledger : Ledger} {extra : Multiset ObjectId}
  {fresh : Set ObjectId} {id : ObjectId} {action : Action} {arguments : List Slot} {location : Location}

/-- Soundness after at most one more recorded step. -/
def Recorded (machine : Machine) (ledger : Ledger) (extra : Multiset ObjectId)
    (fresh : Set ObjectId) : Prop :=
  ∃ steps, Grows ledger.steps steps ∧ machine.Sound { ledger with steps } extra fresh

theorem Sound.atRest (sound : machine.Sound ledger extra fresh) :
    machine.Recorded ledger extra fresh :=
  ⟨ledger.steps, .inl rfl, sound⟩

/-- The same while references may have been handed over. -/
def Grown (machine : Machine) (ledger : Ledger) (extra : Multiset ObjectId) (fresh : Set ObjectId) :
    Prop :=
  ∃ after : Ledger, Grows ledger.steps after.steps ∧ machine.Sound after extra fresh

theorem Sound.grown (sound : machine.Sound ledger extra fresh) : machine.Grown ledger extra fresh :=
  ⟨ledger, .inl rfl, sound⟩

/-- The slot of a raster handle was filled with a raster of its kind. -/
theorem Sound.answers_slot (sound : machine.Sound ledger extra fresh) {kind : RasterKind}
    (found : machine.heap.value? id = some (.raster kind)) :
    Answers (Query.slot id program machine) fun slot => Makes machine.sequence.steps.toList slot kind := by
  obtain ⟨cell, stored, shape⟩ := Option.map_eq_some_iff.1 found
  obtain ⟨slot, assigned, made⟩ := sound.accounted.rasters id cell kind stored shape
  unfold Query.slot SlotTable.slotOf
  rw [assigned]
  exact made

/-- A recorded step changes the sequence only; a step that finds no room changes nothing. -/
theorem ends_record {step : Step} (sound : machine.Sound ledger extra fresh)
    (follows : step.Follows machine.sequence.steps.toList)
    (reserved : step.target < machine.sequence.slotCount) :
    Ends (record step program machine)
      (fun _ after => after = { machine with sequence := machine.sequence.push step } ∧
        after.Sound { ledger with steps := ledger.steps.push step } extra fresh)
      (· = machine) := by
  refine ends_get ?_
  unfold Sequence.check
  split
  case isTrue => exact rfl
  case isFalse =>
    rw [if_neg (Nat.not_le.2 reserved)]
    refine ⟨rfl, { sound with accounted := ?_, recorded := ?_, steps := ?_ }⟩
    · refine sound.accounted.withHandles ?_ sound.accounted.floor
      rintro id kind - ⟨slot, assigned, made⟩
      refine ⟨slot, assigned, made.mono ?_⟩
      simp [Sequence.push]
    · exact sound.recorded.push follows reserved
    · exact congrArg (·.push step) sound.steps

/-- The handle of a new raster gets the slot its maker fills. -/
theorem ends_make (sound : machine.Sound ledger extra fresh) (maker : action.isMaker = true)
    (arity : arguments.length = action.arity)
    (filled : ∀ slot ∈ arguments, Makes machine.sequence.steps.toList slot action.argumentKind) :
    Ends (make action arguments location program machine)
      (fun id machine => machine.Grown ledger extra (insert id fresh) ∧ machine.heap.contains id)
      (fun machine => machine.Grown ledger extra fresh) := by
  let reserved := { machine with sequence := machine.sequence.reserve.2 }
  have reservedSound : reserved.Sound ledger extra fresh :=
    { sound with recorded := sound.recorded.reserve }
  let step : Step := ⟨location, action, arguments, machine.sequence.slotCount⟩
  have follows : step.Follows reserved.sequence.steps.toList :=
    { arity
      new := fun _ earlier member => sound.recorded.not_mem_mentions member
      filled := fun edits => absurd (maker.symm.trans edits) Bool.noConfusion
      arguments := filled }
  refine ends_bind (show Ends (.ok machine.sequence.slotCount reserved) _ _ from ?_)
  refine ends_bind ((ends_record reservedSound follows (Nat.lt_succ_self _)).imp ?_ ?_)
  case refine_2 =>
    rintro _ rfl
    exact reservedSound.grown
  rintro - recorded ⟨shape, recordedSound⟩
  have made : Makes recorded.sequence.steps.toList machine.sequence.slotCount action.kind :=
    ⟨step, by simp [shape, reserved, Sequence.push, Sequence.reserve], maker, rfl, rfl⟩
  -- between registration and assignment the new handle is the only one without a slot
  let known : Heap.Handles := ⟨fun id kind => recorded.handles.rasters id kind ∨
    id = recorded.heap.cells.size ∧ kind = action.kind, recorded.heap.cells.size + 1⟩
  have registered := @Heap.Accounted.register _ _ _ _ recordedSound.accounted (.raster action.kind)
    rfl known (fun _ _ => .inl) (fun kind shape => .inr ⟨rfl, by cases shape; rfl⟩) (Nat.le_refl _)
  refine ends_bind (ends_onHeap ?_)
  rw [Heap.register_run]
  generalize extended : ({ recorded.heap with
    cells := recorded.heap.cells.push (some ⟨0, .raster action.kind⟩) } : Heap) = heap at registered ⊢
  obtain ⟨slots, assigned, own, floor, kept⟩ :=
    SlotTable.exists_assign_eq_ok machine.sequence.slotCount heap recordedSound.accounted.floor
  have size : heap.cells.size = recorded.heap.cells.size + 1 := by simp [← extended]
  have accounted : heap.Accounted (recorded.held + extra) (insert recorded.heap.cells.size fresh)
      ({ recorded with heap, slots } : Machine).handles := by
    refine registered.withHandles ?_ (size ▸ floor)
    rintro other kind live (⟨slot, stored, made⟩ | ⟨rfl, rfl⟩)
    · by_cases same : other = recorded.heap.cells.size
      · -- the table knew no handle beyond the heap
        have absent := SlotTable.get?_eq_none_of_floor_le (same ▸ recordedSound.accounted.floor)
        rw [absent] at stored
        cases stored
      · exact ⟨slot, (kept other same live).trans stored, made⟩
    · exact ⟨_, own, made⟩
  have stored : heap.cell? recorded.heap.cells.size = some ⟨0, .raster action.kind⟩ := by
    rw [← extended, Heap.cell?_register, if_pos rfl]
  refine ends_bind (ends_get ?_)
  simp only [assigned]
  exact ⟨⟨_, .inr ⟨step, rfl⟩, { recordedSound with accounted }⟩, Heap.contains_of_cell? stored⟩

/-- A step that changes a raster answers the handle it was given. -/
theorem ends_edit {receiver : ObjectId} (sound : machine.Sound ledger extra fresh)
    (edits : action.isMaker = false)
    (found : machine.heap.value? receiver = some (.raster action.kind))
    (arity : arguments.length = action.arity)
    (filled : ∀ slot ∈ arguments, Makes machine.sequence.steps.toList slot action.argumentKind) :
    Ends (edit receiver action arguments location program machine)
      (fun id machine => machine.Grown ledger extra fresh ∧ machine.heap.contains id)
      (fun machine => machine.Grown ledger extra fresh) := by
  refine ends_bind (ends_inspect ((sound.answers_slot found).imp fun target made => ?_) sound.grown)
  have follows : Step.Follows ⟨location, action, arguments, target⟩ machine.sequence.steps.toList :=
    { arity
      new := fun makes => absurd (makes.symm.trans edits) Bool.noConfusion
      filled := fun _ => made
      arguments := filled }
  refine ends_bind ((ends_record sound follows (sound.recorded.lt_slotCount made)).imp ?_ ?_)
  · rintro - machine ⟨rfl, sound⟩
    exact ends_pure ⟨⟨_, .inr ⟨_, rfl⟩, sound⟩, Heap.contains_iff_value?.2 ⟨_, found⟩⟩
  · rintro _ rfl
    exact sound.grown

/-- The value of a live object. -/
theorem answers_value (live : machine.heap.contains id) :
    Answers (Query.value id program machine) fun value => machine.heap.value? id = some value := by
  obtain ⟨cell, found⟩ := Option.isSome_iff_exists.1 live
  unfold Query.value
  rw [found]
  exact congrArg (Option.map (·.value)) found

theorem ends_yieldObject {name : String} (sound : machine.Sound ledger extra fresh)
    (live : machine.heap.contains id) :
    Ends (yieldObject name id location program machine)
      (fun _ machine => machine.Recorded ledger extra fresh)
      (fun machine => machine.Recorded ledger extra fresh) := by
  refine ends_read (ends_bind (ends_inspect ((answers_value live).imp fun value found => ?_) sound.atRest))
  split
  case h_2 => exact ends_raise sound.atRest
  case h_1 =>
    cases program.script.supports name with
    | false => exact ends_bind (ends_raise sound.atRest)
    | true =>
      refine ends_modify ?_
      have named : ({ machine with generated := Dictionary.insert name () machine.generated } :
          Machine).Sound ledger extra fresh := { sound with }
      split
      case isFalse => exact ends_pure named.atRest
      case isTrue =>
        refine ends_bind (ends_inspect ((named.answers_slot found).imp fun target made => ?_)
          named.atRest)
        have follows : Step.Follows ⟨location, .yield name program.parameters.window, [], target⟩
            machine.sequence.steps.toList :=
          { arity := rfl
            new := fun makes => absurd makes Bool.noConfusion
            filled := fun _ => made
            arguments := fun slot member => absurd member List.not_mem_nil }
        refine (ends_record named follows (sound.recorded.lt_slotCount made)).imp ?_ ?_
        · rintro - machine ⟨-, sound⟩
          exact ⟨_, .inr ⟨_, rfl⟩, sound⟩
        · rintro _ rfl
          exact named.atRest

end Machine

end Terrain
