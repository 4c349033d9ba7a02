import Terrain.Proofs.Native.Recordable

/-!
# The slot table of a run

A handle gets its entry when it is made, and the entry goes in some sweep after the handle is gone. So
the table may know handles that no longer exist, but never fewer than those that do, and its size stays
in proportion to the number of live ones that the last sweep has found.

* `SlotTable.assign_eq_ok` — how an entry is added, with or without a sweep.
* `Machine.InOrder` — entries with handles and slots of their own, which recorded steps have filled.
* `Machine.Swept` — runs with the number of live entries that the last sweep has found.
* `Machine.reachable_slot_table` — the table in every state of a run.
-/

namespace Terrain

namespace SlotTable

variable {table kept after : SlotTable} {id : ObjectId} {slot : Slot} {heap : Heap} {live : Nat}
  {sequence longer : Sequence}

/-- A new entry comes in front of those that are there, or of those that a sweep leaves. -/
theorem assign_eq_ok (assigned : table.assign id slot heap = .ok after) :
    ∃ kept : SlotTable, (if table.sweepAt ≤ table.size then table.sweep heap else table) = kept ∧
      kept.get? id = none ∧ after = { kept with slots := (id, slot) :: kept.slots } := by
  refine ⟨_, rfl, ?_⟩
  unfold assign at assigned
  generalize (if table.sweepAt ≤ table.size then table.sweep heap else table) = kept at assigned
  dsimp only at assigned
  split at assigned
  case isTrue => cases assigned
  case isFalse absent =>
    cases assigned
    exact ⟨by simpa using absent, rfl⟩

/-- Entries that are kept are entries of the table. -/
theorem sublist_kept (table : SlotTable) (heap : Heap) :
    (if table.sweepAt ≤ table.size then table.sweep heap else table).slots.Sublist table.slots := by
  split
  · exact List.filter_sublist
  · exact List.Sublist.refl _

/-- An object that the table does not know yet makes no difference to a sweep. -/
theorem sweep_push (known : table.floor ≤ heap.cells.size) (cell : Option Cell) :
    table.sweep { heap with cells := heap.cells.push cell } = table.sweep heap := by
  have same : table.slots.filter (fun entry =>
        Heap.contains { heap with cells := heap.cells.push cell } entry.1) =
      table.slots.filter fun entry => heap.contains entry.1 := by
    refine List.filter_congr fun entry member => ?_
    have less : entry.1 < heap.cells.size := floor_le_iff.1 known entry member
    simp [Heap.contains, Heap.cell?, Array.getElem?_push, Nat.ne_of_lt less]
  unfold sweep
  rw [same]

/-- A sweep keeps the entries whose handles are live, and no others. -/
theorem mem_sweep_iff {entry : ObjectId × Slot} :
    entry ∈ (table.sweep heap).slots ↔ entry ∈ table.slots ∧ heap.contains entry.1 :=
  List.mem_filter

theorem size_sweep (table : SlotTable) (heap : Heap) :
    (table.sweep heap).size = table.slots.countP fun entry => heap.contains entry.1 :=
  List.countP_eq_length_filter.symm

/-- The next sweep is due when there are twice as many entries as the last sweep has found alive, and
64 at least. -/
structure Proportionate (table : SlotTable) (live : Nat) : Prop where
  size : table.size ≤ table.sweepAt
  due : table.sweepAt ≤ max 64 (2 * live)

theorem proportionate_empty : SlotTable.empty.Proportionate 0 := ⟨Nat.le_refl 0, Nat.zero_le _⟩

/-- Number of live entries at the last sweep, once an entry has been added. -/
def liveAfter (table : SlotTable) (heap : Heap) (live : Nat) : Nat :=
  if table.sweepAt ≤ table.size then table.slots.countP fun entry => heap.contains entry.1 else live

/-- An entry more, after a sweep if one is due. -/
theorem Proportionate.assign (before : table.Proportionate live)
    (assigned : table.assign id slot heap = .ok after) :
    after.Proportionate (table.liveAfter heap live) := by
  obtain ⟨kept, shape, -, rfl⟩ := assign_eq_ok assigned
  unfold liveAfter
  by_cases due : table.sweepAt ≤ table.size
  -- the sweep puts the next one off until there are twice as many entries as it leaves
  · rw [if_pos due] at shape
    rw [if_pos due, ← size_sweep]
    subst shape
    have sweepAt : (table.sweep heap).sweepAt = max (2 * (table.sweep heap).size) 64 := rfl
    refine ⟨?_, ?_⟩
    · change (table.sweep heap).size + 1 ≤ (table.sweep heap).sweepAt
      omega
    · change (table.sweep heap).sweepAt ≤ _
      omega
  · rw [if_neg due] at shape ⊢
    subst shape
    exact ⟨Nat.lt_of_not_le due, before.due⟩

theorem get?_eq_none_iff : table.get? id = none ↔ id ∉ table.slots.map (·.1) := by
  rw [get?, List.lookup_eq_none_iff, List.mem_map]
  constructor
  · rintro absent ⟨entry, member, rfl⟩
    exact bne_iff_ne.1 (absent entry member) rfl
  · intro absent entry member
    exact bne_iff_ne.2 fun same => absent ⟨entry, member, same.symm⟩

/-- No handle and no slot stands in two entries, and every slot is reserved and was filled by a recorded
step. -/
structure InOrder (table : SlotTable) (sequence : Sequence) : Prop where
  handles : (table.slots.map (·.1)).Nodup
  slots : (table.slots.map (·.2)).Nodup
  reserved : ∀ entry ∈ table.slots, entry.2 < sequence.slotCount
  made : ∀ entry ∈ table.slots, ∃ kind, Makes sequence.steps.toList entry.2 kind

theorem inOrder_empty (sequence : Sequence) : SlotTable.empty.InOrder sequence :=
  ⟨List.nodup_nil, List.nodup_nil, nofun, nofun⟩

/-- More steps and more slots do no harm. -/
theorem InOrder.grow (inOrder : table.InOrder sequence) (reserved : sequence.slotCount ≤ longer.slotCount)
    (steps : sequence.steps.toList ⊆ longer.steps.toList) : table.InOrder longer where
  handles := inOrder.handles
  slots := inOrder.slots
  reserved entry member := Nat.lt_of_lt_of_le (inOrder.reserved entry member) reserved
  made entry member :=
    let ⟨kind, made⟩ := inOrder.made entry member
    ⟨kind, made.mono steps⟩

theorem InOrder.sublist (inOrder : table.InOrder sequence) (fewer : kept.slots.Sublist table.slots) :
    kept.InOrder sequence where
  handles := inOrder.handles.sublist (fewer.map _)
  slots := inOrder.slots.sublist (fewer.map _)
  reserved entry member := inOrder.reserved entry (fewer.subset member)
  made entry member := inOrder.made entry (fewer.subset member)

/-- The slot of a new entry was reserved after those of all others. -/
theorem InOrder.assign (inOrder : table.InOrder sequence) {kind : RasterKind}
    (assigned : table.assign id sequence.slotCount heap = .ok after)
    (reserved : sequence.slotCount < longer.slotCount) (steps : sequence.steps.toList ⊆ longer.steps.toList)
    (made : Makes longer.steps.toList sequence.slotCount kind) : after.InOrder longer := by
  obtain ⟨kept, shape, absent, rfl⟩ := assign_eq_ok assigned
  have older : kept.InOrder sequence := inOrder.sublist (shape ▸ sublist_kept table heap)
  have newer : kept.InOrder longer := older.grow (Nat.le_of_lt reserved) steps
  constructor
  case handles => exact List.nodup_cons.2 ⟨get?_eq_none_iff.1 absent, newer.handles⟩
  case slots =>
    refine List.nodup_cons.2 ⟨fun member => ?_, newer.slots⟩
    obtain ⟨entry, listed, same⟩ := List.mem_map.1 member
    exact absurd (older.reserved entry listed) (Nat.not_lt.2 (Nat.le_of_eq same.symm))
  case reserved => exact List.forall_mem_cons.2 ⟨reserved, newer.reserved⟩
  case made => exact List.forall_mem_cons.2 ⟨⟨kind, made⟩, newer.made⟩

end SlotTable

namespace Machine

variable {program : Program} {machine before after : Machine} {live : Nat}

/-! ## Steps and runs -/

theorem inOrder_of_effect (effect : Effect program before after)
    (inOrder : before.slots.InOrder before.sequence) : after.slots.InOrder after.sequence := by
  cases effect with
  | none sequence slots => rwa [sequence, slots]
  | reserved sequence slots =>
    rw [sequence, slots]
    exact inOrder.grow (Nat.le_succ _) fun _ => id
  | edited step recordable sequence slots =>
    rw [sequence, slots]
    exact inOrder.grow (Nat.le_refl _) (by simp [Sequence.push])
  | made location action arguments recordable maker sequence assigned =>
    rw [sequence]
    -- the slot of the entry is the one that the recorded step fills
    generalize made : Step.mk location action arguments before.sequence.slotCount = step
    have filled : Makes (before.sequence.reserve.2.push step).steps.toList before.sequence.slotCount
        action.kind := by
      refine ⟨step, by simp [Sequence.push], ?_⟩
      subst made
      exact ⟨maker, rfl, rfl⟩
    exact inOrder.assign assigned (Nat.lt_succ_self _) (by simp [Sequence.push, Sequence.reserve]) filled

/-- Number of live entries at the last sweep, when a step has led from one machine to another. Only an
entry that is added changes the table, and a sweep that is due comes before it. -/
def lastSweep (before after : Machine) (live : Nat) : Nat :=
  if after.slots = before.slots then live else before.slots.liveAfter before.heap live

theorem proportionate_of_effect (effect : Effect program before after)
    (inOrder : before.slots.InOrder before.sequence) (known : before.slots.floor ≤ before.heap.cells.size)
    (proportionate : before.slots.Proportionate live) :
    after.slots.Proportionate (before.lastSweep after live) := by
  have unchanged (same : after.slots = before.slots) :
      after.slots.Proportionate (before.lastSweep after live) := by
    rw [lastSweep, if_pos same, same]
    exact proportionate
  cases effect with
  | none _ slots => exact unchanged slots
  | reserved _ slots => exact unchanged slots
  | edited _ _ _ slots => exact unchanged slots
  | made location action arguments _ _ _ assigned =>
    -- the entry is a new one, since its slot was not reserved before
    have added : after.slots ≠ before.slots := by
      intro same
      obtain ⟨kept, -, -, shape⟩ := SlotTable.assign_eq_ok assigned
      have member : (before.heap.cells.size, before.sequence.slotCount) ∈ before.slots.slots := by
        rw [← same, shape]
        exact List.mem_cons_self
      exact Nat.lt_irrefl _ (inOrder.reserved _ member)
    -- the sweep, if there was one, did not see the object of the entry, which makes no difference
    have grown := proportionate.assign assigned
    rw [SlotTable.liveAfter, ← SlotTable.size_sweep, SlotTable.sweep_push known, SlotTable.size_sweep,
      ← SlotTable.liveAfter] at grown
    rw [lastSweep, if_neg added]
    exact grown

/-- The states of runs, each with the number of live entries that the last sweep of its slot table has
found; that is none as long as there was no sweep. -/
inductive Swept (program : Program) : Machine → Nat → Prop where
  | start {machine : Machine} (started : start program = .ok machine) : Swept program machine 0
  | step {machine after : Machine} {live : Nat} {progress : Progress} (swept : Swept program machine live)
      (stepped : step program machine = .ok progress after) :
      Swept program after (machine.lastSweep after live)
  | failed {machine after : Machine} {live : Nat} {error : Error} (swept : Swept program machine live)
      (stepped : step program machine = .error (.error error) after) :
      Swept program after (machine.lastSweep after live)

theorem Swept.reachable (swept : Swept program machine live) : Reachable program machine := by
  induction swept with
  | start started => exact .start started
  | step _ stepped ih => exact .step ih stepped
  | failed _ stepped ih => exact .failed ih stepped

theorem Reachable.swept (reached : Reachable program machine) : ∃ live, Swept program machine live := by
  induction reached with
  | start started => exact ⟨0, .start started⟩
  | step _ stepped ih =>
    obtain ⟨live, swept⟩ := ih
    exact ⟨_, swept.step stepped⟩
  | failed _ stepped ih =>
    obtain ⟨live, swept⟩ := ih
    exact ⟨_, swept.failed stepped⟩

theorem Reachable.inOrder (reached : Reachable program machine) :
    machine.slots.InOrder machine.sequence := by
  induction reached with
  | start started =>
    rw [(quiet_of_start started).2]
    exact SlotTable.inOrder_empty _
  | step _ stepped before => exact inOrder_of_effect (effect_of_step stepped) before
  | failed _ stepped before => exact inOrder_of_effect (effect_of_failed stepped) before

theorem Swept.proportionate (swept : Swept program machine live) : machine.slots.Proportionate live := by
  induction swept with
  | start started =>
    rw [(quiet_of_start started).2]
    exact SlotTable.proportionate_empty
  | step swept stepped before =>
    have reached := swept.reachable
    have floor := reached.sound.accounted.floor
    exact proportionate_of_effect (effect_of_step stepped) reached.inOrder floor before
  | failed swept stepped before =>
    have reached := swept.reachable
    have floor := reached.sound.accounted.floor
    exact proportionate_of_effect (effect_of_failed stepped) reached.inOrder floor before

/-- In every state of a run, the last step of which may have failed, each raster handle that is live has
a slot, which a recorded step has filled with a raster of its kind. No two entries share a handle or a
slot, all slots are reserved and filled, and there are at most twice as many entries as the last sweep
has found alive, or 64. A sweep keeps the entries of live handles and no others, and no step misses a slot
or finds one taken. -/
theorem reachable_slot_table (reached : Reachable program machine) :
    (∀ id kind, machine.heap.value? id = some (.raster kind) → ∃ slot,
      machine.slots.get? id = some slot ∧ slot < machine.sequence.slotCount ∧
        Makes machine.sequence.steps.toList slot kind) ∧
      machine.slots.InOrder machine.sequence ∧
      (∃ live, Swept program machine live) ∧
      (∀ live, Swept program machine live → machine.slots.size ≤ max 64 (2 * live)) ∧
      (∀ entry, entry ∈ (machine.slots.sweep machine.heap).slots ↔
        entry ∈ machine.slots.slots ∧ machine.heap.contains entry.1) ∧
      (∀ id, machine.heap.contains id →
        (machine.slots.sweep machine.heap).get? id = machine.slots.get? id) ∧
      ∀ breach after, step program machine = .error (.breach breach) after →
        ∀ id, breach ≠ .noSlot id ∧ breach ≠ .slotTaken id := by
  have sound := reached.sound
  refine ⟨fun id kind found => ?_, reached.inOrder, reached.swept, fun live swept => ?_,
    fun entry => SlotTable.mem_sweep_iff, fun id contained => SlotTable.get?_sweep contained,
    fun breach after stepped id => ?_⟩
  · obtain ⟨cell, stored, shape⟩ := Option.map_eq_some_iff.1 found
    obtain ⟨slot, assigned, made⟩ := sound.accounted.rasters id cell kind stored shape
    exact ⟨slot, assigned, sound.recorded.lt_slotCount made, made⟩
  · exact Nat.le_trans swept.proportionate.size swept.proportionate.due
  · have ends := @ends_step program _ _ _ sound
    rw [stepped] at ends
    constructor
    all_goals
      rintro rfl
      cases ends

/-- A program that makes a map, drops it, and makes another one. -/
def remaking : Program where
  script := ⟨[(.start, .loadVariable "HeightMap"), (.start, .callMember "Flat" 0), (.start, .pop),
    (.start, .loadVariable "HeightMap"), (.start, .callMember "Flat" 0), (.start, .loadNull)],
    [], [], [], [], [], false⟩
  parameters := .create .infinite .infinite
  limits := {}

/-- The table still knows the first map, which is gone. -/
theorem remaking_slot_table : ∃ machine, Reachable remaking machine ∧ machine.slots.size = 2 ∧
    (machine.slots.sweep machine.heap).size = 1 ∧ machine.slots.InOrder machine.sequence ∧
    ∀ live, Swept remaking machine live → machine.slots.size ≤ max 64 (2 * live) := by
  obtain ⟨machine, reached, size, swept⟩ : ∃ machine, Reachable remaking machine ∧
      machine.slots.size = 2 ∧ (machine.slots.sweep machine.heap).size = 1 :=
    exists_reachable 5 (by decide +kernel)
  obtain ⟨-, inOrder, -, bounded, -⟩ := reachable_slot_table reached
  exact ⟨machine, reached, size, swept, inOrder, bounded⟩

end Machine

end Terrain
