import Terrain.Proofs.Render.Limits
import Terrain.Proofs.Render.Memory

/-!
# Rasters live until their last use

While a well-formed sequence is rendered, a slot that is filled is named by a step that is still to come:
after the last step that names it, the slot is empty again. Together with the safety of rendering, by
which a step finds what it reads, this says that rasters live exactly as long as they are needed, and that
nothing is left when a run has gone well.

* `Renderer.Frugal` — every filled slot is named by a later step.
* `Renderer.released_at_last_use` — where slots are released, and what that means for every run.
-/

namespace Terrain

/-! ## Tables -/

namespace RasterTable

variable {table : RasterTable} {slot : Slot}

theorem contains_eq_false : table.contains slot = false ↔ table.get? slot = none := by
  simp [contains]

theorem Holds.contains {kind : RasterKind} (holds : table.Holds slot kind) :
    table.contains slot = true := by
  obtain ⟨raster, found, -⟩ := holds
  simp [RasterTable.contains, found]

/-- What has been released is empty, also if it has been released before. -/
theorem get?_foldl_release_of_mem {slots : List Slot} (freed : slot ∈ slots) :
    (slots.foldl release table).get? slot = none := by
  induction slots generalizing table with
  | nil => cases freed
  | cons first slots ih =>
    rw [List.foldl_cons]
    by_cases later : slot ∈ slots
    · exact ih later
    · obtain rfl : slot = first := (List.mem_cons.1 freed).resolve_right later
      rw [get?_foldl_release later, get?_release, if_pos rfl]

theorem liveCount_eq_zero (empty : ∀ slot, table.contains slot = false) : table.liveCount = 0 := by
  unfold liveCount
  rw [Array.countP_eq_zero]
  intro entry member filled
  obtain ⟨slot, found⟩ := Array.mem_iff_getElem?.1 member
  have none := contains_eq_false.1 (empty slot)
  rw [get?, found, Option.join_some] at none
  rw [none] at filled
  cases filled

end RasterTable

/-- A slot that is named from a step on, but not for the last time by the step itself, is named behind
the step. -/
theorem exists_later_of_not_lastMention {steps : List Step} {slot : Slot} {index : Nat}
    (named : ∃ later ∈ steps.drop index, slot ∈ later.mentions)
    (more : ¬LastMention steps slot index) :
    ∃ later ∈ steps.drop (index + 1), slot ∈ later.mentions := by
  by_contra none
  obtain ⟨later, member, mentioned⟩ := named
  obtain ⟨place, found⟩ := List.mem_iff_getElem?.1 member
  rw [List.getElem?_drop] at found
  have absent (number : Nat) (step : Step) (behind : index < number)
      (foundStep : steps[number]? = some step) : slot ∉ step.mentions := by
    intro mentioned
    refine none ⟨step, List.mem_iff_getElem?.2 ⟨number - (index + 1), ?_⟩, mentioned⟩
    rwa [List.getElem?_drop, Nat.add_sub_cancel' behind]
  cases place with
  | zero => exact more ⟨⟨later, found, mentioned⟩, absent⟩
  | succ place => exact absent _ later (by omega) found mentioned

namespace Renderer

variable {sequence : Sequence} {renderer after : Renderer} {memoryLimit : Nat}

/-! ## Rendering -/

/-- Every filled slot is named by a step that is still to come. -/
def Frugal (renderer : Renderer) (sequence : Sequence) : Prop :=
  ∀ slot, renderer.table.contains slot = true →
    ∃ later ∈ sequence.steps.toList.drop renderer.cursor, slot ∈ later.mentions

theorem frugal_start (sequence : Sequence) (memoryLimit : Nat) :
    (start sequence memoryLimit).Frugal sequence := by
  intro slot filled
  have none : (start sequence memoryLimit).table.get? slot = none := RasterTable.get?_ofSize _
  rw [RasterTable.contains, none] at filled
  cases filled

/-- A step fills its target at most, and what it names for the last time it leaves empty. -/
theorem Frugal.takes {schedule : Schedule} {step : Step} {facts : StepFacts} {table : RasterTable}
    (wellFormed : sequence.WellFormed) (sound : renderer.Sound sequence)
    (frugal : renderer.Frugal sequence) (takes : renderer.Takes after schedule step facts table) :
    after.Frugal sequence := by
  obtain ⟨_, found, ownKind, freed⟩ := Schedule.facts_of_ofSequence wellFormed.consistent
    (sound.schedule schedule takes.scheduled) takes.foundFacts
  have here := takes.found
  rw [sound.works] at here
  cases here.symm.trans found
  have updates := (Step.changes_of_run takes.ran).updates
  intro slot filled
  rw [takes.advanced]
  rw [takes.released] at filled
  have kept : slot ∉ facts.releases := by
    intro released
    rw [RasterTable.contains, RasterTable.get?_foldl_release_of_mem released] at filled
    cases filled
  refine exists_later_of_not_lastMention ?_ fun last => kept ((Lifetimes.mem_iff_lastMention freed).2 last)
  by_cases target : slot = step.target
  · refine ⟨step, List.mem_iff_getElem?.2 ⟨0, by simpa using found⟩, ?_⟩
    rw [target]
    exact List.mem_cons_self
  · apply frugal slot
    rwa [RasterTable.contains, RasterTable.get?_foldl_release kept, updates.2 slot target] at filled

theorem Reached.frugal (wellFormed : sequence.WellFormed) (reached : Reached sequence memoryLimit renderer) :
    renderer.Frugal sequence := by
  refine reached.keeps (Frugal · sequence) wellFormed (frugal_start sequence memoryLimit) ?_
  intro renderer after sound frugal moves
  rcases moves with ⟨table, -, cursor⟩ | ⟨schedule, step, facts, table, takes⟩
  · unfold Frugal
    rwa [table, cursor]
  · exact frugal.takes wellFormed sound takes

/-- A renderer has finished behind the last step. -/
theorem Reached.size_le_of_finished (wellFormed : sequence.WellFormed)
    (reached : Reached sequence memoryLimit renderer) (finished : renderer.status = .finished) :
    sequence.size ≤ renderer.cursor := by
  induction reached with
  | start => cases finished
  | plan reached planned ih =>
    obtain ⟨schedule, -, rfl⟩ := plan_eq_ok planned
    exact ih finished
  | step reached stepped ih =>
    have works := (reached.sound wellFormed).works
    rcases step_eq_ok stepped with ⟨done, rfl⟩ | ⟨inside, facts, table, gallery, rfl⟩
    · rwa [works] at done
    · change sequence.size ≤ _ + 1
      simpa [advanced, works] using finished
  | failed reached stepped ih =>
    rcases step_eq_error stepped with rfl | rfl
    · exact ih finished
    · cases finished

/-- Behind the last step no slot is filled. -/
theorem Frugal.liveCount_eq_zero (frugal : renderer.Frugal sequence)
    (ended : sequence.size ≤ renderer.cursor) : renderer.table.liveCount = 0 := by
  apply RasterTable.liveCount_eq_zero
  intro slot
  by_contra filled
  obtain ⟨later, member, -⟩ := frugal slot (by simpa using filled)
  rw [List.drop_eq_nil_of_le (by simpa [Sequence.size] using ended)] at member
  cases member

/-- A schedule lists the slots that are freed after each step. -/
theorem releases_of_ofSequence {schedule : Schedule}
    (made : Schedule.ofSequence sequence (.ofSteps sequence.steps) = .ok schedule) :
    schedule.toList.map (·.releases) = Lifetimes.ofSteps sequence.steps := by
  have size := Schedule.size_eq_of_ofSequence made
  apply List.ext_getElem?
  intro index
  rw [List.getElem?_map, Array.getElem?_toList]
  cases found : schedule[index]? with
  | none =>
    have behind := Array.getElem?_eq_none_iff.1 found
    rw [size, Sequence.size, ← Lifetimes.length_ofSteps] at behind
    rw [Option.map_none, List.getElem?_eq_none behind]
  | some facts =>
    obtain ⟨-, -, -, -, -, freed⟩ := Schedule.exists_extents_of_ofSequence made found
    exact freed.symm

/-- Slots are released at their last use. In all release lists together every slot that some step names
occurs once, in the list of the last step that names it, and no other slot occurs. So whenever a
well-formed sequence is rendered, the slots that the next step reads are filled, those that no further
step names are empty, and at the end all are. -/
theorem released_at_last_use (sequence : Sequence) :
    (∀ slot, (Lifetimes.ofSteps sequence.steps).flatten.count slot =
      if ∃ step ∈ sequence.steps.toList, slot ∈ step.mentions then 1 else 0) ∧
    (∀ index slots slot, (Lifetimes.ofSteps sequence.steps)[index]? = some slots →
      (slot ∈ slots ↔ LastMention sequence.steps.toList slot index)) ∧
    (∀ schedule, Schedule.ofSequence sequence (.ofSteps sequence.steps) = .ok schedule →
      schedule.toList.map (·.releases) = Lifetimes.ofSteps sequence.steps) ∧
    (sequence.WellFormed → ∀ memoryLimit,
      (∀ renderer, Reached sequence memoryLimit renderer →
        (∀ step, sequence.steps[renderer.cursor]? = some step → ∀ slot ∈ step.readSlots,
          renderer.table.contains slot = true) ∧
        (∀ slot index, LastMention sequence.steps.toList slot index → index < renderer.cursor →
          renderer.table.contains slot = false) ∧
        (renderer.status = .finished → renderer.table.liveCount = 0)) ∧
      ∀ after, run (start sequence memoryLimit) = .ok () after → after.table.liveCount = 0) := by
  refine ⟨Lifetimes.count_flatten_ofSteps sequence.steps, fun index slots slot freed =>
    Lifetimes.mem_iff_lastMention freed, fun schedule => releases_of_ofSequence, ?_⟩
  intro wellFormed memoryLimit
  constructor
  · intro renderer reached
    have frugal := reached.frugal wellFormed
    refine ⟨fun step found slot read => ?_, fun slot index last passed => ?_, fun finished =>
      frugal.liveCount_eq_zero (reached.size_le_of_finished wellFormed finished)⟩
    · obtain ⟨reads, changes⟩ := (reached.sound wellFormed).holds wellFormed found
      rcases List.mem_append.1 read with argument | target
      · exact (reads slot argument).contains
      · cases maker : step.isMaker with
        | true => simp [maker] at target
        | false =>
          rw [maker, if_neg (by simp), List.mem_singleton] at target
          exact target ▸ (changes maker).contains
    · by_contra filled
      obtain ⟨later, member, mentioned⟩ := frugal slot (by simpa using filled)
      obtain ⟨place, found⟩ := List.mem_iff_getElem?.1 member
      rw [List.getElem?_drop] at found
      exact last.2 _ later (by omega) found mentioned
  · intro after ran
    obtain ⟨reached, ended⟩ := reached_of_run ran
    exact (reached.frugal wellFormed).liveCount_eq_zero ended

/-- The map of the sketch is there when it is exhibited, and it is gone afterwards. -/
theorem sketch_released : (sketched 2).table.contains 0 = true ∧
    ∃ after, run (start sketch 136) = .ok () after ∧ after.table.liveCount = 0 := by
  obtain ⟨-, -, -, released⟩ := released_at_last_use sketch
  obtain ⟨living, ending⟩ := released sketch_wellFormed 136
  have next : sketch.steps[(sketched 2).cursor]? = some exhibit := by
    have cursor : (sketched 2).cursor = 2 := by decide +kernel
    rw [cursor]
    rfl
  obtain ⟨_, ran⟩ := @eq_ok_of_leaves _ (run (start sketch 136)) (by decide +kernel)
  exact ⟨(living _ reached_sketched).1 exhibit next 0 (by decide),
    _, ran, ending _ ran⟩

end Renderer

end Terrain
