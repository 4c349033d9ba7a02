import Terrain.Proofs.Plan.Figures
import Terrain.Proofs.Render.Limits

/-!
# Rendering with exact figures

Whether the memory limit is held against a sequence at all depends on its exact figures. If they fit 64
bits, the first step that requires more than the limit ends a run with its error, whatever stands behind
it. If one does not fit, planning breaks, however low the limit is.

* `Renderer.Refuses` — how a run ends that has a step above the limit.
* `Renderer.run_of_figures` — the figures decide how a run ends.
-/

namespace Terrain

namespace Sequence

variable {sequence : Sequence} {schedule : Schedule}

/-- What has broken stays broken. -/
theorem played_error_of_le {count more : Nat} {breach : Breach}
    (broken : sequence.played schedule count = .error breach) (within : count ≤ more) :
    sequence.played schedule more = .error breach := by
  unfold played at broken ⊢
  rw [← List.take_append_drop count (List.take more _), List.foldlM_append, List.take_take,
    Nat.min_eq_left within, broken]
  rfl

end Sequence

namespace Renderer

variable {sequence : Sequence} {schedule : Schedule} {limit : Nat} {renderer : Renderer}

/-! ## Runs with a schedule and without one -/

theorem run_start_of_planned
    (planned : Schedule.ofSequence sequence (.ofSteps sequence.steps) = .ok schedule) (limit : Nat) :
    run (start sequence limit) =
      runFor (sequence.size + 1) { start sequence limit with schedule? := some schedule } := by
  have plan : plan (start sequence limit) =
      .ok () { start sequence limit with schedule? := some schedule } := by
    unfold Renderer.plan
    rw [get_bind]
    change (check (Schedule.ofSequence sequence (.ofSteps sequence.steps)) >>= _) _ = _
    rw [planned]
    rfl
  unfold run
  rw [get_bind]
  change EStateM.bind Renderer.plan _ (start sequence limit) = _
  rw [EStateM.bind, plan]
  rfl

theorem run_start_of_breach {breach : Breach}
    (broken : Schedule.ofSequence sequence (.ofSteps sequence.steps) = .error breach) (limit : Nat) :
    run (start sequence limit) = .error (.breach breach) (start sequence limit) := by
  have plan : plan (start sequence limit) = .error (.breach breach) (start sequence limit) := by
    unfold Renderer.plan
    rw [get_bind]
    change (check (Schedule.ofSequence sequence (.ofSteps sequence.steps)) >>= _) _ = _
    rw [broken]
    rfl
  unfold run
  rw [get_bind]
  change EStateM.bind Renderer.plan _ (start sequence limit) = _
  rw [EStateM.bind, plan]

/-! ## The first step above the limit -/

/-- A step above the limit is not begun. -/
theorem step_of_above {action : Step} {facts : StepFacts} (ready : renderer.status = .ready)
    (scheduled : renderer.schedule? = some schedule)
    (found : renderer.sequence.steps[renderer.cursor]? = some action)
    (foundFacts : schedule[renderer.cursor]? = some facts) (above : renderer.memoryLimit < facts.memory) :
    step renderer = .error (.error (memoryFault renderer.cursor action facts.memory renderer.memoryLimit))
      { renderer with status := .faulted } := by
  unfold step
  rw [get_bind]
  simp only [ready, ne_eq, not_true_eq_false, if_false, scheduled, found, foundFacts, above, if_true]
  rfl

/-- The steps that the limit allows for end, and the next one is above it. -/
structure Exceeds (sequence : Sequence) (schedule : Schedule) (limit index : Nat) (action : Step)
    (facts : StepFacts) : Prop where
  found : sequence.steps[index]? = some action
  foundFacts : schedule[index]? = some facts
  above : limit < facts.memory
  below : ∀ earlier facts, earlier < index → schedule[earlier]? = some facts → facts.memory ≤ limit

/-- A run ends with the error of a step, and the rasters and maps are those of the steps before it; or it
breaks as these do. -/
def Refuses (sequence : Sequence) (schedule : Schedule) (limit index : Nat) (action : Step)
    (facts : StepFacts) (ended : EStateM.Result Failure Renderer Unit) : Prop :=
  match sequence.played schedule index with
  | .ok (table, gallery) => ∃ final,
      ended = .error (.error (memoryFault index action facts.memory limit)) final ∧
        final.status = .faulted ∧ final.cursor = index ∧ final.table = table ∧ final.gallery = gallery
  | .error breach => ∃ final, ended = .error (.breach breach) final

theorem OnCourse.refuses_runFor {index steps : Nat} {action : Step} {facts : StepFacts}
    (size : schedule.size = sequence.size) (exceeds : Exceeds sequence schedule limit index action facts)
    (course : OnCourse sequence schedule limit renderer) (ready : renderer.status = .ready)
    (scheduled : renderer.schedule? = some schedule) (within : renderer.cursor ≤ index)
    (enough : index - renderer.cursor < steps) :
    Refuses sequence schedule limit index action facts (runFor steps renderer) := by
  have inside : index < sequence.size := (Array.getElem?_eq_some_iff.1 exceeds.found).1
  -- on the number of steps allowed, which stays above the number of steps up to the one refused
  induction steps generalizing renderer with
  | zero => omega
  | succ steps ih =>
    rw [runFor_succ ready]
    rcases Nat.eq_or_lt_of_le within with rfl | before
    · have stepped := step_of_above ready scheduled (course.works ▸ exceeds.found) exceeds.foundFacts
        (course.memoryLimit ▸ exceeds.above)
      rw [stepped, course.memoryLimit, Refuses, course.played]
      exact ⟨_, rfl, rfl, rfl, rfl, rfl⟩
    · have outcome := stepsTo_step renderer
      generalize step renderer = result at outcome
      cases outcome with
      | refused unprepared =>
        obtain ⟨known, missing⟩ := unprepared ready schedule scheduled
        rw [course.works, ← size] at known
        rw [Array.getElem?_eq_getElem known] at missing
        cases missing
      | finished behind =>
        rw [course.works] at behind
        omega
      | @exceeded _ _ other same _ foundFacts above =>
        cases scheduled.symm.trans same
        have allowed := exceeds.below _ other before foundFacts
        rw [course.memoryLimit] at above
        omega
      | @broken _ other otherFacts breach same found foundFacts failed =>
        cases scheduled.symm.trans same
        rw [course.works] at found failed
        have broken : sequence.played schedule (renderer.cursor + 1) = .error breach := by
          rw [Sequence.played_succ found foundFacts, course.played]
          change Sequence.carryOut _ _ _ = _
          rw [Sequence.carryOut, failed]
          rfl
        rw [Refuses, Sequence.played_error_of_le broken before]
        exact ⟨_, rfl⟩
      | carriedOut same found foundFacts allowed ran =>
        cases scheduled.symm.trans same
        rw [course.works] at found ran
        rw [course.memoryLimit] at allowed
        have next := course.advance scheduled found foundFacts allowed ran
        refine ih next (if_neg ?_) scheduled before ?_
        · rw [course.works]
          omega
        · change index - (renderer.cursor + 1) < steps
          omega

/-- The first step above the limit is refused. -/
theorem refuses_run {index : Nat} {action : Step} {facts : StepFacts}
    (planned : Schedule.ofSequence sequence (.ofSteps sequence.steps) = .ok schedule)
    (exceeds : Exceeds sequence schedule limit index action facts) :
    Refuses sequence schedule limit index action facts (run (start sequence limit)) := by
  have inside : index < sequence.size := (Array.getElem?_eq_some_iff.1 exceeds.found).1
  have course : OnCourse sequence schedule limit (start sequence limit) := onCourse_start
  rw [run_start_of_planned planned]
  refine course.plan.refuses_runFor (Schedule.size_eq_of_ofSequence planned) exceeds rfl rfl
    (Nat.zero_le _) ?_
  change index - 0 < sequence.size + 1
  omega

/-- There is a first step above the limit, unless the limit allows for all of them. -/
theorem exists_exceeds (planned : Schedule.ofSequence sequence (.ofSteps sequence.steps) = .ok schedule)
    (above : limit < schedule.peak) :
    ∃ index action facts, Exceeds sequence schedule limit index action facts := by
  have size := Schedule.size_eq_of_ofSequence planned
  have some : schedule.firstAbove? limit ≠ none := by
    rw [ne_eq, Schedule.firstAbove?_eq_none, ← Schedule.peak_le]
    omega
  obtain ⟨index, first⟩ := Option.ne_none_iff_exists'.1 some
  rw [Schedule.firstAbove?, Array.findIdx?_eq_some_iff_getElem] at first
  obtain ⟨inside, above, below⟩ := first
  have within : index < sequence.steps.size := by
    rw [size] at inside
    exact inside
  refine ⟨index, _, _, Array.getElem?_eq_getElem within, Array.getElem?_eq_getElem inside,
    by simpa using above, fun earlier facts before found => ?_⟩
  obtain ⟨known, rfl⟩ := Array.getElem?_eq_some_iff.1 found
  simpa using below earlier before

/-- A plain that is blurred, of which one sample is shown. -/
def smear (radius : Extent) : Sequence where
  steps := #[⟨⟨1, 1⟩, .makeMap (.flat 1), [], 0⟩, ⟨⟨2, 1⟩, .editMap (.blur radius), [], 0⟩,
    ⟨⟨3, 1⟩, .yield "smear" ⟨⟨0, 0⟩, ⟨1, 1⟩⟩, [], 0⟩]
  scale := 1.0
  limit := 3
  slotCount := 1

theorem wellFormed_smear (radius : Extent) : (smear radius).WellFormed := by
  refine ⟨.snoc (.snoc (.snoc consistent_nil ?_) ?_) ?_, ?_⟩
  · exact ⟨rfl, nofun, nofun, nofun⟩
  · refine ⟨rfl, nofun, fun _ => ?_, nofun⟩
    exact ⟨_, List.mem_singleton_self _, rfl, rfl, rfl⟩
  · refine ⟨rfl, nofun, fun _ => ?_, nofun⟩
    exact ⟨_, List.mem_cons_self, rfl, rfl, rfl⟩
  · simp [smear, Step.mentions]

theorem representable_smear (radius : Extent) :
    ∀ step ∈ (smear radius).steps.toList, step.action.Representable := by
  simp only [smear, List.forall_mem_cons]
  exact ⟨trivial, trivial, ⟨by decide, by decide⟩, nofun⟩

/-- The exact figures of a sequence decide whether the memory limit is held against it.

* The figure of a profile fits for every interval and every scale; that of a map fits exactly up to
  `samplesMax` samples, and breaks off above.
* If the exact figures of all steps fit, the sequence has a schedule with these figures, and for every
  limit below its peak a run ends with the error of the first step above it, unless a step before that
  one breaks.
* If the figures of one step do not fit, a run breaks off before the first step, for every limit. -/
theorem run_of_figures (wellFormed : sequence.WellFormed)
    (representable : ∀ step ∈ sequence.steps.toList, step.action.Representable) :
    (∀ interval scale, HeightProfile.memorySize interval scale =
      .ok (HeightProfile.headerSize + 2 * (interval.scaled scale).length)) ∧
    (∀ rectangle scale, HeightMap.memorySize rectangle scale =
      if (rectangle.scaled scale).size.area ≤ samplesMax then
        .ok (HeightMap.headerSize + 2 * (rectangle.scaled scale).size.area)
      else .error .overflow) ∧
    ∃ extents, Extents.ofSteps sequence.steps (.ofSteps sequence.steps) = .ok extents ∧
      extents.Suit sequence.steps ∧
      ((∀ figures ∈ sequence.figures extents, figures.Fit) →
        ∃ schedule, Schedule.ofSequence sequence (.ofSteps sequence.steps) = .ok schedule ∧
          schedule.toList.map (·.memory) = (sequence.figures extents).map (·.required) ∧
          ∀ limit, limit < schedule.peak → ∃ index action facts,
            Exceeds sequence schedule limit index action facts ∧
              Refuses sequence schedule limit index action facts (run (start sequence limit))) ∧
      ((∃ figures ∈ sequence.figures extents, ¬ figures.Fit) →
        ∀ limit, run (start sequence limit) = .error (.breach .overflow) (start sequence limit)) := by
  refine ⟨HeightProfile.memorySize_eq, HeightMap.memorySize_eq, ?_⟩
  obtain ⟨extents, ran, suit, planned⟩ := Schedule.ofSequence_eq wellFormed.consistent representable
  refine ⟨extents, ran, suit, fun fit => ?_, fun exceeds limit => ?_⟩
  · rw [if_pos fit] at planned
    refine ⟨_, planned, ?_, fun limit above => ?_⟩
    · exact Schedule.map_memory_factsOf (Footprints.length_figures _ _ _ _)
    · obtain ⟨index, action, facts, exceeds⟩ := exists_exceeds planned above
      exact ⟨index, action, facts, exceeds, refuses_run planned exceeds⟩
  · obtain ⟨figures, member, exceeds⟩ := exceeds
    rw [if_neg fun fit => exceeds (fit figures member)] at planned
    exact run_start_of_breach planned limit

/-- With a radius of a thousand million all figures fit, and a limit of one mebibyte refuses the plain. -/
theorem smear_refused : ∃ schedule final,
    Schedule.ofSequence (smear 1000000000) (.ofSteps (smear 1000000000).steps) = .ok schedule ∧
    schedule.toList.map (·.memory) =
      [8000000008000000066, 16000000016000000132, 8000000008000000132] ∧
    run (start (smear 1000000000) 1048576) = .error (.error (memoryFault 0
      ⟨⟨1, 1⟩, .makeMap (.flat 1), [], 0⟩ 8000000008000000066 1048576)) final ∧ final.cursor = 0 := by
  obtain ⟨-, -, extents, ran, -, fits, -⟩ := run_of_figures (wellFormed_smear 1000000000)
    (representable_smear 1000000000)
  have facts : (Extents.ofSteps (smear 1000000000).steps (.ofSteps (smear 1000000000).steps)).toOption.all
      (fun extents => (smear 1000000000).figures extents ==
        [⟨8000000008000000066, 8000000008000000066⟩, ⟨16000000016000000132, 8000000008000000066⟩,
          ⟨8000000008000000132, 8000000008000000132⟩]) = true := by
    decide +kernel
  rw [ran, Except.toOption, Option.all_some, beq_iff_eq] at facts
  rw [facts] at fits
  obtain ⟨schedule, planned, memory, refuses⟩ := fits (by decide)
  have first : schedule[0]?.map StepFacts.memory = some 8000000008000000066 := by
    rw [← Array.getElem?_toList, ← List.getElem?_map, memory]
    rfl
  obtain ⟨facts, found, required⟩ := Option.map_eq_some_iff.1 first
  obtain ⟨index, action, others, exceeds, refused⟩ := refuses 1048576 (by
    by_contra enough
    have small := Schedule.peak_le.1 (Nat.not_lt.1 enough) facts (Array.mem_of_getElem? found)
    omega)
  -- no step stands before the first one
  have zero : index = 0 := by
    by_contra later
    have small := exceeds.below 0 facts (Nat.pos_of_ne_zero later) found
    omega
  subst zero
  cases exceeds.found
  cases found.symm.trans exceeds.foundFacts
  obtain ⟨final, ended, -, cursor, -⟩ := refused
  exact ⟨schedule, final, planned, memory, required ▸ ended, cursor⟩

/-- With the greatest radius the plain would need twice what fits 64 bits. It is not refused for the limit:
planning breaks on the figure of the plain. -/
theorem smear_overflows : (smear 4294967295).WellFormed ∧
    (Extents.ofSteps (smear 4294967295).steps (.ofSteps (smear 4294967295).steps)).toOption.map (·[0]?) =
      some (some (.rectangle ⟨⟨-2147483648, -2147483648⟩, ⟨4294967295, 4294967295⟩⟩)) ∧
    HeightMap.memorySize ⟨⟨-2147483648, -2147483648⟩, ⟨4294967295, 4294967295⟩⟩ 1.0 = .error .overflow ∧
    (Bounds.rectangle ⟨⟨-2147483648, -2147483648⟩, ⟨4294967295, 4294967295⟩⟩).bytes 1.0 =
      36893488130239234114 ∧
    run (start (smear 4294967295) 1048576) =
      .error (.breach .overflow) (start (smear 4294967295) 1048576) :=
  ⟨wellFormed_smear _, by decide +kernel, by decide +kernel, by decide +kernel,
    run_start_of_breach (by decide +kernel) 1048576⟩

end Renderer

end Terrain
