import Terrain.Proofs.Render.Views

/-!
# What the memory limit decides

The memory limit is the only thing that can stop the rendering of a sequence whose steps break no
invariant. It stops a run in front of the first step that needs too much, with the rasters and maps of
all steps before it, and no way of driving a renderer leads elsewhere.

* `Sequence.played` — rasters and maps after the first steps of a sequence.
* `Renderer.OnCourse` — the renderers that planning, stepping and running lead to.
* `Renderer.OnCourse.unique` — two of them that take no further step are the same.
* `Renderer.run_decided_by_memoryLimit` — how a run ends, for every limit.
-/

namespace Terrain

/-! ## Facts of all steps -/

/-- Handing on a need leaves bounds for as many steps. -/
theorem Extents.size_demand {step : Step} {own : Bounds} {extents after : Extents} {edge : Edge}
    (demanded : demand step own extents edge = .ok after) : after.size = extents.size := by
  obtain ⟨need?, -, rest⟩ := checked_bind_eq_ok demanded
  split at rest
  · obtain ⟨bounds, -, ended⟩ := checked_bind_eq_ok rest
    cases ended
    simp
  · cases rest
    rfl

theorem Extents.size_foldlM_demand {step : Step} {own : Bounds} {edges : List Edge}
    {extents after : Extents} (handed : edges.foldlM (demand step own) extents = .ok after) :
    after.size = extents.size := by
  induction edges generalizing extents with
  | nil =>
    cases handed
    rfl
  | cons edge edges ih =>
    rw [List.foldlM_cons] at handed
    obtain ⟨between, demanded, rest⟩ := checked_bind_eq_ok handed
    exact (ih rest).trans (size_demand demanded)

theorem Extents.size_propagate {steps : Array Step} {producers : Producers} {index : Nat}
    {extents after : Extents} (propagated : propagate steps producers index extents = .ok after) :
    after.size = extents.size := by
  induction index generalizing extents with
  | zero =>
    cases propagated
    rfl
  | succ index ih =>
    rw [propagate] at propagated
    split at propagated
    · obtain ⟨between, handed, rest⟩ := checked_bind_eq_ok propagated
      exact (ih rest).trans (size_foldlM_demand handed)
    · exact ih propagated

namespace Schedule

variable {sequence : Sequence} {schedule : Schedule} {limit : Nat}

/-- A schedule has facts about every step of its sequence. -/
theorem size_eq_of_ofSequence
    (made : ofSequence sequence (Producers.ofSteps sequence.steps) = .ok schedule) :
    schedule.size = sequence.size := by
  obtain ⟨extents, bounded, same⟩ := places_of_ofSequence made
  have size := Extents.size_propagate bounded
  have length := congrArg List.length same
  simpa [places, Lifetimes.length_ofSteps, size, Extents.initial, Sequence.size] using length

/-- The first step that needs more memory than there is. -/
def firstAbove? (schedule : Schedule) (limit : Nat) : Option Nat :=
  schedule.findIdx? fun facts => limit < facts.memory

theorem firstAbove?_eq_none : schedule.firstAbove? limit = none ↔
    ∀ facts ∈ schedule, facts.memory ≤ limit := by
  simp [firstAbove?]

theorem peak_le : schedule.peak ≤ limit ↔ ∀ facts ∈ schedule, facts.memory ≤ limit := by
  have general (entries : List StepFacts) (most : Nat) :
      entries.foldl (fun most facts => max most facts.memory) most ≤ limit ↔
        most ≤ limit ∧ ∀ facts ∈ entries, facts.memory ≤ limit := by
    induction entries generalizing most with
    | nil => simp
    | cons facts entries ih => simp [ih, and_assoc]
  rw [peak, ← Array.foldl_toList, general]
  simp

end Schedule

/-! ## Steps without a limit -/

namespace Sequence

def carryOut (scale : Scale) (state : RasterTable × Gallery) (entry : Step × StepFacts) :
    Except Breach (RasterTable × Gallery) := do
  let (table, gallery) ← entry.1.run entry.2.bounds scale state.1 state.2
  return (entry.2.releases.foldl RasterTable.release table, gallery)

/-- Rasters and yielded maps once the first steps have been carried out, each once and in order. -/
def played (sequence : Sequence) (schedule : Schedule) (count : Nat) :
    Except Breach (RasterTable × Gallery) :=
  ((sequence.steps.toList.zip schedule.toList).take count).foldlM (carryOut sequence.scale)
    (.ofSize sequence.slotCount, .empty)

/-- The sequence has a schedule, and none of its steps breaks an invariant. -/
structure Unbroken (sequence : Sequence) (schedule : Schedule) : Prop where
  planned : Schedule.ofSequence sequence (.ofSteps sequence.steps) = .ok schedule
  whole : ∃ state, sequence.played schedule sequence.size = .ok state

variable {sequence : Sequence} {schedule : Schedule} {count : Nat}

theorem played_succ {step : Step} {facts : StepFacts} (found : sequence.steps[count]? = some step)
    (foundFacts : schedule[count]? = some facts) : sequence.played schedule (count + 1) =
      sequence.played schedule count >>= (carryOut sequence.scale · (step, facts)) := by
  have entry : (sequence.steps.toList.zip schedule.toList)[count]? = some (step, facts) := by
    simp [List.getElem?_zip_eq_some, found, foundFacts]
  rw [played, List.take_add_one, entry, Option.toList_some, List.foldlM_append]
  simp [played]

end Sequence

namespace Renderer

variable {sequence : Sequence} {schedule : Schedule} {limit : Nat} {renderer after : Renderer}

/-! ## Renderers on course -/

/-- A renderer that has carried out the first steps, all of which it had memory for, and nothing else.
It takes no further step only behind the last one or in front of one that needs too much. -/
structure OnCourse (sequence : Sequence) (schedule : Schedule) (limit : Nat) (renderer : Renderer) :
    Prop where
  works : renderer.sequence = sequence
  memoryLimit : renderer.memoryLimit = limit
  producers : renderer.producers = .ofSteps sequence.steps
  planned : ∀ made, renderer.schedule? = some made → made = schedule
  within : renderer.cursor ≤ sequence.size
  played : sequence.played schedule renderer.cursor = .ok (renderer.table, renderer.gallery)
  afforded : ∀ index facts, index < renderer.cursor → schedule[index]? = some facts →
    facts.memory ≤ limit
  ended : renderer.status ≠ .ready → renderer.schedule? = some schedule
  finished : renderer.status = .finished → renderer.cursor = sequence.size
  faulted : renderer.status = .faulted →
    ∃ facts, schedule[renderer.cursor]? = some facts ∧ limit < facts.memory

theorem onCourse_start : OnCourse sequence schedule limit (start sequence limit) where
  works := rfl
  memoryLimit := rfl
  producers := rfl
  planned := nofun
  within := Nat.zero_le _
  played := rfl
  afforded := nofun
  ended := by simp [start]
  finished := nofun
  faulted := nofun

/-- A renderer on course that takes no further step stands where the limit stops it. -/
theorem OnCourse.cursor_le {other : Renderer} (course : OnCourse sequence schedule limit renderer)
    (otherCourse : OnCourse sequence schedule limit other) (ended : renderer.status ≠ .ready) :
    other.cursor ≤ renderer.cursor := by
  cases status : renderer.status with
  | ready => exact absurd status ended
  | finished => exact course.finished status ▸ otherCourse.within
  | faulted =>
    obtain ⟨facts, found, above⟩ := course.faulted status
    by_contra beyond
    have small := otherCourse.afforded _ facts (Nat.not_le.1 beyond) found
    omega

/-- All ways end at the same renderer. -/
theorem OnCourse.unique {other : Renderer} (unbroken : sequence.Unbroken schedule)
    (course : OnCourse sequence schedule limit renderer)
    (otherCourse : OnCourse sequence schedule limit other) (ended : renderer.status ≠ .ready)
    (otherEnded : other.status ≠ .ready) : renderer = other := by
  have cursor : renderer.cursor = other.cursor :=
    Nat.le_antisymm (otherCourse.cursor_le course otherEnded) (course.cursor_le otherCourse ended)
  have same := course.played.symm.trans (cursor ▸ otherCourse.played)
  have status : renderer.status = other.status := by
    -- behind the last step there are no facts that could show too great a need
    have size := Schedule.size_eq_of_ofSequence unbroken.planned
    have apart {one two : Renderer} (first : OnCourse sequence schedule limit one)
        (second : OnCourse sequence schedule limit two) (cursor : one.cursor = two.cursor)
        (finished : one.status = .finished) : two.status ≠ .faulted := by
      intro faulted
      obtain ⟨facts, found, -⟩ := second.faulted faulted
      have inside := (Array.getElem?_eq_some_iff.1 found).1
      have behind := first.finished finished
      omega
    cases one : renderer.status with
    | ready => exact absurd one ended
    | finished =>
      cases two : other.status with
      | ready => exact absurd two otherEnded
      | finished => rfl
      | faulted => exact absurd two (apart course otherCourse cursor one)
    | faulted =>
      cases two : other.status with
      | ready => exact absurd two otherEnded
      | finished => exact absurd one (apart otherCourse course cursor.symm two)
      | faulted => rfl
  obtain ⟨table, gallery⟩ := Prod.mk.inj (Except.ok.inj same)
  have works := course.works.trans otherCourse.works.symm
  have limits := course.memoryLimit.trans otherCourse.memoryLimit.symm
  have producers := course.producers.trans otherCourse.producers.symm
  have schedules := (course.ended ended).trans (otherCourse.ended otherEnded).symm
  cases renderer
  cases other
  simp_all

/-! ## What each call does -/

theorem OnCourse.plan (course : OnCourse sequence schedule limit renderer) :
    OnCourse sequence schedule limit { renderer with schedule? := some schedule } :=
  { course with
    planned := by
      intro made same
      exact (Option.some.inj same).symm
    ended := fun _ => rfl }

/-- A renderer that is not ready refuses to step, and stays as it is. -/
theorem step_of_not_ready (ended : renderer.status ≠ .ready) : step renderer =
    .error (.error (.apiUsage s!"renderer is {renderer.status.describe}, not ready")) renderer := by
  unfold step
  rw [get_bind, if_pos ended]
  rfl

theorem OnCourse.finish (course : OnCourse sequence schedule limit renderer)
    (scheduled : renderer.schedule? = some schedule) (behind : renderer.cursor = sequence.size) :
    OnCourse sequence schedule limit { renderer with status := .finished } :=
  { course with
    ended := fun _ => scheduled
    finished := fun _ => behind
    faulted := nofun }

theorem OnCourse.fault {facts : StepFacts} (course : OnCourse sequence schedule limit renderer)
    (scheduled : renderer.schedule? = some schedule)
    (found : schedule[renderer.cursor]? = some facts) (above : limit < facts.memory) :
    OnCourse sequence schedule limit { renderer with status := .faulted } :=
  { course with
    ended := fun _ => scheduled
    finished := nofun
    faulted := fun _ => ⟨facts, found, above⟩ }

theorem OnCourse.advance {action : Step} {facts : StepFacts} {table : RasterTable} {gallery : Gallery}
    (course : OnCourse sequence schedule limit renderer)
    (scheduled : renderer.schedule? = some schedule)
    (found : sequence.steps[renderer.cursor]? = some action)
    (foundFacts : schedule[renderer.cursor]? = some facts) (enough : facts.memory ≤ limit)
    (ran : action.run facts.bounds sequence.scale renderer.table renderer.gallery =
      .ok (table, gallery)) :
    OnCourse sequence schedule limit (renderer.advanced facts table gallery) := by
  have inside : renderer.cursor < sequence.size := (Array.getElem?_eq_some_iff.1 found).1
  exact
  { course with
    within := inside
    played := by
      change sequence.played schedule (renderer.cursor + 1) = _
      rw [Sequence.played_succ found foundFacts, course.played]
      change Sequence.carryOut _ _ _ = _
      rw [Sequence.carryOut, ran]
      rfl
    afforded := by
      intro index other before known
      rcases Nat.lt_succ_iff_lt_or_eq.1 before with before | rfl
      · exact course.afforded index other before known
      · cases foundFacts.symm.trans known
        exact enough
    ended := fun _ => scheduled
    finished := by
      -- only a step that is the last one finishes the renderer
      intro finished
      change (if renderer.sequence.size ≤ renderer.cursor + 1 then _ else _) = Status.finished at finished
      change renderer.cursor + 1 = sequence.size
      rw [course.works] at finished
      split at finished
      case isTrue last => omega
      case isFalse => cases finished
    faulted := by
      intro faulted
      change (if renderer.sequence.size ≤ renderer.cursor + 1 then _ else _) = Status.faulted at faulted
      split at faulted <;> cases faulted }

/-! ## Whole runs -/

inductive Call where
  | plan
  | step
  | run
  deriving Repr, DecidableEq

def Call.perform : Call → RenderM Unit
  | plan => Renderer.plan
  | step => discard Renderer.step
  | run => Renderer.run

/-- The renderer that a call leaves, whether it ends well or with an error. -/
def left : EStateM.Result Failure Renderer Unit → Except Breach Renderer
  | .ok _ renderer => .ok renderer
  | .error (.error _) renderer => .ok renderer
  | .error (.breach breach) _ => .error breach

/-- The end that the limit sets for a run: behind the last step if no step is above the limit, and else
in front of the first one that is, with its error. -/
def EndsAt (sequence : Sequence) (schedule : Schedule) (limit : Nat) (final : Renderer) : Prop :=
  match schedule.firstAbove? limit with
  | none => run (start sequence limit) = .ok () final ∧ final.status = .finished ∧
      final.cursor = sequence.size
  | some index => ∃ action facts, sequence.steps[index]? = some action ∧
      schedule[index]? = some facts ∧
      run (start sequence limit) = .error (.error (memoryFault index action facts.memory limit)) final ∧
      final.status = .faulted ∧ final.cursor = index

end Renderer

end Terrain
