import Terrain.Proofs.Control.Evaluation
import Terrain.Proofs.Machine.References
import Terrain.Proofs.Render.Safety

/-!
# What a script records can be rendered

At any point of a run the recorded steps form a well-formed sequence, to which a step of the machine
adds at most one, and rendering that sequence breaks no invariant of slots and kinds.

* `Renderer.Reached` — the renderers that planning and stepping lead to.
* `Renderer.Reached.keeps_moves`, `Renderer.Reached.keeps` — what every move keeps holds of all of them.
* `Renderer.played` — the renderer after some steps of a given sequence.
* `Machine.reachable_sequence_safe` — recorded sequences are well-formed and safe to render.
-/

namespace Terrain

namespace Renderer

/-- The renderers that planning and stepping lead to, the last step of which may have failed. -/
inductive Reached (sequence : Sequence) (memoryLimit : Nat) : Renderer → Prop
  | start : Reached sequence memoryLimit (start sequence memoryLimit)
  | plan {renderer after : Renderer} (reached : Reached sequence memoryLimit renderer)
      (planned : plan renderer = .ok () after) : Reached sequence memoryLimit after
  | step {renderer after : Renderer} {progress : Progress}
      (reached : Reached sequence memoryLimit renderer)
      (stepped : step renderer = .ok progress after) : Reached sequence memoryLimit after
  | failed {renderer after : Renderer} {error : Error}
      (reached : Reached sequence memoryLimit renderer)
      (stepped : step renderer = .error (.error error) after) : Reached sequence memoryLimit after

theorem Reached.sound {sequence : Sequence} {memoryLimit : Nat} {renderer : Renderer}
    (wellFormed : sequence.WellFormed) (reached : Reached sequence memoryLimit renderer) :
    renderer.Sound sequence := by
  induction reached with
  | start => exact sound_start sequence memoryLimit
  | plan _ planned sound =>
    have settles := settles_plan wellFormed sound
    rw [planned] at settles
    exact settles
  | step _ stepped sound =>
    have settles := settles_step wellFormed sound
    rw [stepped] at settles
    exact settles.1
  | failed _ stepped sound =>
    have settles := settles_step wellFormed sound
    rw [stepped] at settles
    exact settles.1

/-- What every move keeps holds of all renderers that are reached, be their sequence well-formed or
not. -/
theorem Reached.keeps_moves {sequence : Sequence} {memoryLimit : Nat} {renderer : Renderer}
    (kept : Renderer → Prop) (first : kept (Renderer.start sequence memoryLimit))
    (each : ∀ {renderer after : Renderer}, Reached sequence memoryLimit renderer →
      renderer.WorksOn sequence → kept renderer → renderer.Moves after → kept after)
    (reached : Reached sequence memoryLimit renderer) : renderer.WorksOn sequence ∧ kept renderer := by
  induction reached with
  | start => exact ⟨⟨rfl, rfl, nofun⟩, first⟩
  | plan reached planned before =>
    obtain ⟨worksOn, before⟩ := before
    obtain ⟨schedule, made, rfl⟩ := plan_eq_ok planned
    refine ⟨{ worksOn with schedule := ?_ }, each reached worksOn before (.inl ⟨rfl, rfl, rfl⟩)⟩
    rw [worksOn.works, worksOn.producers] at made
    rintro _ ⟨⟩
    exact made
  | step reached stepped before =>
    obtain ⟨worksOn, moves⟩ := before.1.moves_of_step stepped
    exact ⟨worksOn, each reached before.1 before.2 moves⟩
  | failed reached stepped before =>
    obtain ⟨worksOn, moves⟩ := before.1.moves_of_failed stepped
    exact ⟨worksOn, each reached before.1 before.2 moves⟩

/-- What every step keeps holds of all renderers that are reached. -/
theorem Reached.keeps {sequence : Sequence} {memoryLimit : Nat} {renderer : Renderer}
    (kept : Renderer → Prop) (wellFormed : sequence.WellFormed)
    (first : kept (Renderer.start sequence memoryLimit))
    (each : ∀ {renderer after : Renderer}, renderer.Sound sequence → kept renderer →
      renderer.Moves after → kept after)
    (reached : Reached sequence memoryLimit renderer) : kept renderer :=
  (reached.keeps_moves kept first fun reached _ before moves =>
    each (reached.sound wellFormed) before moves).2

/-- What an action leaves, and whether it has ended with a value. -/
def leaves {α : Type} : EStateM.Result Failure Renderer α → Renderer × Bool
  | .ok _ renderer => (renderer, true)
  | .error _ renderer => (renderer, false)

theorem eq_ok_of_leaves {α : Type} {result : EStateM.Result Failure Renderer α}
    (ended : (leaves result).2 = true) : ∃ value, result = .ok value (leaves result).1 := by
  cases result with
  | ok value renderer => exact ⟨value, rfl⟩
  | error failure renderer => cases ended

/-- The renderer after planning and some steps, whether or not they have ended with a value. -/
def played (sequence : Sequence) (memoryLimit : Nat) : Nat → Renderer
  | 0 => (leaves (plan (start sequence memoryLimit))).1
  | steps + 1 => (leaves (step (played sequence memoryLimit steps))).1

theorem reached_played {sequence : Sequence} {memoryLimit steps : Nat}
    (planned : (leaves (plan (start sequence memoryLimit))).2 = true)
    (stepped : ∀ earlier < steps, (leaves (step (played sequence memoryLimit earlier))).2 = true) :
    Reached sequence memoryLimit (played sequence memoryLimit steps) := by
  induction steps with
  | zero =>
    obtain ⟨_, ended⟩ := eq_ok_of_leaves planned
    exact .plan .start ended
  | succ steps before =>
    obtain ⟨_, ended⟩ := eq_ok_of_leaves (stepped steps steps.lt_succ_self)
    exact .step (before fun earlier less => stepped earlier (less.trans steps.lt_succ_self)) ended

/-- Planning, stepping and running end without a breach of slots and kinds. -/
def IsSafe (renderer : Renderer) : Prop :=
  ∀ breach after, plan renderer = .error (.breach breach) after ∨
    step renderer = .error (.breach breach) after ∨ run renderer = .error (.breach breach) after →
      breach.isStructural = false

theorem Sound.isSafe {sequence : Sequence} {renderer : Renderer} (wellFormed : sequence.WellFormed)
    (sound : renderer.Sound sequence) : renderer.IsSafe := by
  rintro breach after (failed | failed | failed)
  · have settles := settles_plan wellFormed sound
    rw [failed] at settles
    exact settles
  · have settles := settles_step wellFormed sound
    rw [failed] at settles
    exact settles
  · have settles := settles_run wellFormed sound
    rw [failed] at settles
    exact settles

end Renderer

namespace Machine

/-- A step records at most one rendering step, also when it fails. -/
theorem Sound.grows {program : Program} {machine : Machine} {steps : Array Step}
    {extra : Multiset ObjectId} (sound : machine.Sound ⟨[], steps⟩ extra ∅) :
    (∀ progress after, step program machine = .ok progress after →
        Grows machine.sequence.steps after.sequence.steps) ∧
      ∀ error after, step program machine = .error (.error error) after →
        Grows machine.sequence.steps after.sequence.steps := by
  have stepSound := @ends_step program _ _ _ sound
  refine ⟨fun progress after stepped => ?_, fun error after stepped => ?_⟩
  all_goals
    rw [stepped] at stepSound
    obtain ⟨more, grows, soundAfter⟩ := stepSound
    cases sound.steps
    cases soundAfter.steps
    exact grows

/-- In every state of a run the recorded steps form a well-formed sequence, to which one step of the
machine adds at most one, and no way of rendering the sequence breaks an invariant of slots and
kinds. -/
theorem reachable_sequence_safe {program : Program} {machine : Machine}
    (reached : Reachable program machine) :
    machine.sequence.WellFormed ∧
      (∀ step ∈ machine.sequence.steps, step.arguments.length = step.action.arity) ∧
      (∀ progress after, step program machine = .ok progress after →
        Grows machine.sequence.steps after.sequence.steps) ∧
      (∀ error after, step program machine = .error (.error error) after →
        Grows machine.sequence.steps after.sequence.steps) ∧
      ∀ memoryLimit renderer, Renderer.Reached machine.sequence memoryLimit renderer →
        renderer.IsSafe := by
  have sound := reached.sound
  have wellFormed := sound.recorded
  have arity (step : Step) (recorded : step ∈ machine.sequence.steps) :
      step.arguments.length = step.action.arity := by
    obtain ⟨index, found⟩ := Array.mem_iff_getElem?.1 recorded
    exact (wellFormed.consistent.follows_at (by simpa using found)).arity
  obtain ⟨growsDone, growsFailed⟩ := @Sound.grows program _ _ _ sound
  refine ⟨wellFormed, arity, growsDone, growsFailed, ?_⟩
  intro memoryLimit renderer reached
  exact (reached.sound wellFormed).isSafe wellFormed

/-- The steps that the survey records: makers, edits with and without arguments, and a yield, each with
the slots that it reads and the one that it writes. -/
def surveyed : List (String × List Slot × Slot) :=
  [("HeightMap.Flat", [], 0), ("HeightMap.Clone", [0], 1), ("HeightMap.Add", [], 1),
    ("HeightMap.Add", [], 1), ("HeightMap.AddMap", [0], 1), ("Yield", [], 1)]

/-- When the survey is refused its seventh step, nothing is added to the six that it has recorded, all of
which can be rendered. -/
theorem survey_sequence_safe : ∃ machine error after renderer, Reachable (survey 6) machine ∧
    step (survey 6) machine = .error (.error error) after ∧
    Grows machine.sequence.steps after.sequence.steps ∧
    after.sequence.steps.toList.map (fun step => (step.action.name, step.arguments, step.target)) =
      surveyed ∧
    after.sequence.WellFormed ∧
    (∀ step ∈ after.sequence.steps, step.arguments.length = step.action.arity) ∧
    Renderer.Reached after.sequence 1000 renderer ∧ renderer.cursor = 6 ∧ renderer.IsSafe := by
  obtain ⟨machine, reached, checked⟩ : ∃ machine, Reachable (survey 6) machine ∧
      (Upshot.refused? (step (survey 6) machine)).any fun refusal =>
        refusal.2.sequence.steps.toList.map (fun step => (step.action.name, step.arguments, step.target)) =
          surveyed ∧
        (Renderer.leaves (Renderer.plan (.start refusal.2.sequence 1000))).2 = true ∧
        (∀ steps < 6, (Renderer.leaves (Renderer.step (.played refusal.2.sequence 1000 steps))).2 = true) ∧
        (Renderer.played refusal.2.sequence 1000 6).cursor = 6 :=
    exists_reachable 58 (by decide +kernel)
  obtain ⟨⟨error, after⟩, refused, held⟩ := (Option.any_eq_true _ _).1 checked
  obtain ⟨steps, planned, played, cursor⟩ := of_decide_eq_true held
  have stepped := Upshot.eq_error_of_refused? refused
  have grows := (reachable_sequence_safe reached).2.2.2.1 _ _ stepped
  obtain ⟨wellFormed, arity, -, -, safe⟩ := reachable_sequence_safe (reached.failed stepped)
  have rendered := Renderer.reached_played planned played
  exact ⟨machine, error, after, _, reached, stepped, grows, steps, wellFormed, arity, rendered, cursor,
    safe 1000 _ rendered⟩

end Machine

end Terrain
