import Terrain.Proofs.Outcome
import Terrain.Proofs.Plan.Lifetimes
import Terrain.Proofs.Render.Slots
import Terrain.Render.Renderer

/-!
# Safety of rendering

While a well-formed sequence is rendered, every slot that later steps name and earlier ones have
filled holds a raster of its kind. So no step finds an empty slot or a raster of the wrong kind.

* `Renderer.StepsTo` — all that the step of a renderer can come to.
* `Renderer.Sound` — the invariant of rendering.
* `Renderer.settles_plan`, `Renderer.settles_step`, `Renderer.settles_run` — it is kept, and a breach
  is never one of slots and kinds.
-/

namespace Terrain

namespace Schedule

variable {sequence : Sequence} {schedule : Schedule} {index : Nat} {facts : StepFacts}

/-- The facts of a step are its own bounds and releases. -/
theorem exists_extents_of_ofSequence
    (made : ofSequence sequence (Producers.ofSteps sequence.steps) = .ok schedule)
    (found : schedule[index]? = some facts) :
    ∃ extents step, Extents.ofSteps sequence.steps (.ofSteps sequence.steps) = .ok extents ∧
      sequence.steps[index]? = some step ∧ extents[index]? = some facts.bounds ∧
      (Lifetimes.ofSteps sequence.steps)[index]? = some facts.releases := by
  obtain ⟨extents, bounded, same⟩ := places_of_ofSequence made
  have place : schedule.places[index]? = some (facts.bounds, facts.releases) := by
    simp [places, found]
  rw [same, List.getElem?_map, Option.map_eq_some_iff] at place
  obtain ⟨⟨step, bounds, releases⟩, zipped, pair⟩ := place
  cases pair
  rw [List.getElem?_zip_eq_some, List.getElem?_zip_eq_some] at zipped
  obtain ⟨foundStep, foundBounds, freed⟩ := zipped
  exact ⟨extents, step, bounded, by simpa using foundStep, by simpa using foundBounds, freed⟩

/-- The facts of a step in a schedule that was made for its sequence. -/
theorem facts_of_ofSequence (consistent : Consistent sequence.steps.toList)
    (made : ofSequence sequence (Producers.ofSteps sequence.steps) = .ok schedule)
    (found : schedule[index]? = some facts) :
    ∃ step, sequence.steps[index]? = some step ∧ facts.bounds.kind = step.action.kind ∧
      (Lifetimes.ofSteps sequence.steps)[index]? = some facts.releases := by
  obtain ⟨extents, step, bounded, foundStep, foundBounds, freed⟩ :=
    exists_extents_of_ofSequence made found
  have kinded := (Extents.fits_ofSteps consistent).ok bounded
  exact ⟨step, foundStep, kinded.kind foundStep foundBounds, freed⟩

/-- There are facts about every step. -/
theorem size_of_ofSequence (consistent : Consistent sequence.steps.toList)
    (made : ofSequence sequence (Producers.ofSteps sequence.steps) = .ok schedule) :
    schedule.size = sequence.size := by
  obtain ⟨extents, bounded, same⟩ := places_of_ofSequence made
  have size := ((Extents.fits_ofSteps consistent).ok bounded).size
  have length := congrArg List.length same
  simpa [places, Lifetimes.length_ofSteps, size, Sequence.size] using length

end Schedule

namespace Renderer

variable {α β : Type} {sequence : Sequence} {renderer : Renderer}

/-- The renderer that is left satisfies a condition, and a breach is not one of slots and kinds. -/
def Settles (result : EStateM.Result Failure Renderer α) (kept : Renderer → Prop) : Prop :=
  match result with
  | .ok _ renderer => kept renderer
  | .error (.error _) renderer => kept renderer
  | .error (.breach breach) _ => breach.isStructural = false

theorem Settles.imp {result : EStateM.Result Failure Renderer α} {kept kept' : Renderer → Prop}
    (settles : Settles result kept) (implies : ∀ renderer, kept renderer → kept' renderer) :
    Settles result kept' := by
  match result with
  | .ok _ renderer => exact implies renderer settles
  | .error (.error _) renderer => exact implies renderer settles
  | .error (.breach _) _ => exact settles

theorem Settles.bind {action : RenderM α} {next : α → RenderM β} {kept : Renderer → Prop}
    (first : Settles (action renderer) kept)
    (second : ∀ value renderer, kept renderer → Settles (next value renderer) kept) :
    Settles ((action >>= next) renderer) kept := by
  change Settles (EStateM.bind action next renderer) kept
  unfold EStateM.bind
  cases outcome : action renderer with
  | ok value renderer =>
    rw [outcome] at first
    exact second value renderer first
  | error failure renderer =>
    rw [outcome] at first
    cases failure <;> exact first

theorem Settles.discard {action : RenderM α} {kept : Renderer → Prop}
    (settles : Settles (action renderer) kept) :
    Settles (Functor.discard action renderer) kept := by
  change Settles (EStateM.map (fun _ => PUnit.unit) action renderer) kept
  unfold EStateM.map
  cases outcome : action renderer with
  | ok value renderer =>
    rw [outcome] at settles
    exact settles
  | error failure renderer =>
    rw [outcome] at settles
    cases failure <;> exact settles

/-- A computation that fits may come first. -/
theorem settles_check {result : Except Breach α} {next : α → RenderM β} {holds : α → Prop}
    {kept : Renderer → Prop} (fits : Fits result holds)
    (rest : ∀ value, result = .ok value → holds value → Settles (next value renderer) kept) :
    Settles ((check result >>= next) renderer) kept := by
  cases result with
  | ok value => exact rest value rfl fits
  | error breach => exact fits

structure Sound (renderer : Renderer) (sequence : Sequence) : Prop where
  works : renderer.sequence = sequence
  producers : renderer.producers = .ofSteps sequence.steps
  schedule : ∀ schedule, renderer.schedule? = some schedule →
    Schedule.ofSequence sequence (.ofSteps sequence.steps) = .ok schedule
  table : ∀ slot kind, Makes (sequence.steps.toList.take renderer.cursor) slot kind →
    ∀ later ∈ sequence.steps.toList.drop renderer.cursor, slot ∈ later.mentions →
      renderer.table.Holds slot kind

theorem sound_start (sequence : Sequence) (memoryLimit : Nat) :
    (start sequence memoryLimit).Sound sequence where
  works := rfl
  producers := rfl
  schedule := nofun
  table slot kind made := by
    obtain ⟨step, member, -⟩ := made
    cases member

/-- The next step finds rasters of the kinds it expects. -/
theorem Sound.holds (wellFormed : sequence.WellFormed) (sound : renderer.Sound sequence) {step : Step}
    (found : sequence.steps[renderer.cursor]? = some step) :
    (∀ slot ∈ step.arguments, renderer.table.Holds slot step.action.argumentKind) ∧
      (step.isMaker = false → renderer.table.Holds step.target step.action.kind) := by
  have foundList : sequence.steps.toList[renderer.cursor]? = some step := by simpa using found
  have follows := wellFormed.consistent.follows_at foundList
  have here : step ∈ sequence.steps.toList.drop renderer.cursor := by
    rw [List.drop_eq_getElem_cons (List.getElem?_eq_some_iff.1 foundList).1,
      (List.getElem?_eq_some_iff.1 foundList).2]
    exact List.mem_cons_self
  refine ⟨fun slot argument => ?_, fun edits => ?_⟩
  · exact sound.table slot _ (follows.arguments slot argument) step here
      (List.mem_cons_of_mem _ argument)
  · exact sound.table step.target _ (follows.filled edits) step here List.mem_cons_self

theorem Sound.supplies (wellFormed : sequence.WellFormed) (sound : renderer.Sound sequence) {step : Step}
    (found : sequence.steps[renderer.cursor]? = some step) :
    (step.inputs renderer.table).Supplies step.action.argumentKind step.action.arity :=
  ArgumentReader.supplies_ofSlots (wellFormed.consistent.follows_at (by simpa using found)).arity
    (sound.holds wellFormed found).1

theorem settles_plan (wellFormed : sequence.WellFormed) (sound : renderer.Sound sequence) :
    Settles (plan renderer) (Sound · sequence) := by
  have fits := Schedule.fits_ofSequence wellFormed.consistent
  unfold plan
  rw [get_bind]
  refine settles_check (by rw [sound.works, sound.producers]; exact fits) fun schedule made _ => ?_
  rw [sound.works, sound.producers] at made
  refine { sound with schedule := ?_ }
  rintro _ ⟨⟩
  exact made

/-- Planning adds a schedule and changes nothing else. -/
theorem plan_eq_ok {after : Renderer} (planned : plan renderer = .ok () after) :
    ∃ schedule, Schedule.ofSequence renderer.sequence renderer.producers = .ok schedule ∧
      after = { renderer with schedule? := some schedule } := by
  unfold plan at planned
  rw [get_bind] at planned
  cases made : Schedule.ofSequence renderer.sequence renderer.producers with
  | error breach =>
    rw [made] at planned
    cases planned
  | ok schedule =>
    rw [made] at planned
    cases planned
    exact ⟨schedule, rfl, rfl⟩

/-- The table after a step, when the slots that are not named later have been freed. -/
theorem holds_after {steps : Array Step} {index : Nat} {step : Step} {table after : RasterTable}
    {freed : List Slot} (consistent : Consistent steps.toList) (found : steps[index]? = some step)
    (lifetimes : (Lifetimes.ofSteps steps)[index]? = some freed) (updates : step.Updates table after)
    (before : ∀ slot kind, Makes (steps.toList.take index) slot kind →
      ∀ later ∈ steps.toList.drop index, slot ∈ later.mentions → table.Holds slot kind)
    (slot : Slot) (kind : RasterKind) (made : Makes (steps.toList.take (index + 1)) slot kind)
    (later : Step) (behind : later ∈ steps.toList.drop (index + 1))
    (mentioned : slot ∈ later.mentions) :
    (freed.foldl RasterTable.release after).Holds slot kind := by
  have foundList : steps.toList[index]? = some step := by simpa using found
  have kept : slot ∉ freed := fun released =>
    Lifetimes.not_mentioned_of_freed lifetimes released behind mentioned
  unfold RasterTable.Holds
  rw [RasterTable.get?_foldl_release kept]
  by_cases target : slot = step.target
  case pos =>
    have own := consistent.makes_target foundList
    rw [← target] at own
    have whole := made.mono (List.take_subset _ steps.toList)
    rw [consistent.kind_unique whole own, target]
    exact updates.1
  case neg =>
    rw [updates.2 slot target]
    refine before slot kind ?_ later (List.drop_subset_drop_left _ (Nat.le_succ index) behind) mentioned
    -- the maker of the slot is not the step, whose target is another one
    obtain ⟨maker, member, fills, same, makes⟩ := made
    rw [List.take_add_one, foundList, List.mem_append] at member
    rcases member with member | last
    · exact ⟨maker, member, fills, same, makes⟩
    · obtain rfl : maker = step := by simpa using last
      exact absurd same.symm target

def advanced (renderer : Renderer) (facts : StepFacts) (table : RasterTable) (gallery : Gallery) :
    Renderer :=
  { renderer with
    table := facts.releases.foldl RasterTable.release table
    gallery
    cursor := renderer.cursor + 1
    status := if renderer.sequence.size ≤ renderer.cursor + 1 then .finished else .ready }

/-- All that the step of a renderer can come to. -/
inductive StepsTo (renderer : Renderer) : EStateM.Result Failure Renderer Progress → Prop
  | refused {error : Error} (unprepared : renderer.status = .ready → ∀ schedule,
        renderer.schedule? = some schedule →
          renderer.cursor < renderer.sequence.size ∧ schedule[renderer.cursor]? = none) :
      StepsTo renderer (.error (.error error) renderer)
  | finished (behind : renderer.sequence.size ≤ renderer.cursor) :
      StepsTo renderer (.ok .finished { renderer with status := .finished })
  | exceeded {schedule : Schedule} {action : Step} {facts : StepFacts}
      (scheduled : renderer.schedule? = some schedule)
      (found : renderer.sequence.steps[renderer.cursor]? = some action)
      (foundFacts : schedule[renderer.cursor]? = some facts)
      (above : renderer.memoryLimit < facts.memory) :
      StepsTo renderer (.error (.error (memoryFault renderer.cursor action facts.memory
        renderer.memoryLimit)) { renderer with status := .faulted })
  | broken {schedule : Schedule} {action : Step} {facts : StepFacts} {breach : Breach}
      (scheduled : renderer.schedule? = some schedule)
      (found : renderer.sequence.steps[renderer.cursor]? = some action)
      (foundFacts : schedule[renderer.cursor]? = some facts)
      (ran : action.run facts.bounds renderer.sequence.scale renderer.table renderer.gallery =
        .error breach) :
      StepsTo renderer (.error (.breach breach) renderer)
  | carriedOut {schedule : Schedule} {action : Step} {facts : StepFacts} {table : RasterTable}
      {gallery : Gallery} (scheduled : renderer.schedule? = some schedule)
      (found : renderer.sequence.steps[renderer.cursor]? = some action)
      (foundFacts : schedule[renderer.cursor]? = some facts)
      (within : facts.memory ≤ renderer.memoryLimit)
      (ran : action.run facts.bounds renderer.sequence.scale renderer.table renderer.gallery =
        .ok (table, gallery)) :
      StepsTo renderer (.ok (if renderer.sequence.size ≤ renderer.cursor + 1 then .finished else .running)
        (renderer.advanced facts table gallery))

theorem stepsTo_step (renderer : Renderer) : StepsTo renderer (step renderer) := by
  unfold step
  rw [get_bind]
  dsimp only
  split
  case isTrue notReady => exact .refused fun ready => absurd ready notReady
  cases scheduled : renderer.schedule? with
  | none => exact .refused fun _ schedule found => nomatch scheduled.symm.trans found
  | some schedule =>
    dsimp only
    cases found : renderer.sequence.steps[renderer.cursor]? with
    | none =>
      rw [← scheduled]
      exact .finished (Array.getElem?_eq_none_iff.1 found)
    | some action =>
      dsimp only
      cases foundFacts : schedule[renderer.cursor]? with
      | none =>
        refine .refused fun _ other same => ?_
        cases scheduled.symm.trans same
        exact ⟨(Array.getElem?_eq_some_iff.1 found).1, foundFacts⟩
      | some facts =>
        dsimp only
        rw [← scheduled]
        split
        case isTrue above => exact .exceeded scheduled found foundFacts above
        case isFalse within =>
          cases ran : action.run facts.bounds renderer.sequence.scale renderer.table renderer.gallery with
          | error breach => exact .broken scheduled found foundFacts ran
          | ok result => exact .carriedOut scheduled found foundFacts (Nat.not_lt.1 within) ran

/-- A step that fails carries nothing out. -/
theorem step_eq_error {after : Renderer} {error : Error}
    (stepped : step renderer = .error (.error error) after) :
    after = renderer ∨ after = { renderer with status := .faulted } := by
  have outcome := stepsTo_step renderer
  rw [stepped] at outcome
  cases outcome with
  | refused => exact .inl rfl
  | exceeded => exact .inr rfl

/-- The step of a renderer carries out the next step of the sequence and frees what no later step
names. -/
structure Takes (renderer after : Renderer) (schedule : Schedule) (action : Step) (facts : StepFacts)
    (table : RasterTable) : Prop where
  scheduled : renderer.schedule? = some schedule
  found : renderer.sequence.steps[renderer.cursor]? = some action
  foundFacts : schedule[renderer.cursor]? = some facts
  ran : action.run facts.bounds renderer.sequence.scale renderer.table renderer.gallery =
    .ok (table, after.gallery)
  released : after.table = facts.releases.foldl RasterTable.release table
  advanced : after.cursor = renderer.cursor + 1

/-- What the step of a renderer can do: nothing to the rasters, or one step of the sequence. -/
def Moves (renderer after : Renderer) : Prop :=
  (after.table = renderer.table ∧ after.gallery = renderer.gallery ∧ after.cursor = renderer.cursor) ∨
    ∃ schedule action facts table, renderer.Takes after schedule action facts table

/-- The renderer is at work on a sequence, with the schedule of that sequence if it has any. -/
structure WorksOn (renderer : Renderer) (sequence : Sequence) : Prop where
  works : renderer.sequence = sequence
  producers : renderer.producers = .ofSteps sequence.steps
  schedule : ∀ schedule, renderer.schedule? = some schedule →
    Schedule.ofSequence sequence (.ofSteps sequence.steps) = .ok schedule

/-- A step that goes well is a move, and the renderer is at work on the same sequence. -/
theorem WorksOn.moves_of_step {after : Renderer} {progress : Progress} (worksOn : renderer.WorksOn sequence)
    (stepped : step renderer = .ok progress after) :
    after.WorksOn sequence ∧ renderer.Moves after := by
  have outcome := stepsTo_step renderer
  rw [stepped] at outcome
  cases outcome with
  | finished => exact ⟨{ worksOn with }, .inl ⟨rfl, rfl, rfl⟩⟩
  | carriedOut scheduled found foundFacts _ ran =>
    exact ⟨{ worksOn with }, .inr ⟨_, _, _, _, scheduled, found, foundFacts, ran, rfl, rfl⟩⟩

theorem WorksOn.moves_of_failed {after : Renderer} {error : Error} (worksOn : renderer.WorksOn sequence)
    (stepped : step renderer = .error (.error error) after) :
    after.WorksOn sequence ∧ renderer.Moves after := by
  rcases step_eq_error stepped with rfl | rfl
  · exact ⟨worksOn, .inl ⟨rfl, rfl, rfl⟩⟩
  · exact ⟨{ worksOn with }, .inl ⟨rfl, rfl, rfl⟩⟩

/-- The next step of the sequence finds what it needs and frees what no later step names. -/
theorem Sound.fits_run (wellFormed : sequence.WellFormed) (sound : renderer.Sound sequence)
    {schedule : Schedule} {action : Step} {facts : StepFacts}
    (scheduled : renderer.schedule? = some schedule)
    (found : renderer.sequence.steps[renderer.cursor]? = some action)
    (foundFacts : schedule[renderer.cursor]? = some facts) :
    Fits (action.run facts.bounds renderer.sequence.scale renderer.table renderer.gallery) fun result =>
      (renderer.advanced facts result.1 result.2).Sound sequence := by
  rw [sound.works] at found
  obtain ⟨_, foundStep, ownKind, freed⟩ :=
    Schedule.facts_of_ofSequence wellFormed.consistent (sound.schedule schedule scheduled) foundFacts
  cases found.symm.trans foundStep
  have supplies := sound.supplies wellFormed found
  exact (Step.fits_run ownKind supplies (sound.holds wellFormed found).2).imp fun result updates =>
    { sound with table := holds_after wellFormed.consistent found freed updates sound.table }

theorem settles_step (wellFormed : sequence.WellFormed) (sound : renderer.Sound sequence) :
    Settles (step renderer) fun after => after.Sound sequence ∧ renderer.Moves after := by
  have outcome := stepsTo_step renderer
  generalize step renderer = result at outcome
  cases outcome with
  | refused => exact ⟨sound, .inl ⟨rfl, rfl, rfl⟩⟩
  | finished => exact ⟨{ sound with }, .inl ⟨rfl, rfl, rfl⟩⟩
  | exceeded => exact ⟨{ sound with }, .inl ⟨rfl, rfl, rfl⟩⟩
  | broken scheduled found foundFacts ran =>
    exact (sound.fits_run wellFormed scheduled found foundFacts).error ran
  | carriedOut scheduled found foundFacts _ ran =>
    have kept := (sound.fits_run wellFormed scheduled found foundFacts).ok ran
    exact ⟨kept, .inr ⟨_, _, _, _, scheduled, found, foundFacts, ran, rfl, rfl⟩⟩

theorem settles_runFor (wellFormed : sequence.WellFormed) (steps : Nat) {renderer : Renderer}
    (sound : renderer.Sound sequence) : Settles (runFor steps renderer) (Sound · sequence) := by
  induction steps generalizing renderer with
  | zero => exact sound
  | succ steps ih =>
    unfold runFor
    rw [get_bind]
    split
    · have settles := (settles_step wellFormed sound).imp fun _ settled => settled.1
      exact settles.discard.bind fun _ renderer sound => ih sound
    · exact sound

theorem settles_run (wellFormed : sequence.WellFormed) (sound : renderer.Sound sequence) :
    Settles (run renderer) (Sound · sequence) := by
  unfold run
  rw [get_bind]
  split
  · exact (settles_plan wellFormed sound).bind fun _ renderer sound => settles_runFor wellFormed _ sound
  · exact settles_runFor wellFormed _ sound

end Renderer

end Terrain
