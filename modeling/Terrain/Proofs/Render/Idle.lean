import Terrain.Proofs.Plan.Idle
import Terrain.Proofs.Render.Memory

/-!
# Rendering steps that nothing is shown of

A maker that has to produce nothing makes a raster without samples, and the edits of such a raster leave
it without samples unless they resize it. So this holds of all rasters of a rendering that are made for
nothing, whatever else the sequence does.

* `Raster.IsBare` — a raster without samples.
* `Renderer.idle_steps_take_nothing` — what is not shown takes nothing, in the plan and in the rendering.
* `Renderer.unseen_steps_take_memory` — other steps that nothing is shown of do.
-/

namespace Terrain

/-! ## Rasters without samples -/

namespace HeightMap

structure IsBare (map : HeightMap) : Prop where
  area : map.raster.size.area = 0
  samples : map.samples.size = 0

theorem isBare_filled {raster : Rectangle} (none : raster.size.area = 0) (logical : Rectangle)
    (height : Height) (scale : Scale) : (filled logical raster height scale).IsBare :=
  ⟨none, (isFull_filled logical raster height scale).trans none⟩

theorem isBare_create_empty (height : Height) (scale : Scale) : (create .empty height scale).IsBare := by
  refine isBare_filled ?_ _ _ _
  rw [Rectangle.scaled_empty]
  rfl

theorem IsBare.of_sameShape {map other : HeightMap} (bare : map.IsBare) (same : map.SameShape other) :
    other.IsBare := by
  have area : other.raster.size.area = 0 := by rw [same.raster, bare.area]
  exact ⟨area, (same.full (bare.samples.trans bare.area.symm)).trans area⟩

end HeightMap

namespace HeightProfile

structure IsBare (profile : HeightProfile) : Prop where
  length : profile.interval.length = 0
  samples : profile.samples.size = 0

theorem isBare_filled {interval : Interval} (none : interval.length = 0) (height : Height)
    (scale : Scale) : (filled interval height scale).IsBare :=
  ⟨none, (isFull_filled interval height scale).trans none⟩

theorem isBare_forLogical_zero (height : Height) (scale : Scale) :
    (forLogical ⟨0, 0⟩ height scale).IsBare := by
  refine isBare_filled ?_ _ _
  rw [Interval.scaled_zero]

theorem IsBare.of_sameShape {profile other : HeightProfile} (bare : profile.IsBare)
    (same : profile.SameShape other) : other.IsBare := by
  have length : other.interval.length = 0 := by rw [same.interval, bare.length]
  exact ⟨length, (same.full (bare.samples.trans bare.length.symm)).trans length⟩

end HeightProfile

namespace Raster

def sampleCount : Raster → Nat
  | .map raster => raster.samples.size
  | .profile raster => raster.samples.size

def IsBare : Raster → Prop
  | .map raster => raster.IsBare
  | .profile raster => raster.IsBare

theorem IsBare.sampleCount_eq_zero {raster : Raster} (bare : raster.IsBare) : raster.sampleCount = 0 := by
  cases raster with
  | map raster => exact bare.samples
  | profile raster => exact bare.samples

end Raster

/-! ## Makers and edits -/

variable {table : RasterTable} {arguments : ArgumentReader}

theorem MapMaker.isBare_run {maker : MapMaker} {map : HeightMap} {scale : Scale}
    (ran : maker.run arguments .empty scale = .ok map) : map.IsBare := by
  -- every maker writes into a blank map over the empty rectangle, of its own scale or of its source's
  have blank := HeightMap.isBare_create_empty 0 scale
  cases maker with
  | flat height =>
    cases ran
    exact HeightMap.isBare_create_empty height scale
  | noise layers seed => exact blank.of_sameShape ((HeightMap.fits_noise _ _).ok ran)
  | gradient source destination low high =>
    cases ran
    exact blank.of_sameShape (HeightMap.sameShape_gradient _ _ _ _)
  | radialGradient center radius low high =>
    cases ran
    exact blank.of_sameShape (HeightMap.sameShape_radialGradient _ _ _ _)
  | projection direction =>
    obtain ⟨source, -, made⟩ := checked_bind_eq_ok ran
    exact blank.of_sameShape ((HeightMap.fits_projection _).ok made)
  | clone =>
    obtain ⟨original, -, made⟩ := checked_bind_eq_ok ran
    exact (HeightMap.isBare_create_empty 0 original.scale).of_sameShape ((HeightMap.fits_zipWith _).ok made)

theorem ProfileMaker.isBare_run {maker : ProfileMaker} {profile : HeightProfile} {scale : Scale}
    (ran : maker.run arguments ⟨0, 0⟩ scale = .ok profile) : profile.IsBare := by
  have blank := HeightProfile.isBare_forLogical_zero 0 scale
  cases maker with
  | flat height =>
    cases ran
    exact HeightProfile.isBare_forLogical_zero height scale
  | gradient source destination low high =>
    cases ran
    exact blank.of_sameShape (HeightProfile.sameShape_mapCells _)
  | ofKeys keys =>
    cases ran
    exact blank.of_sameShape (HeightProfile.sameShape_ofKeys keys)
  | noise layers seed => exact blank.of_sameShape ((HeightProfile.fits_noise _ _).ok ran)
  | slice direction coordinate =>
    obtain ⟨source, -, made⟩ := checked_bind_eq_ok ran
    exact blank.of_sameShape ((HeightProfile.fits_slice _ _).ok made)
  | clone =>
    obtain ⟨original, -, made⟩ := checked_bind_eq_ok ran
    have cut := HeightProfile.isBare_filled (congrArg Interval.length (Interval.scaled_zero scale)) 0
      original.scale
    exact cut.of_sameShape ((HeightProfile.fits_zipWith _).ok made)

/-- No edit but a resizing gives samples to a map that has none. -/
theorem MapEdit.isBare_run {edit : MapEdit} {map after : HeightMap} {start : Coordinate} (bare : map.IsBare)
    (adds : (Action.editMap edit).addsNothing start = true)
    (ran : edit.run arguments (.rectangle .empty) map = .ok after) : after.IsBare := by
  -- an edit leaves the shape of its template, so that the template alone has to be looked at
  have same := (MapEdit.fits_run rfl (supplies_of_run ran)).ok ran
  refine HeightMap.IsBare.of_sameShape ?_ same
  cases edit with
  | move offset => exact ⟨bare.area, bare.samples⟩
  | rescale horizontal vertical =>
    exact HeightMap.isBare_filled (Rectangle.area_stretched bare.area horizontal vertical) _ _ _
  | resize rectangle height => cases adds
  | transform matrix => exact HeightMap.isBare_create_empty 0 map.scale
  | _ => exact bare

theorem ProfileEdit.isBare_run {edit : ProfileEdit} {profile after : HeightProfile} {start : Coordinate}
    (bare : profile.IsBare) (adds : (Action.editProfile edit).addsNothing start = true)
    (ran : edit.run arguments profile = .ok after) : after.IsBare := by
  have same := (ProfileEdit.fits_run (supplies_of_run ran)).ok ran
  refine HeightProfile.IsBare.of_sameShape ?_ same
  cases edit with
  | move offset => exact ⟨bare.length, bare.samples⟩
  | flip => exact ⟨bare.length, Array.size_reverse.trans bare.samples⟩
  | rescale factor =>
    have none := Interval.length_stretched bare.length factor
    exact (HeightProfile.isBare_filled none 0 profile.scale).of_sameShape
      (HeightProfile.sameShape_mapCells _)
  | resize interval height => cases adds
  | _ => exact bare

/-! ## Steps -/

/-- An idle step changes a raster without samples, if it has found none with samples. -/
theorem Idle.isBare_run {steps : Array Step} {index : Nat} {start : Coordinate} {step : Step} {scale : Scale}
    {after : RasterTable} {gallery hung : Gallery} (idle : Idle steps start index)
    (found : steps[index]? = some step)
    (bare : ∀ producer start raster, latestWriter? steps step.target index = some producer →
      Idle steps start producer → table.get? step.target = some raster → raster.IsBare)
    (changes : step.Changes (.empty step.action.kind) scale table gallery after hung) :
    ∃ raster, after.get? step.target = some raster ∧ raster.IsBare := by
  have filled (raster : Raster) : (table.set step.target raster).get? step.target = some raster := by
    rw [RasterTable.get?_set, if_pos rfl]
  cases idle with
  | made foundMaker makes dead =>
    cases found.symm.trans foundMaker
    unfold Step.isMaker at makes
    -- what a maker can have done, with empty bounds
    cases changes with
    | madeMap action bounds made =>
      rw [action] at bounds
      cases bounds
      exact ⟨_, filled _, MapMaker.isBare_run made⟩
    | madeProfile action bounds made =>
      rw [action] at bounds
      cases bounds
      exact ⟨_, filled _, ProfileMaker.isBare_run made⟩
    | _ action =>
      rw [action] at makes
      cases makes
  | edited foundEdit edits written idle adds =>
    cases found.symm.trans foundEdit
    have draws := idle.dead.isYield_eq_false (consumes_target found edits written) found
    unfold Step.isMaker at edits
    -- what an edit can have done to a raster without samples; a yield would have shown it
    cases changes with
    | shown action =>
      rw [action] at draws
      cases draws
    | editedMap action present made =>
      rw [action] at adds made
      exact ⟨_, filled _, MapEdit.isBare_run (bare _ _ _ written idle present) adds made⟩
    | editedProfile action present made =>
      rw [action] at adds
      exact ⟨_, filled _, ProfileEdit.isBare_run (bare _ _ _ written idle present) adds made⟩
    | _ action =>
      rw [action] at edits
      cases edits

/-! ## Rendering -/

namespace Renderer

variable {sequence : Sequence} {renderer after : Renderer} {memoryLimit : Nat}

/-- What idle steps have left in the slots has no samples. -/
def Bare (renderer : Renderer) (sequence : Sequence) : Prop :=
  ∀ slot producer start raster, latestWriter? sequence.steps slot renderer.cursor = some producer →
    Idle sequence.steps start producer → renderer.table.get? slot = some raster → raster.IsBare

/-- An idle step finds and changes a raster without samples. -/
theorem Bare.idle_run {schedule : Schedule} {step : Step} {facts : StepFacts} {table : RasterTable}
    {gallery hung : Gallery} {start : Coordinate} (kinds : KindConsistent sequence.steps)
    (figures : ∀ step ∈ sequence.steps.toList, step.action.Representable)
    (worksOn : renderer.WorksOn sequence) (bare : renderer.Bare sequence)
    (scheduled : renderer.schedule? = some schedule)
    (found : sequence.steps[renderer.cursor]? = some step)
    (foundFacts : schedule[renderer.cursor]? = some facts)
    (changes : step.Changes facts.bounds sequence.scale renderer.table gallery table hung)
    (idle : Idle sequence.steps start renderer.cursor) :
    ∃ raster, table.get? step.target = some raster ∧ raster.IsBare := by
  obtain ⟨extents, bounded, -, nothing⟩ := Extents.exists_bounds_empty kinds figures
  obtain ⟨_, _, boundedToo, -, foundBounds, -⟩ :=
    Schedule.exists_extents_of_ofSequence (worksOn.schedule schedule scheduled) foundFacts
  cases bounded.symm.trans boundedToo
  have bounds := Option.some_inj.1 (foundBounds.symm.trans (nothing _ _ found idle.dead))
  rw [bounds] at changes
  exact idle.isBare_run found (fun producer start raster => bare step.target producer start raster) changes

theorem Bare.moves (kinds : KindConsistent sequence.steps)
    (figures : ∀ step ∈ sequence.steps.toList, step.action.Representable)
    (worksOn : renderer.WorksOn sequence) (bare : renderer.Bare sequence)
    (moves : renderer.Moves after) : after.Bare sequence := by
  rcases moves with ⟨table, -, cursor⟩ | ⟨schedule, step, facts, table, takes⟩
  · unfold Bare
    rw [table, cursor]
    exact bare
  · obtain ⟨scheduled, found, foundFacts, ran, released, cursor⟩ := takes
    rw [worksOn.works] at found ran
    have changes := Step.changes_of_run ran
    -- a slot that still holds a raster has not been released by this step
    intro slot producer start raster written idle filled
    rw [released] at filled
    replace filled := RasterTable.get?_of_foldl_release filled
    rw [cursor] at written
    simp only [latestWriter?, found, Option.map_some, Option.some_inj] at written
    split at written
    case isTrue target =>
      cases written
      obtain ⟨left, present, leftBare⟩ :=
        bare.idle_run kinds figures worksOn scheduled found foundFacts changes idle
      rw [target, filled] at present
      cases present
      exact leftBare
    case isFalse other =>
      rw [changes.get?_eq (Ne.symm other)] at filled
      exact bare slot producer start raster written idle filled

theorem Reached.bare (kinds : KindConsistent sequence.steps)
    (figures : ∀ step ∈ sequence.steps.toList, step.action.Representable)
    (reached : Reached sequence memoryLimit renderer) :
    renderer.WorksOn sequence ∧ renderer.Bare sequence :=
  reached.keeps_moves (Bare · sequence) (fun _ _ _ _ written => nomatch written)
    fun _ worksOn bare moves => bare.moves kinds figures worksOn moves

/-- What is neither shown nor asked for takes nothing. In a plan of consistent kinds:

* Bounds can be found, and those of a dead step are empty. So they are in every schedule.
* An idle step, which makes a dead product or works on one, requires no more than is resident before it,
  and it leaves no more resident. So the first step of all requires nothing if it is idle, and a later
  one requires no more than the step in front of it, unless that one moves or flips a raster.
* Whenever an idle step is carried out, the raster that it leaves has no samples. -/
theorem idle_steps_take_nothing (kinds : KindConsistent sequence.steps)
    (figures : ∀ step ∈ sequence.steps.toList, step.action.Representable) :
    (∃ extents, Extents.ofSteps sequence.steps (.ofSteps sequence.steps) = .ok extents ∧
      ∀ index step, sequence.steps[index]? = some step → Dead sequence.steps index →
        extents[index]? = some (.empty step.action.kind)) ∧
    (∀ schedule, Schedule.ofSequence sequence (.ofSteps sequence.steps) = .ok schedule →
      ∀ index step facts, sequence.steps[index]? = some step → schedule[index]? = some facts →
        (Dead sequence.steps index → facts.bounds = .empty step.action.kind) ∧
        ∀ start, Idle sequence.steps start index →
          (∃ items budget performed, Schedule.itemsOf sequence = .ok items ∧
            Schedule.before sequence.scale items index = .ok budget ∧
            budget.perform step facts.bounds sequence.scale = .ok performed ∧
            facts.memory = budget.resident ∧ performed.resident ≤ budget.resident) ∧
          (index = 0 → facts.memory = 0) ∧
          ∀ earlier step earlierFacts, index = earlier + 1 → sequence.steps[earlier]? = some step →
            schedule[earlier]? = some earlierFacts → step.action.shifts = false →
              facts.memory ≤ earlierFacts.memory) ∧
    ∀ memoryLimit renderer, Reached sequence memoryLimit renderer →
      ∀ schedule step facts table gallery start, renderer.schedule? = some schedule →
        sequence.steps[renderer.cursor]? = some step → schedule[renderer.cursor]? = some facts →
        step.run facts.bounds sequence.scale renderer.table renderer.gallery = .ok (table, gallery) →
        Idle sequence.steps start renderer.cursor →
          ∃ raster, table.get? step.target = some raster ∧ raster.sampleCount = 0 := by
  refine ⟨?_, fun schedule made index step facts found foundFacts => ⟨?_, fun start idle => ?_⟩, ?_⟩
  · obtain ⟨extents, bounded, -, nothing⟩ := Extents.exists_bounds_empty kinds figures
    exact ⟨extents, bounded, nothing⟩
  · exact Schedule.bounds_of_dead kinds figures made found foundFacts
  · obtain ⟨items, budget, performed, listed, before, performing, memory, resident⟩ :=
      Schedule.exists_idle kinds figures made found foundFacts idle
    refine ⟨⟨items, budget, performed, listed, before, performing, memory, resident⟩, ?_, ?_⟩
    · rintro rfl
      cases before
      exact memory
    · rintro earlier step earlierFacts rfl found foundFacts stays
      rw [memory]
      exact Schedule.resident_le_memory made listed before found foundFacts stays
  · intro memoryLimit renderer reached schedule step facts table gallery start scheduled found foundFacts
      ran idle
    obtain ⟨worksOn, bare⟩ := reached.bare kinds figures
    obtain ⟨raster, filled, isBare⟩ := bare.idle_run kinds figures worksOn scheduled found foundFacts
      (Step.changes_of_run ran) idle
    exact ⟨raster, filled, isBare.sampleCount_eq_zero⟩

def shove : Step := ⟨⟨3, 1⟩, .editMap (.move ⟨5, 5⟩), [], 1⟩

def sum : Step := ⟨⟨4, 1⟩, .editMap .addMap, [0], 1⟩

/-- A map that is shown, beside its clone, which is moved, added to and never shown. -/
def spare : Sequence where
  steps := #[⟨⟨1, 1⟩, .makeMap (.flat 7), [], 0⟩, ⟨⟨2, 1⟩, .makeMap .clone, [0], 1⟩, shove, sum,
    ⟨⟨5, 1⟩, .yield "main" ⟨⟨0, 0⟩, ⟨4, 4⟩⟩, [], 0⟩]
  scale := 1.0
  limit := 5
  slotCount := 2

theorem idle_spare : Idle spare.steps 0 3 := by
  have dead : Dead spare.steps 1 :=
    @dead_of_closed _ 1 [1, 2, 3] (by decide +kernel) (by decide) (by decide) (by decide)
  have made : Idle spare.steps 0 1 := .made rfl rfl dead
  have moved : Idle spare.steps 0 2 := @Idle.edited _ 2 1 shove 0 rfl rfl rfl made rfl
  exact @Idle.edited _ 3 2 sum 0 rfl rfl rfl moved rfl

def sparing : Schedule :=
  #[⟨.rectangle ⟨⟨0, 0⟩, ⟨4, 4⟩⟩, 96, []⟩, ⟨.rectangle .empty, 96, []⟩, ⟨.rectangle .empty, 96, []⟩,
    ⟨.rectangle .empty, 96, [1]⟩, ⟨.rectangle .empty, 192, [0]⟩]

def spared : Nat → Renderer :=
  played spare 192

theorem reached_spared : Reached spare 192 (spared 3) :=
  reached_played (by decide +kernel) (by decide +kernel)

/-- The sum of the map that is shown and of its clone takes nothing. -/
theorem spare_takes_nothing : ∃ extents items budget table gallery raster,
    Extents.ofSteps spare.steps (.ofSteps spare.steps) = .ok extents ∧
      extents[3]? = some (.rectangle .empty) ∧ Schedule.itemsOf spare = .ok items ∧
      Schedule.before 1.0 items 3 = .ok budget ∧ budget.resident = 96 ∧
      sum.run (.rectangle .empty) 1.0 (spared 3).table (spared 3).gallery = .ok (table, gallery) ∧
      table.get? 1 = some raster ∧ raster.sampleCount = 0 := by
  have consistent : Consistent spare.steps.toList := by
    refine .snoc (.snoc (.snoc (.snoc (.snoc consistent_nil ?_) ?_) ?_) ?_) ?_
    all_goals decide
  have figures : ∀ step ∈ spare.steps.toList, step.action.Representable := by
    simp only [spare, List.forall_mem_cons]
    exact ⟨trivial, trivial, trivial, trivial, ⟨by decide, by decide⟩, nofun⟩
  obtain ⟨⟨extents, bounded, nothing⟩, planned, rendered⟩ :=
    idle_steps_take_nothing consistent.kindConsistent figures
  have scheduled : (spared 3).schedule? = some sparing := by decide +kernel
  have cursor : (spared 3).cursor = 3 := by decide +kernel
  have made := (reached_spared.bare consistent.kindConsistent figures).1.schedule sparing scheduled
  have ended : (sum.run (.rectangle .empty) 1.0 (spared 3).table (spared 3).gallery).isOk = true := by
    decide +kernel
  cases ran : sum.run (.rectangle .empty) 1.0 (spared 3).table (spared 3).gallery with
  | error breach =>
    rw [ran] at ended
    cases ended
  | ok result =>
    obtain ⟨table, gallery⟩ := result
    obtain ⟨items, budget, -, listed, before, -, memory, -⟩ :=
      ((planned sparing made 3 sum _ rfl rfl).2 0 idle_spare).1
    obtain ⟨raster, filled, none⟩ := rendered 192 (spared 3) reached_spared sparing sum _ table gallery
      0 scheduled (by rw [cursor]; rfl) (by rw [cursor]; rfl) ran (by rw [cursor]; exact idle_spare)
    exact ⟨extents, items, budget, table, gallery, raster, bounded, nothing 3 sum rfl idle_spare.dead,
      listed, before, memory.symm, rfl, filled, none⟩

/-- A map that is shown and measured afterwards, beside a pattern that is never shown. -/
def forsaken : Sequence where
  steps := #[⟨⟨1, 1⟩, .makeMap (.flat 7), [], 0⟩, ⟨⟨2, 1⟩, .yield "main" ⟨⟨0, 0⟩, ⟨4, 4⟩⟩, [], 0⟩,
    ⟨⟨3, 1⟩, .makeMap (.flat 8), [], 1⟩, ⟨⟨4, 1⟩, .makeMap (.flat 9), [], 2⟩,
    ⟨⟨5, 1⟩, .editMap (.pattern ⟨⟨0, 0⟩, ⟨2, 2⟩⟩), [1], 2⟩, ⟨⟨6, 1⟩, .editMap (.distanceMap 3), [], 0⟩]
  scale := 1.0
  limit := 6
  slotCount := 3

/-- No yield is reached from the tile of a pattern nor from the measuring of a map that was shown before.
All the same the tile has bounds, and the measuring ends a rendering that has memory enough for all the
other steps. -/
theorem unseen_steps_take_memory : KindConsistent forsaken.steps ∧
    Unseen forsaken.steps 2 ∧ Unseen forsaken.steps 5 ∧
    (∃ extents, Extents.ofSteps forsaken.steps (.ofSteps forsaken.steps) = .ok extents ∧
      extents[2]? = some (.rectangle ⟨⟨0, 0⟩, ⟨2, 2⟩⟩)) ∧
    (leaves (run (start forsaken 300))).1.status = .faulted ∧
    (leaves (run (start forsaken 300))).1.cursor = 5 ∧
    (leaves (run (start { forsaken with steps := forsaken.steps.pop } 300))).1.status = .finished := by
  have consistent : Consistent forsaken.steps.toList := by
    refine .snoc (.snoc (.snoc (.snoc (.snoc (.snoc consistent_nil ?_) ?_) ?_) ?_) ?_) ?_
    all_goals decide
  refine ⟨consistent.kindConsistent, ?_, ?_, ?_, by decide +kernel, by decide +kernel, by decide +kernel⟩
  · exact @unseen_of_closed _ 2 [2, 4] (by decide +kernel) (by decide) (by decide)
  · exact @unseen_of_closed _ 5 [5] (by decide +kernel) (by decide) (by decide)
  · have bounds : (Extents.ofSteps forsaken.steps (.ofSteps forsaken.steps)).toOption.map (·[2]?) =
        some (some (.rectangle ⟨⟨0, 0⟩, ⟨2, 2⟩⟩)) := by decide +kernel
    cases bounded : Extents.ofSteps forsaken.steps (.ofSteps forsaken.steps) with
    | error breach =>
      rw [bounded] at bounds
      cases bounds
    | ok extents =>
      rw [bounded] at bounds
      exact ⟨extents, rfl, Option.some_inj.1 bounds⟩

end Renderer

end Terrain
