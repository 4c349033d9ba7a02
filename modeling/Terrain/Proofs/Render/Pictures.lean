import Terrain.Proofs.Raster.Reliefs
import Terrain.Proofs.Render.Recorded

/-!
# Rendering shows the plane

Rendering works on rasters that are cut off at the bounds of a plan. For sequences of planar steps, at
scale one and away from the ends of the coordinates, it shows what the steps mean on the whole plane:
at any time, the raster in a slot has the right heights wherever a later step needs them, and so a
yielded map has them in all of its rectangle.

* `Sequence.Planar` — the sequences this is about.
* `RasterTable.Pictures` — rasters against the scene.
* `Sequence.Plans.depicts_run` — what a step leaves shows what it means, as far as it is needed.
* `Sequence.Plans.isView_cutout` — what is yielded is the view of a relief.
-/

namespace Terrain

/-- A well-formed sequence of planar steps at scale one, with all figures of the steps and of the planned
bounds below the limit. -/
structure Sequence.Planar (sequence : Sequence) : Prop where
  wellFormed : sequence.WellFormed
  scale : sequence.scale = 1.0
  planar : ∀ step ∈ sequence.steps, step.action.isPlanar = true
  figures : ∀ step ∈ sequence.steps, step.action.Figures figureLimit
  bounds : ∀ extents, Extents.ofSteps sequence.steps (.ofSteps sequence.steps) = .ok extents →
    ∀ (index : Nat) own, extents[index]? = some (.rectangle own) → own.Within figureLimit

namespace Sequence

variable {sequence : Sequence} {extents : Extents} {index : Nat} {step : Step} {own : Rectangle}
  {slot : Slot}

structure Plans (sequence : Sequence) (extents : Extents) (index : Nat) (step : Step)
    (own : Rectangle) : Prop where
  made : Extents.ofSteps sequence.steps (.ofSteps sequence.steps) = .ok extents
  step : sequence.steps[index]? = some step
  own : extents[index]? = some (.rectangle own)

theorem Plans.isPlanar (planar : sequence.Planar) (plans : sequence.Plans extents index step own) :
    step.action.isPlanar = true :=
  planar.planar step (Array.mem_of_getElem? plans.step)

theorem Plans.figures (planar : sequence.Planar) (plans : sequence.Plans extents index step own) :
    step.action.Figures figureLimit :=
  planar.figures step (Array.mem_of_getElem? plans.step)

theorem Plans.within (planar : sequence.Planar) (plans : sequence.Plans extents index step own) :
    own.Within figureLimit :=
  planar.bounds extents plans.made index own plans.own

/-- What a step reads was written before. -/
theorem WellFormed.exists_lastWrite (wellFormed : sequence.WellFormed)
    (found : sequence.steps[index]? = some step) (reads : slot ∈ step.readSlots) :
    ∃ producer, LastWrite (sequence.steps.toList.take index) slot producer := by
  have follows := wellFormed.consistent.follows_at (by simpa using found)
  unfold Step.readSlots at reads
  rcases List.mem_append.1 reads with argument | target
  · exact (follows.arguments slot argument).exists_lastWrite
  · cases maker : step.isMaker with
    | true => simp [maker] at target
    | false =>
      obtain rfl : slot = step.target := by simpa [maker] using target
      exact (follows.filled maker).exists_lastWrite

/-- What a step needs of a slot is covered by the bounds of the step that wrote it last. -/
theorem Plans.exists_producer (planar : sequence.Planar)
    (plans : sequence.Plans extents index step own) (reads : slot ∈ step.readSlots) :
    ∃ producer need bounds, LastWrite (sequence.steps.toList.take index) slot producer ∧
      Extents.Needs step own slot need ∧ extents[producer]? = some (.rectangle bounds) ∧
      ∀ region : Rectangle, region.Inside need → ∀ x y, region.Covers x y → bounds.Covers x y := by
  obtain ⟨made, found, foundOwn⟩ := plans
  obtain ⟨producer, last⟩ := planar.wellFormed.exists_lastWrite found reads
  obtain ⟨_, made', -, met⟩ := Extents.exists_ofSteps planar.planar planar.figures
  cases made.symm.trans made'
  obtain ⟨need, bounds, needs, foundBounds, inside⟩ :=
    met index step own found foundOwn slot producer reads last
  have near := (planar.bounds extents made producer bounds foundBounds).near
  exact ⟨producer, need, bounds, last, needs, foundBounds, fun region within =>
    within.trans inside near⟩

end Sequence

/-! ## Tables and scenes -/

theorem Scene.ofSteps_snoc (steps : List Step) (step : Step) :
    Scene.ofSteps (steps ++ [step]) = step.play (Scene.ofSteps steps) := by
  rw [ofSteps, List.foldl_append]
  rfl

theorem Step.reliefs_play_of_ne {step : Step} {scene : Scene} {slot : Slot}
    (different : slot ≠ step.target) : (step.play scene).reliefs slot = scene.reliefs slot := by
  unfold play
  split
  · exact if_neg different
  · exact if_neg different
  · rfl
  · rfl
  · rfl

/-- A map is a view: it lies over its rectangle, at scale one and with all samples, and has the heights
of its relief. -/
structure HeightMap.IsView (map : HeightMap) (view : View) : Prop where
  plain : map.IsPlain
  raster : map.raster = view.rectangle
  heights : ∀ x y, view.rectangle.Covers x y → map.heightAt x y = view.relief x y

theorem HeightMap.IsPlain.of_sameShape {map other : HeightMap} (plain : map.IsPlain)
    (same : map.SameShape other) : other.IsPlain where
  scale := same.scale.trans plain.scale
  logical := by rw [same.logical, same.raster, plain.logical]
  full := same.full plain.full
  modest := same.raster ▸ plain.modest

/-- A plain map of a small size that shows a relief in a rectangle. -/
structure HeightMap.Depicts (map : HeightMap) (region : Rectangle) (relief : Relief) : Prop where
  plain : map.IsPlain
  small : map.raster.size.Small
  shows : map.Shows region relief

theorem Renders.depicts {result : Except Breach HeightMap} {size : Size} {condition : Prop}
    {region : Rectangle} {relief : Relief} {map : HeightMap}
    (renders : Renders result size condition region relief) (small : size.Small) (holds : condition)
    (ended : result = .ok map) : map.Depicts region relief := by
  obtain ⟨_, ended', plain, same, shown⟩ := renders
  cases ended.symm.trans ended'
  exact ⟨plain, same ▸ small, shown holds⟩

namespace RasterTable

variable {table after : RasterTable} {extents : Extents} {steps : List Step} {step : Step}
  {own region need bounds : Rectangle} {slot : Slot} {producer : Nat} {map : HeightMap}

/-- Every map shows the relief of its slot in the bounds of the step that wrote it last. Maps that
nobody needs any more may show anything. -/
def Pictures (table : RasterTable) (extents : Extents) (steps : List Step) : Prop :=
  ∀ slot producer region map, LastWrite steps slot producer →
    extents[producer]? = some (.rectangle region) → region.isEmpty = false →
    table.get? slot = some (.map map) → map.Depicts region ((Scene.ofSteps steps).reliefs slot)

/-- Part of the bounds of the last writer. -/
theorem Pictures.depicts (pictures : table.Pictures extents steps)
    (last : LastWrite steps slot producer) (found : extents[producer]? = some (.rectangle bounds))
    (inside : ∀ x y, region.Covers x y → bounds.Covers x y) (nonempty : region.isEmpty = false)
    (filled : table.get? slot = some (.map map)) :
    map.Depicts region ((Scene.ofSteps steps).reliefs slot) := by
  have some := (inside _ _ (Rectangle.exists_covers nonempty)).isEmpty_eq_false
  obtain ⟨plain, small, shows'⟩ := pictures slot producer bounds map last found some filled
  exact ⟨plain, small, fun x y covered => shows' x y (inside x y covered)⟩

/-- A step changes its target only. -/
theorem Pictures.extend (pictures : table.Pictures extents steps)
    (foundOwn : extents[steps.length]? = some (.rectangle own))
    (others : ∀ other, other ≠ step.target → after.get? other = table.get? other)
    (shown : own.isEmpty = false → ∀ map, after.get? step.target = some (.map map) →
      map.Depicts own ((step.play (Scene.ofSteps steps)).reliefs step.target)) :
    after.Pictures extents (steps ++ [step]) := by
  intro slot producer region map last found nonempty filled
  rw [lastWrite_snoc_iff] at last
  rw [Scene.ofSteps_snoc]
  by_cases same : step.target = slot
  -- the step itself is the last writer of its target
  · subst same
    rw [if_pos rfl] at last
    subst last
    cases foundOwn.symm.trans found
    exact shown nonempty map filled
  · rw [if_neg same] at last
    rw [Step.reliefs_play_of_ne (Ne.symm same)]
    rw [others slot (Ne.symm same)] at filled
    exact pictures slot producer region map last found nonempty filled

theorem IsAt.set {scale : Scale} {raster : Raster} (atScale : table.IsAt scale)
    (same : raster.scale = scale) : (table.set slot raster).IsAt scale := by
  intro other found filled
  rw [get?_set] at filled
  split at filled
  · cases filled
    exact same
  · exact atScale other found filled

end RasterTable

/-! ## Steps -/

theorem MapEdit.isEmpty_prior {edit : MapEdit} {own : Rectangle} (planar : edit.isPlanar = true)
    (figures : edit.Figures figureLimit) (within : own.Within figureLimit)
    (nonempty : own.isEmpty = false) : (edit.prior own).isEmpty = false := by
  have corner := Rectangle.exists_covers nonempty
  have expanded {radius : Nat} (small : Below radius figureLimit) : (own.expand radius).isEmpty = false :=
    (@Rectangle.covers_expand own _ _ radius within small corner own.position.x own.position.y
      (by omega) (by omega) (by omega) (by omega)).isEmpty_eq_false
  cases edit with
  | blur radius => exact expanded figures
  | convexity radius => exact expanded figures
  | move offset =>
    have back : (own.translated (-offset)).Covers (own.position.x - offset.x)
        (own.position.y - offset.y) :=
      (Rectangle.covers_translated_neg within figures.1 figures.2).2 (by simpa using corner)
    exact back.isEmpty_eq_false
  | distort maxDistance => cases planar
  | shift maxDistance direction => cases planar
  | transform matrix => cases planar
  | rescale horizontal vertical => cases planar
  | resize rectangle height => cases planar
  | _ => exact nonempty

theorem Step.isEmpty_argumentRectangle {step : Step} {own : Rectangle}
    (planar : step.action.isPlanar = true) (nonempty : own.isEmpty = false) :
    (step.argumentRectangle own).isEmpty = false := by
  unfold argumentRectangle
  split
  case h_1 edit action =>
    rw [action] at planar
    cases edit with
    | pattern repeated => exact Bool.not_eq_true' _ ▸ planar
    | _ => exact nonempty
  case h_2 => exact nonempty

theorem Action.kind_of_isPlanar {action : Action} (planar : action.isPlanar = true) :
    action.kind = .map := by
  cases action with
  | makeProfile maker => cases planar
  | editProfile edit => cases planar
  | _ => rfl

/-- What a step on maps does. -/
theorem Step.run_eq_ok {step : Step} {own : Rectangle} {scale : Scale} {table after : RasterTable}
    {gallery hung : Gallery} (kind : step.action.kind = .map)
    (ran : step.run (.rectangle own) scale table gallery = .ok (after, hung)) :
    (∃ maker map, step.action = .makeMap maker ∧ maker.run (step.inputs table) own scale = .ok map ∧
      after = table.set step.target (.map map) ∧ hung = gallery) ∨
    (∃ edit map edited, step.action = .editMap edit ∧ table.get? step.target = some (.map map) ∧
      edit.run (step.inputs table) (.rectangle own) map = .ok edited ∧
      after = table.set step.target (.map edited) ∧ hung = gallery) ∨
    (∃ name rectangle map copy, step.action = .yield name rectangle ∧
      table.get? step.target = some (.map map) ∧ map.cutout rectangle = .ok copy ∧
      after = table ∧ hung = gallery.insert name copy) := by
  cases changes_of_run ran with
  | madeMap action bounds made =>
    cases bounds
    exact .inl ⟨_, _, action, made, rfl, rfl⟩
  | editedMap action filled made => exact .inr (.inl ⟨_, _, _, action, filled, made, rfl, rfl⟩)
  | shown action filled made => exact .inr (.inr ⟨_, _, _, _, action, filled, made, rfl, rfl⟩)
  | _ action =>
    rw [action] at kind
    cases kind

/-- A step keeps the scale. -/
theorem Step.isAt_run {step : Step} {own : Rectangle} {scale : Scale} {table after : RasterTable}
    {gallery hung : Gallery} (planar : step.action.isPlanar = true)
    (supplies : (step.inputs table).Supplies step.action.argumentKind step.action.arity)
    (ran : step.run (.rectangle own) scale table gallery = .ok (after, hung))
    (atScale : table.IsAt scale) : after.IsAt scale := by
  have inputs : (step.inputs table).All (·.scale = scale) := ArgumentReader.all_ofSlots atScale
  rcases Step.run_eq_ok (Action.kind_of_isPlanar planar) ran with
    ⟨maker, map, action, making, rfl, rfl⟩ | ⟨edit, map, edited, action, found, editing, rfl, rfl⟩ |
    ⟨_, _, _, _, -, -, -, rfl, -⟩
  · rw [action] at supplies
    exact atScale.set ((MapMaker.fits_run own scale supplies).ok making inputs).scale
  · have same := (MapEdit.fits_run rfl (MapEdit.supplies_of_run editing)).ok editing
    exact atScale.set (same.scale.trans (edit.template_scale.trans (atScale _ _ found)))
  · exact atScale

theorem Action.argumentKind_of_isPlanar {action : Action} (planar : action.isPlanar = true) :
    action.argumentKind = .map := by
  cases action with
  | makeMap maker => cases maker <;> first | rfl | cases planar
  | editMap edit => cases edit <;> first | rfl | cases planar
  | yield name rectangle => rfl
  | makeProfile maker => cases planar
  | editProfile edit => cases planar

namespace Sequence

variable {sequence : Sequence} {extents : Extents} {index : Nat} {step : Step} {own region : Rectangle}
  {slot : Slot} {table after : RasterTable} {map : HeightMap}

variable (planar : sequence.Planar) (plans : sequence.Plans extents index step own)
  (pictures : table.Pictures extents (sequence.steps.toList.take index))

include planar plans pictures

/-- What a step needs of a map is shown by the map. -/
theorem Plans.depicts (reads : slot ∈ step.readSlots)
    (needed : ∀ need, Extents.Needs step own slot need → region.Inside need)
    (nonempty : region.isEmpty = false) (filled : table.get? slot = some (.map map)) :
    map.Depicts region ((Scene.ofSteps (sequence.steps.toList.take index)).reliefs slot) := by
  obtain ⟨producer, need, bounds, last, needs, found, covers⟩ := plans.exists_producer planar reads
  exact pictures.depicts last found (covers region (needed need needs)) nonempty filled

theorem Plans.depicts_argument (nonempty : own.isEmpty = false) (argument : slot ∈ step.arguments)
    (filled : table.get? slot = some (.map map)) :
    map.Depicts (step.argumentRectangle own)
      ((Scene.ofSteps (sequence.steps.toList.take index)).reliefs slot) := by
  have reads : slot ∈ step.readSlots := List.mem_append_left _ argument
  have some := Step.isEmpty_argumentRectangle (plans.isPlanar planar) nonempty
  exact plans.depicts planar pictures reads (fun _ needs => needs.argument argument) some filled

theorem Plans.depicts_target (edits : step.isMaker = false)
    (inside : region.Inside (step.priorRectangle own))
    (nonempty : region.isEmpty = false) (filled : table.get? step.target = some (.map map)) :
    map.Depicts region ((Scene.ofSteps (sequence.steps.toList.take index)).reliefs step.target) := by
  have reads : step.target ∈ step.readSlots := by simp [Step.readSlots, edits]
  exact plans.depicts planar pictures reads (fun _ needs => inside.trans (needs.prior edits rfl))
    nonempty filled

/-- An edited map shows all that the edit needs of it. -/
theorem Plans.depicts_edited {edit : MapEdit} (action : step.action = .editMap edit)
    (nonempty : own.isEmpty = false) (filled : table.get? step.target = some (.map map)) :
    map.Depicts (edit.prior own)
      ((Scene.ofSteps (sequence.steps.toList.take index)).reliefs step.target) := by
  have edits : step.isMaker = false := by rw [Step.isMaker, action, Action.isMaker]
  have isPlanar := plans.isPlanar planar
  have figures := plans.figures planar
  rw [action] at isPlanar figures
  have prior : (edit.prior own).Inside (step.priorRectangle own) := by
    simpa [Step.priorRectangle, action, nonempty] using Rectangle.Inside.refl (edit.prior own)
  exact plans.depicts_target planar pictures edits prior
    (MapEdit.isEmpty_prior isPlanar figures (plans.within planar) nonempty) filled

/-- A map of which something is needed does not move far out. -/
theorem Plans.modest_moved {offset : Point} (action : step.action = .editMap (.move offset))
    (nonempty : own.isEmpty = false) (filled : table.get? step.target = some (.map map)) :
    (map.raster.translated offset).Within 1073741824 := by
  have figures := plans.figures planar
  rw [action] at figures
  have before := plans.depicts_edited planar pictures action nonempty filled
  exact before.shows.modest_translated (plans.within planar) figures.1 figures.2 before.plain.modest
    before.small nonempty

/-- Where something is needed of a step, its arguments show all that it reads. -/
theorem Plans.show_arguments (nonempty : own.isEmpty = false)
    (supplies : (step.inputs table).Supplies step.action.argumentKind step.action.arity) :
    (step.inputs table).HoldsPlain step.action.arity ∧
      (step.inputs table).AllShow (step.argumentRectangle own)
        (given (Scene.ofSteps (sequence.steps.toList.take index)).reliefs step.arguments) := by
  rw [Action.argumentKind_of_isPlanar (plans.isPlanar planar)] at supplies
  constructor
  · refine supplies.holdsPlain fun index map read => ?_
    obtain ⟨slot, named, filled⟩ := ArgumentReader.exists_of_map_ofSlots read
    exact (plans.depicts_argument planar pictures nonempty (List.mem_of_getElem? named) filled).plain
  · refine ArgumentReader.allShow_ofSlots fun slot argument map filled => ?_
    exact (plans.depicts_argument planar pictures nonempty argument filled).shows

/-- A step leaves a map that shows its relief in the bounds that were planned for it. -/
theorem Plans.depicts_run {gallery hung : Gallery}
    (supplies : (step.inputs table).Supplies step.action.argumentKind step.action.arity)
    (nonempty : own.isEmpty = false)
    (ran : step.run (.rectangle own) 1.0 table gallery = .ok (after, hung))
    (filled : after.get? step.target = some (.map map)) :
    map.Depicts own
      ((step.play (Scene.ofSteps (sequence.steps.toList.take index))).reliefs step.target) := by
  have within := plans.within planar
  have isPlanar := plans.isPlanar planar
  have figures := plans.figures planar
  obtain ⟨plainArguments, shown⟩ := plans.show_arguments planar pictures nonempty supplies
  generalize sceneEq : Scene.ofSteps (sequence.steps.toList.take index) = scene at shown ⊢
  rcases Step.run_eq_ok (Action.kind_of_isPlanar isPlanar) ran with
    ⟨maker, made, action, making, rfl, rfl⟩ |
    ⟨edit, source, edited, action, found, editing, rfl, rfl⟩ |
    ⟨name, rectangle, source, copy, action, found, cut, rfl, rfl⟩
  -- a maker reads its arguments in its own bounds
  · obtain rfl : made = map := by simpa [RasterTable.get?_set] using filled
    rw [action] at isPlanar
    simp only [Step.argumentRectangle, action] at plainArguments shown
    have depicts := (MapMaker.renders_run isPlanar within plainArguments).depicts
      ⟨within.width, within.height⟩ shown making
    simpa [Step.play, action, Scene.put] using depicts
  -- an edit finds in its target all that it needs, so that a move does not saturate; that limits of
  -- heights are in order is known from its success
  · obtain rfl : edited = map := by simpa [RasterTable.get?_set] using filled
    rw [action] at isPlanar figures
    simp only [Step.argumentRectangle, action] at plainArguments shown
    have before := plans.depicts_edited planar pictures action nonempty found
    rw [sceneEq] at before
    have ordered (low high : Height) (clamps : edit = .clampHeights low high) :
        low ≤ high ∨ source.samples.isEmpty = true := by
      subst clamps
      exact HeightMap.ordered_of_clampHeights editing
    have modest (offset : Point) (moves : edit = .move offset) :
        (source.raster.translated offset).Within 1073741824 := by
      subst moves
      exact plans.modest_moved planar pictures action nonempty found
    have depicts := (MapEdit.renders_run isPlanar figures within before.plain plainArguments ordered
      modest).depicts before.small ⟨before.shows, shown⟩ editing
    simpa [Step.play, action, Scene.put] using depicts
  -- a yield changes no raster; what is needed after it was needed before it
  · have edits : step.isMaker = false := by rw [Step.isMaker, action, Action.isMaker]
    have prior : own.Inside (step.priorRectangle own) := by
      simpa [Step.priorRectangle, action] using
        (Rectangle.inside_combine (within.placed (by decide))).1
    have before := plans.depicts_target planar pictures edits prior nonempty found
    cases found.symm.trans filled
    simpa [Step.play, action, Scene.hang, sceneEq] using before

/-- What is yielded is the view of a relief. -/
theorem Plans.isView_cutout {name : String} {rectangle : Rectangle} {copy : HeightMap}
    (atScale : table.IsAt 1.0) (action : step.action = .yield name rectangle)
    (found : table.get? step.target = some (.map map))
    (cut : map.cutout rectangle = .ok copy) :
    copy.IsView
      ⟨rectangle, (Scene.ofSteps (sequence.steps.toList.take index)).reliefs step.target⟩ := by
  have within : rectangle.Within figureLimit := by
    have figures := plans.figures planar
    rwa [action] at figures
  have same : (HeightMap.create rectangle 0 map.scale).SameShape copy :=
    (HeightMap.fits_zipWith _).ok cut
  rw [show map.scale = 1.0 from atScale _ _ found] at same
  obtain ⟨_, ⟨⟩, plain, placed, -⟩ := HeightMap.draws_create within.wide 0
  -- an empty rectangle says nothing about the source, so the shape comes from the copy alone
  refine ⟨plain.of_sameShape same, same.raster.trans placed, fun x y covered => ?_⟩
  have edits : step.isMaker = false := by rw [Step.isMaker, action, Action.isMaker]
  have prior : rectangle.Inside (step.priorRectangle own) := by
    simpa [Step.priorRectangle, action] using
      (Rectangle.inside_combine ((plans.within planar).placed (by decide))).2
  have source := plans.depicts_target planar pictures edits prior covered.isEmpty_eq_false found
  obtain ⟨inside, height⟩ := source.shows x y covered
  obtain ⟨_, cut', -, -, drawn⟩ := HeightMap.draws_cutout source.plain within.wide
  cases cut.symm.trans cut'
  exact (drawn x y covered).trans ((if_pos inside).trans height)

end Sequence

end Terrain
