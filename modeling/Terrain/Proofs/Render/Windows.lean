import Terrain.Proofs.Plan.Windows
import Terrain.Proofs.Raster.Shapes
import Terrain.Proofs.Render.Views

/-!
# Rendering in tiles

What a sequence yields through a window is what its steps mean there, with one exception: distances are
measured inside the window only, for the plan asks for nothing outside it. So the tiles of a large map
fit together wherever measuring inside a tile gives what measuring in the large map gives, and a hollow
behind the edge of a tile makes a seam.

* `Relief.distanceIn` — distances as they are measured in a rectangle.
* `Scene.inWindow` — what steps mean through a window.
* `Renderer.exhibits_of_run` — rendering shows what the steps mean through the window.
* `Renderer.tiles_fit` — when a tile is a part of the large map.
* `Renderer.cleft_seam` — a tile that is not.
-/

namespace Terrain

/-! ## Distances in a window -/

/-- The map of a relief over a rectangle. -/
def HeightMap.ofRelief (rectangle : Rectangle) (relief : Relief) : HeightMap where
  logical := rectangle
  raster := rectangle
  scale := 1.0
  samples := (Array.range rectangle.size.area).map fun place =>
    relief (rectangle.position.x + (place % rectangle.size.width : Nat))
      (rectangle.position.y + (place / rectangle.size.width : Nat))

def Relief.distanceIn (rectangle : Rectangle) (maxDistance : Extent) (relief : Relief) : Relief :=
  ((HeightMap.ofRelief rectangle relief).distanceMap maxDistance).heightAt

/-- The point of a place in the buffer. -/
theorem Rectangle.covers_place {window : Rectangle} {place : Nat} (inside : place < window.size.area) :
    window.Covers (window.position.x + (place % window.size.width : Nat))
      (window.position.y + (place / window.size.width : Nat)) := by
  have row : place / window.size.width < window.size.height := Nat.div_lt_of_lt_mul inside
  have column : place % window.size.width < window.size.width :=
    Nat.mod_lt place (Nat.pos_of_mul_pos_right (Nat.zero_lt_of_lt inside))
  generalize place / window.size.width = y at row ⊢
  generalize place % window.size.width = x at column ⊢
  unfold Rectangle.Covers Between
  omega

/-- A rectangle is fixed by its size and by a rectangle of that size in it. -/
theorem Rectangle.eq_of_covers {window raster : Rectangle} (nonempty : window.isEmpty = false)
    (size : raster.size = window.size) (inside : ∀ x y, window.Covers x y → raster.Covers x y) :
    raster = window := by
  have first := exists_covers nonempty
  have last : window.Covers (window.position.x + window.size.width - 1)
      (window.position.y + window.size.height - 1) := by
    unfold Covers Between at first ⊢
    omega
  obtain ⟨⟨left, top⟩, extent⟩ := raster
  obtain rfl : extent = window.size := size
  -- both corners are inside, and the sizes are the same
  have first := inside _ _ first
  have last := inside _ _ last
  unfold Covers Between at first last
  obtain ⟨⟨x, y⟩, extent⟩ := window
  simp only [Rectangle.mk.injEq, Point.mk.injEq, and_true]
  dsimp only [Coordinate] at *
  omega

namespace HeightMap

variable {map : HeightMap} {window : Rectangle} {relief other : Relief}

theorem ofRelief_congr (same : ∀ x y, window.Covers x y → relief x y = other x y) :
    ofRelief window relief = ofRelief window other := by
  unfold ofRelief
  congr 1
  refine Array.map_congr_left fun place inside => ?_
  exact same _ _ (Rectangle.covers_place (Array.mem_range.1 inside))

/-- A plain map is fixed by where it lies and by its heights. -/
theorem IsPlain.eq_ofRelief (plain : map.IsPlain) : map = ofRelief map.raster map.heightAt := by
  obtain ⟨scale, logical, full, -⟩ := plain
  obtain ⟨_, raster, _, samples⟩ := map
  dsimp only at scale logical full
  subst scale logical
  unfold ofRelief
  congr 1
  -- the place of a sample is read back from its coordinates
  refine Array.ext (by simpa using full) fun place inside _ => ?_
  simp only [Array.getElem_map, Array.getElem_range, heightAt, Size.index, add_sub_cancel_left,
    Int.toNat_natCast, Nat.mod_add_div, Array.getD_eq_getD_getElem?, Array.getElem?_eq_getElem inside,
    Option.getD_some]

theorem IsView.eq_ofRelief (view : map.IsView ⟨window, relief⟩) : map = ofRelief window relief := by
  have whole := view.plain.eq_ofRelief
  rw [view.raster] at whole
  exact whole.trans (ofRelief_congr view.heights)

theorem IsView.distanceMap (view : map.IsView ⟨window, relief⟩) (maxDistance : Extent) :
    (map.distanceMap maxDistance).IsView ⟨window, relief.distanceIn window maxDistance⟩ where
  plain := view.plain.of_sameShape (sameShape_distanceMap maxDistance)
  raster := view.raster
  heights x y _ := by
    -- the map is the only one with this rectangle and these heights
    rw [view.eq_ofRelief]
    rfl

theorem IsView.shows (view : map.IsView ⟨window, relief⟩) : map.Shows window relief :=
  fun x y covered => ⟨view.raster.symm ▸ covered, view.heights x y covered⟩

end HeightMap

/-- Distances in a window depend on the heights there only. -/
theorem Relief.distanceIn_congr {window : Rectangle} {relief other : Relief} {maxDistance : Extent}
    (same : ∀ x y, window.Covers x y → relief x y = other x y) :
    relief.distanceIn window maxDistance = other.distanceIn window maxDistance := by
  rw [distanceIn, HeightMap.ofRelief_congr same]
  rfl

/-- A plain map of the size of a rectangle that shows a relief there is a view of it. -/
theorem Renders.isView {result : Except Breach HeightMap} {condition : Prop} {window : Rectangle}
    {relief : Relief} {map : HeightMap}
    (renders : Renders result window.size condition window relief) (nonempty : window.isEmpty = false)
    (holds : condition) (ended : result = .ok map) : map.IsView ⟨window, relief⟩ := by
  obtain ⟨_, ended', plain, size, shown⟩ := renders
  cases ended.symm.trans ended'
  have placed := Rectangle.eq_of_covers nonempty size fun x y covered => (shown holds x y covered).1
  exact ⟨plain, placed, fun x y covered => (shown holds x y covered).2⟩

/-! ## Scenes in a window -/

/-- The relief after an edit through a window. Distances are measured in the window. -/
def MapEdit.reliefIn (window : Rectangle) (given : Nat → Relief) (own : Relief) : MapEdit → Relief
  | distanceMap maxDistance => own.distanceIn window maxDistance
  | edit => edit.relief given own

/-- The scene after a step, as it is seen through a window. A yield shows the window. -/
def Step.playIn (window : Rectangle) (scene : Scene) (step : Step) : Scene :=
  match step.action with
  | .editMap edit =>
    let given := given scene.reliefs step.arguments
    scene.put step.target (edit.reliefIn window given (scene.reliefs step.target))
  | .yield name _ => scene.hang name ⟨window, scene.reliefs step.target⟩
  | _ => step.play scene

/-- The scene after some steps, as it is seen through a window. -/
def Scene.inWindow (window : Rectangle) (steps : List Step) : Scene :=
  steps.foldl (Step.playIn window) .blank

section Scenes

variable {window : Rectangle} {scene : Scene} {step : Step} {slot : Slot}

theorem Scene.inWindow_snoc (window : Rectangle) (steps : List Step) (step : Step) :
    inWindow window (steps ++ [step]) = step.playIn window (inWindow window steps) := by
  rw [inWindow, List.foldl_append]
  rfl

theorem Step.reliefs_playIn_of_ne (different : slot ≠ step.target) :
    (step.playIn window scene).reliefs slot = scene.reliefs slot := by
  unfold playIn
  split
  · exact if_neg different
  · rfl
  · exact reliefs_play_of_ne different

/-- The window of a step does not depend on the rectangle it yielded before. -/
theorem Step.playIn_through (step : Step) :
    (step.through window).playIn window scene = step.playIn window scene := by
  obtain ⟨location, action, arguments, target⟩ := step
  cases action with
  | _ => rfl

theorem Scene.inWindow_through (steps : List Step) :
    inWindow window (steps.map (Step.through window)) = inWindow window steps := by
  unfold inWindow
  rw [List.foldl_map]
  simp only [Step.playIn_through]

/-- Only a yield hangs a view, and it changes no relief. -/
theorem Step.views_playIn_of_not_isYield (draws : step.action.isYield = false) :
    (step.playIn window scene).views = scene.views := by
  unfold playIn
  split
  case h_1 => rfl
  case h_2 action => rw [action] at draws; cases draws
  case h_3 =>
    unfold play
    split
    case h_3 action => rw [action] at draws; cases draws
    all_goals rfl

theorem Scene.rectangle_of_views {steps : List Step} {name : String} {view : View}
    (hung : (inWindow window steps).views name = some view) : view.rectangle = window := by
  induction steps using List.reverseRecOn generalizing view with
  | nil => cases hung
  | append_singleton steps step ih =>
    rw [inWindow_snoc] at hung
    cases yields : step.action.isYield with
    | false =>
      rw [Step.views_playIn_of_not_isYield yields] at hung
      exact ih hung
    | true =>
      obtain ⟨location, action, arguments, target⟩ := step
      cases action with
      | yield label rectangle =>
        simp only [Step.playIn, Scene.hang] at hung
        split at hung
        · cases hung
          rfl
        · exact ih hung
      | _ => cases yields

end Scenes

/-! ## Tables and scenes in a window -/

/-- A well-formed sequence at scale one that is rendered through a window, with all figures of its steps
below the limit. -/
structure Sequence.Tiled (sequence : Sequence) (window : Rectangle) : Prop where
  wellFormed : sequence.WellFormed
  scale : sequence.scale = 1.0
  seen : ∀ step ∈ sequence.steps, step.SeenIn window
  figures : ∀ step ∈ sequence.steps, step.action.Figures figureLimit
  within : window.Within figureLimit
  nonempty : window.isEmpty = false

/-- Every map of which something is shown is the view of the relief in its slot. -/
def RasterTable.Panels (table : RasterTable) (window : Rectangle) (extents : Extents)
    (steps : List Step) : Prop :=
  ∀ slot producer map, LastWrite steps slot producer →
    extents[producer]? = some (.rectangle window) → table.get? slot = some (.map map) →
      map.IsView ⟨window, (Scene.inWindow window steps).reliefs slot⟩

/-- An edit that stays in the window makes a view of a view. -/
theorem MapEdit.isView_run {edit : MapEdit} {arguments : ArgumentReader} {window : Rectangle}
    {given : Nat → Relief} {relief : Relief} {map edited : HeightMap} (stays : edit.staysIn = true)
    (figures : edit.Figures figureLimit) (within : window.Within figureLimit)
    (nonempty : window.isEmpty = false) (view : map.IsView ⟨window, relief⟩)
    (plainArguments : arguments.HoldsPlain (Action.editMap edit).arity)
    (shown : arguments.AllShow window given)
    (editing : edit.run arguments (.rectangle window) map = .ok edited) :
    edited.IsView ⟨window, edit.reliefIn window given relief⟩ := by
  have size : map.raster.size = window.size := congrArg Rectangle.size view.raster
  -- that limits of heights are in order is known from the success of the edit
  have ordered (low high : Height) (clamps : edit = .clampHeights low high) :
      low ≤ high ∨ map.samples.isEmpty = true := by
    subst clamps
    exact HeightMap.ordered_of_clampHeights editing
  -- every edit but the distances has been followed without a window before
  have planar (planar : edit.isPlanar = true) (same : edit.argumentRectangle window = window)
      (moves : ∀ offset, edit ≠ .move offset) :
      edited.IsView ⟨window, edit.relief given relief⟩ := by
    have renders := @MapEdit.renders_run _ given relief _ _ _ planar figures within view.plain
      plainArguments ordered fun offset moved => absurd moved (moves offset)
    rw [size, same, MapEdit.prior_of_staysIn stays] at renders
    exact renders.isView nonempty ⟨view.shows, shown⟩ editing
  cases edit with
  | distanceMap maxDistance =>
    cases editing
    exact view.distanceMap maxDistance
  | blur radius => cases stays
  | convexity radius => cases stays
  | move offset => cases stays
  | pattern repeated => cases stays
  | _ => exact planar stays rfl nofun

theorem RasterTable.Panels.extend {table after : RasterTable} {window own : Rectangle}
    {extents : Extents} {steps : List Step} {step : Step} (panels : table.Panels window extents steps)
    (foundOwn : extents[steps.length]? = some (.rectangle own))
    (others : ∀ other, other ≠ step.target → after.get? other = table.get? other)
    (shown : own = window → ∀ map, after.get? step.target = some (.map map) →
      map.IsView ⟨window, (step.playIn window (Scene.inWindow window steps)).reliefs step.target⟩) :
    after.Panels window extents (steps ++ [step]) := by
  intro slot producer map last found filled
  rw [lastWrite_snoc_iff] at last
  rw [Scene.inWindow_snoc]
  by_cases same : step.target = slot
  -- the step itself is the last writer of its target
  · subst same
    rw [if_pos rfl] at last
    subst last
    cases foundOwn.symm.trans found
    exact shown rfl map filled
  · rw [if_neg same] at last
    rw [Step.reliefs_playIn_of_ne (Ne.symm same)]
    rw [others slot (Ne.symm same)] at filled
    exact panels slot producer map last found filled

namespace Sequence

variable {sequence : Sequence} {extents : Extents} {index : Nat} {step : Step} {window : Rectangle}
  {shown : Bool} {slot : Slot} {table after : RasterTable} {map : HeightMap} {gallery hung : Gallery}

variable (tiled : sequence.Tiled window)
  (panels : table.Panels window extents (sequence.steps.toList.take index))

include tiled panels

/-- What a step shows is shown by the maps it reads. -/
theorem Plans.isView_read (plans : sequence.Plans extents index step (window.pane shown))
    (wants : step.wants shown = true) (reads : slot ∈ step.readSlots)
    (filled : table.get? slot = some (.map map)) :
    map.IsView ⟨window, (Scene.inWindow window (sequence.steps.toList.take index)).reliefs slot⟩ := by
  -- the step that wrote the slot last was asked for the window, so it left a view
  obtain ⟨producer, last⟩ := tiled.wellFormed.exists_lastWrite plans.step reads
  obtain ⟨_, made, -, met⟩ := Extents.exists_panes tiled.seen tiled.within tiled.nonempty
  cases plans.made.symm.trans made
  have found := met index step shown plans.step plans.own wants slot producer reads last
  exact panels slot producer map last found filled

/-- The arguments of a step of which something is shown. -/
theorem Plans.show_arguments_in (plans : sequence.Plans extents index step window)
    (supplies : (step.inputs table).Supplies step.action.argumentKind step.action.arity) :
    (step.inputs table).HoldsPlain step.action.arity ∧ (step.inputs table).AllShow window
      (given (Scene.inWindow window (sequence.steps.toList.take index)).reliefs step.arguments) := by
  have view {slot : Slot} {map : HeightMap} (argument : slot ∈ step.arguments)
      (filled : table.get? slot = some (.map map)) :=
    @Plans.isView_read _ _ _ _ _ true _ _ _ tiled panels plans rfl (List.mem_append_left _ argument)
      filled
  have stays := (tiled.seen step (Array.mem_of_getElem? plans.step)).stays
  rw [Action.argumentKind_of_staysIn stays] at supplies
  constructor
  · refine supplies.holdsPlain fun index map read => ?_
    obtain ⟨slot, named, filled⟩ := ArgumentReader.exists_of_map_ofSlots read
    exact (view (List.mem_of_getElem? named) filled).plain
  · exact ArgumentReader.allShow_ofSlots fun slot argument map filled => (view argument filled).shows

/-- A step of which something is shown leaves a view. -/
theorem Plans.isView_run (plans : sequence.Plans extents index step window)
    (supplies : (step.inputs table).Supplies step.action.argumentKind step.action.arity)
    (ran : step.run (.rectangle window) 1.0 table gallery = .ok (after, hung))
    (filled : after.get? step.target = some (.map map)) :
    map.IsView ⟨window, (step.playIn window
      (Scene.inWindow window (sequence.steps.toList.take index))).reliefs step.target⟩ := by
  have stays := (tiled.seen step (Array.mem_of_getElem? plans.step)).stays
  have figures := tiled.figures step (Array.mem_of_getElem? plans.step)
  obtain ⟨plainArguments, shown⟩ := plans.show_arguments_in tiled panels supplies
  have before {source : HeightMap} (edits : step.isMaker = false)
      (found : table.get? step.target = some (.map source)) :=
    @Plans.isView_read _ _ _ _ _ true _ _ _ tiled panels plans rfl
      (by simp [Step.readSlots, edits]) found
  generalize Scene.inWindow window (sequence.steps.toList.take index) = scene at shown before ⊢
  rcases Step.run_eq_ok (Action.kind_of_staysIn stays) ran with
    ⟨maker, made, action, making, rfl, rfl⟩ |
    ⟨edit, source, edited, action, found, editing, rfl, rfl⟩ |
    ⟨name, rectangle, source, copy, action, found, cut, rfl, rfl⟩
  · -- a map that is made
    obtain rfl : made = map := by simpa [RasterTable.get?_set] using filled
    rw [action] at stays
    rw [action] at plainArguments
    have view := (MapMaker.renders_run stays tiled.within plainArguments).isView tiled.nonempty shown
      making
    simpa [Step.playIn, Step.play, action, Scene.put] using view
  · -- a map that is edited, which was a view before
    obtain rfl : edited = map := by simpa [RasterTable.get?_set] using filled
    have source := before (by rw [Step.isMaker, action, Action.isMaker]) found
    rw [action] at stays figures
    rw [action] at plainArguments
    have view := MapEdit.isView_run stays figures tiled.within tiled.nonempty source plainArguments
      shown editing
    simpa [Step.playIn, action, Scene.put] using view
  · -- a map that is yielded stays as it is
    have source := before (by rw [Step.isMaker, action, Action.isMaker]) filled
    simpa [Step.playIn, action, Scene.hang] using source

/-- A yield hangs the view of its target. -/
theorem Plans.exhibits_run_in (plans : sequence.Plans extents index step (window.pane shown))
    (exhibits : gallery.Exhibits (Scene.inWindow window (sequence.steps.toList.take index)))
    (ran : step.run (.rectangle (window.pane shown)) 1.0 table gallery = .ok (after, hung)) :
    hung.Exhibits (step.playIn window (Scene.inWindow window (sequence.steps.toList.take index))) := by
  obtain ⟨-, stays, whole⟩ := tiled.seen step (Array.mem_of_getElem? plans.step)
  rcases Step.run_eq_ok (Action.kind_of_staysIn stays) ran with
    ⟨maker, made, action, making, rfl, rfl⟩ |
    ⟨edit, source, edited, action, found, editing, rfl, rfl⟩ |
    ⟨name, rectangle, source, copy, action, found, cut, rfl, rfl⟩
  · simp only [Step.playIn, Step.play, action]
    exact exhibits
  · simp only [Step.playIn, action]
    exact exhibits
  · -- a yield reads the whole window even if nobody reads its target later
    have wants : step.wants shown = true := by simp [Step.wants, action, Action.isYield]
    have reads : step.target ∈ step.readSlots := by
      simp [Step.readSlots, Step.isMaker, action, Action.isMaker]
    have view := plans.isView_read tiled panels wants reads found
    obtain rfl := whole name rectangle action
    obtain ⟨_, cut', plain, placed, drawn⟩ := HeightMap.draws_cutout view.plain tiled.within.wide
    cases cut.symm.trans cut'
    simp only [Step.playIn, action]
    refine exhibits.insert name ⟨plain, placed, fun x y covered => ?_⟩
    obtain ⟨inside, height⟩ := view.shows x y covered
    exact (drawn x y covered).trans ((if_pos inside).trans height)

end Sequence

namespace Renderer

variable {sequence : Sequence} {renderer after : Renderer} {memoryLimit : Nat} {window : Rectangle}

/-- Rasters and yielded maps are those of the scene in the window that the steps so far lead to. -/
structure Glazes (renderer : Renderer) (sequence : Sequence) (window : Rectangle) : Prop where
  table : ∀ extents, Extents.ofSteps sequence.steps (.ofSteps sequence.steps) = .ok extents →
    renderer.table.Panels window extents (sequence.steps.toList.take renderer.cursor)
  gallery : renderer.gallery.Exhibits
    (Scene.inWindow window (sequence.steps.toList.take renderer.cursor))

theorem glazes_start (sequence : Sequence) (memoryLimit : Nat) (window : Rectangle) :
    (start sequence memoryLimit).Glazes sequence window where
  table _ _ slot producer _ last := absurd last (not_lastWrite_nil slot producer)
  gallery := Gallery.exhibits_empty

/-- One step of the sequence. -/
theorem Glazes.takes {schedule : Schedule} {step : Step} {facts : StepFacts} {table : RasterTable}
    (tiled : sequence.Tiled window) (sound : renderer.Sound sequence)
    (glazes : renderer.Glazes sequence window)
    (takes : renderer.Takes after schedule step facts table) : after.Glazes sequence window := by
  obtain ⟨extents, _, made, found, foundBounds, -⟩ :=
    Schedule.exists_extents_of_ofSequence (sound.schedule schedule takes.scheduled) takes.foundFacts
  obtain ⟨_, made', panes, -⟩ := Extents.exists_panes tiled.seen tiled.within tiled.nonempty
  cases made.symm.trans made'
  -- the plan asks of the step for the window or for nothing
  obtain ⟨shown, bounds⟩ := panes.pane foundBounds
  rw [bounds] at foundBounds
  have here := takes.found
  rw [sound.works] at here
  cases here.symm.trans found
  have plans : sequence.Plans extents renderer.cursor step (window.pane shown) :=
    ⟨made, found, foundBounds⟩
  have supplies := sound.supplies tiled.wellFormed found
  have ran := takes.ran
  rw [sound.works, tiled.scale, bounds] at ran
  have panels := glazes.table extents made
  have updates := (Step.changes_of_run ran).updates
  obtain ⟨more, length⟩ := takes.take_cursor
  rw [sound.works] at more length
  constructor
  · intro extents' madeAgain
    cases made.symm.trans madeAgain
    have shows' := panels.extend (by rw [length]; exact foundBounds) updates.2 fun whole map filled => by
      rw [whole] at plans ran
      exact plans.isView_run tiled panels supplies ran filled
    rw [more]
    exact fun slot producer map last found filled =>
      shows' slot producer map last found (takes.get?_of_after filled)
  · rw [more, Scene.inWindow_snoc]
    exact plans.exhibits_run_in tiled panels glazes.gallery ran

theorem Reached.glazes (tiled : sequence.Tiled window)
    (reached : Reached sequence memoryLimit renderer) : renderer.Glazes sequence window := by
  refine reached.keeps (Glazes · sequence window) tiled.wellFormed
    (glazes_start sequence memoryLimit window) fun sound glazes moves => ?_
  rcases moves with ⟨table, gallery, cursor⟩ | ⟨schedule, step, facts, table, takes⟩
  · obtain ⟨panels, exhibits⟩ := glazes
    rw [← cursor] at panels exhibits
    rw [← table] at panels
    exact ⟨panels, gallery ▸ exhibits⟩
  · exact glazes.takes tiled sound takes

/-- What is rendered through a window is what the steps mean there. -/
theorem exhibits_of_run (tiled : sequence.Tiled window)
    (ran : run (start sequence memoryLimit) = .ok () after) :
    after.gallery.Exhibits (Scene.inWindow window sequence.steps.toList) := by
  obtain ⟨reached, finished⟩ := reached_of_run ran
  have whole : sequence.steps.toList.take after.cursor = sequence.steps.toList :=
    List.take_of_length_le (by rwa [Array.length_toList])
  exact whole ▸ (reached.glazes tiled).gallery

end Renderer

/-! ## Two windows -/

structure Scene.Agree (region : Rectangle) (scene other : Scene) : Prop where
  reliefs : ∀ slot x y, region.Covers x y → scene.reliefs slot x y = other.reliefs slot x y
  views : ∀ name x y, region.Covers x y →
    (scene.views name).map (·.relief x y) = (other.views name).map (·.relief x y)

/-- Measuring distances in a window gives what measuring in a larger one gives. -/
def Step.MeasuresAlike (small large : Rectangle) (scene : Scene) (step : Step) : Prop :=
  ∀ maxDistance, step.action = .editMap (.distanceMap maxDistance) → ∀ x y, small.Covers x y →
    (scene.reliefs step.target).distanceIn small maxDistance x y =
      (scene.reliefs step.target).distanceIn large maxDistance x y

section Agreement

variable {small large : Rectangle} {scene other : Scene} {step : Step} {x y : Int}

/-- Edits that stay in the window work point by point, but for distances. -/
theorem MapEdit.relief_congr {edit : MapEdit} {given given' : Nat → Relief} {own own' : Relief}
    (stays : edit.staysIn = true) (same : ∀ index, given index x y = given' index x y)
    (sameOwn : own x y = own' x y) :
    edit.relief given own x y = edit.relief given' own' x y := by
  cases edit <;> first | (simp only [relief, same, sameOwn]; done) | cases stays

theorem MapEdit.reliefIn_congr {edit : MapEdit} {given given' : Nat → Relief} {own own' : Relief}
    (stays : edit.staysIn = true)
    (same : ∀ index x y, small.Covers x y → given index x y = given' index x y)
    (sameOwn : ∀ x y, small.Covers x y → own x y = own' x y)
    (alike : ∀ maxDistance, edit = .distanceMap maxDistance →
      own'.distanceIn small maxDistance x y = own'.distanceIn large maxDistance x y)
    (covered : small.Covers x y) :
    edit.reliefIn small given own x y = edit.reliefIn large given' own' x y := by
  cases edit with
  | distanceMap maxDistance =>
    change own.distanceIn small maxDistance x y = own'.distanceIn large maxDistance x y
    rw [Relief.distanceIn_congr sameOwn]
    exact alike maxDistance rfl
  | _ => exact relief_congr stays (same · x y covered) (sameOwn x y covered)

theorem MapMaker.relief_congr {maker : MapMaker} {given given' : Nat → Relief}
    (same : ∀ index, given index x y = given' index x y) :
    maker.relief given x y = maker.relief given' x y := by
  cases maker <;> first | rfl | exact same _

theorem Scene.agree_blank (region : Rectangle) : Agree region blank blank :=
  ⟨fun _ _ _ _ => rfl, fun _ _ _ _ => rfl⟩

theorem Scene.Agree.put (agree : Agree small scene other) {relief relief' : Relief} (slot : Slot)
    (same : ∀ x y, small.Covers x y → relief x y = relief' x y) :
    Agree small (scene.put slot relief) (other.put slot relief') where
  reliefs found x y covered := by
    simp only [Scene.put]
    split
    · exact same x y covered
    · exact agree.reliefs found x y covered
  views := agree.views

theorem Scene.Agree.hang (agree : Agree small scene other) (name : String) (slot : Slot) :
    Agree small (scene.hang name ⟨small, scene.reliefs slot⟩)
      (other.hang name ⟨large, other.reliefs slot⟩) where
  reliefs := agree.reliefs
  views found x y covered := by
    simp only [Scene.hang]
    split
    · exact congrArg some (agree.reliefs slot x y covered)
    · exact agree.views found x y covered

theorem Scene.Agree.given (agree : Agree small scene other) (arguments : List Slot) (index : Nat)
    (covered : small.Covers x y) :
    given scene.reliefs arguments index x y = given other.reliefs arguments index x y := by
  unfold Terrain.given
  cases arguments[index]? with
  | none => rfl
  | some slot => exact agree.reliefs slot x y covered

/-- One step through both windows. -/
theorem Scene.Agree.playIn (agree : Agree small scene other) (stays : step.action.staysIn = true)
    (alike : step.MeasuresAlike small large other) :
    Agree small (step.playIn small scene) (step.playIn large other) := by
  obtain ⟨location, action, arguments, target⟩ := step
  cases action with
  | makeProfile maker => cases stays
  | editProfile edit => cases stays
  | yield name rectangle => exact agree.hang name target
  | makeMap maker =>
    refine agree.put target fun x y covered => ?_
    exact MapMaker.relief_congr fun index => agree.given arguments index covered
  | editMap edit =>
    refine agree.put target fun x y covered => ?_
    exact MapEdit.reliefIn_congr stays (fun index _ _ => agree.given arguments index) (agree.reliefs target)
      (fun maxDistance measures => alike maxDistance (congrArg _ measures) x y covered) covered

/-- All steps through both windows. -/
theorem Scene.agree_inWindow {steps : List Step} (stays : ∀ step ∈ steps, step.action.staysIn = true)
    (alike : ∀ (index : Nat) step, steps[index]? = some step →
      step.MeasuresAlike small large (inWindow large (steps.take index))) :
    Agree small (inWindow small steps) (inWindow large steps) := by
  induction steps using List.reverseRecOn with
  | nil => exact agree_blank small
  | append_singleton steps step ih =>
    rw [inWindow_snoc, inWindow_snoc]
    have last := alike steps.length step (by simp)
    rw [List.take_left' rfl] at last
    refine (ih (fun step member => stays step (by simp [member])) fun index step found => ?_).playIn
      (stays step (by simp)) last
    have inside := (List.getElem?_eq_some_iff.1 found).1
    have earlier := alike index step (by rwa [List.getElem?_append_left inside])
    rwa [List.take_append_of_le_length (Nat.le_of_lt inside)] at earlier

end Agreement

/-- A well-formed sequence at scale one that can be rendered in tiles. -/
structure Sequence.Tileable (sequence : Sequence) : Prop where
  wellFormed : sequence.WellFormed
  scale : sequence.scale = 1.0
  stays : ∀ step ∈ sequence.steps, step.action.staysIn = true
  figures : ∀ step ∈ sequence.steps, ∀ edit, step.action = .editMap edit → edit.Figures figureLimit

/-- All steps of a sequence measure distances in a window as they do in a larger one. -/
def Sequence.MeasuresAlike (sequence : Sequence) (small large : Rectangle) : Prop :=
  ∀ (index : Nat) step, sequence.steps[index]? = some step →
    step.MeasuresAlike small large (Scene.inWindow large (sequence.steps.toList.take index))

theorem Sequence.Tileable.tiled {sequence : Sequence} {window : Rectangle} (tileable : sequence.Tileable)
    (within : window.Within figureLimit) (nonempty : window.isEmpty = false) :
    (sequence.through window).Tiled window where
  wellFormed := tileable.wellFormed.through window
  scale := tileable.scale
  seen step member := by
    obtain ⟨original, recorded, rfl⟩ := Array.mem_map.1 member
    obtain ⟨index, found⟩ := Array.getElem?_of_mem recorded
    have follows := tileable.wellFormed.consistent.follows_at (by simpa using found)
    exact Step.seenIn_through follows.arity (tileable.stays original recorded)
  figures step member := by
    obtain ⟨original, recorded, rfl⟩ := Array.mem_map.1 member
    have figures := tileable.figures original recorded
    obtain ⟨location, action, arguments, target⟩ := original
    cases action with
    | editMap edit => exact figures edit rfl
    | yield name rectangle => exact within
    | _ => trivial
  within := within
  nonempty := nonempty

def Gallery.heightAt? (gallery : Gallery) (name : String) (x y : Int) : Option Height :=
  (gallery.get? name).map (·.heightAt x y)

theorem Gallery.Exhibits.heightAt?_eq {gallery : Gallery} {window : Rectangle} {steps : List Step}
    {x y : Int} (exhibits : gallery.Exhibits (Scene.inWindow window steps)) (covered : window.Covers x y)
    (name : String) : gallery.heightAt? name x y =
      ((Scene.inWindow window steps).views name).map (·.relief x y) := by
  have related := exhibits name
  unfold heightAt?
  cases hung : (Scene.inWindow window steps).views name with
  | none =>
    rw [hung] at related
    cases found : gallery.get? name with
    | none => rfl
    | some map =>
      rw [found] at related
      cases related
  | some view =>
    rw [hung] at related
    cases found : gallery.get? name with
    | none =>
      rw [found] at related
      cases related
    | some map =>
      rw [found] at related
      cases related with
      | some same =>
        have whole := Scene.rectangle_of_views hung
        exact congrArg some (same.heights x y (whole ▸ covered))

namespace Renderer

variable {sequence : Sequence}

/-- Rendering in tiles measures distances inside each tile.

* What a sequence yields through a window is what its steps mean there, where a distance map knows of no
  point outside the window.
* So a tile has the heights of a larger one in all of its points if all distances that are measured in
  the larger one come out the same when they are measured in the tile. -/
theorem tiles_fit (tileable : sequence.Tileable) :
    (∀ window memoryLimit after, window.Within figureLimit → window.isEmpty = false →
      run (start (sequence.through window) memoryLimit) = .ok () after →
        after.gallery.Exhibits (Scene.inWindow window sequence.steps.toList)) ∧
    ∀ small large, small.Within figureLimit → large.Within figureLimit →
      (∀ x y, small.Covers x y → large.Covers x y) → sequence.MeasuresAlike small large →
        ∀ memoryLimit tile, run (start (sequence.through small) memoryLimit) = .ok () tile →
          ∀ memoryLimit' whole, run (start (sequence.through large) memoryLimit') = .ok () whole →
            ∀ name x y, small.Covers x y →
              tile.gallery.heightAt? name x y = whole.gallery.heightAt? name x y := by
  have exhibits (window : Rectangle) (memoryLimit : Nat) (after : Renderer)
      (within : window.Within figureLimit) (nonempty : window.isEmpty = false)
      (ran : run (start (sequence.through window) memoryLimit) = .ok () after) :
      after.gallery.Exhibits (Scene.inWindow window sequence.steps.toList) := by
    have shown := exhibits_of_run (tileable.tiled within nonempty) ran
    rwa [Sequence.through, Array.toList_map, Scene.inWindow_through] at shown
  refine ⟨exhibits, ?_⟩
  intro small large withinSmall withinLarge inside alike memoryLimit tile ranTile memoryLimit' whole
    ranWhole name x y covered
  have inTile := exhibits small memoryLimit tile withinSmall covered.isEmpty_eq_false ranTile
  have inWhole := exhibits large memoryLimit' whole withinLarge
    (inside x y covered).isEmpty_eq_false ranWhole
  have agree : Scene.Agree small (Scene.inWindow small sequence.steps.toList)
      (Scene.inWindow large sequence.steps.toList) := by
    refine Scene.agree_inWindow (fun step member => tileable.stays step (by simpa using member)) ?_
    exact fun index step found => alike index step (by simpa using found)
  rw [inTile.heightAt?_eq covered, inWhole.heightAt?_eq (inside x y covered)]
  exact agree.views name x y covered

def cleft : Sequence where
  steps := #[⟨⟨1, 1⟩, .makeMap (.flat 32767), [], 0⟩,
    ⟨⟨2, 1⟩, .editMap (.fillRectangle ⟨⟨2, 0⟩, ⟨1, 1⟩⟩ 0), [], 0⟩,
    ⟨⟨3, 1⟩, .editMap (.distanceMap 4), [], 0⟩,
    ⟨⟨4, 1⟩, .yield "main" ⟨⟨0, 0⟩, ⟨1, 1⟩⟩, [], 0⟩]
  scale := 1.0
  limit := 4
  slotCount := 1

theorem tileable_cleft : cleft.Tileable where
  wellFormed := by
    refine ⟨Consistent.snoc (.snoc (.snoc (.snoc consistent_nil ?_) ?_) ?_) ?_, ?_⟩
    all_goals decide
  scale := rfl
  stays := by decide
  figures step member edit action := by
    simp only [cleft, List.mem_toArray, List.mem_cons, List.not_mem_nil, or_false] at member
    rcases member with rfl | rfl | rfl | rfl <;> cases action
    · exact (by decide : Rectangle.Within ⟨⟨2, 0⟩, ⟨1, 1⟩⟩ figureLimit)
    · trivial

def cleftRow (width : Nat) : Option (List (Option Height)) :=
  match run (start (cleft.through ⟨⟨0, 0⟩, ⟨width, 1⟩⟩) 400) with
  | .ok _ after => some ((List.range width).map fun x => after.gallery.heightAt? "main" x 0)
  | .error _ _ => none

theorem exists_run_of_cleftRow {width : Nat} {heights : List (Option Height)}
    (row : cleftRow width = some heights) :
    ∃ after, run (start (cleft.through ⟨⟨0, 0⟩, ⟨width, 1⟩⟩) 400) = .ok () after ∧
      heights = (List.range width).map fun x => after.gallery.heightAt? "main" x 0 := by
  unfold cleftRow at row
  split at row
  · cases row
    exact ⟨_, ‹_›, rfl⟩
  · cases row

/-- In a window with the cleft in it, distances are those of a larger window. -/
theorem measuresAlike_cleft : cleft.MeasuresAlike ⟨⟨0, 0⟩, ⟨3, 1⟩⟩ ⟨⟨0, 0⟩, ⟨4, 1⟩⟩ := by
  intro index step found maxDistance measures x y covered
  have inside : index < 4 := (Array.getElem?_eq_some_iff.1 found).1
  unfold Rectangle.Covers Between at covered
  obtain rfl : y = 0 := by
    dsimp only at covered
    omega
  have columns : x = 0 ∨ x = 1 ∨ x = 2 := by
    dsimp only at covered
    omega
  interval_cases index <;> cases found <;> cases measures
  rcases columns with rfl | rfl | rfl <;> decide +kernel

/-- With the cleft inside it, a tile fits. -/
theorem cleft_fits : cleft.Tileable ∧ cleft.MeasuresAlike ⟨⟨0, 0⟩, ⟨3, 1⟩⟩ ⟨⟨0, 0⟩, ⟨4, 1⟩⟩ ∧
    ∃ tile whole, run (start (cleft.through ⟨⟨0, 0⟩, ⟨3, 1⟩⟩) 400) = .ok () tile ∧
      run (start (cleft.through ⟨⟨0, 0⟩, ⟨4, 1⟩⟩) 400) = .ok () whole ∧
      tile.gallery.Exhibits (Scene.inWindow ⟨⟨0, 0⟩, ⟨3, 1⟩⟩ cleft.steps.toList) ∧
      ∀ x y, Rectangle.Covers ⟨⟨0, 0⟩, ⟨3, 1⟩⟩ x y →
        tile.gallery.heightAt? "main" x y = whole.gallery.heightAt? "main" x y := by
  obtain ⟨exhibits, fit⟩ := tiles_fit tileable_cleft
  have rowTile : cleftRow 3 = some [some 16383, some 8191, some 0] := by decide +kernel
  have rowWhole : cleftRow 4 = some [some 16383, some 8191, some 0, some 8191] := by decide +kernel
  obtain ⟨tile, ranTile, -⟩ := exists_run_of_cleftRow rowTile
  obtain ⟨whole, ranWhole, -⟩ := exists_run_of_cleftRow rowWhole
  refine ⟨tileable_cleft, measuresAlike_cleft, tile, whole, ranTile, ranWhole,
    exhibits _ 400 tile (by decide) (by decide) ranTile, fun x y covered => ?_⟩
  refine fit _ _ (by decide) (by decide) (fun x y covered => ?_) measuresAlike_cleft 400 tile ranTile
    400 whole ranWhole "main" x y covered
  unfold Rectangle.Covers Between at covered ⊢
  dsimp only at covered ⊢
  omega

/-- A tile beside the cleft does not fit: it shows its only point far away from any hollow, and the
larger window shows the same point two steps away from the cleft. -/
theorem cleft_seam : cleft.Tileable ∧
    (⟨⟨0, 0⟩, ⟨3, 1⟩⟩ : Rectangle).containsRectangle ⟨⟨0, 0⟩, ⟨1, 1⟩⟩ = true ∧
    ∃ tile whole, run (start (cleft.through ⟨⟨0, 0⟩, ⟨1, 1⟩⟩) 400) = .ok () tile ∧
      run (start (cleft.through ⟨⟨0, 0⟩, ⟨3, 1⟩⟩) 400) = .ok () whole ∧
      tile.gallery.heightAt? "main" 0 0 = some 32767 ∧
      whole.gallery.heightAt? "main" 0 0 = some 16383 := by
  have rowTile : cleftRow 1 = some [some 32767] := by decide +kernel
  have rowWhole : cleftRow 3 = some [some 16383, some 8191, some 0] := by decide +kernel
  obtain ⟨tile, ranTile, heightsTile⟩ := exists_run_of_cleftRow rowTile
  obtain ⟨whole, ranWhole, heightsWhole⟩ := exists_run_of_cleftRow rowWhole
  refine ⟨tileable_cleft, rfl, tile, whole, ranTile, ranWhole, ?_, ?_⟩
  · exact (List.cons.inj heightsTile).1.symm
  · exact (List.cons.inj heightsWhole).1.symm

end Renderer

end Terrain
