import Terrain.Proofs.Render.Progress

/-!
# What a run yields

A run carries out all steps of a sequence. Beside each of them goes the scene that the steps lead to on
the whole plane, and so the maps that a run leaves are the views of the last scene.

* `Renderer.Paints` — rasters and yielded maps against the scene.
* `Renderer.Reached.paints` — planning and stepping keep it.
* `Renderer.run_shows_scene` — what a whole run yields.
-/

namespace Terrain

def Gallery.Exhibits (gallery : Gallery) (scene : Scene) : Prop :=
  ∀ name, Option.Rel HeightMap.IsView (gallery.get? name) (scene.views name)

theorem Gallery.exhibits_empty : empty.Exhibits .blank := by
  intro name
  rw [get?, empty, Std.TreeMap.getElem?_emptyc]
  exact .none

theorem Gallery.Exhibits.insert {gallery : Gallery} {scene : Scene} {map : HeightMap} {view : View}
    (exhibits : gallery.Exhibits scene) (name : String) (same : map.IsView view) :
    (gallery.insert name map).Exhibits (scene.hang name view) := by
  intro other
  simp only [get?, Gallery.insert, Scene.hang, Std.TreeMap.getElem?_insert,
    Std.LawfulEqCmp.compare_eq_iff_eq, @eq_comm String name other]
  split
  · exact .some same
  · exact exhibits other

/-- A step yields what it means. -/
theorem Sequence.Plans.exhibits_run {sequence : Sequence} {extents : Extents} {index : Nat}
    {step : Step} {own : Rectangle} {table after : RasterTable} {gallery hung : Gallery}
    (planar : sequence.Planar) (plans : sequence.Plans extents index step own)
    (pictures : table.Pictures extents (sequence.steps.toList.take index)) (atScale : table.IsAt 1.0)
    (exhibits : gallery.Exhibits (Scene.ofSteps (sequence.steps.toList.take index)))
    (ran : step.run (.rectangle own) 1.0 table gallery = .ok (after, hung)) :
    hung.Exhibits (step.play (Scene.ofSteps (sequence.steps.toList.take index))) := by
  rcases Step.run_eq_ok (Action.kind_of_isPlanar (plans.isPlanar planar)) ran with
    ⟨maker, made, action, making, rfl, rfl⟩ |
    ⟨edit, source, edited, action, found, editing, rfl, rfl⟩ |
    ⟨name, rectangle, source, copy, action, found, cut, rfl, rfl⟩
  · simp only [Step.play, action]
    exact exhibits
  · simp only [Step.play, action]
    exact exhibits
  · simp only [Step.play, action]
    exact exhibits.insert name (plans.isView_cutout planar pictures atScale action found cut)

namespace Renderer

variable {sequence : Sequence} {renderer after : Renderer} {memoryLimit : Nat}

/-- Rasters and yielded maps are those of the scene that the steps so far lead to. -/
structure Paints (renderer : Renderer) (sequence : Sequence) : Prop where
  scale : renderer.table.IsAt 1.0
  table : ∀ extents, Extents.ofSteps sequence.steps (.ofSteps sequence.steps) = .ok extents →
    renderer.table.Pictures extents (sequence.steps.toList.take renderer.cursor)
  gallery : renderer.gallery.Exhibits (Scene.ofSteps (sequence.steps.toList.take renderer.cursor))

theorem paints_start (sequence : Sequence) (memoryLimit : Nat) :
    (start sequence memoryLimit).Paints sequence where
  scale slot raster filled := by
    change (RasterTable.ofSize _).get? slot = _ at filled
    rw [RasterTable.get?_ofSize] at filled
    cases filled
  table extents _ slot producer region map last := absurd last (not_lastWrite_nil slot producer)
  gallery := Gallery.exhibits_empty

/-- The next step, with the bounds it was planned with. -/
theorem Sound.exists_plans {schedule : Schedule} {facts : StepFacts} (planar : sequence.Planar)
    (sound : renderer.Sound sequence) (scheduled : renderer.schedule? = some schedule)
    (foundFacts : schedule[renderer.cursor]? = some facts) :
    ∃ extents step own, sequence.Plans extents renderer.cursor step own ∧
      facts.bounds = .rectangle own := by
  obtain ⟨extents, step, made, found, foundBounds, -⟩ :=
    Schedule.exists_extents_of_ofSequence (sound.schedule schedule scheduled) foundFacts
  obtain ⟨_, made', laid, -⟩ := Extents.exists_ofSteps planar.planar planar.figures
  cases made.symm.trans made'
  obtain ⟨own, rectangle, -⟩ := laid.rectangle foundBounds
  exact ⟨extents, step, own, ⟨made, found, rectangle ▸ foundBounds⟩, rectangle⟩

/-- One more step has been taken. -/
theorem Takes.take_cursor {schedule : Schedule} {step : Step} {facts : StepFacts} {table : RasterTable}
    (takes : renderer.Takes after schedule step facts table) :
    renderer.sequence.steps.toList.take after.cursor =
        renderer.sequence.steps.toList.take renderer.cursor ++ [step] ∧
      (renderer.sequence.steps.toList.take renderer.cursor).length = renderer.cursor := by
  have found : renderer.sequence.steps.toList[renderer.cursor]? = some step := by
    simpa using takes.found
  constructor
  · rw [takes.advanced, List.take_add_one, found, Option.toList_some]
  · rw [List.length_take]
    exact Nat.min_eq_left (Nat.le_of_lt (List.getElem?_eq_some_iff.1 found).1)

/-- Releases take maps away and change none. -/
theorem Takes.get?_of_after {schedule : Schedule} {step : Step} {facts : StepFacts} {table : RasterTable}
    {slot : Slot} {raster : Raster} (takes : renderer.Takes after schedule step facts table)
    (filled : after.table.get? slot = some raster) : table.get? slot = some raster := by
  rw [takes.released] at filled
  exact RasterTable.get?_of_foldl_release filled

/-- One step of the sequence. -/
theorem Paints.takes {schedule : Schedule} {step : Step} {facts : StepFacts} {table : RasterTable}
    (planar : sequence.Planar) (sound : renderer.Sound sequence) (paints : renderer.Paints sequence)
    (takes : renderer.Takes after schedule step facts table) : after.Paints sequence := by
  obtain ⟨extents, _, own, plans, bounds⟩ := sound.exists_plans planar takes.scheduled takes.foundFacts
  have here := takes.found
  rw [sound.works] at here
  cases here.symm.trans plans.step
  have supplies := sound.supplies planar.wellFormed plans.step
  have ran := takes.ran
  rw [sound.works, planar.scale, bounds] at ran
  have pictures := paints.table extents plans.made
  have updates := (Step.changes_of_run ran).updates
  obtain ⟨more, length⟩ := takes.take_cursor
  rw [sound.works] at more length
  constructor
  · intro slot raster filled
    exact Step.isAt_run (plans.isPlanar planar) supplies ran paints.scale slot raster
      (takes.get?_of_after filled)
  · intro extents' made
    cases plans.made.symm.trans made
    have shown := pictures.extend (by rw [length]; exact plans.own) updates.2 fun nonempty map =>
      plans.depicts_run planar pictures supplies nonempty ran
    rw [more]
    exact fun slot producer region map last found nonempty filled =>
      shown slot producer region map last found nonempty (takes.get?_of_after filled)
  · rw [more, Scene.ofSteps_snoc]
    exact plans.exhibits_run planar pictures paints.scale paints.gallery ran

/-- What a renderer shows at any time are the steps so far. -/
theorem Reached.paints (planar : sequence.Planar) (reached : Reached sequence memoryLimit renderer) :
    renderer.Paints sequence := by
  refine reached.keeps (Paints · sequence) planar.wellFormed (paints_start sequence memoryLimit)
    fun sound paints moves => ?_
  rcases moves with ⟨table, gallery, cursor⟩ | ⟨schedule, step, facts, table, takes⟩
  -- no step of the sequence was taken
  · obtain ⟨scale, pictures, exhibits⟩ := paints
    rw [← table] at scale pictures
    rw [← cursor] at pictures exhibits
    exact ⟨scale, pictures, gallery ▸ exhibits⟩
  · exact paints.takes planar sound takes

/-! ## Whole runs -/

/-- A step that goes well finds the end of the sequence or carries out a step of it. -/
theorem step_eq_ok {progress : Progress} (stepped : step renderer = .ok progress after) :
    (renderer.sequence.size ≤ renderer.cursor ∧ after = { renderer with status := .finished }) ∨
      (renderer.cursor < renderer.sequence.size ∧
        ∃ facts table gallery, after = renderer.advanced facts table gallery) := by
  have outcome := stepsTo_step renderer
  rw [stepped] at outcome
  cases outcome with
  | finished behind => exact .inl ⟨behind, rfl⟩
  | carriedOut _ found => exact .inr ⟨(Array.getElem?_eq_some_iff.1 found).1, _, _, _, rfl⟩

/-- A renderer that has memory enough can take a step. -/
theorem exists_step {schedule : Schedule} (planar : sequence.Planar) (steady : sequence.Steady)
    (reached : Reached sequence memoryLimit renderer) (all : renderer.table.AllPlain)
    (ready : renderer.status = .ready) (scheduled : renderer.schedule? = some schedule)
    (enough : ∀ facts ∈ schedule, facts.memory ≤ renderer.memoryLimit) :
    ∃ progress after, step renderer = .ok progress after ∧ after.table.AllPlain := by
  have sound := reached.sound planar.wellFormed
  have size := Schedule.size_of_ofSequence planar.wellFormed.consistent (sound.schedule _ scheduled)
  rw [← sound.works] at size
  have runs {action : Step} {facts : StepFacts}
      (found : renderer.sequence.steps[renderer.cursor]? = some action)
      (foundFacts : schedule[renderer.cursor]? = some facts) : ∃ table gallery,
      action.run facts.bounds renderer.sequence.scale renderer.table renderer.gallery =
        .ok (table, gallery) ∧ table.AllPlain := by
    obtain ⟨extents, _, own, plans, bounds⟩ := sound.exists_plans planar scheduled foundFacts
    rw [sound.works] at found
    cases found.symm.trans plans.step
    have supplies := sound.supplies planar.wellFormed plans.step
    rw [sound.works, planar.scale, bounds]
    exact plans.exists_run planar steady ((reached.paints planar).table extents plans.made) all supplies
      (sound.holds planar.wellFormed plans.step).2 renderer.gallery
  have outcome := stepsTo_step renderer
  generalize step renderer = result at outcome
  cases outcome with
  | refused unprepared =>
    obtain ⟨inside, missing⟩ := unprepared ready schedule scheduled
    rw [Array.getElem?_eq_getElem (size ▸ inside)] at missing
    cases missing
  | finished => exact ⟨_, _, rfl, all⟩
  | exceeded same found foundFacts above =>
    cases scheduled.symm.trans same
    exact absurd above (Nat.not_lt.2 (enough _ (Array.mem_of_getElem? foundFacts)))
  | broken same found foundFacts failed =>
    cases scheduled.symm.trans same
    obtain ⟨table, gallery, ran, -⟩ := runs found foundFacts
    cases failed.symm.trans ran
  | carriedOut same found foundFacts _ ran =>
    cases scheduled.symm.trans same
    obtain ⟨table, gallery, ranToo, plain⟩ := runs found foundFacts
    cases ran.symm.trans ranToo
    exact ⟨_, _, rfl, fun slot map filled => plain slot map (RasterTable.get?_of_foldl_release filled)⟩

/-- A run of a renderer that is ready begins with a step. -/
theorem runFor_succ (ready : renderer.status = .ready) (steps : Nat) :
    runFor (steps + 1) renderer = match step renderer with
      | .ok _ between => runFor steps between
      | .error failure between => .error failure between := by
  rw [runFor, get_bind, if_pos ready]
  change EStateM.bind (EStateM.map (fun _ => PUnit.unit) step) (fun _ => runFor steps) renderer = _
  unfold EStateM.bind EStateM.map
  cases step renderer <;> rfl

theorem runFor_of_finished (finished : renderer.status = .finished) (steps : Nat) :
    runFor steps renderer = .ok () renderer := by
  cases steps with
  | zero => rfl
  | succ steps =>
    rw [runFor, get_bind, if_neg (by rw [finished]; decide)]
    rfl

/-- A run that has enough steps carries out the whole sequence. -/
theorem reached_of_runFor {steps : Nat} (reached : Reached sequence memoryLimit renderer)
    (ready : renderer.status = .ready) (enough : renderer.sequence.size - renderer.cursor < steps)
    (ran : runFor steps renderer = .ok () after) :
    Reached sequence memoryLimit after ∧ renderer.sequence.size ≤ after.cursor := by
  -- on the number of steps allowed, which stays above the number of steps left
  induction steps generalizing renderer with
  | zero => omega
  | succ steps ih =>
    rw [runFor_succ ready] at ran
    cases stepped : step renderer with
    | error failure between =>
      rw [stepped] at ran
      cases ran
    | ok progress between =>
      rw [stepped] at ran
      have rest : runFor steps between = .ok () after := ran
      have next := reached.step stepped
      have done (finished : between.status = .finished) : between = after := by
        rw [runFor_of_finished finished] at rest
        cases rest
        rfl
      rcases step_eq_ok stepped with ⟨finished, rfl⟩ | ⟨inside, facts, table, gallery, rfl⟩
      · exact done rfl ▸ ⟨next, finished⟩
      · by_cases last : renderer.sequence.size ≤ renderer.cursor + 1
        · exact done (if_pos last) ▸ ⟨next, last⟩
        · have fewer : renderer.sequence.size - (renderer.cursor + 1) < steps := by omega
          exact @ih (renderer.advanced facts table gallery) next (if_neg last) fewer rest

theorem run_start_eq (sequence : Sequence) (memoryLimit : Nat) :
    run (start sequence memoryLimit) = match plan (start sequence memoryLimit) with
      | .ok _ planned => runFor (planned.sequence.size - planned.cursor + 1) planned
      | .error failure after => .error failure after := by
  change EStateM.bind plan _ (start sequence memoryLimit) = _
  unfold EStateM.bind
  cases plan (start sequence memoryLimit) <;> rfl

/-- A run ends behind the last step. -/
theorem reached_of_run (ran : run (start sequence memoryLimit) = .ok () after) :
    Reached sequence memoryLimit after ∧ sequence.size ≤ after.cursor := by
  rw [run_start_eq] at ran
  cases planning : plan (start sequence memoryLimit) with
  | error failure planned =>
    rw [planning] at ran
    cases ran
  | ok _ planned =>
    rw [planning] at ran
    have reached := Reached.start.plan planning
    obtain ⟨schedule, -, rfl⟩ := plan_eq_ok planning
    exact reached_of_runFor reached rfl (Nat.lt_succ_self _) ran

theorem exists_runFor {schedule : Schedule} (planar : sequence.Planar) (steady : sequence.Steady)
    (steps : Nat) (reached : Reached sequence memoryLimit renderer) (all : renderer.table.AllPlain)
    (working : renderer.status ≠ .faulted) (scheduled : renderer.schedule? = some schedule)
    (enough : ∀ facts ∈ schedule, facts.memory ≤ renderer.memoryLimit) :
    ∃ after, runFor steps renderer = .ok () after := by
  induction steps generalizing renderer with
  | zero => exact ⟨renderer, rfl⟩
  | succ steps ih =>
    cases status : renderer.status with
    | faulted => exact absurd status working
    | finished => exact ⟨renderer, runFor_of_finished status _⟩
    | ready =>
      obtain ⟨progress, between, stepped, all⟩ :=
        exists_step planar steady reached all status scheduled enough
      rw [runFor_succ status, stepped]
      have next := reached.step stepped
      rcases step_eq_ok stepped with ⟨-, rfl⟩ | ⟨-, facts, table, gallery, rfl⟩
      · exact ih next all (by simp) scheduled enough
      · refine ih next all ?_ scheduled enough
        unfold advanced
        dsimp only
        split <;> decide

/-- Rendering shows what the steps mean on the whole plane.

* Once a run of a planar sequence has gone well, the maps it leaves are the views of the scene that
  the steps lead to: under each name the last rectangle that was yielded, with the height of the
  relief at every point of it, and no map under any other name.
* A run goes well if the plan can be made and memory suffices for all steps, limits of heights are in
  order and no map is moved that nobody needs. -/
theorem run_shows_scene (planar : sequence.Planar) (memoryLimit : Nat) :
    (∀ after, run (start sequence memoryLimit) = .ok () after →
      after.gallery.Exhibits (Scene.ofSteps sequence.steps.toList)) ∧
    (∀ schedule, Schedule.ofSequence sequence (.ofSteps sequence.steps) = .ok schedule →
      (∀ facts ∈ schedule, facts.memory ≤ memoryLimit) → sequence.Steady →
        ∃ after, run (start sequence memoryLimit) = .ok () after) := by
  constructor
  · intro after ran
    obtain ⟨reached, finished⟩ := reached_of_run ran
    have whole : sequence.steps.toList.take after.cursor = sequence.steps.toList :=
      List.take_of_length_le (by rwa [Array.length_toList])
    exact whole ▸ (reached.paints planar).gallery
  · intro schedule made enough steady
    have planned : plan (start sequence memoryLimit) =
        .ok () { start sequence memoryLimit with schedule? := some schedule } := by
      unfold plan
      rw [get_bind]
      change (check (Schedule.ofSequence sequence (.ofSteps sequence.steps)) >>= _) _ = _
      rw [made]
      rfl
    have all : (start sequence memoryLimit).table.AllPlain := by
      intro slot map filled
      change (RasterTable.ofSize _).get? slot = _ at filled
      rw [RasterTable.get?_ofSize] at filled
      cases filled
    rw [run_start_eq, planned]
    exact exists_runFor planar steady _ (Reached.start.plan planned) all nofun rfl enough

/-- A hill of one point, drawn over its own foothills. -/
def hill : Sequence where
  steps := #[⟨⟨1, 1⟩, .makeMap (.flat 8), [], 0⟩,
    ⟨⟨2, 1⟩, .editMap (.fillRectangle ⟨⟨0, 0⟩, ⟨1, 1⟩⟩ 26), [], 0⟩,
    ⟨⟨3, 1⟩, .makeMap .clone, [0], 1⟩,
    ⟨⟨4, 1⟩, .editMap (.blur 1), [], 1⟩,
    ⟨⟨5, 1⟩, .editMap .addMap, [0], 1⟩,
    ⟨⟨6, 1⟩, .yield "hill" ⟨⟨0, 0⟩, ⟨2, 1⟩⟩, [], 1⟩]
  scale := 1.0
  limit := 6
  slotCount := 2

theorem hill_extents : Extents.ofSteps hill.steps (.ofSteps hill.steps) =
    .ok #[.rectangle ⟨⟨-1, -1⟩, ⟨4, 3⟩⟩, .rectangle ⟨⟨-1, -1⟩, ⟨4, 3⟩⟩, .rectangle ⟨⟨-1, -1⟩, ⟨4, 3⟩⟩,
      .rectangle ⟨⟨0, 0⟩, ⟨2, 1⟩⟩, .rectangle ⟨⟨0, 0⟩, ⟨2, 1⟩⟩, .rectangle .empty] := by
  decide +kernel

theorem hill_planar : hill.Planar where
  wellFormed := by
    refine ⟨Consistent.snoc (.snoc (.snoc (.snoc (.snoc (.snoc consistent_nil ?_) ?_) ?_) ?_) ?_) ?_, ?_⟩
    all_goals decide
  scale := rfl
  planar := by decide
  figures := by
    simp only [hill, List.mem_toArray, List.mem_cons, List.not_mem_nil, or_false, forall_eq_or_imp,
      forall_eq, Action.Figures, MapEdit.Figures]
    decide
  bounds extents made index own found := by
    cases made.symm.trans hill_extents
    have member := Array.mem_of_getElem? found
    simp only [List.mem_toArray, List.mem_cons, Bounds.rectangle.injEq, List.not_mem_nil, or_false,
      or_self_left] at member
    rcases member with rfl | rfl | rfl
    all_goals decide

theorem hill_schedule : Schedule.ofSequence hill (.ofSteps hill.steps) =
    .ok #[⟨.rectangle ⟨⟨-1, -1⟩, ⟨4, 3⟩⟩, 88, []⟩, ⟨.rectangle ⟨⟨-1, -1⟩, ⟨4, 3⟩⟩, 88, []⟩,
      ⟨.rectangle ⟨⟨-1, -1⟩, ⟨4, 3⟩⟩, 176, []⟩, ⟨.rectangle ⟨⟨0, 0⟩, ⟨2, 1⟩⟩, 264, []⟩,
      ⟨.rectangle ⟨⟨0, 0⟩, ⟨2, 1⟩⟩, 176, [0]⟩, ⟨.rectangle .empty, 156, [1]⟩] := by
  decide +kernel

theorem hill_steady : hill.Steady where
  ordered := by simp [hill]
  needed extents index step own plans offset moves := by
    have member := Array.mem_of_getElem? plans.step
    simp only [hill, List.mem_toArray, List.mem_cons, List.not_mem_nil, or_false] at member
    rcases member with rfl | rfl | rfl | rfl | rfl | rfl <;> cases moves

/-- The summit stands on the mean of its surroundings. -/
theorem hill_shown : ∃ after map, run (start hill 264) = .ok () after ∧
    after.gallery.get? "hill" = some map ∧ map.raster = ⟨⟨0, 0⟩, ⟨2, 1⟩⟩ ∧
    map.heightAt 0 0 = 36 ∧ map.heightAt 1 0 = 18 := by
  obtain ⟨shows', ends⟩ := run_shows_scene hill_planar 264
  obtain ⟨after, ran⟩ := ends _ hill_schedule (by decide) hill_steady
  have related := shows' after ran "hill"
  have hung : (Scene.ofSteps hill.steps.toList).views "hill" =
      some ⟨⟨⟨0, 0⟩, ⟨2, 1⟩⟩, (Scene.ofSteps hill.steps.toList).reliefs 1⟩ := rfl
  rw [hung] at related
  cases found : after.gallery.get? "hill" with
  | none =>
    rw [found] at related
    cases related
  | some map =>
    rw [found] at related
    cases related with
    | some view =>
      refine ⟨after, map, ran, found, view.raster, (view.heights 0 0 ?_).trans ?_,
        (view.heights 1 0 ?_).trans ?_⟩
      all_goals decide +kernel

end Renderer

end Terrain
