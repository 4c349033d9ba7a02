import Terrain.Proofs.Render.Pictures

/-!
# Rendering comes to an end

Nothing stops a run of a planar sequence that has memory enough, as long as limits of heights are in
order and no map is moved that nobody needs: such a map could be moved, step after step, to the ends of
the coordinates.

* `RasterTable.AllPlain` — all maps are plain, those nobody needs as well.
* `Sequence.Plans.exists_run` — every step of such a sequence can be carried out.
-/

namespace Terrain

def RasterTable.AllPlain (table : RasterTable) : Prop :=
  ∀ slot map, table.get? slot = some (.map map) → map.IsPlain ∧ map.raster.size.Small

/-- Limits of heights are in order, and maps are moved only if something is needed of them. -/
structure Sequence.Steady (sequence : Sequence) : Prop where
  ordered : ∀ step ∈ sequence.steps, ∀ low high, step.action = .editMap (.clampHeights low high) →
    low ≤ high
  needed : ∀ extents index step own, sequence.Plans extents index step own →
    ∀ offset, step.action = .editMap (.move offset) → own.isEmpty = false

namespace RasterTable

variable {table : RasterTable} {slot : Slot} {map : HeightMap} {slots : List Slot}

theorem AllPlain.set (all : table.AllPlain) (plain : map.IsPlain) (small : map.raster.size.Small) :
    (table.set slot (.map map)).AllPlain := by
  intro other found filled
  rw [get?_set] at filled
  split at filled
  · cases filled
    exact ⟨plain, small⟩
  · exact all other found filled

theorem Holds.exists_map (holds : table.Holds slot .map) : ∃ map, table.get? slot = some (.map map) := by
  obtain ⟨raster, filled, kind⟩ := holds
  cases raster with
  | map map => exact ⟨map, filled⟩
  | profile profile => cases kind

theorem AllPlain.holdsPlain {count : Nat} (all : table.AllPlain)
    (supplies : (ArgumentReader.ofSlots slots table.get).Supplies .map count) :
    (ArgumentReader.ofSlots slots table.get).HoldsPlain count := by
  refine supplies.holdsPlain fun index map read => ?_
  obtain ⟨slot, -, filled⟩ := ArgumentReader.exists_of_map_ofSlots read
  exact (all slot map filled).1

end RasterTable

namespace Sequence

variable {sequence : Sequence} {extents : Extents} {index : Nat} {step : Step} {own : Rectangle}
  {table : RasterTable}

/-- A step can be carried out, and all maps are plain after it. -/
theorem Plans.exists_run (planar : sequence.Planar) (steady : sequence.Steady)
    (plans : sequence.Plans extents index step own)
    (pictures : table.Pictures extents (sequence.steps.toList.take index)) (all : table.AllPlain)
    (supplies : (step.inputs table).Supplies step.action.argumentKind step.action.arity)
    (changes : step.isMaker = false → table.Holds step.target step.action.kind) (gallery : Gallery) :
    ∃ after hung, step.run (.rectangle own) 1.0 table gallery = .ok (after, hung) ∧ after.AllPlain := by
  have within := plans.within planar
  have isPlanar := plans.isPlanar planar
  have figures := plans.figures planar
  rw [Action.argumentKind_of_isPlanar isPlanar] at supplies
  rw [Action.kind_of_isPlanar isPlanar] at changes
  have plainArguments : (step.inputs table).HoldsPlain step.action.arity := all.holdsPlain supplies
  cases action : step.action with
  | makeMap maker =>
    rw [action] at isPlanar plainArguments
    -- that there is a result does not depend on what the maps show
    obtain ⟨map, made, plain, size, -⟩ :=
      @MapMaker.renders_run _ (fun _ _ _ => 0) _ _ isPlanar within plainArguments
    refine ⟨table.set step.target (.map map), gallery, ?_, all.set plain ?_⟩
    · have created : step.create (.rectangle own) 1.0 table = .ok (.map map) := by
        rw [Step.create, action]
        change (do return Raster.map (← maker.run (step.inputs table) own 1.0)) = _
        rw [made]
        rfl
      rw [Step.run, Step.isMaker, action, Action.isMaker, if_pos rfl, created]
      rfl
    · exact size ▸ ⟨within.width, within.height⟩
  | editMap edit =>
    rw [action] at isPlanar figures plainArguments
    have edits : step.isMaker = false := by rw [Step.isMaker, action, Action.isMaker]
    obtain ⟨map, filled⟩ := (changes edits).exists_map
    obtain ⟨plain, small⟩ := all _ _ filled
    have ordered (low high : Height) (clamps : edit = .clampHeights low high) :
        low ≤ high ∨ map.samples.isEmpty = true :=
      .inl (steady.ordered step (Array.mem_of_getElem? plans.step) low high (clamps ▸ action))
    have modest (offset : Point) (moves : edit = .move offset) :
        (map.raster.translated offset).Within 1073741824 := by
      subst moves
      exact plans.modest_moved planar pictures action (steady.needed _ _ _ _ plans _ action) filled
    obtain ⟨edited, made, plainEdited, size, -⟩ := @MapEdit.renders_run _ (fun _ _ _ => 0) (fun _ _ => 0)
      _ _ _ isPlanar figures within plain plainArguments ordered modest
    refine ⟨table.set step.target (.map edited), gallery, ?_, all.set plainEdited (size ▸ small)⟩
    have draws : step.action.isYield = false := by rw [action]; rfl
    have changed : step.change (.rectangle own) (step.inputs table) (.map map) = .ok (.map edited) := by
      simp only [Step.change, action]
      rw [made]
      rfl
    rw [Step.run_of_edits edits draws, RasterTable.get_eq_ok.2 filled]
    change (do return (table.set step.target
      (← step.change (.rectangle own) (step.inputs table) (.map map)), gallery)) = _
    rw [changed]
    rfl
  | yield name rectangle =>
    rw [action] at figures
    have edits : step.isMaker = false := by rw [Step.isMaker, action, Action.isMaker]
    obtain ⟨map, filled⟩ := (changes edits).exists_map
    obtain ⟨copy, cut, -⟩ :=
      HeightMap.draws_cutout (all _ _ filled).1 (Rectangle.Within.wide figures)
    refine ⟨table, gallery.insert name copy, ?_, all⟩
    rw [Step.run, edits, if_neg Bool.false_ne_true, action]
    dsimp only
    rw [RasterTable.mapAt_eq_ok.2 filled]
    change (do return (table, gallery.insert name (← map.cutout rectangle))) = _
    rw [cut]
    rfl
  | makeProfile maker => rw [action] at isPlanar; cases isPlanar
  | editProfile edit => rw [action] at isPlanar; cases isPlanar

end Sequence

end Terrain
