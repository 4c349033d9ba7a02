import Terrain.Proofs.Raster.Heights
import Terrain.Proofs.Render.Recorded

/-!
# Rendered samples are heights

A step computes samples from those of the rasters it reads and from the heights it carries itself. If
all of these are in the range, so is what it leaves in the table and what it hangs in the gallery, and
so is everything a rendering ever shows.

* `Action.heights` — the heights an action carries.
* `Raster.InRange`, `RasterTable.InRange`, `Gallery.InRange` — all samples are heights.
* `Step.inRange_run` — a step keeps them.
* `Renderer.Reached.inRange` — so does every way of rendering.
-/

namespace Terrain

/-! ## Heights of steps -/

def MapMaker.heights : MapMaker → List Height
  | flat height => [height]
  | noise table _ => table.layers.map (·.2)
  | gradient _ _ low high | radialGradient _ _ low high => [low, high]
  | projection .. | clone => []

def MapEdit.heights : MapEdit → List Height
  | add height | addMasked height | crop _ height | drawLine _ _ height | fillRectangle _ height
  | noiseLayer _ height .. | resize _ height => [height]
  | clampHeights low high | transformHeights _ low high => [low, high]
  | cropHeights low high replacement => [low, high, replacement]
  | abs | addMap | addMapMasked | blur _ | combine | convexity _ | distanceMap _ | distort _
  | intersect | invert | move _ | multiply _ | multiplyMap | pattern _ | rescale .. | shift ..
  | transform _ | unify => []

def ProfileMaker.heights : ProfileMaker → List Height
  | flat height => [height]
  | gradient _ _ low high => [low, high]
  | ofKeys keys => keys.map (·.2)
  | noise table _ => table.layers.map (·.2)
  | slice .. | clone => []

def ProfileEdit.heights : ProfileEdit → List Height
  | add height | addMasked height | crop _ height | fillInterval _ height | noiseLayer _ height _
  | resize _ height => [height]
  | clampHeights low high => [low, high]
  | cropHeights low high replacement => [low, high, replacement]
  | abs | addProfile | addProfileMasked | blur _ | combine | flip | intersect | invert | move _
  | multiply _ | multiplyProfile | pattern _ | rescale _ | unify => []

def Action.heights : Action → List Height
  | makeMap maker => maker.heights
  | editMap edit => edit.heights
  | yield .. => []
  | makeProfile maker => maker.heights
  | editProfile edit => edit.heights

def Action.InRange (action : Action) : Prop := ∀ height ∈ action.heights, IsHeight height

/-! ## Rasters and galleries -/

def Raster.InRange : Raster → Prop
  | .map raster => raster.InRange
  | .profile raster => raster.InRange

def RasterTable.InRange (table : RasterTable) : Prop :=
  ∀ slot raster, table.get? slot = some raster → raster.InRange

def Gallery.InRange (gallery : Gallery) : Prop :=
  ∀ name map, gallery.get? name = some map → map.InRange

theorem Gallery.inRange_empty : empty.InRange := by
  intro name map found
  unfold get? empty at found
  rw [Std.TreeMap.getElem?_emptyc] at found
  cases found

theorem Gallery.InRange.insert {gallery : Gallery} {map : HeightMap} (all : gallery.InRange)
    (name : String) (inRange : map.InRange) : (gallery.insert name map).InRange := by
  intro other found found'
  unfold get? Gallery.insert at found'
  rw [Std.TreeMap.getElem?_insert] at found'
  split at found'
  · cases found'
    exact inRange
  · exact all other found found'

namespace RasterTable

variable {table : RasterTable}

theorem inRange_ofSize (size : Nat) : (ofSize size).InRange := by
  intro slot raster found
  rw [get?_ofSize] at found
  cases found

theorem InRange.set {raster : Raster} (all : table.InRange) (slot : Slot) (inRange : raster.InRange) :
    (table.set slot raster).InRange := by
  intro other found found'
  rw [get?_set] at found'
  split at found'
  · cases found'
    exact inRange
  · exact all other found found'

theorem InRange.foldl_release (all : table.InRange) (slots : List Slot) :
    (slots.foldl release table).InRange := by
  induction slots generalizing table with
  | nil => exact all
  | cons slot slots ih =>
    refine ih fun other raster found => ?_
    rw [get?_release] at found
    split at found
    · cases found
    · exact all other raster found

theorem InRange.inputs (all : table.InRange) (step : Step) : (step.inputs table).All Raster.InRange :=
  ArgumentReader.all_ofSlots all

end RasterTable

/-! ## Steps -/

section Weights

variable {height addend mask other : Height}

theorem isHeight_addWeighted (isHeight : IsHeight height) (isAddend : IsHeight addend)
    (isMask : IsHeight mask) : IsHeight (addHeights height (weighted addend (maskFactor mask))) :=
  isHeight_addHeights isHeight (Number.isHeight_weighted_maskFactor isAddend isMask)

theorem isHeight_blend (isHeight : IsHeight height) (isOther : IsHeight other) (isMask : IsHeight mask) :
    IsHeight (addHeights (weighted height (maskFactor mask)) (weighted other (1.0 - maskFactor mask))) :=
  isHeight_addHeights (Number.isHeight_weighted_maskFactor isHeight isMask)
    (Number.isHeight_weighted_one_sub isOther isMask)

end Weights

theorem HeightMap.InRange.cutout {map : HeightMap} (inRange : map.InRange) (rectangle : Rectangle) :
    Fits (map.cutout rectangle) InRange :=
  (inRange_filled _ _ isHeight_zero _).copyOverlap inRange

variable {arguments : ArgumentReader}

theorem MapMaker.inRange_run {maker : MapMaker} (heights : ∀ height ∈ maker.heights, IsHeight height)
    (all : arguments.All Raster.InRange) (own : Rectangle) (scale : Scale) :
    Gives (maker.run arguments own scale) HeightMap.InRange := by
  have blank : (HeightMap.create own 0 scale).InRange := HeightMap.inRange_filled _ _ isHeight_zero _
  cases maker with
  | flat height =>
    have isHeight : IsHeight height := by simpa [MapMaker.heights] using heights
    exact .pure (HeightMap.inRange_filled _ _ isHeight _)
  | noise layers seed =>
    exact (blank.noise (fun layer member => heights _ (List.mem_map_of_mem member)) seed).gives
  | gradient source destination low high =>
    obtain ⟨isLow, isHigh⟩ : IsHeight low ∧ IsHeight high := by simpa [MapMaker.heights] using heights
    exact .pure (blank.gradient _ _ isLow isHigh)
  | radialGradient center radius low high =>
    obtain ⟨isLow, isHigh⟩ : IsHeight low ∧ IsHeight high := by simpa [MapMaker.heights] using heights
    exact .pure (blank.radialGradient _ _ isLow isHigh)
  | projection direction =>
    exact (all.profile 0).bind fun _ source => (blank.projection source _).gives
  | clone =>
    exact (all.map 0).bind fun _ (inRange : HeightMap.InRange _) => (inRange.cutout own).gives

theorem MapEdit.inRange_run {edit : MapEdit} (heights : ∀ height ∈ edit.heights, IsHeight height)
    (all : arguments.All Raster.InRange) (own : Bounds) {map : HeightMap} (inRange : map.InRange) :
    Gives (edit.run arguments own map) HeightMap.InRange := by
  -- heights come from the map, from other maps of the table, or from the edit itself
  cases edit with
  | abs => exact .pure (inRange.mapSamples fun _ => isHeight_absHeight)
  | add height =>
    have isHeight : IsHeight height := by simpa [MapEdit.heights] using heights
    exact .pure (inRange.mapSamples fun _ isSample => isHeight_addHeights isSample isHeight)
  | addMap =>
    refine (all.map 0).bind fun _ other => (inRange.zipWith other ?_).gives
    exact fun _ isAddend _ isHeight => isHeight_addHeights isHeight isAddend
  | addMasked height =>
    have isAddend : IsHeight height := by simpa [MapEdit.heights] using heights
    refine (all.map 0).bind fun _ other => (inRange.zipWith other ?_).gives
    exact fun _ isMask _ isHeight => isHeight_addWeighted isHeight isAddend isMask
  | addMapMasked =>
    refine (all.map 0).bind fun _ first => (all.map 1).bind fun _ second => ?_
    refine (inRange.zipWith3 first second ?_).gives
    exact fun _ _ isAddend isMask _ isHeight => isHeight_addWeighted isHeight isAddend isMask
  | blur radius => exact .pure (inRange.blur radius)
  | clampHeights low high =>
    obtain ⟨isLow, isHigh⟩ : IsHeight low ∧ IsHeight high := by simpa [MapEdit.heights] using heights
    exact (inRange.clampHeights isLow isHigh).gives
  | combine =>
    refine (all.map 0).bind fun _ first => (all.map 1).bind fun _ second => ?_
    refine (inRange.zipWith3 first second ?_).gives
    exact fun _ _ isOther isMask _ isHeight => isHeight_blend isHeight isOther isMask
  | convexity radius => exact (inRange.convexityMap radius).gives
  | crop rectangle height =>
    have isHeight : IsHeight height := by simpa [MapEdit.heights] using heights
    exact .pure (inRange.crop _ isHeight)
  | cropHeights low high replacement =>
    have isHeight : IsHeight replacement := heights replacement (by simp [MapEdit.heights])
    exact .pure (inRange.mapSamples fun _ isSample => isHeight_ite isHeight isSample)
  | distanceMap maxDistance => exact .pure (HeightMap.inRange_distanceMap map maxDistance)
  | distort maxDistance =>
    exact .seq fun _ => .seq fun _ => (inRange.distort _ _ _).gives
  | drawLine start stop height =>
    have isHeight : IsHeight height := by simpa [MapEdit.heights] using heights
    exact .pure (inRange.drawLine _ _ isHeight)
  | fillRectangle rectangle height =>
    have isHeight : IsHeight height := by simpa [MapEdit.heights] using heights
    exact (inRange.fillRectangle _ isHeight).gives
  | intersect =>
    refine (all.map 0).bind fun _ other => (inRange.zipWith other ?_).gives
    exact fun _ isOther _ isHeight => isHeight_min isHeight isOther
  | invert => exact .pure (inRange.mapSamples fun _ => isHeight_negHeight)
  | move offset => exact .pure inRange
  | multiply factor =>
    exact .pure (inRange.mapSamples fun _ _ => Number.isHeight_clampHeightFloat _)
  | multiplyMap =>
    refine (all.map 0).bind fun _ other => (inRange.zipWith other ?_).gives
    exact fun _ isMask _ isHeight => Number.isHeight_weighted_maskFactor isHeight isMask
  | noiseLayer waveLength amplitude seed ridged =>
    have isHeight : IsHeight amplitude := by simpa [MapEdit.heights] using heights
    exact (inRange.noiseLayer _ isHeight _ _ _).gives
  | pattern repeated => exact (all.map 0).bind fun _ tile => (inRange.pattern tile _).gives
  | rescale horizontal vertical => exact (inRange.rescale _ _).gives
  | resize rectangle height =>
    have isHeight : IsHeight height := by simpa [MapEdit.heights] using heights
    exact ((HeightMap.inRange_filled _ _ isHeight _).copyOverlap inRange).gives
  | shift maxDistance direction => exact .seq fun _ => (inRange.shift _ _ _).gives
  | transform matrix => exact .seq fun _ => (inRange.transform _ _).gives
  | transformHeights interval low high =>
    exact (all.profile 0).bind fun _ source => (inRange.transformHeights source _ _ _).gives
  | unify =>
    refine (all.map 0).bind fun _ other => (inRange.zipWith other ?_).gives
    exact fun _ isOther _ isHeight => isHeight_max isHeight isOther

theorem ProfileMaker.inRange_run {maker : ProfileMaker}
    (heights : ∀ height ∈ maker.heights, IsHeight height) (all : arguments.All Raster.InRange)
    (own : Interval) (scale : Scale) : Gives (maker.run arguments own scale) HeightProfile.InRange := by
  have blank : (HeightProfile.forLogical own 0 scale).InRange :=
    HeightProfile.inRange_filled _ isHeight_zero _
  cases maker with
  | flat height =>
    have isHeight : IsHeight height := by simpa [ProfileMaker.heights] using heights
    exact .pure (HeightProfile.inRange_filled _ isHeight _)
  | gradient source destination low high =>
    obtain ⟨isLow, isHigh⟩ : IsHeight low ∧ IsHeight high := by
      simpa [ProfileMaker.heights] using heights
    exact .pure (blank.gradient _ _ isLow isHigh _)
  | ofKeys keys => exact .pure (blank.ofKeys fun key member => heights _ (List.mem_map_of_mem member))
  | noise layers seed =>
    exact (blank.noise (fun layer member => heights _ (List.mem_map_of_mem member)) seed).gives
  | slice direction coordinate =>
    exact (all.map 0).bind fun _ source => (blank.slice source _ _).gives
  | clone =>
    refine (all.profile 0).bind fun _ inRange => Fits.gives ?_
    exact (HeightProfile.inRange_filled _ isHeight_zero _).copyOverlap inRange

theorem ProfileEdit.inRange_run {edit : ProfileEdit}
    (heights : ∀ height ∈ edit.heights, IsHeight height) (all : arguments.All Raster.InRange)
    {profile : HeightProfile} (inRange : profile.InRange) :
    Gives (edit.run arguments profile) HeightProfile.InRange := by
  cases edit with
  | abs => exact .pure (inRange.mapSamples fun _ => isHeight_absHeight)
  | add height =>
    have isHeight : IsHeight height := by simpa [ProfileEdit.heights] using heights
    exact .pure (inRange.mapSamples fun _ isSample => isHeight_addHeights isSample isHeight)
  | addProfile =>
    refine (all.profile 0).bind fun _ other => (inRange.zipWith other ?_).gives
    exact fun _ isAddend _ isHeight => isHeight_addHeights isHeight isAddend
  | addMasked height =>
    have isAddend : IsHeight height := by simpa [ProfileEdit.heights] using heights
    refine (all.profile 0).bind fun _ other => (inRange.zipWith other ?_).gives
    exact fun _ isMask _ isHeight => isHeight_addWeighted isHeight isAddend isMask
  | addProfileMasked =>
    refine (all.profile 0).bind fun _ first => (all.profile 1).bind fun _ second => ?_
    refine (inRange.zipWith3 first second ?_).gives
    exact fun _ _ isAddend isMask _ isHeight => isHeight_addWeighted isHeight isAddend isMask
  | blur radius => exact .pure (inRange.blur radius)
  | clampHeights low high =>
    obtain ⟨isLow, isHigh⟩ : IsHeight low ∧ IsHeight high := by
      simpa [ProfileEdit.heights] using heights
    exact (inRange.clampHeights isLow isHigh).gives
  | combine =>
    refine (all.profile 0).bind fun _ first => (all.profile 1).bind fun _ second => ?_
    refine (inRange.zipWith3 first second ?_).gives
    exact fun _ _ isOther isMask _ isHeight => isHeight_blend isHeight isOther isMask
  | crop interval height =>
    have isHeight : IsHeight height := by simpa [ProfileEdit.heights] using heights
    exact (inRange.crop _ isHeight).gives
  | cropHeights low high replacement =>
    have isHeight : IsHeight replacement := heights replacement (by simp [ProfileEdit.heights])
    exact .pure (inRange.mapSamples fun _ isSample => isHeight_ite isHeight isSample)
  | fillInterval interval height =>
    have isHeight : IsHeight height := by simpa [ProfileEdit.heights] using heights
    exact (inRange.fillInterval _ isHeight).gives
  | flip => exact .pure (AllHeights.reverse inRange)
  | intersect =>
    refine (all.profile 0).bind fun _ other => (inRange.zipWith other ?_).gives
    exact fun _ isOther _ isHeight => isHeight_min isHeight isOther
  | invert => exact .pure (inRange.mapSamples fun _ => isHeight_negHeight)
  | move offset => exact .pure inRange
  | multiply factor =>
    exact .pure (inRange.mapSamples fun _ _ => Number.isHeight_clampHeightFloat _)
  | multiplyProfile =>
    refine (all.profile 0).bind fun _ other => (inRange.zipWith other ?_).gives
    exact fun _ isMask _ isHeight => Number.isHeight_weighted_maskFactor isHeight isMask
  | noiseLayer waveLength amplitude seed =>
    have isHeight : IsHeight amplitude := by simpa [ProfileEdit.heights] using heights
    exact (inRange.noiseLayer _ isHeight _ _).gives
  | pattern repeated =>
    exact (all.profile 0).bind fun _ tile => (inRange.pattern tile _).gives
  | rescale factor => exact .pure (inRange.rescale factor)
  | resize interval height =>
    have isHeight : IsHeight height := by simpa [ProfileEdit.heights] using heights
    exact ((HeightProfile.inRange_filled _ isHeight _).copyOverlap inRange).gives
  | unify =>
    refine (all.profile 0).bind fun _ other => (inRange.zipWith other ?_).gives
    exact fun _ isOther _ isHeight => isHeight_max isHeight isOther

/-- A step that carries heights leads from heights to heights. -/
theorem Step.inRange_run {step : Step} {table after : RasterTable} {gallery hung : Gallery}
    {own : Bounds} {scale : Scale} (action : step.action.InRange) (all : table.InRange)
    (shown : gallery.InRange) (ran : step.run own scale table gallery = .ok (after, hung)) :
    after.InRange ∧ hung.InRange := by
  have inputs := all.inputs step
  cases changes_of_run ran with
  | shown does filled cut =>
    have inRange : HeightMap.InRange _ := all _ _ filled
    exact ⟨all, shown.insert _ ((inRange.cutout _).ok cut)⟩
  | madeMap does bounds made =>
    rw [does] at action
    exact ⟨all.set _ (MapMaker.inRange_run action inputs _ _ _ made), shown⟩
  | madeProfile does bounds made =>
    rw [does] at action
    exact ⟨all.set _ (ProfileMaker.inRange_run action inputs _ _ _ made), shown⟩
  | editedMap does filled made =>
    rw [does] at action
    exact ⟨all.set _ (MapEdit.inRange_run action inputs _ (all _ _ filled) _ made), shown⟩
  | editedProfile does filled made =>
    rw [does] at action
    exact ⟨all.set _ (ProfileEdit.inRange_run action inputs (all _ _ filled) _ made), shown⟩

/-! ## Renderings -/

namespace Renderer

def InRange (renderer : Renderer) : Prop := renderer.table.InRange ∧ renderer.gallery.InRange

theorem InRange.moves {sequence : Sequence} {renderer after : Renderer}
    (carried : ∀ step ∈ sequence.steps, step.action.InRange) (sound : renderer.Sound sequence)
    (inRange : renderer.InRange) (moves : renderer.Moves after) : after.InRange := by
  rcases moves with ⟨table, gallery, -⟩ | ⟨schedule, action, facts, table, takes⟩
  · exact ⟨table ▸ inRange.1, gallery ▸ inRange.2⟩
  · have found := takes.found
    rw [sound.works] at found
    have actionInRange := carried action (Array.mem_of_getElem? found)
    have kept := Step.inRange_run actionInRange inRange.1 inRange.2 takes.ran
    refine ⟨?_, kept.2⟩
    rw [takes.released]
    exact kept.1.foldl_release facts.releases

/-- Whatever steps of a sequence have been carried out, all samples are heights. -/
theorem Reached.inRange {sequence : Sequence} {memoryLimit : Nat} {renderer : Renderer}
    (wellFormed : sequence.WellFormed) (carried : ∀ step ∈ sequence.steps, step.action.InRange)
    (reached : Reached sequence memoryLimit renderer) : renderer.InRange := by
  have first : (Renderer.start sequence memoryLimit).InRange :=
    ⟨RasterTable.inRange_ofSize _, Gallery.inRange_empty⟩
  exact reached.keeps InRange wellFormed first fun sound inRange moves =>
    InRange.moves carried sound inRange moves

end Renderer

end Terrain
