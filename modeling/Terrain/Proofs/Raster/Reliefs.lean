import Terrain.Proofs.Plan.Coverage
import Terrain.Proofs.Raster.Blur
import Terrain.Proofs.Render.Slots

/-!
# Edits of maps and of reliefs

An edit of a plain map ends with a plain map of the same size. Where the map shows a relief on all that
the edit needs of it, and so do the arguments, the result shows the edited relief.

* `HeightMap.Shows` — a map has the heights of a relief in a rectangle.
* `Renders` — a computation ends with a plain map that shows a relief under a condition.
* `MapMaker.renders_run`, `MapEdit.renders_run` — makers and edits against their meaning.
-/

namespace Terrain

namespace Rectangle

variable {own rectangle : Rectangle} {x y : Int}

theorem exists_covers (nonempty : rectangle.isEmpty = false) :
    rectangle.Covers rectangle.position.x rectangle.position.y := by
  simp only [isEmpty, Size.area, beq_eq_false_iff_ne, ne_eq, Nat.mul_eq_zero, not_or] at nonempty
  unfold Covers Between
  omega

theorem Covers.isEmpty_eq_false (covered : rectangle.Covers x y) : rectangle.isEmpty = false := by
  rw [← Bool.not_eq_true, isEmpty_iff]
  exact fun none => none x y covered

theorem Within.wide (within : rectangle.Within figureLimit) : rectangle.Within 1073741824 :=
  within.mono (by decide)

theorem Within.near (within : rectangle.Within figureLimit) : rectangle.Near := by
  intro x y covered
  obtain ⟨left, top, width, height⟩ := within
  unfold Covers Between at covered
  unfold Below figureLimit at *
  omega

/-- The neighbourhood of a point. -/
theorem covers_expand {radius : Nat} (within : own.Within figureLimit) (small : Below radius figureLimit)
    (covered : own.Covers x y) {x' y' : Int} (left : x - radius ≤ x') (right : x' ≤ x + radius)
    (above : y - radius ≤ y') (below : y' ≤ y + radius) : (own.expand radius).Covers x' y' := by
  obtain ⟨leftOwn, topOwn, width, height⟩ := within
  unfold Covers Between at covered
  unfold Below figureLimit at *
  simp only [Covers, Between, expand, ofIntervals, Interval.expand, Interval.ofBounds, Interval.stop,
    horizontal, vertical, narrowCoordinate_eq_max, narrowExtent_eq_min]
  dsimp only [Coordinate] at *
  omega

/-- A point of a rectangle, moved back. -/
theorem covers_translated_neg {offset : Point} (within : own.Within figureLimit)
    (smallX : Below offset.x figureLimit) (smallY : Below offset.y figureLimit) :
    (own.translated (-offset)).Covers x y ↔ own.Covers (x + offset.x) (y + offset.y) := by
  obtain ⟨left, top, -, -⟩ := within
  unfold Below figureLimit at *
  have negated : -offset = ⟨-offset.x, -offset.y⟩ := by
    change (⟨narrowCoordinate _, narrowCoordinate _⟩ : Point) = _
    rw [narrowCoordinate_eq, narrowCoordinate_eq]
    all_goals
      rw [isCoordinate_iff]
      dsimp only [Coordinate] at *
      omega
  rw [negated, covers_translated]
  · dsimp only
    rw [Int.sub_neg, Int.sub_neg]
  all_goals
    rw [isCoordinate_iff]
    dsimp only [Coordinate] at *
    omega

/-- A rectangle that lies in another is their intersection. -/
theorem intersect_eq_left (within : own.Within figureLimit) (nonempty : own.isEmpty = false)
    (inside : ∀ x y, own.Covers x y → rectangle.Covers x y) : own.intersect rectangle = own := by
  have sides : (0 : Int) < own.size.width ∧ (0 : Int) < own.size.height := by
    simp only [isEmpty, Size.area, beq_eq_false_iff_ne, ne_eq, Nat.mul_eq_zero, not_or] at nonempty
    omega
  have first := inside own.position.x own.position.y (exists_covers nonempty)
  have last := inside (own.position.x + own.size.width - 1) (own.position.y + own.size.height - 1) (by
    unfold Covers Between
    dsimp only [Coordinate]
    omega)
  obtain ⟨-, -, width, height⟩ := within
  unfold Below figureLimit at *
  unfold Covers Between at first last
  obtain ⟨⟨left, top⟩, ⟨across, down⟩⟩ := own
  simp only [intersect, ofIntervals, Interval.intersect, Interval.stop, horizontal, vertical,
    narrowExtent_eq_min, Rectangle.mk.injEq, Point.mk.injEq, Size.mk.injEq] at *
  dsimp only [Coordinate, Extent] at *
  omega

end Rectangle

def Size.Small (size : Size) : Prop := Below size.width figureLimit ∧ Below size.height figureLimit

/-! ## Maps that show reliefs -/

def HeightMap.Shows (map : HeightMap) (region : Rectangle) (relief : Relief) : Prop :=
  ∀ x y, region.Covers x y → map.raster.Covers x y ∧ map.heightAt x y = relief x y

/-- A computation ends with a plain map of a size, and on a condition it shows a relief. -/
def Renders (result : Except Breach HeightMap) (size : Size) (condition : Prop) (region : Rectangle)
    (relief : Relief) : Prop :=
  ∃ map, result = .ok map ∧ map.IsPlain ∧ map.raster.size = size ∧ (condition → map.Shows region relief)

theorem Draws.renders {result : Except Breach HeightMap} {raster region : Rectangle}
    {heights relief : Relief} {condition : Prop} (draws : Draws result raster heights)
    (shown : condition → ∀ x y, region.Covers x y → raster.Covers x y ∧ heights x y = relief x y) :
    Renders result raster.size condition region relief := by
  obtain ⟨map, ended, plain, placed, drawn⟩ := draws
  refine ⟨map, ended, plain, by rw [placed], fun holds x y inside => ?_⟩
  obtain ⟨covered, same⟩ := shown holds x y inside
  rw [placed]
  exact ⟨covered, (drawn x y covered).trans same⟩

theorem Renders.imp {result : Except Breach HeightMap} {size : Size} {condition condition' : Prop}
    {region : Rectangle} {relief : Relief} (renders : Renders result size condition region relief)
    (implies : condition' → condition) : Renders result size condition' region relief := by
  obtain ⟨map, ended, plain, same, shown⟩ := renders
  exact ⟨map, ended, plain, same, shown ∘ implies⟩

namespace ArgumentReader

variable {reader : ArgumentReader} {table : RasterTable} {slots : List Slot} {region : Rectangle}

def HoldsPlain (reader : ArgumentReader) (count : Nat) : Prop :=
  ∀ index < count, ∃ map, reader.map index = .ok map ∧ map.IsPlain

def AllShow (reader : ArgumentReader) (region : Rectangle) (given : Nat → Relief) : Prop :=
  ∀ index map, reader.map index = .ok map → map.Shows region (given index)

theorem Supplies.holdsPlain {count : Nat} (supplies : reader.Supplies .map count)
    (plain : ∀ index map, reader.map index = .ok map → map.IsPlain) : reader.HoldsPlain count := by
  intro index less
  obtain ⟨slot, raster, found, kind⟩ := supplies index less
  cases raster with
  | map map =>
    have read := map_eq_ok.2 ⟨slot, found⟩
    exact ⟨map, read, plain index map read⟩
  | profile profile => cases kind

theorem exists_of_map_ofSlots {index : Nat} {map : HeightMap}
    (read : (ofSlots slots table.get).map index = .ok map) :
    ∃ slot, slots[index]? = some slot ∧ table.get? slot = some (.map map) := by
  obtain ⟨slot, found⟩ := map_eq_ok.1 read
  exact ⟨slot, ofSlots_eq_ok.1 found⟩

theorem allShow_ofSlots {reliefs : Slot → Relief} (shown : ∀ slot ∈ slots, ∀ map,
      table.get? slot = some (.map map) → map.Shows region (reliefs slot)) :
    (ofSlots slots table.get).AllShow region (given reliefs slots) := by
  intro index map read
  obtain ⟨slot, named, filled⟩ := exists_of_map_ofSlots read
  rw [given, named]
  exact shown slot (List.mem_of_getElem? named) map filled

end ArgumentReader

variable {arguments : ArgumentReader} {given : Nat → Relief} {relief : Relief} {own : Rectangle}
  {map : HeightMap}

/-- A planar maker makes its relief. -/
theorem MapMaker.renders_run {maker : MapMaker} (planar : maker.isPlanar = true)
    (within : own.Within figureLimit) (holds : arguments.HoldsPlain (Action.makeMap maker).arity) :
    Renders (maker.run arguments own 1.0) own.size (arguments.AllShow own given) own
      (maker.relief given) := by
  cases maker with
  | flat height =>
    exact (HeightMap.draws_create within.wide height).renders fun _ x y covered => ⟨covered, rfl⟩
  | clone =>
    obtain ⟨other, read, plain⟩ := holds 0 Nat.one_pos
    rw [run, read]
    refine (HeightMap.draws_cutout plain within.wide).renders fun shown x y covered => ?_
    obtain ⟨inside, same⟩ := shown 0 other read x y covered
    rw [if_pos inside]
    exact ⟨covered, same⟩
  | noise layers seed => cases planar
  | gradient source destination low high => cases planar
  | radialGradient center radius low high => cases planar
  | projection direction => cases planar

/-! ## Edits -/

namespace HeightMap

theorem renders_mapSamples (plain : map.IsPlain) (f : Height → Height) :
    Renders (.ok (map.mapSamples f)) map.raster.size (map.Shows own relief) own
      fun x y => f (relief x y) := by
  refine (draws_mapSamples plain f).renders fun shown x y covered => ?_
  obtain ⟨inside, same⟩ := shown x y covered
  exact ⟨inside, by rw [same]⟩

theorem renders_zipWith (plain : map.IsPlain) (holds : arguments.HoldsPlain 1)
    (f : Height → Height → Height) :
    Renders (do zipWith f map (← arguments.map 0)) map.raster.size
      (map.Shows own relief ∧ arguments.AllShow own given) own
      fun x y => f (relief x y) (given 0 x y) := by
  obtain ⟨other, read, plainOther⟩ := holds 0 Nat.one_pos
  rw [read]
  refine (draws_zipWith plain plainOther f).renders fun shown x y covered => ?_
  obtain ⟨inside, same⟩ := shown.1 x y covered
  obtain ⟨insideOther, sameOther⟩ := shown.2 0 other read x y covered
  rw [if_pos insideOther, same, sameOther]
  exact ⟨inside, rfl⟩

theorem renders_zipWith3 (plain : map.IsPlain) (holds : arguments.HoldsPlain 2)
    (f : Height → Height → Height → Height) :
    Renders (do zipWith3 f map (← arguments.map 0) (← arguments.map 1)) map.raster.size
      (map.Shows own relief ∧ arguments.AllShow own given) own
      fun x y => f (relief x y) (given 0 x y) (given 1 x y) := by
  obtain ⟨a, readA, plainA⟩ := holds 0 Nat.two_pos
  obtain ⟨b, readB, plainB⟩ := holds 1 Nat.one_lt_two
  rw [readA, readB]
  refine (draws_zipWith3 plain plainA plainB f).renders fun shown x y covered => ?_
  obtain ⟨inside, same⟩ := shown.1 x y covered
  obtain ⟨insideA, sameA⟩ := shown.2 0 a readA x y covered
  obtain ⟨insideB, sameB⟩ := shown.2 1 b readB x y covered
  rw [if_pos ⟨insideA, insideB⟩, same, sameA, sameB]
  exact ⟨inside, rfl⟩

theorem renders_clampHeights {low high : Height} (plain : map.IsPlain)
    (ordered : low ≤ high ∨ map.samples.isEmpty = true) :
    Renders (map.clampHeights low high) map.raster.size (map.Shows own relief) own
      fun x y => Number.clampInt low high (relief x y) := by
  have inOrder : ¬(high < low ∧ (!map.samples.isEmpty) = true) := by
    rintro ⟨reversed, some⟩
    rcases ordered with le | none
    · exact absurd reversed (Int.not_lt.2 le)
    · rw [none] at some
      cases some
  rw [clampHeights, if_neg inOrder]
  exact renders_mapSamples plain _

/-- The blur of a relief, where the map shows the neighbourhood of every point. -/
theorem Shows.blur {radius : Nat} (plain : map.IsPlain) (within : own.Within figureLimit)
    (small : Below radius figureLimit) (shown : map.Shows (own.expand radius) relief) {x y : Int}
    (covered : own.Covers x y) : (map.blur radius).heightAt x y = relief.blur radius x y := by
  have around {x' y' : Int} (left : x - radius ≤ x') (right : x' ≤ x + radius)
      (above : y - radius ≤ y') (below : y' ≤ y + radius) :=
    shown x' y' (Rectangle.covers_expand within small covered left right above below)
  have inRange : radius ≤ extentMax := by
    unfold Below figureLimit at small
    rw [le_extentMax_iff]
    omega
  rw [heightAt_blur plain inRange (around (by omega) (by omega) (by omega) (by omega)).1
    (around (by omega) (by omega) (by omega) (by omega)).1]
  refine Line.windowMean_congr fun row above below => Line.windowMean_congr fun column left right => ?_
  exact (around (by omega) (by omega) (by omega) (by omega)).2

theorem Shows.covers_of_expand {radius : Nat} (within : own.Within figureLimit)
    (small : Below radius figureLimit) (shown : map.Shows (own.expand radius) relief) {x y : Int}
    (covered : own.Covers x y) : map.raster.Covers x y ∧ map.heightAt x y = relief x y :=
  shown x y (Rectangle.covers_expand within small covered (by omega) (by omega) (by omega) (by omega))

theorem renders_blur {radius : Nat} (plain : map.IsPlain) (within : own.Within figureLimit)
    (small : Below radius figureLimit) :
    Renders (.ok (map.blur radius)) map.raster.size (map.Shows (own.expand radius) relief) own
      (relief.blur radius) :=
  (draws_self (plain.blur radius)).renders fun shown _ _ covered =>
    ⟨(shown.covers_of_expand within small covered).1, shown.blur plain within small covered⟩

theorem renders_convexityMap {radius : Nat} (plain : map.IsPlain) (within : own.Within figureLimit)
    (small : Below radius figureLimit) :
    Renders (map.convexityMap radius) map.raster.size (map.Shows (own.expand radius) relief) own
      fun x y => addHeights (negHeight (relief.blur radius x y)) (relief x y) := by
  refine (draws_convexityMap plain radius).renders fun shown x y covered => ?_
  obtain ⟨inside, same⟩ := shown.covers_of_expand within small covered
  rw [shown.blur plain within small covered, same]
  exact ⟨inside, rfl⟩

theorem renders_crop {rectangle : Rectangle} {height : Height} (plain : map.IsPlain)
    (within : rectangle.Within figureLimit) :
    Renders (.ok (map.crop rectangle height)) map.raster.size (map.Shows own relief) own
      fun x y => if rectangle.Covers x y then relief x y else height := by
  refine (draws_crop plain within.wide height).renders fun shown x y covered => ?_
  obtain ⟨inside, same⟩ := shown x y covered
  exact ⟨inside, by rw [same]⟩

theorem renders_fillRectangle {rectangle : Rectangle} {height : Height} (plain : map.IsPlain)
    (within : rectangle.Within figureLimit) :
    Renders (map.fillRectangle rectangle height) map.raster.size (map.Shows own relief) own
      fun x y => if rectangle.Covers x y then height else relief x y := by
  refine (draws_fillRectangle plain within.wide height).renders fun shown x y covered => ?_
  obtain ⟨inside, same⟩ := shown x y covered
  exact ⟨inside, by rw [same]⟩

theorem renders_moveBy {offset : Point} (plain : map.IsPlain) (within : own.Within figureLimit)
    (smallX : Below offset.x figureLimit) (smallY : Below offset.y figureLimit)
    (modest : (map.raster.translated offset).Within 1073741824) :
    Renders (.ok (map.moveBy offset)) map.raster.size (map.Shows (own.translated (-offset)) relief) own
      fun x y => relief (x - offset.x) (y - offset.y) := by
  unfold Below figureLimit at smallX smallY
  have inRangeX : IsCoordinate offset.x := isCoordinate_iff.2 (by omega)
  have inRangeY : IsCoordinate offset.y := isCoordinate_iff.2 (by omega)
  refine (draws_moveBy plain inRangeX inRangeY modest).renders fun shown x y covered => ?_
  have back : (own.translated (-offset)).Covers (x - offset.x) (y - offset.y) :=
    (Rectangle.covers_translated_neg within smallX smallY).2 (by simpa using covered)
  obtain ⟨inside, same⟩ := shown _ _ back
  refine ⟨?_, same⟩
  obtain ⟨left, top, -, -⟩ := plain.modest
  unfold Below at left top
  rw [Rectangle.covers_translated]
  · exact inside
  all_goals
    rw [isCoordinate_iff]
    dsimp only [Coordinate] at *
    omega

/-- A map that shows a part of what is near the origin stays near it when that part is moved. -/
theorem Shows.modest_translated {offset : Point} (within : own.Within figureLimit)
    (smallX : Below offset.x figureLimit) (smallY : Below offset.y figureLimit)
    (modest : map.raster.Within 1073741824) (small : map.raster.size.Small)
    (nonempty : own.isEmpty = false)
    (shown : map.Shows (own.translated (-offset)) relief) :
    (map.raster.translated offset).Within 1073741824 := by
  have corner := Rectangle.exists_covers nonempty
  have back : (own.translated (-offset)).Covers (own.position.x - offset.x)
      (own.position.y - offset.y) :=
    (Rectangle.covers_translated_neg within smallX smallY).2 (by simpa using corner)
  have inside := (shown _ _ back).1
  obtain ⟨left, top, -, -⟩ := within
  obtain ⟨leftMap, topMap, -, -⟩ := modest
  obtain ⟨width, height⟩ := small
  unfold Rectangle.Covers Between at inside
  unfold Below figureLimit at *
  have moved : map.raster.translated offset =
      ⟨⟨map.raster.position.x + offset.x, map.raster.position.y + offset.y⟩, map.raster.size⟩ := by
    change (⟨⟨narrowCoordinate _, narrowCoordinate _⟩, _⟩ : Rectangle) = _
    rw [narrowCoordinate_eq, narrowCoordinate_eq]
    all_goals
      rw [isCoordinate_iff]
      dsimp only [Coordinate] at *
      omega
  rw [moved]
  constructor
  all_goals
    unfold Below
    dsimp only [Coordinate] at *
    omega

theorem ordered_of_clampHeights {low high : Height} {after : HeightMap}
    (ran : map.clampHeights low high = .ok after) : low ≤ high ∨ map.samples.isEmpty = true := by
  unfold clampHeights at ran
  split at ran
  case isTrue => cases ran
  case isFalse inOrder =>
    by_contra neither
    rw [not_or] at neither
    exact inOrder ⟨Int.not_le.1 neither.1, by simpa using neither.2⟩

theorem renders_pattern {repeated : Rectangle} (plain : map.IsPlain) (holds : arguments.HoldsPlain 1)
    (within : repeated.Within figureLimit) (nonempty : repeated.isEmpty = false) :
    Renders (do map.pattern (← arguments.map 0) repeated) map.raster.size
      (map.Shows own relief ∧ arguments.AllShow repeated given) own fun x y =>
        given 0 (x % repeated.size.width + repeated.position.x)
          (y % repeated.size.height + repeated.position.y) := by
  obtain ⟨other, read, plainOther⟩ := holds 0 Nat.one_pos
  rw [read]
  refine (draws_pattern plain plainOther within.wide).renders fun shown x y covered => ?_
  have shownTile := shown.2 0 other read
  have whole : repeated.intersect other.raster = repeated :=
    Rectangle.intersect_eq_left within nonempty fun x y covered => (shownTile x y covered).1
  rw [whole, nonempty, if_neg (by simp)]
  refine ⟨(shown.1 x y covered).1, (shownTile _ _ ?_).2⟩
  have positive : (0 : Int) < repeated.size.width ∧ (0 : Int) < repeated.size.height := by
    simp only [Rectangle.isEmpty, Size.area, beq_eq_false_iff_ne, ne_eq, Nat.mul_eq_zero,
      not_or] at nonempty
    omega
  have column := Int.emod_nonneg x (Int.ne_of_gt positive.1)
  have column' := Int.emod_lt_of_pos x positive.1
  have row := Int.emod_nonneg y (Int.ne_of_gt positive.2)
  have row' := Int.emod_lt_of_pos y positive.2
  unfold Rectangle.Covers Between
  omega

end HeightMap

/-- A planar edit of a map is the edit of its relief. -/
theorem MapEdit.renders_run {edit : MapEdit} (planar : edit.isPlanar = true)
    (figures : edit.Figures figureLimit) (within : own.Within figureLimit) (plain : map.IsPlain)
    (holds : arguments.HoldsPlain (Action.editMap edit).arity)
    (ordered : ∀ low high, edit = .clampHeights low high → low ≤ high ∨ map.samples.isEmpty = true)
    (modest : ∀ offset, edit = .move offset → (map.raster.translated offset).Within 1073741824) :
    Renders (edit.run arguments (.rectangle own) map) map.raster.size
      (map.Shows (edit.prior own) relief ∧ arguments.AllShow (edit.argumentRectangle own) given)
      own (edit.relief given relief) := by
  cases edit with
  | abs => exact (HeightMap.renders_mapSamples plain _).imp And.left
  | add height => exact (HeightMap.renders_mapSamples plain _).imp And.left
  | invert => exact (HeightMap.renders_mapSamples plain _).imp And.left
  | multiply factor => exact (HeightMap.renders_mapSamples plain _).imp And.left
  | cropHeights low high replacement => exact (HeightMap.renders_mapSamples plain _).imp And.left
  | clampHeights low high =>
    exact (HeightMap.renders_clampHeights plain (ordered low high rfl)).imp And.left
  | crop rectangle height => exact (HeightMap.renders_crop plain figures).imp And.left
  | fillRectangle rectangle height => exact (HeightMap.renders_fillRectangle plain figures).imp And.left
  | blur radius => exact (HeightMap.renders_blur plain within figures).imp And.left
  | convexity radius => exact (HeightMap.renders_convexityMap plain within figures).imp And.left
  | move offset =>
    exact (HeightMap.renders_moveBy plain within figures.1 figures.2 (modest offset rfl)).imp And.left
  | addMap => exact HeightMap.renders_zipWith plain holds _
  | addMasked height => exact HeightMap.renders_zipWith plain holds _
  | intersect => exact HeightMap.renders_zipWith plain holds _
  | unify => exact HeightMap.renders_zipWith plain holds _
  | multiplyMap => exact HeightMap.renders_zipWith plain holds _
  | addMapMasked => exact HeightMap.renders_zipWith3 plain holds _
  | combine => exact HeightMap.renders_zipWith3 plain holds _
  | pattern repeated =>
    exact HeightMap.renders_pattern plain holds figures (by simpa [isPlanar] using planar)
  | distanceMap maxDistance => cases planar
  | distort maxDistance => cases planar
  | drawLine start stop height => cases planar
  | noiseLayer waveLength amplitude seed ridged => cases planar
  | rescale horizontal vertical => cases planar
  | resize rectangle height => cases planar
  | shift maxDistance direction => cases planar
  | transform matrix => cases planar
  | transformHeights interval low high => cases planar

end Terrain
