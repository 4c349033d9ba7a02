import Mathlib.Data.List.Nodup
import Mathlib.Data.List.Pairwise
import Terrain.Plane.Rectangle
import Terrain.Proofs.Number.Whole
import Terrain.Raster.Profile

/-!
# Points of rectangles

Rectangles as sets of points, and the operations on them as long as no end saturates. At scale one a
rectangle covers the same samples as points.

* `Rectangle.Covers` — a point lies in a rectangle.
* `Rectangle.Within` — all figures of a rectangle are below a limit.
* `Rectangle.scaled_one` — nothing changes at scale one.
* `Rectangle.mem_cells`, `Rectangle.nodup_cells` — the list of points of a rectangle.
-/

namespace Terrain

/-! ## Numbers in range -/

theorem isCoordinate_iff {value : Int} :
    IsCoordinate value ↔ (-2147483648 : Int) ≤ value ∧ value ≤ (2147483647 : Int) := Iff.rfl

theorem le_extentMax_iff {value : Nat} : value ≤ extentMax ↔ value ≤ (4294967295 : Nat) := Iff.rfl

theorem narrowCoordinate_eq {value : Int} (inRange : IsCoordinate value) :
    narrowCoordinate value = value :=
  Number.clampInt_of_mem inRange.1 inRange.2

theorem narrowCoordinate_eq_max (value : Int) :
    narrowCoordinate value = max (-2147483648 : Int) (min 2147483647 value) := by
  change Number.clampInt (-2147483648) 2147483647 value = _
  unfold Number.clampInt
  split
  · omega
  · split <;> omega

theorem isCoordinate_narrowCoordinate (value : Int) : IsCoordinate (narrowCoordinate value) :=
  Number.clampInt_mem _ _ value (by decide)

theorem narrowExtent_eq_min (value : Int) : narrowExtent value = min value.toNat (4294967295 : Nat) := rfl

/-! ## Scale one -/

theorem IsCoordinate.small {value : Int} (inRange : IsCoordinate value) : Number.Small value := by
  rw [isCoordinate_iff] at inRange
  rw [Number.Small]
  omega

theorem Point.scaleCoordinate_one {coordinate : Int} (inRange : IsCoordinate coordinate) :
    scaleCoordinate coordinate 1.0 = coordinate := by
  have whole := (Number.isWholeFloat_ofInt inRange.small).mul_one
  obtain ⟨low, high⟩ := isCoordinate_iff.1 inRange
  have above : wideMin ≤ coordinate := Int.le_trans (by decide) low
  have below : coordinate ≤ wideMax := Int.le_trans high (by decide)
  unfold scaleCoordinate
  rw [whole.floorTo above below, narrowCoordinate_eq inRange]

theorem scaledExtent_one {extent : Nat} (inRange : extent ≤ extentMax) :
    scaledExtent 1.0 extent = extent := by
  rw [le_extentMax_iff] at inRange
  have whole := (@Number.isWholeFloat_ofNat extent (by omega)).mul_one
  have below : (extent : Int) ≤ (extentMax : Int) := Int.ofNat_le.2 inRange
  unfold scaledExtent
  rw [whole.truncateTo (by omega) below, Int.toNat_natCast]

theorem Interval.scaled_one {interval : Interval} (start : IsCoordinate interval.start)
    (length : interval.length ≤ extentMax) : interval.scaled 1.0 = interval := by
  have wholeStart := Number.isWholeFloat_ofInt start.small
  obtain ⟨low, high⟩ := isCoordinate_iff.1 start
  rw [le_extentMax_iff] at length
  have wholeLength := @Number.isWholeFloat_ofNat interval.length (by omega)
  have wholeStop := (wholeStart.add wholeLength (by rw [Number.Small]; omega)).mul_one
  have above : wideMin ≤ interval.start := Int.le_trans (by decide) low
  have below : interval.start ≤ wideMax := Int.le_trans high (by decide)
  have stopAbove : wideMin ≤ interval.start + interval.length :=
    Int.le_trans above (Int.le_add_of_nonneg_right (Int.natCast_nonneg _))
  have stopBelow : interval.start + interval.length ≤ wideMax := by
    dsimp only [wideMax, Coordinate]
    omega
  have extent : narrowExtent (interval.start + interval.length - interval.start) = interval.length := by
    rw [narrowExtent_eq_min]
    dsimp only [Extent, Coordinate]
    omega
  unfold scaled ofBounds
  dsimp only
  rw [wholeStart.mul_one.floorTo above below, wholeStop.ceilTo stopAbove stopBelow,
    narrowCoordinate_eq start, extent]

/-! ## Regions -/

def Below (figure : Int) (limit : Nat) : Prop := figure.natAbs < limit

instance (figure : Int) (limit : Nat) : Decidable (Below figure limit) :=
  inferInstanceAs (Decidable (_ < _))

def Between (start : Int) (length : Nat) (x : Int) : Prop := start ≤ x ∧ x < start + length

instance (start : Int) (length : Nat) (x : Int) : Decidable (Between start length x) :=
  inferInstanceAs (Decidable (_ ∧ _))

/-- What stays away from the ends of the coordinates was not saturated. -/
theorem narrowCoordinate_of_below {value : Int} {limit : Nat}
    (below : Below (narrowCoordinate value) limit) (most : limit ≤ 2147483647) :
    narrowCoordinate value = value := by
  rw [narrowCoordinate_eq_max] at below ⊢
  unfold Below at below
  dsimp only [Coordinate]
  omega

namespace Rectangle

variable {a b rectangle : Rectangle} {x y : Int} {limit : Nat}

def Covers (rectangle : Rectangle) (x y : Int) : Prop :=
  Between rectangle.position.x rectangle.size.width x ∧
    Between rectangle.position.y rectangle.size.height y

instance (rectangle : Rectangle) (x y : Int) : Decidable (rectangle.Covers x y) :=
  inferInstanceAs (Decidable (_ ∧ _))

structure Within (rectangle : Rectangle) (limit : Nat) : Prop where
  x : Below rectangle.position.x limit
  y : Below rectangle.position.y limit
  width : Below rectangle.size.width limit
  height : Below rectangle.size.height limit

instance (rectangle : Rectangle) (limit : Nat) : Decidable (rectangle.Within limit) :=
  decidable_of_iff (Below rectangle.position.x limit ∧ Below rectangle.position.y limit ∧
      Below rectangle.size.width limit ∧ Below rectangle.size.height limit)
    ⟨fun ⟨x, y, width, height⟩ => ⟨x, y, width, height⟩,
      fun ⟨x, y, width, height⟩ => ⟨x, y, width, height⟩⟩

theorem Within.mono {more : Nat} (within : rectangle.Within limit) (le : limit ≤ more) :
    rectangle.Within more where
  x := Nat.lt_of_lt_of_le within.x le
  y := Nat.lt_of_lt_of_le within.y le
  width := Nat.lt_of_lt_of_le within.width le
  height := Nat.lt_of_lt_of_le within.height le

theorem containsPoint_iff : rectangle.containsPoint ⟨x, y⟩ = true ↔ rectangle.Covers x y := by
  simp only [containsPoint, Interval.contains, horizontal, vertical, Interval.stop, Bool.and_eq_true]
  exact and_congr (and_congr decide_eq_true_iff decide_eq_true_iff)
    (and_congr decide_eq_true_iff decide_eq_true_iff)

theorem isEmpty_iff : rectangle.isEmpty = true ↔ ∀ x y, ¬rectangle.Covers x y := by
  simp only [isEmpty, Size.area, beq_iff_eq, Nat.mul_eq_zero, Covers, Between]
  constructor
  · rintro (none | none) x y ⟨horizontal, vertical⟩
    · rw [none] at horizontal
      omega
    · rw [none] at vertical
      omega
  · intro none
    have corner := none rectangle.position.x rectangle.position.y
    omega

theorem scaled_one (within : rectangle.Within limit) (most : limit ≤ 2147483648) :
    rectangle.scaled 1.0 = rectangle := by
  obtain ⟨x, y, width, height⟩ := within
  unfold Below at x y width height
  have coordinates : IsCoordinate rectangle.position.x ∧ IsCoordinate rectangle.position.y := by
    rw [isCoordinate_iff, isCoordinate_iff]
    omega
  have extents : rectangle.size.width ≤ extentMax ∧ rectangle.size.height ≤ extentMax := by
    rw [le_extentMax_iff, le_extentMax_iff]
    omega
  unfold scaled
  rw [Interval.scaled_one coordinates.1 extents.1, Interval.scaled_one coordinates.2 extents.2]
  rfl

theorem covers_intersect (width : a.size.width ≤ extentMax) (height : a.size.height ≤ extentMax) :
    (intersect a b).Covers x y ↔ a.Covers x y ∧ b.Covers x y := by
  rw [le_extentMax_iff] at width height
  simp only [intersect, Covers, Between, ofIntervals, Interval.intersect, Interval.stop, horizontal,
    vertical, narrowExtent_eq_min]
  dsimp only [Coordinate]
  omega

theorem covers_translated {offset : Point}
    (inRangeX : IsCoordinate (rectangle.position.x + offset.x))
    (inRangeY : IsCoordinate (rectangle.position.y + offset.y)) :
    (rectangle.translated offset).Covers x y ↔ rectangle.Covers (x - offset.x) (y - offset.y) := by
  have moved : (rectangle.translated offset).position =
      ⟨rectangle.position.x + offset.x, rectangle.position.y + offset.y⟩ := by
    change (⟨narrowCoordinate _, narrowCoordinate _⟩ : Point) = _
    rw [narrowCoordinate_eq inRangeX, narrowCoordinate_eq inRangeY]
  unfold Covers Between
  rw [moved]
  simp only [translated]
  dsimp only [Coordinate]
  omega

/-! ## Lists of points -/

theorem mem_span {start stop value : Int} : value ∈ span start stop ↔ start ≤ value ∧ value < stop := by
  simp only [span, List.mem_map, List.mem_range]
  constructor
  · rintro ⟨step, less, rfl⟩
    omega
  · intro between
    exact ⟨(value - start).toNat, by omega, by omega⟩

theorem nodup_span (start stop : Int) : (span start stop).Nodup := by
  refine (List.nodup_range).map fun (first second : Nat) same => ?_
  exact Int.ofNat_inj.1 (Int.add_left_cancel same)

theorem mem_cells {point : Point} (stopX : IsCoordinate (rectangle.position.x + rectangle.size.width))
    (stopY : IsCoordinate (rectangle.position.y + rectangle.size.height)) :
    point ∈ rectangle.cells ↔ rectangle.Covers point.x point.y := by
  have stop : rectangle.endingPoint = ⟨rectangle.position.x + rectangle.size.width,
      rectangle.position.y + rectangle.size.height⟩ := by
    simp only [endingPoint, horizontal, vertical, Interval.stop]
    rw [narrowCoordinate_eq stopX, narrowCoordinate_eq stopY]
  simp only [cells, stop, List.mem_flatMap, List.mem_map, mem_span, Covers, Between]
  constructor
  · rintro ⟨y, insideY, x, insideX, rfl⟩
    exact ⟨insideX, insideY⟩
  · rintro ⟨insideX, insideY⟩
    exact ⟨point.y, insideY, point.x, insideX, rfl⟩

theorem nodup_cells (rectangle : Rectangle) : rectangle.cells.Nodup := by
  unfold cells
  refine List.nodup_flatMap.2 ⟨fun y _ => ?_, ?_⟩
  · refine (nodup_span _ _).map fun first second same => ?_
    simpa using same
  · refine (nodup_span _ _).imp fun {first second} different => ?_
    refine List.disjoint_left.2 fun point inFirst inSecond => ?_
    simp only [List.mem_map] at inFirst inSecond
    obtain ⟨_, _, rfl⟩ := inFirst
    obtain ⟨_, _, same⟩ := inSecond
    exact different (Point.mk.inj same).2.symm

end Rectangle

end Terrain
