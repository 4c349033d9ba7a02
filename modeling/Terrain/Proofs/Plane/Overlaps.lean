import Terrain.Proofs.Plane.Regions

/-!
# Overlaps in local coordinates

A raster finds what it shares with another area in the plane, and then moves it into its local
coordinates with the opposite of its own start. The least coordinate has no opposite: it is cut to the
greatest coordinate, which is one less, so that all that is moved with it arrives one too early.

* `Interval.Covers` — a coordinate lies in an interval.
* `slip` — by how much the opposite of a coordinate falls short.
* `Interval.Addressable`, `Rectangle.Addressable` — the area of a raster that has local coordinates.
* `Interval.covers_overlap`, `Rectangle.mem_overlap` — what an area shares with another one.
* `Interval.covers_inset`, `Rectangle.mem_inset` — what it has of another one that was moved first.
-/

namespace Terrain

/-! ## Coordinates -/

theorem checkCoordinate_eq {value : Int} (inRange : IsCoordinate value) :
    checkCoordinate value = .ok value := if_pos inRange

theorem checkCoordinate_overflow {value : Int} (outside : ¬IsCoordinate value) :
    checkCoordinate value = .error .overflow := if_neg outside

theorem wrapCoordinate_eq {value : Int} (inRange : IsCoordinate value) :
    wrapCoordinate value = value := by
  rw [isCoordinate_iff] at inRange
  exact Int.bmod_eq_of_le (by omega) (by omega)

/-- By how much the opposite of a coordinate falls short. -/
def slip (start : Int) : Int := if start = coordinateMin then 1 else 0

theorem slip_eq (start : Int) : slip start = if start = (-2147483648 : Int) then 1 else 0 := rfl

theorem slip_of_ne {start : Int} (other : start ≠ coordinateMin) : slip start = 0 := if_neg other

theorem slip_bounds (start : Int) : 0 ≤ slip start ∧ slip start ≤ 1 := by
  rw [slip_eq]
  split <;> omega

theorem narrowCoordinate_neg {start : Int} (inRange : IsCoordinate start) :
    narrowCoordinate (-start) = -start - slip start := by
  rw [isCoordinate_iff] at inRange
  rw [narrowCoordinate_eq_max, slip_eq]
  dsimp only [Coordinate]
  split <;> omega

/-! ## Intervals -/

namespace Interval

variable {i j : Interval} {x : Int} {limit : Nat}

def Covers (interval : Interval) (x : Int) : Prop := Between interval.start interval.length x

instance (interval : Interval) (x : Int) : Decidable (interval.Covers x) :=
  inferInstanceAs (Decidable (Between _ _ _))

theorem contains_iff : i.contains x = true ↔ i.Covers x := by
  rw [contains, Bool.and_eq_true, decide_eq_true_iff, decide_eq_true_iff]
  rfl

theorem covers_intersect (length : i.length ≤ extentMax) :
    (intersect i j).Covers x ↔ i.Covers x ∧ j.Covers x := by
  rw [le_extentMax_iff] at length
  simp only [Covers, Between, intersect, stop, narrowExtent_eq_min]
  dsimp only [Coordinate]
  omega

structure Addressable (interval : Interval) : Prop where
  start : IsCoordinate interval.start
  length : IsCoordinate interval.length

instance (interval : Interval) : Decidable interval.Addressable :=
  decidable_of_iff (IsCoordinate interval.start ∧ IsCoordinate interval.length)
    ⟨fun ⟨start, length⟩ => ⟨start, length⟩, fun ⟨start, length⟩ => ⟨start, length⟩⟩

theorem Addressable.length_le (addressable : i.Addressable) : i.length ≤ extentMax := by
  have length := isCoordinate_iff.1 addressable.length
  rw [le_extentMax_iff]
  omega

theorem Addressable.isCoordinate_local (addressable : i.Addressable) (covered : i.Covers x) :
    IsCoordinate (x - i.start) := by
  have length := isCoordinate_iff.1 addressable.length
  rw [isCoordinate_iff]
  unfold Covers Between at covered
  omega

structure Within (interval : Interval) (limit : Nat) : Prop where
  start : Below interval.start limit
  length : Below interval.length limit

instance (interval : Interval) (limit : Nat) : Decidable (interval.Within limit) :=
  decidable_of_iff (Below interval.start limit ∧ Below interval.length limit)
    ⟨fun ⟨start, length⟩ => ⟨start, length⟩, fun ⟨start, length⟩ => ⟨start, length⟩⟩

theorem Within.mono {more : Nat} (within : i.Within limit) (le : limit ≤ more) : i.Within more where
  start := Nat.lt_of_lt_of_le within.start le
  length := Nat.lt_of_lt_of_le within.length le

theorem Within.addressable (within : i.Within 1073741824) : i.Addressable := by
  obtain ⟨start, length⟩ := within
  unfold Below at start length
  constructor
  all_goals
    rw [isCoordinate_iff]
    omega

theorem Within.negatable (within : i.Within 1073741824) : i.start ≠ coordinateMin := by
  intro least
  have start := within.start
  rw [least] at start
  exact absurd start (by decide)

/-- What an interval shares with another one, in local indices. -/
def overlap (i j : Interval) : Interval := (intersect i j).translated (narrowCoordinate (-i.start))

theorem covers_overlap (addressable : i.Addressable) :
    (overlap i j).Covers x ↔
      i.Covers (x + i.start + slip i.start) ∧ j.Covers (x + i.start + slip i.start) := by
  have start := isCoordinate_iff.1 addressable.start
  have length := isCoordinate_iff.1 addressable.length
  have small := slip_bounds i.start
  rw [overlap, narrowCoordinate_neg addressable.start]
  -- the moved start is cut only where it lies behind the whole interval, and then nothing is shared
  simp only [translated, intersect, Covers, Between, stop, narrowExtent_eq_min,
    narrowCoordinate_eq_max]
  dsimp only [Coordinate] at *
  omega

theorem isCoordinate_stop_overlap (addressable : i.Addressable) : IsCoordinate (overlap i j).stop := by
  have start := isCoordinate_iff.1 addressable.start
  have length := isCoordinate_iff.1 addressable.length
  have small := slip_bounds i.start
  rw [overlap, narrowCoordinate_neg addressable.start, isCoordinate_iff]
  simp only [translated, intersect, stop, narrowExtent_eq_min, narrowCoordinate_eq_max]
  dsimp only [Coordinate] at *
  omega

theorem isCoordinate_length_overlap (addressable : i.Addressable) :
    IsCoordinate (overlap i j).length := by
  have length := isCoordinate_iff.1 addressable.length
  rw [isCoordinate_iff]
  simp only [overlap, translated, intersect, stop, narrowExtent_eq_min]
  dsimp only [Coordinate] at *
  omega

/-- What an interval has of another one that was first moved to its local indices. -/
def inset (i j : Interval) : Interval :=
  intersect ⟨0, i.length⟩ (j.translated (narrowCoordinate (-i.start)))

/-- An interval that can be moved to local indices of another one as a whole: it is not longer than
these reach, or does not begin before all of them. -/
structure Movable (i j : Interval) : Prop where
  start : IsCoordinate j.start
  reach : IsCoordinate j.length ∨ coordinateMin ≤ j.start - i.start

instance (i j : Interval) : Decidable (i.Movable j) :=
  decidable_of_iff (IsCoordinate j.start ∧
      (IsCoordinate j.length ∨ coordinateMin ≤ j.start - i.start))
    ⟨fun ⟨start, reach⟩ => ⟨start, reach⟩, fun ⟨start, reach⟩ => ⟨start, reach⟩⟩

theorem covers_inset (addressable : i.Addressable) (movable : i.Movable j) :
    (inset i j).Covers x ↔ i.Covers (x + i.start) ∧ j.Covers (x + i.start + slip i.start) := by
  have start := isCoordinate_iff.1 addressable.start
  have length := isCoordinate_iff.1 addressable.length
  have start' := isCoordinate_iff.1 movable.start
  have reach : ((-2147483648 : Int) ≤ j.length ∧ (j.length : Int) ≤ 2147483647) ∨
    (-2147483648 : Int) ≤ j.start - i.start := movable.reach
  rw [inset, narrowCoordinate_neg addressable.start, slip_eq]
  -- with no opposite of its start the interval lies before all others, which are not cut on that side
  simp only [translated, intersect, Covers, Between, stop, narrowExtent_eq_min,
    narrowCoordinate_eq_max]
  dsimp only [Coordinate] at *
  split <;> omega

theorem isCoordinate_stop_inset (addressable : i.Addressable) : IsCoordinate (inset i j).stop := by
  have length := isCoordinate_iff.1 addressable.length
  rw [inset, isCoordinate_iff]
  simp only [translated, intersect, stop, narrowExtent_eq_min, narrowCoordinate_eq_max]
  dsimp only [Coordinate] at *
  omega

end Interval

/-! ## Rectangles -/

namespace Rectangle

variable {a b : Rectangle} {point : Point} {limit : Nat}

structure Addressable (rectangle : Rectangle) : Prop where
  horizontal : rectangle.horizontal.Addressable
  vertical : rectangle.vertical.Addressable

instance (rectangle : Rectangle) : Decidable rectangle.Addressable :=
  decidable_of_iff (rectangle.horizontal.Addressable ∧ rectangle.vertical.Addressable)
    ⟨fun ⟨horizontal, vertical⟩ => ⟨horizontal, vertical⟩,
      fun ⟨horizontal, vertical⟩ => ⟨horizontal, vertical⟩⟩

/-- A rectangle whose position has an opposite. -/
def Negatable (rectangle : Rectangle) : Prop :=
  rectangle.position.x ≠ coordinateMin ∧ rectangle.position.y ≠ coordinateMin

instance (rectangle : Rectangle) : Decidable rectangle.Negatable :=
  inferInstanceAs (Decidable (_ ∧ _))

structure Movable (a b : Rectangle) : Prop where
  horizontal : a.horizontal.Movable b.horizontal
  vertical : a.vertical.Movable b.vertical

instance (a b : Rectangle) : Decidable (a.Movable b) :=
  decidable_of_iff (a.horizontal.Movable b.horizontal ∧ a.vertical.Movable b.vertical)
    ⟨fun ⟨horizontal, vertical⟩ => ⟨horizontal, vertical⟩,
      fun ⟨horizontal, vertical⟩ => ⟨horizontal, vertical⟩⟩

theorem Within.along (within : a.Within limit) (direction : Direction) :
    (a.along direction).Within limit := by
  cases direction with
  | horizontal => exact ⟨within.x, within.width⟩
  | vertical => exact ⟨within.y, within.height⟩

theorem Within.addressable (within : a.Within 1073741824) : a.Addressable :=
  ⟨(within.along .horizontal).addressable, (within.along .vertical).addressable⟩

theorem Within.negatable (within : a.Within 1073741824) : a.Negatable :=
  ⟨(within.along .horizontal).negatable, (within.along .vertical).negatable⟩

theorem Within.movable (within : b.Within 1073741824) : a.Movable b :=
  have addressable := within.addressable
  ⟨⟨addressable.horizontal.start, .inl addressable.horizontal.length⟩,
    ⟨addressable.vertical.start, .inl addressable.vertical.length⟩⟩

def Meet (a b : Rectangle) : Prop := ∃ x y, a.Covers x y ∧ b.Covers x y

theorem mem_cells_ofIntervals {i j : Interval} (stopX : IsCoordinate i.stop)
    (stopY : IsCoordinate j.stop) :
    point ∈ (ofIntervals i j).cells ↔ i.Covers point.x ∧ j.Covers point.y :=
  @mem_cells (ofIntervals i j) point stopX stopY

/-- What a rectangle shares with another one, in local coordinates. -/
theorem mem_overlap (addressable : a.Addressable) :
    point ∈ ((intersect a b).translated (-a.position)).cells ↔
      a.Covers (point.x + a.position.x + slip a.position.x)
        (point.y + a.position.y + slip a.position.y) ∧
      b.Covers (point.x + a.position.x + slip a.position.x)
        (point.y + a.position.y + slip a.position.y) := by
  have moved : (intersect a b).translated (-a.position) =
      ofIntervals (a.horizontal.overlap b.horizontal) (a.vertical.overlap b.vertical) := rfl
  rw [moved, mem_cells_ofIntervals (Interval.isCoordinate_stop_overlap addressable.horizontal)
    (Interval.isCoordinate_stop_overlap addressable.vertical),
    Interval.covers_overlap addressable.horizontal, Interval.covers_overlap addressable.vertical]
  exact and_and_and_comm

/-- What a rectangle has of another one that was first moved to its local coordinates. -/
theorem mem_inset (addressable : a.Addressable) (movable : a.Movable b) :
    point ∈ (intersect ⟨.origin, a.size⟩ (b.translated (-a.position))).cells ↔
      a.Covers (point.x + a.position.x) (point.y + a.position.y) ∧
      b.Covers (point.x + a.position.x + slip a.position.x)
        (point.y + a.position.y + slip a.position.y) := by
  have kept : intersect ⟨.origin, a.size⟩ (b.translated (-a.position)) =
      ofIntervals (a.horizontal.inset b.horizontal) (a.vertical.inset b.vertical) := rfl
  rw [kept, mem_cells_ofIntervals (Interval.isCoordinate_stop_inset addressable.horizontal)
    (Interval.isCoordinate_stop_inset addressable.vertical),
    Interval.covers_inset addressable.horizontal movable.horizontal,
    Interval.covers_inset addressable.vertical movable.vertical]
  exact and_and_and_comm

end Rectangle

end Terrain
