import Terrain.Proofs.Raster.Redrawing
import Terrain.Raster.Map.Filter
import Terrain.Raster.Map.Placement

/-!
# Operations by points

What the operations on maps do at each point of the plane. An operation with other maps changes the points
that all of them cover. On plain maps nothing saturates.

* `HeightMap.redraws_zipWith`, `HeightMap.redraws_fillRectangle` — on maps at any place.
* `HeightMap.draws_zipWith`, `HeightMap.draws_zipWith3` — sample by sample.
* `HeightMap.draws_crop`, `HeightMap.draws_fillRectangle`, `HeightMap.draws_pattern` — by place.
* `HeightMap.draws_create`, `HeightMap.draws_cutout`, `HeightMap.draws_moveBy` — new places.
-/

namespace Terrain

namespace Rectangle

variable {a b rectangle : Rectangle} {limit : Nat}

theorem Within.intersect (left : a.Within limit) (right : b.Within limit) :
    (intersect a b).Within limit := by
  obtain ⟨ax, ay, aw, ah⟩ := left
  obtain ⟨bx, bY, bw, bh⟩ := right
  unfold Below at *
  constructor
  all_goals
    simp only [Below, Rectangle.intersect, ofIntervals, Interval.intersect, Interval.stop, horizontal,
      vertical, narrowExtent_eq_min]
    dsimp only [Coordinate]
    omega

theorem Within.extents (within : rectangle.Within 1073741824) :
    rectangle.size.width ≤ extentMax ∧ rectangle.size.height ≤ extentMax := by
  obtain ⟨-, -, width, height⟩ := within
  unfold Below at width height
  rw [le_extentMax_iff, le_extentMax_iff]
  omega

end Rectangle

namespace HeightMap

variable {map other first second : HeightMap} {x y : Int}

/-! ## Local coordinates -/

/-- A rectangle in local coordinates. -/
theorem IsPlain.translated_eq (plain : map.IsPlain) {rectangle : Rectangle}
    (within : rectangle.Within 1073741824) :
    rectangle.translated (-map.raster.position) =
      ⟨⟨rectangle.position.x - map.raster.position.x, rectangle.position.y - map.raster.position.y⟩,
        rectangle.size⟩ := by
  have left := plain.modest.x
  have top := plain.modest.y
  have left' := within.x
  have top' := within.y
  unfold Below at left top left' top'
  have negX : narrowCoordinate (-map.raster.position.x) = -map.raster.position.x :=
    narrowCoordinate_eq (isCoordinate_iff.2 (by dsimp only [Coordinate]; omega))
  have negY : narrowCoordinate (-map.raster.position.y) = -map.raster.position.y :=
    narrowCoordinate_eq (isCoordinate_iff.2 (by dsimp only [Coordinate]; omega))
  change (⟨⟨narrowCoordinate (_ + narrowCoordinate (-_)), narrowCoordinate (_ + narrowCoordinate (-_))⟩,
    _⟩ : Rectangle) = _
  rw [negX, negY, narrowCoordinate_eq, narrowCoordinate_eq]
  · rfl
  all_goals
    rw [isCoordinate_iff]
    dsimp only [Coordinate]
    omega

theorem IsPlain.covers_local (plain : map.IsPlain) {rectangle : Rectangle}
    (within : rectangle.Within 1073741824) :
    (rectangle.translated (-map.raster.position)).Covers x y ↔
      rectangle.Covers (x + map.raster.position.x) (y + map.raster.position.y) := by
  rw [plain.translated_eq within]
  simp only [Rectangle.Covers, Between]
  dsimp only [Coordinate]
  omega

/-! ## Sample by sample -/

theorem isCoordinate_local (addressable : map.raster.Addressable) (covered : map.raster.Covers x y) :
    IsCoordinate (x - map.raster.position.x) ∧ IsCoordinate (y - map.raster.position.y) :=
  ⟨addressable.horizontal.isCoordinate_local covered.1, addressable.vertical.isCoordinate_local covered.2⟩

/-- Reading at a point that is given from a corner on. -/
theorem sampleShifted_corner (addressable : map.raster.Addressable) {point corner : Point}
    (covered : map.raster.Covers (point.x + corner.x) (point.y + corner.y)) :
    map.sampleShifted point
        ⟨corner.x - map.raster.position.x, corner.y - map.raster.position.y⟩ =
      .ok (map.heightAt (point.x + corner.x) (point.y + corner.y)) := by
  obtain ⟨inRangeX, inRangeY⟩ := isCoordinate_local addressable covered
  rw [Int.add_sub_assoc] at inRangeX inRangeY
  have back (start shift corner : Int) : start + (shift - corner) + corner = start + shift := by omega
  rw [sampleShifted, checkCoordinate_eq inRangeX, checkCoordinate_eq inRangeY]
  change map.sampleAt _ _ = _
  rw [sampleAt_eq, back, back]
  rwa [back, back]

/-- Reading another map at a local point that both cover. -/
theorem sampleShifted_eq (addressable : map.raster.Addressable)
    (addressableOther : other.raster.Addressable) {point : Point}
    (covered : map.raster.Covers (point.x + map.raster.position.x) (point.y + map.raster.position.y))
    (coveredOther : other.raster.Covers (point.x + map.raster.position.x)
      (point.y + map.raster.position.y)) :
    other.sampleShifted point (map.raster.position - other.raster.position) =
      .ok (other.heightAt (point.x + map.raster.position.x) (point.y + map.raster.position.y)) := by
  have inside := isCoordinate_local addressable covered
  have insideOther := isCoordinate_local addressableOther coveredOther
  -- a point of both maps is not before the one corner and not before the other
  have offset : map.raster.position - other.raster.position =
      ⟨map.raster.position.x - other.raster.position.x,
        map.raster.position.y - other.raster.position.y⟩ := by
    change (⟨narrowCoordinate _, narrowCoordinate _⟩ : Point) = _
    rw [isCoordinate_iff, isCoordinate_iff] at inside insideOther
    unfold Rectangle.Covers Between at covered coveredOther
    rw [narrowCoordinate_eq, narrowCoordinate_eq]
    all_goals
      rw [isCoordinate_iff]
      dsimp only [Coordinate] at *
      omega
  rw [offset]
  exact sampleShifted_corner addressableOther coveredOther

/-- An operation with another map redraws the points that both cover. -/
theorem redraws_zipWith (full : map.IsFull) (addressable : map.raster.Addressable)
    (addressableOther : other.raster.Addressable)
    (clear : map.raster.Negatable ∨ ¬map.raster.Meet other.raster) (f : Height → Height → Height) :
    map.Redraws (zipWith f map other) fun x y =>
      if other.raster.Covers x y then f (map.heightAt x y) (other.heightAt x y)
      else map.heightAt x y := by
  refine redraws_overlay (f := fun x y height => f height (other.heightAt x y)) full addressable clear
    fun point covered coveredOther => ?_
  rw [sampleShifted_eq addressable addressableOther covered coveredOther]
  rfl

/-! ### Plain maps -/

theorem IsPlain.addressable (plain : map.IsPlain) : map.raster.Addressable := plain.modest.addressable

/-- A plain map is redrawn as a plain map. -/
theorem IsPlain.draws (plain : map.IsPlain) {result : Except Breach HeightMap}
    {heights : Int → Int → Height} (redraws : map.Redraws result heights) :
    Draws result map.raster heights := by
  obtain ⟨after, ended, shape, drawn⟩ := redraws
  have scale : after.scale = 1.0 := shape.scale.trans plain.scale
  have logical : after.logical = after.raster :=
    shape.logical.trans (plain.logical.trans shape.raster.symm)
  exact ⟨after, ended, ⟨scale, logical, shape.full plain.full, shape.raster ▸ plain.modest⟩,
    shape.raster, drawn⟩

/-- The samples that a map shares with a rectangle change, each by its own function. -/
theorem draws_overlay (plain : map.IsPlain) {raster : Rectangle}
    {change : Point → Except Breach (Height → Height)} {f : Int → Int → Height → Height}
    (each : ∀ point,
      map.raster.Covers (point.x + map.raster.position.x) (point.y + map.raster.position.y) →
      raster.Covers (point.x + map.raster.position.x) (point.y + map.raster.position.y) →
      change point = .ok (f (point.x + map.raster.position.x) (point.y + map.raster.position.y))) :
    Draws (map.updateCells (map.overlap raster) change) map.raster fun x y =>
      if raster.Covers x y then f x y (map.heightAt x y) else map.heightAt x y :=
  plain.draws (redraws_overlay plain.full plain.addressable (.inl plain.modest.negatable) each)

theorem draws_zipWith (plain : map.IsPlain) (plainOther : other.IsPlain)
    (f : Height → Height → Height) :
    Draws (zipWith f map other) map.raster fun x y =>
      if other.raster.Covers x y then f (map.heightAt x y) (other.heightAt x y)
      else map.heightAt x y :=
  plain.draws (redraws_zipWith plain.full plain.addressable plainOther.addressable
    (.inl plain.modest.negatable) f)

theorem draws_zipWith3 (plain : map.IsPlain) (plainFirst : first.IsPlain)
    (plainSecond : second.IsPlain) (f : Height → Height → Height → Height) :
    Draws (zipWith3 f map first second) map.raster fun x y =>
      if first.raster.Covers x y ∧ second.raster.Covers x y then
        f (map.heightAt x y) (first.heightAt x y) (second.heightAt x y)
      else map.heightAt x y := by
  have both {x y : Int} := @Rectangle.covers_intersect first.raster second.raster x y
    plainFirst.modest.extents.1 plainFirst.modest.extents.2
  have draws : Draws (zipWith3 f map first second) map.raster fun x y =>
      if (first.raster.intersect second.raster).Covers x y then
        f (map.heightAt x y) (first.heightAt x y) (second.heightAt x y)
      else map.heightAt x y := by
    refine draws_overlay (f := fun x y height => f height (first.heightAt x y) (second.heightAt x y))
      plain fun point covered shared => ?_
    rw [sampleShifted_eq plain.addressable plainFirst.addressable covered (both.1 shared).1,
      sampleShifted_eq plain.addressable plainSecond.addressable covered (both.1 shared).2]
    rfl
  exact draws.congr fun x y _ => by simp only [both]

/-! ## By place -/

theorem IsPlain.covers_localRectangle (plain : map.IsPlain) {rectangle : Rectangle}
    (within : rectangle.Within 1073741824) :
    (map.localRectangle rectangle).Covers x y ↔
      rectangle.Covers (x + map.raster.position.x) (y + map.raster.position.y) := by
  rw [localRectangle, plain.scale, Rectangle.scaled_one within (by decide), plain.covers_local within]

theorem draws_crop (plain : map.IsPlain) {rectangle : Rectangle}
    (within : rectangle.Within 1073741824) (value : Height) :
    Draws (.ok (map.crop rectangle value)) map.raster fun x y =>
      if rectangle.Covers x y then map.heightAt x y else value := by
  have draws := draws_mapCells plain fun point height =>
    if (map.localRectangle rectangle).containsPoint point then height else value
  refine draws.congr fun x y _ => ?_
  simp only [Rectangle.containsPoint_iff, plain.covers_localRectangle within, Int.sub_add_cancel]

/-- Every point of the rectangle is filled, seen from a position that was moved if it has no
opposite. -/
theorem redraws_fillRectangle (full : map.IsFull) (addressable : map.raster.Addressable)
    {rectangle : Rectangle} (unscaled : rectangle.scaled map.scale = rectangle)
    (movable : map.raster.Movable rectangle) (value : Height) :
    map.Redraws (map.fillRectangle rectangle value) fun x y =>
      if rectangle.Covers (x + slip map.raster.position.x) (y + slip map.raster.position.y) then value
      else map.heightAt x y := by
  have area {point : Point} := @Rectangle.mem_inset _ _ point addressable movable
  rw [fillRectangle, localRectangle, unscaled]
  have redraws := @redraws_updateCells map full _ (fun _ => .ok fun _ => value) (fun _ _ => value)
    (fun point member => covers_bounds.2 (area.1 member).1) fun _ _ => rfl
  refine redraws.congr fun x y covered => ?_
  simp only [area, Int.sub_add_cancel, covered, true_and]

theorem draws_fillRectangle (plain : map.IsPlain) {rectangle : Rectangle}
    (within : rectangle.Within 1073741824) (value : Height) :
    Draws (map.fillRectangle rectangle value) map.raster fun x y =>
      if rectangle.Covers x y then value else map.heightAt x y := by
  have unscaled : rectangle.scaled map.scale = rectangle := by
    rw [plain.scale, Rectangle.scaled_one within (by decide)]
  have redraws := redraws_fillRectangle plain.full plain.addressable unscaled within.movable value
  obtain ⟨left, top⟩ := plain.modest.negatable
  rw [slip_of_ne left, slip_of_ne top] at redraws
  simp only [Int.add_zero] at redraws
  exact plain.draws redraws

/-- The part of a rectangle that a tile has, in local coordinates of the tile. -/
theorem IsPlain.intersect_localRectangle (plain : map.IsPlain) {rectangle : Rectangle}
    (within : rectangle.Within 1073741824) :
    Rectangle.intersect (map.localRectangle rectangle) map.bounds =
      ⟨⟨(rectangle.intersect map.raster).position.x - map.raster.position.x,
        (rectangle.intersect map.raster).position.y - map.raster.position.y⟩,
        (rectangle.intersect map.raster).size⟩ := by
  rw [localRectangle, plain.scale, Rectangle.scaled_one within (by decide), plain.translated_eq within]
  simp only [Rectangle.intersect, Rectangle.ofIntervals, Interval.intersect, Interval.stop,
    Rectangle.horizontal, Rectangle.vertical, narrowExtent_eq_min, bounds, Point.origin]
  congr 2
  all_goals
    dsimp only [Coordinate, Extent]
    omega

/-- A rectangle of a tile, repeated from the origin on. -/
def tiled (tile : Rectangle) (heights : Int → Int → Height) (x y : Int) : Height :=
  heights (x % tile.size.width + tile.position.x) (y % tile.size.height + tile.position.y)

/-- The part of a rectangle that the tile has is repeated over the map. -/
theorem draws_pattern (plain : map.IsPlain) (plainTile : other.IsPlain) {rectangle : Rectangle}
    (within : rectangle.Within 1073741824) :
    Draws (map.pattern other rectangle) map.raster fun x y =>
      if (rectangle.intersect other.raster).isEmpty then map.heightAt x y
      else tiled (rectangle.intersect other.raster) other.heightAt x y := by
  have shared := within.intersect plainTile.modest
  have inside {x y : Int} := @Rectangle.covers_intersect rectangle other.raster x y
    within.extents.1 within.extents.2
  unfold pattern
  rw [plainTile.intersect_localRectangle within]
  generalize rectangle.intersect other.raster = tile at *
  have same : (rectangle.isEmpty || (⟨⟨tile.position.x - other.raster.position.x,
      tile.position.y - other.raster.position.y⟩, tile.size⟩ : Rectangle).isEmpty) = tile.isEmpty := by
    change (rectangle.isEmpty || tile.isEmpty) = tile.isEmpty
    by_cases none : rectangle.isEmpty = true
    · have noTile : tile.isEmpty = true := Rectangle.isEmpty_iff.2 fun x y covered =>
        Rectangle.isEmpty_iff.1 none x y (inside.1 covered).1
      rw [none, noTile]
      rfl
    · rw [Bool.not_eq_true] at none
      rw [none, Bool.false_or]
  dsimp only
  rw [same]
  by_cases empty : tile.isEmpty = true
  · simp only [empty, if_true]
    exact draws_self plain
  simp only [empty, Bool.false_eq_true, if_false]
  refine (@draws_updateCells map plain map.bounds _ (fun point _ => tiled tile other.heightAt
    (point.x + map.raster.position.x) (point.y + map.raster.position.y))
    (fun point member => plain.mem_bounds.1 member) fun point member => ?_).congr
      fun x y covered => ?_
  · have positive : (0 : Int) < tile.size.width ∧ (0 : Int) < tile.size.height := by
      simp only [Rectangle.isEmpty, Size.area, beq_iff_eq, Nat.mul_eq_zero, not_or] at empty
      omega
    obtain ⟨-, -, width, height⟩ := shared
    unfold Below at width height
    have column := Int.emod_nonneg (point.x + map.raster.position.x) (Int.ne_of_gt positive.1)
    have column' := Int.emod_lt_of_pos (point.x + map.raster.position.x) positive.1
    have row := Int.emod_nonneg (point.y + map.raster.position.y) (Int.ne_of_gt positive.2)
    have row' := Int.emod_lt_of_pos (point.y + map.raster.position.y) positive.2
    have covered : other.raster.Covers
        ((point.x + map.raster.position.x) % tile.size.width + tile.position.x)
        ((point.y + map.raster.position.y) % tile.size.height + tile.position.y) := by
      refine (inside.1 ?_).2
      unfold Rectangle.Covers Between
      omega
    have wrapX : IsCoordinate ((point.x + map.raster.position.x) % tile.size.width) :=
      isCoordinate_iff.2 (by omega)
    have wrapY : IsCoordinate ((point.y + map.raster.position.y) % tile.size.height) :=
      isCoordinate_iff.2 (by omega)
    change (do
      let value ← other.sampleShifted ⟨wrapCoordinate (_ % _), wrapCoordinate (_ % _)⟩ _
      return fun _ => value) = _
    rw [wrapCoordinate_eq wrapX, wrapCoordinate_eq wrapY,
      @sampleShifted_corner other plainTile.addressable ⟨_, _⟩ tile.position covered]
    rfl
  · simp only [plain.mem_bounds, covers_bounds, Int.sub_add_cancel, covered, if_true]

/-! ## New places -/

theorem draws_create {rectangle : Rectangle} (within : rectangle.Within 1073741824) (height : Height) :
    Draws (.ok (create rectangle height 1.0)) rectangle fun _ _ => height := by
  have same : create rectangle height 1.0 = filled rectangle rectangle height 1.0 := by
    rw [create, Rectangle.scaled_one within (by decide)]
  have plain : (filled rectangle rectangle height 1.0).IsPlain :=
    ⟨rfl, rfl, Array.size_replicate, within⟩
  rw [same]
  refine ⟨_, rfl, plain, rfl, fun x y covered => ?_⟩
  have place := index_lt plain.full covered
  simp only [filled, Array.size_replicate] at place
  simp [heightAt, filled, place]

theorem draws_cutout (plain : map.IsPlain) {rectangle : Rectangle}
    (within : rectangle.Within 1073741824) :
    Draws (map.cutout rectangle) rectangle fun x y =>
      if map.raster.Covers x y then map.heightAt x y else 0 := by
  obtain ⟨blank, ended, plainBlank, placed, zeros⟩ := draws_create within 0
  cases ended
  unfold cutout
  rw [plain.scale]
  have draws := draws_zipWith plainBlank plain fun _ value => value
  rw [placed] at draws
  refine draws.congr fun x y covered => ?_
  rw [zeros x y covered]

theorem draws_moveBy (plain : map.IsPlain) {offset : Point} (inRangeX : IsCoordinate offset.x)
    (inRangeY : IsCoordinate offset.y)
    (within : (map.raster.translated offset).Within 1073741824) :
    Draws (.ok (map.moveBy offset)) (map.raster.translated offset) fun x y =>
      map.heightAt (x - offset.x) (y - offset.y) := by
  have still : offset.scaled 1.0 = offset := by
    unfold Point.scaled
    rw [Point.scaleCoordinate_one inRangeX, Point.scaleCoordinate_one inRangeY]
  have raster : (map.moveBy offset).raster = map.raster.translated offset := by
    rw [moveBy, plain.scale, still]
  -- a saturated position would not be within the limit
  have position : (map.raster.translated offset).position =
      ⟨map.raster.position.x + offset.x, map.raster.position.y + offset.y⟩ := by
    obtain ⟨left, top, -, -⟩ := within
    change (⟨narrowCoordinate _, narrowCoordinate _⟩ : Point) = _
    rw [narrowCoordinate_of_below left (by decide), narrowCoordinate_of_below top (by decide)]
  refine ⟨_, rfl, ⟨plain.scale, ?_, ?_, ?_⟩, raster, fun x y covered => ?_⟩
  · rw [raster, moveBy, plain.logical]
  · rw [raster]
    exact plain.full
  · rwa [raster]
  · have back (value corner shift : Int) : value - (corner + shift) = value - shift - corner := by
      omega
    unfold heightAt
    rw [raster, position]
    dsimp only
    rw [back, back]
    rfl

end HeightMap

end Terrain
