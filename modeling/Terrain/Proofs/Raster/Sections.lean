import Terrain.Proofs.Raster.Overlays

/-!
# Sections of maps

A projection stretches a profile across a map, and a section reads a line of the map along the profile.
The two name their direction the other way round: what a projection across the rows stretches, a section
along the rows reads.

* `HeightMap.heightAlong` — the height at a place on a line.
* `HeightMap.redraws_projection` — the profile on every line.
* `HeightProfile.redraws_slice` — the line where the map has it.
* `slice_projection` — a section of a projection.
-/

namespace Terrain

def Direction.crossed : Direction → Direction
  | .horizontal => .vertical
  | .vertical => .horizontal

theorem Point.along_sum (p q : Point) (direction : Direction) :
    (⟨p.x + q.x, p.y + q.y⟩ : Point).along direction = p.along direction + q.along direction := by
  cases direction with
  | horizontal => rfl
  | vertical => rfl

/-! ## Axes -/

namespace Rectangle

variable {rectangle : Rectangle} {interval : Interval} {limit : Nat} {x y : Int}

/-- Covered points are not twice as far away. -/
theorem Within.below (within : rectangle.Within limit) (covered : rectangle.Covers x y) :
    Below x (2 * limit) ∧ Below y (2 * limit) := by
  obtain ⟨left, top, width, height⟩ := within
  unfold Covers Between at covered
  unfold Below at *
  omega

theorem Within.below_along (within : rectangle.Within limit) (covered : rectangle.Covers x y)
    (direction : Direction) : Below ((⟨x, y⟩ : Point).along direction) (2 * limit) := by
  cases direction with
  | horizontal => exact (within.below covered).1
  | vertical => exact (within.below covered).2

theorem Addressable.along (addressable : rectangle.Addressable) (direction : Direction) :
    (rectangle.along direction).Addressable := by
  cases direction with
  | horizontal => exact addressable.horizontal
  | vertical => exact addressable.vertical

theorem Addressable.across (addressable : rectangle.Addressable) (direction : Direction) :
    (rectangle.across direction).Addressable := by
  cases direction with
  | horizontal => exact addressable.vertical
  | vertical => exact addressable.horizontal

/-- A band reaches over all coordinates but the last one. -/
theorem covers_band {direction : Direction} (inX : Below x 2147483647) (inY : Below y 2147483647) :
    (band interval direction.crossed).Covers x y ↔ interval.Covers ((⟨x, y⟩ : Point).along direction) := by
  have everywhere {value : Int} (inside : Below value 2147483647) :
      Between coordinateMin extentMax value := by
    unfold Below at inside
    exact ⟨show (-2147483648 : Int) ≤ value by omega, show value < (2147483647 : Int) by omega⟩
  cases direction with
  | horizontal => exact and_iff_left (everywhere inY)
  | vertical => exact and_iff_right (everywhere inX)

end Rectangle

/-! ## Projections -/

namespace HeightMap

variable {map : HeightMap} {profile : HeightProfile} {x y : Int}

def heightAlong (map : HeightMap) : Direction → Int → Int → Height
  | .horizontal, x, line => map.heightAt x line
  | .vertical, y, line => map.heightAt line y

theorem profileCoordinate_crossed (direction : Direction) (point : Point) :
    map.profileCoordinate direction.crossed point =
      checkCoordinate (point.along direction + map.raster.position.along direction) := by
  cases direction with
  | horizontal => rfl
  | vertical => rfl

/-- Every line along the profile takes what the profile has of it. -/
theorem redraws_projection (full : map.IsFull) (modest : map.raster.Within 536870912)
    (modestProfile : profile.interval.Within 536870912) (direction : Direction) :
    map.Redraws (map.projection profile direction.crossed) fun x y =>
      if profile.interval.Covers ((⟨x, y⟩ : Point).along direction) then
        profile.heightAt ((⟨x, y⟩ : Point).along direction)
      else map.heightAt x y := by
  have modest' : map.raster.Within 1073741824 := modest.mono (by decide)
  have band {x y : Int} (covered : map.raster.Covers x y) :
      (Rectangle.band profile.interval direction.crossed).Covers x y ↔
        profile.interval.Covers ((⟨x, y⟩ : Point).along direction) := by
    obtain ⟨belowX, belowY⟩ := modest.below covered
    exact Rectangle.covers_band (Nat.lt_trans belowX (by decide)) (Nat.lt_trans belowY (by decide))
  refine Redraws.congr (redraws_overlay
    (f := fun x y _ => profile.heightAt ((⟨x, y⟩ : Point).along direction))
    full modest'.addressable (.inl modest'.negatable) fun point covered inBand => ?_)
    fun x y covered => ?_
  · -- the profile is read at the place of the point along its axis
    have inProfile := (band covered).1 inBand
    have addressable := (modestProfile.mono (by decide)).addressable
    have inRange : IsCoordinate (point.along direction + map.raster.position.along direction) := by
      have below := modest.below_along covered direction
      rw [Point.along_sum] at below
      unfold Below at below
      rw [isCoordinate_iff]
      omega
    rw [Point.along_sum] at inProfile ⊢
    rw [profileCoordinate_crossed, checkCoordinate_eq inRange]
    change checkCoordinate _ >>= _ = _
    rw [checkCoordinate_eq (addressable.isCoordinate_local inProfile)]
    change profile.sampleAt _ >>= _ = _
    rw [HeightProfile.sampleAt_eq inProfile]
    rfl
  · simp only [band covered]

end HeightMap

/-! ## Lines -/

namespace HeightProfile

variable {target : HeightProfile} {map : HeightMap} {direction : Direction} {coordinate x line : Int}

/-- Taking the height at a place on a line. -/
theorem take_line (inAlong : (map.raster.along direction).Covers x)
    (inAcross : (map.raster.across direction).Covers line) :
    (match direction with
      | .horizontal => do
        let value ← map.sampleAt (x - (map.raster.along direction).start)
          (line - (map.raster.across direction).start)
        return fun _ : Height => value
      | .vertical => do
        let value ← map.sampleAt (line - (map.raster.across direction).start)
          (x - (map.raster.along direction).start)
        return fun _ : Height => value) = .ok fun _ => map.heightAlong direction x line := by
  have back (value start : Int) : value - start + start = value := Int.sub_add_cancel value start
  cases direction with
  | horizontal =>
    have read := @HeightMap.sampleAt_eq map (x - map.raster.position.x) (line - map.raster.position.y)
    rw [back, back] at read
    exact congrArg (· >>= fun value => .ok fun _ : Height => value) (read ⟨inAlong, inAcross⟩)
  | vertical =>
    have read := @HeightMap.sampleAt_eq map (line - map.raster.position.x) (x - map.raster.position.y)
    rw [back, back] at read
    exact congrArg (· >>= fun value => .ok fun _ : Height => value) (read ⟨inAcross, inAlong⟩)

/-- The profile takes what the map has of the line. -/
theorem redraws_slice (full : target.IsFull) (addressable : target.interval.Addressable)
    (negatable : target.interval.start ≠ coordinateMin) (addressableMap : map.raster.Addressable)
    (near : IsCoordinate (target.interval.start - (map.raster.along direction).start))
    (inside : (map.raster.across direction).Covers (Point.scaleCoordinate coordinate target.scale)) :
    target.Redraws (target.slice map direction coordinate) fun x =>
      if (map.raster.along direction).Covers x then
        map.heightAlong direction x (Point.scaleCoordinate coordinate target.scale)
      else target.heightAt x := by
  unfold slice
  generalize Point.scaleCoordinate coordinate target.scale = line at *
  have onMap : (map.raster.across direction).contains line = true := Interval.contains_iff.2 inside
  have inRange := (addressableMap.across direction).isCoordinate_local inside
  dsimp only
  rw [onMap, checkCoordinate_eq inRange, checkCoordinate_eq near]
  refine redraws_overlay (f := fun x _ => map.heightAlong direction x line) full addressable negatable
    fun x _ onLine => ?_
  have place : x + (target.interval.start - (map.raster.along direction).start) =
      x + target.interval.start - (map.raster.along direction).start := (Int.add_sub_assoc ..).symm
  rw [place, checkCoordinate_eq ((addressableMap.along direction).isCoordinate_local onLine)]
  exact take_line onLine inside

end HeightProfile

/-! ## Sections of projections -/

/-- A section along the profile that was stretched over a map gives the profile back. -/
theorem slice_projection {map : HeightMap} {profile target : HeightProfile} (full : map.IsFull)
    (fullTarget : target.IsFull) (modest : map.raster.Within 536870912)
    (modestProfile : profile.interval.Within 536870912)
    (modestTarget : target.interval.Within 536870912) {direction : Direction} {coordinate : Coordinate}
    (inside : (map.raster.across direction).Covers
      (Point.scaleCoordinate coordinate target.scale)) :
    ∃ projected sliced, map.projection profile direction.crossed = .ok projected ∧
      target.slice projected direction coordinate = .ok sliced ∧
      map.SameShape projected ∧ target.SameShape sliced ∧
      (∀ x y, map.raster.Covers x y → ¬profile.interval.Covers ((⟨x, y⟩ : Point).along direction) →
        projected.heightAt x y = map.heightAt x y) ∧
      ∀ x, target.interval.Covers x → sliced.heightAt x =
        if (map.raster.along direction).Covers x then
          if profile.interval.Covers x then profile.heightAt x
          else map.heightAlong direction x (Point.scaleCoordinate coordinate target.scale)
        else target.heightAt x := by
  have modest' : map.raster.Within 1073741824 := modest.mono (by decide)
  have modestTarget' : target.interval.Within 1073741824 := modestTarget.mono (by decide)
  obtain ⟨projected, projects, shape, heights⟩ :=
    HeightMap.redraws_projection full modest modestProfile direction
  dsimp only at heights
  -- the section reads the projected map, which lies where the map lay
  have raster : projected.raster = map.raster := shape.raster
  have near : IsCoordinate (target.interval.start - (projected.raster.along direction).start) := by
    have start := modestTarget.start
    have start' := (modest.along direction).start
    unfold Below at start start'
    rw [raster, isCoordinate_iff]
    dsimp only [Coordinate] at *
    omega
  obtain ⟨sliced, slices, shape', heights'⟩ := HeightProfile.redraws_slice fullTarget
    modestTarget'.addressable modestTarget'.negatable (raster ▸ modest'.addressable) near
    (raster ▸ inside)
  simp only [raster] at heights'
  refine ⟨projected, sliced, projects, slices, shape, shape', fun x y covered outside => ?_,
    fun x covered => ?_⟩
  · rw [heights x y covered, if_neg outside]
  · rw [heights' x covered]
    by_cases inAlong : (map.raster.along direction).Covers x
    · rw [if_pos inAlong, if_pos inAlong]
      cases direction with
      | horizontal => exact heights _ _ ⟨inAlong, inside⟩
      | vertical => exact heights _ _ ⟨inside, inAlong⟩
    · rw [if_neg inAlong, if_neg inAlong]

def ledge : HeightMap := .filled ⟨⟨-2, 1⟩, ⟨4, 2⟩⟩ ⟨⟨-2, 1⟩, ⟨4, 2⟩⟩ 3 1.0

def ledgeShape : HeightProfile := .filled ⟨-3, 3⟩ 7 1.0

def ledgeTarget : HeightProfile := .filled ⟨-4, 8⟩ 5 1.0

theorem ledge_slice_projection :
    ∃ projected sliced, ledge.projection ledgeShape .vertical = .ok projected ∧
      ledgeTarget.slice projected .horizontal 2 = .ok sliced ∧
      sliced.heightAt (-3) = 5 ∧ sliced.heightAt (-1) = 7 ∧ sliced.heightAt 0 = 3 := by
  have scaled : Point.scaleCoordinate 2 ledgeTarget.scale = 2 :=
    Point.scaleCoordinate_one (by decide)
  obtain ⟨projected, sliced, projects, slices, -, -, -, heights⟩ :=
    @slice_projection ledge ledgeShape ledgeTarget (HeightMap.isFull_filled _ _ _ _)
      (HeightProfile.isFull_filled _ _ _) (by decide) (by decide) (by decide) .horizontal 2
      (by rw [scaled]; decide)
  refine ⟨projected, sliced, projects, slices, ?_, ?_, ?_⟩
  · exact heights (-3) (by decide)
  · exact heights (-1) (by decide)
  · rw [heights 0 (by decide), scaled]
    decide

end Terrain
