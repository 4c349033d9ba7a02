import Terrain.Proofs.Line.Buffers
import Terrain.Proofs.Raster.Smoothing

/-!
# Distances are exact

A squared distance in the plane is one along a row plus one along a column, so the transform along the
rows and then along the columns takes the minimum over all samples. Over exact numbers, the distance map
works with the least squared distance to a sample that is not positive, cut off at the limit.

* `HeightMap.squaredGaps` — squared distances to the samples that are not positive.
* `HeightMap.isLeast_squaredDistances` — the distances of a map.
* `distances_are_least` — the transform of a line and the distances of a map are minima.
-/

namespace Terrain

namespace HeightMap

variable {map : HeightMap} {limit x y x' y' : Nat}

/-- Where distances are cut off: at the greatest one, but not below a sample. -/
def distanceLimit (map : HeightMap) (maxDistance : Extent) : Nat :=
  max (scaledExtent map.scale maxDistance) 1

/-- Squared distances from a place to the samples that are not positive. -/
def squaredGaps (map : HeightMap) (x y : Nat) : Set ℚ :=
  {squared | ∃ (x' y' : Nat) (height : Height), map.sampleAt x' y' = .ok height ∧ height ≤ 0 ∧
    squared = ((x : ℚ) - x') ^ 2 + ((y : ℚ) - y') ^ 2}

/-- What a sample adds to the distances to it. -/
def costAt (map : HeightMap) (limit x y : Nat) : ℚ :=
  if map.samples.getD (x + map.raster.size.width * y) 0 ≤ 0 then 0 else (limit : ℚ) * limit

def costs (map : HeightMap) (limit : Nat) : Array ℚ :=
  map.samples.map fun height => if height ≤ 0 then ((0 : Nat) : ℚ) else (limit : ℚ) * limit

def rowDistances (map : HeightMap) (limit : Nat) : Array ℚ :=
  Grid.mapRows map.raster.size.width map.raster.size.height (Line.distanceTransform Nat.cast)
    (map.costs limit)

theorem size_costs (full : map.IsFull) :
    (map.costs limit).size = map.raster.size.width * map.raster.size.height :=
  Array.size_map.trans full

theorem costs_getElem? (full : map.IsFull) (inColumn : x < map.raster.size.width)
    (inside : y < map.raster.size.height) :
    (map.costs limit)[x + map.raster.size.width * y]? = some (map.costAt limit x y) := by
  have place : x + map.raster.size.width * y < map.samples.size := by
    rw [full]
    exact Grid.place_lt inColumn inside
  simp [costs, costAt, place]

theorem isLeast_rowDistances (full : map.IsFull) (inColumn : x < map.raster.size.width)
    (inside : y < map.raster.size.height) :
    IsLeast {reached | ∃ x' < map.raster.size.width,
        reached = ((x : ℚ) - x') ^ 2 + map.costAt limit x' y}
      ((map.rowDistances limit).getD (x + map.raster.size.width * y) default) := by
  have size : (Grid.row map.raster.size.width (map.costs limit) y).size = map.raster.size.width :=
    Grid.size_row (size_costs full) inside
  have same : Line.reaches (Grid.row map.raster.size.width (map.costs limit) y) x =
      {reached | ∃ x' < map.raster.size.width,
        reached = ((x : ℚ) - x') ^ 2 + map.costAt limit x' y} := by
    ext reached
    rw [Line.reaches, size]
    refine exists_congr fun x' => and_congr_right fun inColumn' => ?_
    rw [Line.reach, Array.getD_eq_getD_getElem?,
      Grid.getElem?_row (size_costs full) inColumn' inside, costs_getElem? full inColumn' inside, sq]
    rfl
  have least := Line.isLeast_distanceTransform (size.symm ▸ inColumn)
  rwa [same, Array.getD_eq_getD_getElem?, ← Grid.getElem?_mapRows Line.size_distanceTransform
    (size_costs full) inColumn inside, ← Array.getD_eq_getD_getElem?] at least

/-- Only places of the raster have samples. -/
theorem sampleAt_eq_ok {height : Height} (read : map.sampleAt x y = .ok height) :
    x < map.raster.size.width ∧ y < map.raster.size.height ∧
      height = map.samples.getD (x + map.raster.size.width * y) 0 := by
  have inside : x < map.raster.size.width ∧ y < map.raster.size.height := by
    by_contra outside
    have uncovered : ¬(⟨.origin, map.raster.size⟩ : Rectangle).containsPoint ⟨x, y⟩ := by
      rw [Rectangle.containsPoint_iff]
      simp only [Rectangle.Covers, Between, Point.origin]
      omega
    rw [sampleAt, indexOf, if_neg uncovered] at read
    cases read
  rw [sampleAt_of_inside inside.1 inside.2] at read
  exact ⟨inside.1, inside.2, (Except.ok.inj read).symm⟩

theorem isLeast_columnDistances (full : map.IsFull) (inColumn : x < map.raster.size.width)
    (inside : y < map.raster.size.height) :
    IsLeast {reached | ∃ x' < map.raster.size.width, ∃ y' < map.raster.size.height,
        reached = ((x : ℚ) - x') ^ 2 + ((y : ℚ) - y') ^ 2 + map.costAt limit x' y'}
      ((map.squaredDistances Nat.cast limit).getD (x + map.raster.size.width * y) default) := by
  set line := Grid.column map.raster.size.width map.raster.size.height (map.rowDistances limit) x with lineIs
  have size : line.size = map.raster.size.height := Grid.size_column
  have reach {y' : Nat} (inside' : y' < map.raster.size.height) : Line.reach line y' y =
      ((y : ℚ) - y') ^ 2 +
        (map.rowDistances limit).getD (x + map.raster.size.width * y') default := by
    rw [Line.reach, lineIs, Grid.getD_column inside', sq]
  have value : (map.squaredDistances Nat.cast limit).getD (x + map.raster.size.width * y) default =
      (Line.distanceTransform Nat.cast line).getD y default :=
    Grid.getD_mapColumns inColumn inside
  obtain ⟨⟨y', inside', attained⟩, least⟩ := Line.isLeast_distanceTransform (size.symm ▸ inside)
  rw [size] at inside'
  rw [reach inside'] at attained
  rw [value, attained]
  constructor
  · obtain ⟨x', inColumn', row⟩ := (isLeast_rowDistances full inColumn inside').1
    exact ⟨x', inColumn', y', inside', by rw [row]; ring⟩
  · rintro _ ⟨x', inColumn', y'', inside'', rfl⟩
    have row : (map.rowDistances limit).getD (x + map.raster.size.width * y'') default ≤
        ((x : ℚ) - x') ^ 2 + map.costAt limit x' y'' :=
      (isLeast_rowDistances full inColumn inside'').2 ⟨x', inColumn', rfl⟩
    have column := least ⟨y'', by rwa [size], rfl⟩
    rw [attained, reach inside''] at column
    linarith

/-- The distances of a map: cut off at the limit, and exact up to it. -/
theorem isLeast_squaredDistances (full : map.IsFull) (inColumn : x < map.raster.size.width)
    (inside : y < map.raster.size.height) :
    IsLeast (insert ((limit : ℚ) ^ 2) (map.squaredGaps x y))
      ((map.squaredDistances Nat.cast limit).getD (x + map.raster.size.width * y) default) := by
  obtain ⟨⟨x', inColumn', y', inside', attained⟩, least⟩ :=
    isLeast_columnDistances full inColumn inside
  -- the cost of the place itself keeps its distance within the limit
  have cut : (map.squaredDistances Nat.cast limit).getD (x + map.raster.size.width * y) default ≤
      (limit : ℚ) ^ 2 := by
    refine (least ⟨x, inColumn, y, inside, rfl⟩).trans ?_
    rw [costAt]
    split <;> nlinarith [sq_nonneg (limit : ℚ)]
  constructor
  · rw [costAt] at attained
    split at attained
    case isTrue low =>
      exact .inr ⟨x', y', _, sampleAt_of_inside inColumn' inside', low, by rw [attained, add_zero]⟩
    case isFalse high =>
      refine .inl (le_antisymm cut ?_)
      rw [attained]
      nlinarith [sq_nonneg ((x : ℚ) - x'), sq_nonneg ((y : ℚ) - y')]
  · rintro _ (rfl | ⟨x'', y'', height, sample, low, rfl⟩)
    · exact cut
    · obtain ⟨inColumn'', inside'', rfl⟩ := sampleAt_eq_ok sample
      refine least ⟨x'', inColumn'', y'', inside'', ?_⟩
      rw [costAt, if_pos low, add_zero]

end HeightMap

/-- Over exact numbers the transform of a line takes the minimum at every position, without an access
out of range or a step below the first piece. So the distances of a map, which are cut off at the
greatest distance or one sample, are the least squared distances to the samples that are not positive. -/
theorem distances_are_least :
    (∀ costs : Array ℚ,
      Line.transformBuffers costs = some (Line.distanceTransform Nat.cast costs) ∧
      (Line.distanceTransform Nat.cast costs).size = costs.size ∧
      ∀ place < costs.size, IsLeast {reached | ∃ vertex < costs.size,
          reached = ((place : ℚ) - vertex) ^ 2 + costs.getD vertex default}
        ((Line.distanceTransform Nat.cast costs).getD place default)) ∧
    ∀ (map : HeightMap) (maxDistance : Extent), map.IsFull →
      (map.squaredDistances (Nat.cast : Nat → ℚ) (map.distanceLimit maxDistance)).size =
        map.raster.size.area ∧
      ∀ x y : Nat, x < map.raster.size.width → y < map.raster.size.height →
        IsLeast (insert ((map.distanceLimit maxDistance : ℚ) ^ 2) (map.squaredGaps x y))
          ((map.squaredDistances Nat.cast (map.distanceLimit maxDistance)).getD
            (x + map.raster.size.width * y) default) := by
  refine ⟨fun costs => ⟨Line.transformBuffers_eq costs, Line.size_distanceTransform costs,
    fun place inside => ?_⟩, fun map _ full => ⟨Grid.size_mapColumns, fun x y inColumn inside =>
    HeightMap.isLeast_squaredDistances full inColumn inside⟩⟩
  have least := Line.isLeast_distanceTransform inside
  simp only [Line.reaches, Line.reach, ← sq] at least
  exact least

def pit : HeightMap :=
  ⟨⟨⟨-1, 4⟩, ⟨3, 2⟩⟩, ⟨⟨-1, 4⟩, ⟨3, 2⟩⟩, 1.0, #[-3, 5, 1, 2, 9, 32767]⟩

/-- A place across the hollow sees it, and one that is farther away is cut off. -/
theorem pit_distances_are_least :
    pit.IsFull ∧ pit.distanceLimit 2 = 2 ∧
      IsLeast (insert (((2 : Nat) : ℚ) ^ 2) (pit.squaredGaps 1 1)) 2 ∧
      IsLeast (insert (((2 : Nat) : ℚ) ^ 2) (pit.squaredGaps 2 1)) 4 := by
  have full : pit.IsFull := rfl
  have limit : pit.distanceLimit 2 = 2 := by
    rw [HeightMap.distanceLimit, pit, scaledExtent_one (by decide)]
    rfl
  have least := (distances_are_least.2 pit 2 full).2
  rw [limit] at least
  have near : (pit.squaredDistances (Nat.cast : Nat → ℚ) 2).getD (1 + pit.raster.size.width * 1)
      default = 2 := by decide +kernel
  have far : (pit.squaredDistances (Nat.cast : Nat → ℚ) 2).getD (2 + pit.raster.size.width * 1)
      default = 4 := by decide +kernel
  have across := least 1 1 (by decide) (by decide)
  have beyond := least 2 1 (by decide) (by decide)
  rw [near] at across
  rw [far] at beyond
  exact ⟨full, limit, across, beyond⟩

end Terrain
