import Terrain.Proofs.Plane.Regions
import Terrain.Raster.Map

/-!
# Samples by points

A map at scale one is a piece of the plane: its raster is the rectangle it stands for, and each sample
belongs to a point of it. Here are the ways to change samples, seen from the points.

* `HeightMap.heightAt` — the height at a point.
* `HeightMap.IsPlain` — a map at scale one, with figures that do not saturate.
* `Draws` — a computation ends with a plain map of given heights.
* `HeightMap.draws_mapSamples`, `HeightMap.draws_mapCells`, `HeightMap.draws_updateCells`.
-/

namespace Terrain

/-! ## Places in the buffer -/

def Size.index (size : Size) (x y : Int) : Nat := x.toNat + size.width * y.toNat

namespace Size

variable {size : Size} {x y x' y' : Int}

theorem index_lt (insideX : Between 0 size.width x) (insideY : Between 0 size.height y) :
    size.index x y < size.area := by
  unfold Between at insideX insideY
  have row : y.toNat + 1 ≤ size.height := by omega
  calc size.index x y
    _ < size.width + size.width * y.toNat := by
      unfold index
      omega
    _ = size.width * (y.toNat + 1) := by rw [Nat.mul_succ, Nat.add_comm]
    _ ≤ size.area := Nat.mul_le_mul_left _ row

theorem index_mod (insideX : Between 0 size.width x) : size.index x y % size.width = x.toNat := by
  unfold Between at insideX
  rw [index, Nat.add_mul_mod_self_left, Nat.mod_eq_of_lt (by omega)]

theorem index_div (insideX : Between 0 size.width x) : size.index x y / size.width = y.toNat := by
  unfold Between at insideX
  rw [index, Nat.add_mul_div_left _ _ (by omega), Nat.div_eq_of_lt (by omega), Nat.zero_add]

theorem index_inj (insideX : Between 0 size.width x) (insideX' : Between 0 size.width x')
    (insideY : Between 0 size.height y) (insideY' : Between 0 size.height y')
    (same : size.index x y = size.index x' y') : x = x' ∧ y = y' := by
  have columns := index_mod (y := y) insideX
  have rows := index_div (y := y) insideX
  rw [same, index_mod insideX'] at columns
  rw [same, index_div insideX'] at rows
  unfold Between at insideX insideX' insideY insideY'
  omega

end Size

namespace HeightMap

theorem indexOf_eq {size : Size} {point : Point}
    (inside : (⟨.origin, size⟩ : Rectangle).Covers point.x point.y) :
    indexOf size point = .ok (size.index point.x point.y) := by
  rw [indexOf, if_pos (Rectangle.containsPoint_iff.2 inside)]
  rfl

/-- Changing the samples of a list of points, each of them once. -/
theorem foldlM_modify {size : Size} {change : Point → Except Breach (Height → Height)}
    {f : Point → Height → Height} {points : List Point} (once : points.Nodup)
    (inside : ∀ point ∈ points, (⟨.origin, size⟩ : Rectangle).Covers point.x point.y)
    (each : ∀ point ∈ points, change point = .ok (f point)) {samples : Array Height}
    (full : samples.size = size.area) :
    ∃ after, points.foldlM (fun (samples : Array Height) point => do
        let f ← change point
        let i ← indexOf size point
        return samples.modify i f) samples = .ok after ∧ after.size = size.area ∧
      ∀ x y, (⟨.origin, size⟩ : Rectangle).Covers x y →
        after.getD (size.index x y) 0 =
          if ⟨x, y⟩ ∈ points then f ⟨x, y⟩ (samples.getD (size.index x y) 0)
          else samples.getD (size.index x y) 0 := by
  induction points generalizing samples with
  | nil => exact ⟨samples, rfl, full, fun x y _ => by simp⟩
  | cons point points ih =>
    rw [List.nodup_cons] at once
    rw [List.forall_mem_cons] at inside each
    have changed : (samples.modify (size.index point.x point.y) (f point)).size = size.area := by
      rw [Array.size_modify, full]
    obtain ⟨after, ran, size', heights⟩ := ih once.2 inside.2 each.2 changed
    refine ⟨after, ?_, size', fun x y covered => ?_⟩
    · rw [List.foldlM_cons, each.1, indexOf_eq inside.1]
      exact ran
    have place : size.index x y < samples.size := full ▸ Size.index_lt covered.1 covered.2
    rw [heights x y covered]
    simp only [Array.getD_eq_getD_getElem?, Array.getElem?_modify, List.mem_cons]
    by_cases same : (⟨x, y⟩ : Point) = point
    · subst same
      simp [once.1, place]
    · have different : size.index point.x point.y ≠ size.index x y := by
        intro equal
        obtain ⟨rfl, rfl⟩ := Size.index_inj inside.1.1 covered.1 inside.1.2 covered.2 equal
        exact same rfl
      simp [same, different]

/-! ## Heights at points -/

def heightAt (map : HeightMap) (x y : Int) : Height :=
  map.samples.getD (map.raster.size.index (x - map.raster.position.x) (y - map.raster.position.y)) 0

/-- A map at scale one whose figures are far from the ends of the coordinates. -/
structure IsPlain (map : HeightMap) : Prop where
  scale : map.scale = 1.0
  logical : map.logical = map.raster
  full : map.samples.size = map.raster.size.area
  modest : map.raster.Within 1073741824

end HeightMap

def Draws (result : Except Breach HeightMap) (raster : Rectangle) (heights : Int → Int → Height) :
    Prop :=
  ∃ map, result = .ok map ∧ map.IsPlain ∧ map.raster = raster ∧
    ∀ x y, raster.Covers x y → map.heightAt x y = heights x y

theorem Draws.congr {result : Except Breach HeightMap} {raster : Rectangle}
    {heights heights' : Int → Int → Height} (draws : Draws result raster heights)
    (same : ∀ x y, raster.Covers x y → heights x y = heights' x y) : Draws result raster heights' := by
  obtain ⟨map, ended, plain, placed, drawn⟩ := draws
  exact ⟨map, ended, plain, placed, fun x y covered => (drawn x y covered).trans (same x y covered)⟩

theorem Rectangle.Covers.between {rectangle : Rectangle} {x y : Int} (covered : rectangle.Covers x y) :
    Between 0 rectangle.size.width (x - rectangle.position.x) ∧
      Between 0 rectangle.size.height (y - rectangle.position.y) := by
  unfold Rectangle.Covers Between at *
  omega

namespace HeightMap

variable {map : HeightMap} {x y : Int}

theorem index_lt (full : map.samples.size = map.raster.size.area) (covered : map.raster.Covers x y) :
    map.raster.size.index (x - map.raster.position.x) (y - map.raster.position.y) <
      map.samples.size := by
  rw [full]
  exact Size.index_lt covered.between.1 covered.between.2

theorem covers_bounds : map.bounds.Covers x y ↔
    map.raster.Covers (x + map.raster.position.x) (y + map.raster.position.y) := by
  simp only [bounds, Point.origin, Rectangle.Covers, Between]
  omega

theorem sampleAt_eq (covered : map.raster.Covers (x + map.raster.position.x)
    (y + map.raster.position.y)) :
    map.sampleAt x y = .ok (map.heightAt (x + map.raster.position.x) (y + map.raster.position.y)) := by
  have inside : (⟨.origin, map.raster.size⟩ : Rectangle).Covers x y := covers_bounds.2 covered
  rw [sampleAt, indexOf_eq inside, heightAt, Int.add_sub_cancel, Int.add_sub_cancel]
  rfl

/-- New samples of the same number. -/
theorem IsPlain.withSamples (plain : map.IsPlain) {samples : Array Height}
    (same : samples.size = map.raster.size.area) : IsPlain { map with samples } :=
  ⟨plain.scale, plain.logical, same, plain.modest⟩

theorem draws_self (plain : map.IsPlain) : Draws (.ok map) map.raster map.heightAt :=
  ⟨map, rfl, plain, rfl, fun _ _ _ => rfl⟩

theorem draws_mapSamples (plain : map.IsPlain) (f : Height → Height) :
    Draws (.ok (map.mapSamples f)) map.raster fun x y => f (map.heightAt x y) := by
  refine ⟨_, rfl, plain.withSamples (by simpa using plain.full), rfl, fun x y covered => ?_⟩
  have place := index_lt plain.full covered
  simp [heightAt, mapSamples, place]

/-- Changing the samples of an area, each by its own function. -/
theorem exists_updateCells (full : map.samples.size = map.raster.size.area) {area : Rectangle}
    {change : Point → Except Breach (Height → Height)} {f : Point → Height → Height}
    (inside : ∀ point ∈ area.cells, map.bounds.Covers point.x point.y)
    (each : ∀ point ∈ area.cells, change point = .ok (f point)) :
    ∃ samples, map.updateCells area change = .ok { map with samples } ∧
      samples.size = map.raster.size.area ∧
      ∀ x y, map.raster.Covers x y → heightAt { map with samples } x y =
        if ⟨x - map.raster.position.x, y - map.raster.position.y⟩ ∈ area.cells then
          f ⟨x - map.raster.position.x, y - map.raster.position.y⟩ (map.heightAt x y)
        else map.heightAt x y := by
  obtain ⟨samples, ran, size, heights⟩ :=
    foldlM_modify (Rectangle.nodup_cells area) inside each full
  refine ⟨samples, ?_, size, fun x y covered => heights _ _ covered.between⟩
  unfold updateCells
  dsimp only
  rw [ran]
  rfl

/-- The local points, as far as there are coordinates for what lies behind them. -/
theorem mem_cells_bounds {point : Point} : point ∈ map.bounds.cells ↔
    map.bounds.Covers point.x point.y ∧ point.x < coordinateMax ∧ point.y < coordinateMax := by
  simp only [Rectangle.cells, Rectangle.endingPoint, Rectangle.horizontal, Rectangle.vertical,
    Interval.stop, narrowCoordinate_eq_max, bounds, Point.origin, coordinateMax, List.mem_flatMap,
    List.mem_map, Rectangle.mem_span, Rectangle.Covers, Between]
  dsimp only [Coordinate]
  constructor
  · rintro ⟨y, insideY, x, insideX, rfl⟩
    dsimp only
    omega
  · intro inside
    exact ⟨point.y, by omega, point.x, by omega, rfl⟩

/-- Changing every sample changes those of the local rectangle, and no change fails. -/
theorem updateCells_bounds (map : HeightMap) (f : Point → Height → Height) :
    map.updateCells map.bounds (fun point => .ok (f point)) = .ok (map.mapCells f) := by
  have inside : ∀ point ∈ map.bounds.cells, map.bounds.Covers point.x point.y :=
    fun point member => (mem_cells_bounds.1 member).1
  have changed (points : List Point) (inside : ∀ point ∈ points, map.bounds.Covers point.x point.y)
      (samples : Array Height) : points.foldlM (fun (samples : Array Height) point => do
        let i ← indexOf map.raster.size point
        return samples.modify i (f point)) samples =
      .ok (points.foldl (fun samples point =>
        samples.modify (point.x.toNat + map.width * point.y.toNat) (f point)) samples) := by
    induction points generalizing samples with
    | nil => rfl
    | cons point points ih =>
      rw [List.forall_mem_cons] at inside
      rw [List.foldlM_cons, indexOf_eq inside.1]
      exact ih inside.2 _
  have whole := changed _ inside map.samples
  unfold updateCells
  dsimp only
  exact congrArg (Except.map fun samples => { map with samples }) whole

/-- Changing every sample where it is; only samples behind the last coordinate stay as they are. -/
theorem heightAt_mapCells (full : map.samples.size = map.raster.size.area)
    (f : Point → Height → Height) (covered : map.raster.Covers x y) :
    (map.mapCells f).heightAt x y =
      if ⟨x - map.raster.position.x, y - map.raster.position.y⟩ ∈ map.bounds.cells then
        f ⟨x - map.raster.position.x, y - map.raster.position.y⟩ (map.heightAt x y)
      else map.heightAt x y := by
  obtain ⟨samples, ran, -, heights⟩ := @exists_updateCells _ full map.bounds _ f
    (fun point member => (mem_cells_bounds.1 member).1) fun _ _ => rfl
  rw [updateCells_bounds] at ran
  cases ran
  exact heights x y covered

theorem IsPlain.mem_bounds (plain : map.IsPlain) {point : Point} :
    point ∈ map.bounds.cells ↔ map.bounds.Covers point.x point.y := by
  obtain ⟨-, -, width, height⟩ := plain.modest
  unfold Below at width height
  rw [mem_cells_bounds, and_iff_left_iff_imp]
  simp only [bounds, Point.origin, Rectangle.Covers, Between, coordinateMax]
  dsimp only [Coordinate]
  omega

theorem draws_mapCells (plain : map.IsPlain) (f : Point → Height → Height) :
    Draws (.ok (map.mapCells f)) map.raster fun x y =>
      f ⟨x - map.raster.position.x, y - map.raster.position.y⟩ (map.heightAt x y) := by
  refine ⟨_, rfl, plain.withSamples ((map.size_mapCells f).trans plain.full), rfl,
    fun x y covered => ?_⟩
  have inside : (⟨x - map.raster.position.x, y - map.raster.position.y⟩ : Point) ∈ map.bounds.cells :=
    plain.mem_bounds.2 covered.between
  rw [heightAt_mapCells plain.full f covered, if_pos inside]

/-- The samples of an area change, each by its own function. -/
theorem draws_updateCells (plain : map.IsPlain) {area : Rectangle}
    {change : Point → Except Breach (Height → Height)} {f : Point → Height → Height}
    (inside : ∀ point ∈ area.cells, map.bounds.Covers point.x point.y)
    (each : ∀ point ∈ area.cells, change point = .ok (f point)) :
    Draws (map.updateCells area change) map.raster fun x y =>
      if ⟨x - map.raster.position.x, y - map.raster.position.y⟩ ∈ area.cells then
        f ⟨x - map.raster.position.x, y - map.raster.position.y⟩ (map.heightAt x y)
      else map.heightAt x y := by
  obtain ⟨samples, ran, size, heights⟩ := exists_updateCells plain.full inside each
  exact ⟨_, ran, plain.withSamples size, rfl, heights⟩

end HeightMap

end Terrain
