import Terrain.Proofs.Number.Values
import Terrain.Proofs.Plane.Hulls
import Terrain.Proofs.Raster.Overlays

/-!
# Two maps

The sum of two maps, the lower and the higher of them go by the points that both cover, wherever the two
lie, except at the least coordinate. A map that begins there and shares a point with the other one is
read one too early, which is outside of the other map, and a rectangle is filled one too early.

* `Pairing` — the operations, what they make of two heights, and how they run.
* `exists_error_zipWith` — the operation breaks off.
* `pairings_pointwise` — all three operations and filling, at every place.
-/

namespace Terrain

/-! ## Rectangles that meet -/

namespace Rectangle

variable {a b : Rectangle}

/-- Rectangles that meet share the corner that is the later one along both axes. -/
theorem Meet.corner (meet : a.Meet b) :
    a.Covers (max a.position.x b.position.x) (max a.position.y b.position.y) ∧
      b.Covers (max a.position.x b.position.x) (max a.position.y b.position.y) := by
  obtain ⟨x, y, inA, inB⟩ := meet
  unfold Covers Between at *
  omega

end Rectangle

/-! ## Breaking off -/

/-- A run over a list fails if one of its rounds always does. -/
theorem exists_error_foldlM {α β : Type} {f : α → β → Except Breach α} {items : List β} {item : β}
    (member : item ∈ items) (fails : ∀ value, ∃ breach, f value item = .error breach) (start : α) :
    ∃ breach, items.foldlM f start = .error breach := by
  induction items generalizing start with
  | nil => cases member
  | cons first items ih =>
    rw [List.foldlM_cons]
    cases ran : f start first with
    | error breach => exact ⟨breach, rfl⟩
    | ok middle =>
      cases member with
      | head =>
        obtain ⟨breach, failed⟩ := fails start
        rw [ran] at failed
        cases failed
      | tail _ later => exact ih later middle

namespace HeightMap

variable {map other : HeightMap}

theorem exists_error_updateCells {area : Rectangle} {point : Point} (member : point ∈ area.cells)
    {change : Point → Except Breach (Height → Height)}
    (fails : ∃ breach, change point = .error breach) :
    ∃ breach, map.updateCells area change = .error breach := by
  obtain ⟨breach, failed⟩ := fails
  obtain ⟨breach', failed'⟩ := exists_error_foldlM
    (f := fun (samples : Array Height) point => do
      let f ← change point
      let i ← indexOf map.raster.size point
      return samples.modify i f)
    member (fun _ => ⟨breach, by rw [failed]; rfl⟩) map.samples
  refine ⟨breach', ?_⟩
  unfold updateCells
  dsimp only
  rw [failed']
  rfl

/-- There is nothing to read outside of a map. -/
theorem exists_error_sampleShifted {point offset : Point}
    (outside : ¬map.bounds.Covers (point.x + offset.x) (point.y + offset.y)) :
    ∃ breach, map.sampleShifted point offset = .error breach := by
  unfold sampleShifted checkCoordinate
  split
  case isFalse => exact ⟨_, rfl⟩
  case isTrue =>
    split
    case isFalse => exact ⟨_, rfl⟩
    case isTrue =>
      have absent : ¬(⟨.origin, map.raster.size⟩ : Rectangle).containsPoint
          ⟨point.x + offset.x, point.y + offset.y⟩ = true :=
        fun present => outside (Rectangle.containsPoint_iff.1 present)
      refine ⟨.outsideMap (point.x + offset.x) (point.y + offset.y) map.raster.size, ?_⟩
      change map.sampleAt _ _ = _
      rw [sampleAt, indexOf, if_neg absent]
      rfl

/-- From the least coordinate on, the shared start of two intervals is looked for before the second. -/
theorem before_of_least {i j : Interval} {x : Int} (addressable : i.Addressable)
    (addressableOther : j.Addressable) (least : i.start = coordinateMin) (inFirst : i.Covers x)
    (inSecond : j.Covers x) :
    max i.start j.start - slip i.start - i.start + narrowCoordinate (i.start - j.start) < 0 := by
  have length := isCoordinate_iff.1 addressable.length
  have start := isCoordinate_iff.1 addressableOther.start
  have least' : i.start = (-2147483648 : Int) := least
  unfold Interval.Covers Between at inFirst inSecond
  rw [slip, if_pos least, narrowCoordinate_eq_max]
  dsimp only [Coordinate] at *
  omega

/-- At the least coordinate the shared corner is read before the start of the other map. -/
theorem exists_error_zipWith (addressable : map.raster.Addressable)
    (addressableOther : other.raster.Addressable) (slips : ¬map.raster.Negatable)
    (meet : map.raster.Meet other.raster) (f : Height → Height → Height) :
    ∃ breach, zipWith f map other = .error breach := by
  obtain ⟨inMap, inOther⟩ := meet.corner
  -- the shared corner as it is found in local coordinates
  let corner : Point :=
    ⟨max map.raster.position.x other.raster.position.x - slip map.raster.position.x -
        map.raster.position.x,
      max map.raster.position.y other.raster.position.y - slip map.raster.position.y -
        map.raster.position.y⟩
  have member : corner ∈ (map.overlap other.raster).cells := by
    refine (Rectangle.mem_overlap addressable).2 ?_
    rw [Int.sub_add_cancel, Int.sub_add_cancel, Int.sub_add_cancel, Int.sub_add_cancel]
    exact ⟨inMap, inOther⟩
  have outside : ¬other.bounds.Covers (corner.x + (map.raster.position - other.raster.position).x)
      (corner.y + (map.raster.position - other.raster.position).y) := by
    rintro ⟨⟨insideX, -⟩, ⟨insideY, -⟩⟩
    refine slips ⟨fun least => ?_, fun least => ?_⟩
    · have before : corner.x + (map.raster.position - other.raster.position).x < 0 :=
        @before_of_least map.raster.horizontal other.raster.horizontal _ addressable.horizontal
          addressableOther.horizontal least inMap.1 inOther.1
      exact Int.not_le.2 before insideX
    · have before : corner.y + (map.raster.position - other.raster.position).y < 0 :=
        @before_of_least map.raster.vertical other.raster.vertical _ addressable.vertical
          addressableOther.vertical least inMap.2 inOther.2
      exact Int.not_le.2 before insideY
  refine exists_error_updateCells member ?_
  obtain ⟨breach, failed⟩ := exists_error_sampleShifted outside
  exact ⟨breach, by rw [failed]; rfl⟩

end HeightMap

/-! ## The operations -/

inductive Pairing where
  | sum
  | lower
  | higher
  deriving DecidableEq

namespace Pairing

def apply : Pairing → Height → Height → Height
  | sum => addHeights
  | lower => fun a b => min a b
  | higher => fun a b => max a b

def run : Pairing → HeightMap → HeightMap → Except Breach HeightMap
  | sum => HeightMap.addMap
  | lower => HeightMap.intersect
  | higher => HeightMap.unify

theorem run_eq (pairing : Pairing) (map other : HeightMap) :
    pairing.run map other = HeightMap.zipWith pairing.apply map other := by
  cases pairing with
  | sum => rfl
  | lower => rfl
  | higher => rfl

end Pairing

/-- The sum of two heights, cut to the range of heights. -/
theorem addHeights_eq {a b : Height} (first : IsHeight a) (second : IsHeight b) :
    addHeights a b = max heightMin (min heightMax (a + b)) := by
  rw [Number.isHeight_iff] at first second
  unfold addHeights heightMin heightMax
  dsimp only [Height] at *
  split <;> omega

/-- Two maps at any place: the operations go by the points that both cover, and rectangles are filled
where they lie, with the exceptions that come from the least coordinate. -/
theorem pairings_pointwise {map other : HeightMap} (full : map.IsFull)
    (addressable : map.raster.Addressable) (addressableOther : other.raster.Addressable) :
    (∀ a b, IsHeight a → IsHeight b → Pairing.sum.apply a b = max heightMin (min heightMax (a + b))) ∧
    (∀ pairing : Pairing,
      (map.raster.Negatable ∨ ¬map.raster.Meet other.raster →
        map.Redraws (pairing.run map other) fun x y =>
          if other.raster.Covers x y then pairing.apply (map.heightAt x y) (other.heightAt x y)
          else map.heightAt x y) ∧
      (¬map.raster.Negatable → map.raster.Meet other.raster →
        ∃ breach, pairing.run map other = .error breach)) ∧
    ∀ (rectangle : Rectangle) (value : Height), map.scale = 1.0 → rectangle.Representable →
      map.raster.Movable rectangle →
      map.Redraws (map.fillRectangle rectangle value) fun x y =>
        if rectangle.Covers (x + slip map.raster.position.x) (y + slip map.raster.position.y) then value
        else map.heightAt x y := by
  refine ⟨fun a b => addHeights_eq, fun pairing => ⟨fun clear => ?_, fun slips meet => ?_⟩,
    fun rectangle value scale inRange movable => ?_⟩
  · rw [pairing.run_eq]
    exact HeightMap.redraws_zipWith full addressable addressableOther clear pairing.apply
  · rw [pairing.run_eq]
    exact HeightMap.exists_error_zipWith addressable addressableOther slips meet pairing.apply
  · have unscaled : rectangle.scaled map.scale = rectangle := by rw [scale, inRange.scaled_one]
    exact HeightMap.redraws_fillRectangle full addressable unscaled movable value

def brink (height : Height) : HeightMap :=
  .filled ⟨⟨-2147483648, 0⟩, ⟨2, 1⟩⟩ ⟨⟨-2147483648, 0⟩, ⟨2, 1⟩⟩ height 1.0

def pier : HeightMap := .filled ⟨⟨100, 0⟩, ⟨2, 1⟩⟩ ⟨⟨100, 0⟩, ⟨2, 1⟩⟩ 1 1.0

/-- Two maps at the least coordinate cannot be added, a rectangle on one of them is filled one too
early, and a rectangle that ends where a map begins is filled on the map. -/
theorem brink_slips :
    (brink 1).IsFull ∧ (brink 5).IsFull ∧ (brink 1).raster.Addressable ∧ (brink 5).raster.Addressable ∧
    (brink 1).raster.Covers (-2147483648) 0 ∧ (brink 5).raster.Covers (-2147483648) 0 ∧
    (∀ pairing : Pairing,
      pairing.run (brink 1) (brink 5) = .error (.outsideMap (-1) 0 ⟨2, 1⟩)) ∧
    (∃ filled, (brink 1).fillRectangle ⟨⟨-2147483647, 0⟩, ⟨1, 1⟩⟩ 7 = .ok filled ∧
      filled.heightAt (-2147483648) 0 = 7 ∧ filled.heightAt (-2147483647) 0 = 1) ∧
    ¬(⟨⟨-2147483648, 0⟩, ⟨2147483748, 1⟩⟩ : Rectangle).Covers 100 0 ∧
    ∃ filled, pier.fillRectangle ⟨⟨-2147483648, 0⟩, ⟨2147483748, 1⟩⟩ 7 = .ok filled ∧
      filled.heightAt 100 0 = 7 := by
  have full (height : Height) : (brink height).IsFull := HeightMap.isFull_filled _ _ _ _
  have unscaled (rectangle : Rectangle) (inRange : rectangle.Representable) :
      rectangle.scaled 1.0 = rectangle := inRange.scaled_one
  refine ⟨full 1, full 5, by decide, by decide, by decide, by decide, fun pairing => ?_, ?_,
    by decide, ?_⟩
  · cases pairing with
    | sum => rfl
    | lower => rfl
    | higher => rfl
  · obtain ⟨filled, ran, -, heights⟩ := HeightMap.redraws_fillRectangle (full 1) (by decide)
      (unscaled ⟨⟨-2147483647, 0⟩, ⟨1, 1⟩⟩ (by decide)) (by decide) 7
    exact ⟨filled, ran, heights (-2147483648) 0 (by decide), heights (-2147483647) 0 (by decide)⟩
  · rw [HeightMap.fillRectangle, HeightMap.localRectangle]
    change ∃ filled, pier.updateCells (.intersect pier.bounds
      ((Rectangle.scaled _ 1.0).translated _)) _ = .ok filled ∧ _
    rw [unscaled _ (by decide)]
    exact ⟨_, rfl, rfl⟩

def brook : HeightMap := .filled ⟨⟨-2, 0⟩, ⟨3, 1⟩⟩ ⟨⟨-2, 0⟩, ⟨3, 1⟩⟩ 30000 1.0

def ford : HeightMap := .filled ⟨⟨-1, -1⟩, ⟨1, 2⟩⟩ ⟨⟨-1, -1⟩, ⟨1, 2⟩⟩ 5000 1.0

theorem brook_pointwise :
    (∃ sum, brook.addMap ford = .ok sum ∧ sum.heightAt (-2) 0 = 30000 ∧
      sum.heightAt (-1) 0 = 32767 ∧ sum.heightAt 0 0 = 30000) ∧
    ∃ filled, brook.fillRectangle ⟨⟨0, -3⟩, ⟨9, 9⟩⟩ 7 = .ok filled ∧
      filled.heightAt (-1) 0 = 30000 ∧ filled.heightAt 0 0 = 7 := by
  obtain ⟨-, pairings, fills⟩ := @pairings_pointwise brook ford (HeightMap.isFull_filled _ _ _ _)
    (by decide) (by decide)
  obtain ⟨sum, added, -, sums⟩ := (pairings .sum).1 (.inl (by decide))
  obtain ⟨filled, ran, -, heights⟩ :=
    fills ⟨⟨0, -3⟩, ⟨9, 9⟩⟩ 7 rfl (by decide) (by decide)
  exact ⟨⟨sum, added, sums (-2) 0 (by decide), sums (-1) 0 (by decide), sums 0 0 (by decide)⟩,
    filled, ran, heights (-1) 0 (by decide), heights 0 0 (by decide)⟩

end Terrain
