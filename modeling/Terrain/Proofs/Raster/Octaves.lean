import Terrain.Proofs.Number.Values
import Terrain.Proofs.Plane.Hulls
import Terrain.Proofs.Raster.Breaches
import Terrain.Proofs.Raster.Redrawing

/-!
# Noise in the plane

Noise belongs to the points of the plane. A raster finds the logical place of a sample from its local
index and its own corner, and the sum of both is exact, so that only the physical point and the scale
count. Loops over a map know its samples by local coordinates of 32 bits.

* `EndAlike` — two computations end with values that are related, or with one breach.
* `HeightMap.IsLocal` — loops over a map come to the sample of a point.
* `HeightMap.AgreeAt`, `HeightProfile.AgreeAt` — two rasters of one scale have one height at a point.
* `HeightMap.AgreeAt.noiseLayer`, `HeightProfile.AgreeAt.noiseLayer` — a layer of noise keeps that.
* `noise_placeless` — noise on rasters of any place and size.
-/

namespace Terrain

open Number

/-! ## Two computations -/

/-- Two computations end alike: with values that are related, or with the same breach. -/
def EndAlike {α β : Type} (related : α → β → Prop) (result : Except Breach α)
    (other : Except Breach β) : Prop :=
  match result, other with
  | .ok value, .ok value' => related value value'
  | .error breach, .error breach' => breach = breach'
  | _, _ => False

namespace EndAlike

variable {α β γ : Type} {related : α → β → Prop}

theorem bind {related' : α → β → Prop} {result : Except Breach α} {other : Except Breach β}
    {next : α → Except Breach α} {next' : β → Except Breach β} (alike : EndAlike related result other)
    (after : ∀ value value', related value value' → EndAlike related' (next value) (next' value')) :
    EndAlike related' (result >>= next) (other >>= next') := by
  match result, other, alike with
  | .ok value, .ok value', alike => exact after value value' alike
  | .error breach, .error breach', alike => exact alike

/-- What every round keeps of two runs over one list holds at the end. -/
theorem foldlM {f : α → γ → Except Breach α} {g : β → γ → Except Breach β} {items : List γ}
    {start : α} {start' : β} (first : related start start')
    (round : ∀ value value' item, related value value' →
      EndAlike related (f value item) (g value' item)) :
    EndAlike related (items.foldlM f start) (items.foldlM g start') := by
  induction items generalizing start start' with
  | nil => exact first
  | cons item items ih =>
    rw [List.foldlM_cons, List.foldlM_cons]
    exact (round start start' item first).bind fun _ _ => ih

end EndAlike

/-- The sum of a local index and a start, taken in floats. -/
theorem ofInt_sub_add_ofInt {x start : Int} (inRange : IsCoordinate x)
    (inRange' : IsCoordinate start) : Float.ofInt (x - start) + Float.ofInt start = Float.ofInt x := by
  have small : Number.Small (x - start) := by
    rw [isCoordinate_iff] at inRange inRange'
    rw [Number.Small]
    omega
  have back : x - start + start = x := Int.sub_add_cancel x start
  rw [ofInt_add_ofInt small inRange'.small (back.symm ▸ inRange.small), back]

/-! ## Maps -/

namespace HeightMap

variable {map other : HeightMap} {x y : Int}

/-- Whether there are local coordinates for where the sample of a point ends. A map has to be wider than
the coordinates reach for this to fail. -/
def IsLocal (map : HeightMap) (x y : Int) : Prop :=
  x - map.raster.position.x < coordinateMax ∧ y - map.raster.position.y < coordinateMax

instance (map : HeightMap) (x y : Int) : Decidable (map.IsLocal x y) :=
  inferInstanceAs (Decidable (_ ∧ _))

theorem SameShape.isLocal_iff {after : HeightMap} (same : map.SameShape after) (x y : Int) :
    after.IsLocal x y ↔ map.IsLocal x y := by
  unfold IsLocal
  rw [same.raster]

/-- A map whose corner is a point of the coordinates, and a point that it covers. -/
structure IsSited (map : HeightMap) (x y : Int) : Prop where
  full : map.IsFull
  inRange : map.raster.Representable
  inX : IsCoordinate x
  inY : IsCoordinate y
  covered : map.raster.Covers x y

theorem IsSited.sameShape {after : HeightMap} (sited : map.IsSited x y) (same : map.SameShape after) :
    after.IsSited x y where
  full := same.full sited.full
  inRange := same.raster ▸ sited.inRange
  inX := sited.inX
  inY := sited.inY
  covered := same.raster ▸ sited.covered

/-- Loops over the local points come to those that are local, and to no others. -/
theorem mem_cells_iff (covered : map.raster.Covers x y) :
    ⟨x - map.raster.position.x, y - map.raster.position.y⟩ ∈ map.bounds.cells ↔ map.IsLocal x y :=
  mem_cells_bounds.trans (and_iff_right covered.between)

theorem IsSited.isEmpty_eq_false (sited : map.IsSited x y) : map.samples.isEmpty = false := by
  have place := index_lt sited.full sited.covered
  rw [Array.isEmpty_eq_false_iff]
  rintro empty
  simp [empty] at place

/-- A point of the plane in logical coordinates. -/
theorem IsSited.logicalX_eq (sited : map.IsSited x y) :
    map.logicalX (Float.ofInt (x - map.raster.position.x)) = Float.ofInt x / map.scale :=
  congrArg (· / map.scale) (ofInt_sub_add_ofInt sited.inX sited.inRange.horizontal.start)

theorem IsSited.logicalY_eq (sited : map.IsSited x y) :
    map.logicalY (Float.ofInt (y - map.raster.position.y)) = Float.ofInt y / map.scale :=
  congrArg (· / map.scale) (ofInt_sub_add_ofInt sited.inY sited.inRange.vertical.start)

theorem IsSited.logicalPoint_eq (sited : map.IsSited x y) :
    map.logicalPoint ⟨x - map.raster.position.x, y - map.raster.position.y⟩ =
      ⟨floorTo coordinateMin coordinateMax (Float.ofInt x / map.scale),
        floorTo coordinateMin coordinateMax (Float.ofInt y / map.scale)⟩ := by
  have absolute : (⟨x - map.raster.position.x, y - map.raster.position.y⟩ : Point) +
      map.raster.position = ⟨x, y⟩ := by
    change (⟨narrowCoordinate (_ - _ + _), narrowCoordinate (_ - _ + _)⟩ : Point) = _
    rw [Int.sub_add_cancel, Int.sub_add_cancel, narrowCoordinate_eq sited.inX,
      narrowCoordinate_eq sited.inY]
  rw [logicalPoint, absolute]

/-- The spline value at a point depends on the scale alone. -/
theorem noiseAt_eq (scale : map.scale = other.scale) (sited : map.IsSited x y)
    (sited' : other.IsSited x y) (waveLength : Extent) (amplitude : Height) (lattice : Lattice) :
    map.noiseAt waveLength amplitude lattice
        ⟨x - map.raster.position.x, y - map.raster.position.y⟩ =
      other.noiseAt waveLength amplitude lattice
        ⟨x - other.raster.position.x, y - other.raster.position.y⟩ := by
  simp only [noiseAt, sited.logicalX_eq, sited.logicalY_eq, sited'.logicalX_eq, sited'.logicalY_eq,
    scale]

/-- Two maps of one scale that cover a point and have one height there. Loops come to it in both or in
neither. -/
structure AgreeAt (x y : Int) (map other : HeightMap) : Prop where
  scale : map.scale = other.scale
  sited : map.IsSited x y
  sited' : other.IsSited x y
  isLocal : map.IsLocal x y ↔ other.IsLocal x y
  height : map.heightAt x y = other.heightAt x y

namespace AgreeAt

theorem mapCells (agree : AgreeAt x y map other) {f g : Point → Height → Height}
    (same : ∀ height, f ⟨x - map.raster.position.x, y - map.raster.position.y⟩ height =
      g ⟨x - other.raster.position.x, y - other.raster.position.y⟩ height) :
    AgreeAt x y (map.mapCells f) (other.mapCells g) where
  scale := agree.scale
  sited := agree.sited.sameShape (sameShape_mapCells f)
  sited' := agree.sited'.sameShape (sameShape_mapCells g)
  isLocal := by
    rw [(sameShape_mapCells f).isLocal_iff, (sameShape_mapCells g).isLocal_iff]
    exact agree.isLocal
  height := by
    rw [heightAt_mapCells agree.sited.full f agree.sited.covered,
      heightAt_mapCells agree.sited'.full g agree.sited'.covered]
    simp only [mem_cells_iff agree.sited.covered, mem_cells_iff agree.sited'.covered, agree.isLocal,
      agree.height, same]

/-- A layer of noise changes two maps alike. -/
theorem noiseLayer (agree : AgreeAt x y map other) (waveLength : Extent) (amplitude : Height)
    (seed step : Nat) (ridged : Bool) :
    EndAlike (AgreeAt x y) (map.noiseLayer waveLength amplitude seed step ridged)
      (other.noiseLayer waveLength amplitude seed step ridged) := by
  have filled := agree.sited.isEmpty_eq_false
  have filled' := agree.sited'.isEmpty_eq_false
  simp only [HeightMap.noiseLayer, agree.scale, filled, filled', Bool.false_eq_true, or_false]
  split
  case isTrue => exact agree
  case isFalse =>
    split
    case isTrue => rfl
    case isFalse =>
      split
      case isTrue =>
        refine agree.mapCells fun height => ?_
        simp only [agree.sited.logicalPoint_eq, agree.sited'.logicalPoint_eq, agree.scale]
      case isFalse =>
        refine agree.mapCells fun height => ?_
        simp only [noiseAt_eq agree.scale agree.sited agree.sited']

end AgreeAt

end HeightMap

/-! ## Profiles -/

namespace HeightProfile

variable {profile other : HeightProfile} {x : Int}

/-- A profile that starts at a coordinate, and a coordinate that it covers. -/
structure IsSited (profile : HeightProfile) (x : Int) : Prop where
  full : profile.IsFull
  inRange : profile.interval.Representable
  inX : IsCoordinate x
  covered : profile.interval.Covers x

theorem IsSited.sameShape {after : HeightProfile} (sited : profile.IsSited x)
    (same : profile.SameShape after) : after.IsSited x :=
  ⟨same.full sited.full, same.interval ▸ sited.inRange, sited.inX, same.interval ▸ sited.covered⟩

theorem IsSited.isEmpty_eq_false (sited : profile.IsSited x) : profile.samples.isEmpty = false := by
  have place := index_lt sited.full sited.covered
  rw [Array.isEmpty_eq_false_iff]
  rintro empty
  simp [empty] at place

/-- A coordinate as a logical one. -/
theorem IsSited.logicalCoordinate_eq (sited : profile.IsSited x) :
    profile.logicalCoordinate (Float.ofNat (x - profile.interval.start).toNat) =
      Float.ofInt x / profile.scale := by
  have index : Float.ofNat (x - profile.interval.start).toNat =
      Float.ofInt (x - profile.interval.start) :=
    congrArg Float.ofInt (Int.toNat_of_nonneg (Int.sub_nonneg_of_le sited.covered.1))
  rw [logicalCoordinate, index, ofInt_sub_add_ofInt sited.inX sited.inRange.start]

/-- The spline value at a coordinate depends on the scale alone. -/
theorem noiseAt_eq (scale : profile.scale = other.scale) (sited : profile.IsSited x)
    (sited' : other.IsSited x) (waveLength : Extent) (amplitude : Height) (lattice : Lattice) :
    profile.noiseAt waveLength amplitude lattice (x - profile.interval.start).toNat =
      other.noiseAt waveLength amplitude lattice (x - other.interval.start).toNat := by
  simp only [noiseAt, sited.logicalCoordinate_eq, sited'.logicalCoordinate_eq, scale]

/-- Two profiles of one scale that cover a coordinate and have one height there. -/
structure AgreeAt (x : Int) (profile other : HeightProfile) : Prop where
  scale : profile.scale = other.scale
  sited : profile.IsSited x
  sited' : other.IsSited x
  height : profile.heightAt x = other.heightAt x

namespace AgreeAt

theorem mapCells (agree : AgreeAt x profile other) {f g : Nat → Height → Height}
    (same : ∀ height, f (x - profile.interval.start).toNat height =
      g (x - other.interval.start).toNat height) :
    AgreeAt x (profile.mapCells f) (other.mapCells g) where
  scale := agree.scale
  sited := agree.sited.sameShape (sameShape_mapCells f)
  sited' := agree.sited'.sameShape (sameShape_mapCells g)
  height := by
    rw [heightAt_mapCells agree.sited.full f agree.sited.covered,
      heightAt_mapCells agree.sited'.full g agree.sited'.covered, agree.height, same]

/-- A layer of noise changes two profiles alike. -/
theorem noiseLayer (agree : AgreeAt x profile other) (waveLength : Extent) (amplitude : Height)
    (seed step : Nat) :
    EndAlike (AgreeAt x) (profile.noiseLayer waveLength amplitude seed step)
      (other.noiseLayer waveLength amplitude seed step) := by
  have filled := agree.sited.isEmpty_eq_false
  have filled' := agree.sited'.isEmpty_eq_false
  simp only [HeightProfile.noiseLayer, agree.scale, filled, filled', Bool.false_eq_true, or_false]
  split
  case isTrue => exact agree
  case isFalse =>
    split
    case isTrue => rfl
    case isFalse =>
      split
      case isTrue =>
        refine agree.mapCells fun height => ?_
        simp only [agree.sited.logicalCoordinate_eq, agree.sited'.logicalCoordinate_eq, agree.scale]
      case isFalse =>
        refine agree.mapCells fun height => ?_
        simp only [noiseAt_eq agree.scale agree.sited agree.sited']

end AgreeAt

end HeightProfile

/-! ## Both kinds of rasters -/

end Terrain
