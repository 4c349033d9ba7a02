import Terrain.Proofs.Line.Blur
import Terrain.Raster.Map.Drawing
import Terrain.Raster.Map.Filter
import Terrain.Raster.Map.Noise
import Terrain.Raster.Profile.Placement

/-!
# Shapes of rasters

The shape of a raster is where it lies, its scale and the number of its samples. Operations in place
change heights only: most of them touch the samples one by one, and the filters lay out a whole raster
of columns.

* `HeightMap.SameShape`, `HeightProfile.SameShape` — two rasters of the same shape.
* `HeightMap.sameShape_blur`, `HeightMap.sameShape_distanceMap`, `HeightMap.sameShape_drawLine`, … —
  operations in place.
-/

namespace Terrain

/-! ## Profiles -/

namespace HeightProfile

variable {profile other third : HeightProfile}

def IsFull (profile : HeightProfile) : Prop := profile.samples.size = profile.interval.length

theorem isFull_filled (interval : Interval) (height : Height) (scale : Scale) :
    (filled interval height scale).IsFull := Array.size_replicate

structure SameShape (profile other : HeightProfile) : Prop where
  interval : other.interval = profile.interval
  scale : other.scale = profile.scale
  full : profile.IsFull → other.IsFull

theorem SameShape.refl (profile : HeightProfile) : profile.SameShape profile := ⟨rfl, rfl, id⟩

theorem SameShape.trans (first : profile.SameShape other) (second : other.SameShape third) :
    profile.SameShape third :=
  ⟨second.interval.trans first.interval, second.scale.trans first.scale, second.full ∘ first.full⟩

/-- New samples of the same number. -/
theorem sameShape_withSamples {samples : Array Height} (same : samples.size = profile.samples.size) :
    profile.SameShape { profile with samples } :=
  ⟨rfl, rfl, same.trans⟩

theorem sameShape_mapSamples (f : Height → Height) : profile.SameShape (profile.mapSamples f) :=
  sameShape_withSamples Array.size_map

theorem sameShape_mapCells (f : Nat → Height → Height) : profile.SameShape (profile.mapCells f) :=
  sameShape_withSamples Array.size_mapIdx

theorem sameShape_blur (radius : Extent) : profile.SameShape (profile.blur radius) :=
  sameShape_withSamples (Line.size_blurLine _ _)

theorem sameShape_ofKeys (keys : List (Coordinate × Height)) :
    profile.SameShape (profile.ofKeys keys) := by
  unfold ofKeys
  split
  · exact sameShape_mapCells _
  · exact .refl profile

end HeightProfile

/-! ## Maps -/

namespace HeightMap

variable {map other third : HeightMap}

def IsFull (map : HeightMap) : Prop := map.samples.size = map.raster.size.area

theorem isFull_filled (logical raster : Rectangle) (height : Height) (scale : Scale) :
    (filled logical raster height scale).IsFull := Array.size_replicate

structure SameShape (map other : HeightMap) : Prop where
  logical : other.logical = map.logical
  raster : other.raster = map.raster
  scale : other.scale = map.scale
  full : map.IsFull → other.IsFull

theorem SameShape.refl (map : HeightMap) : map.SameShape map := ⟨rfl, rfl, rfl, id⟩

theorem SameShape.trans (first : map.SameShape other) (second : other.SameShape third) :
    map.SameShape third :=
  ⟨second.logical.trans first.logical, second.raster.trans first.raster,
    second.scale.trans first.scale, second.full ∘ first.full⟩

/-- New samples of the same number. -/
theorem sameShape_withSamples {samples : Array Height} (same : samples.size = map.samples.size) :
    map.SameShape { map with samples } :=
  ⟨rfl, rfl, rfl, same.trans⟩

theorem sameShape_mapSamples (f : Height → Height) : map.SameShape (map.mapSamples f) :=
  sameShape_withSamples Array.size_map

theorem sameShape_mapCells (f : Point → Height → Height) : map.SameShape (map.mapCells f) :=
  sameShape_withSamples (map.size_mapCells f)

theorem sameShape_crop (rectangle : Rectangle) (value : Height) :
    map.SameShape (map.crop rectangle value) := by
  unfold crop
  exact sameShape_mapCells _

theorem sameShape_radialGradient (center : Point) (radius : Extent) (low high : Height) :
    map.SameShape (map.radialGradient center radius low high) := by
  unfold radialGradient
  exact sameShape_mapCells _

theorem sameShape_gradient (source destination : Point) (low high : Height) :
    map.SameShape (map.gradient source destination low high) := by
  unfold gradient
  dsimp only
  split
  · exact sameShape_mapSamples _
  · exact sameShape_mapCells _

/-- Columns come last, and they are as many and as long as the raster has it. -/
theorem sameShape_blur (radius : Extent) : map.SameShape (map.blur radius) :=
  ⟨rfl, rfl, rfl, fun _ => Grid.size_mapColumns⟩

theorem sameShape_distanceMap (maxDistance : Extent) : map.SameShape (map.distanceMap maxDistance) :=
  ⟨rfl, rfl, rfl, fun _ => Array.size_map.trans Grid.size_mapColumns⟩

theorem sameShape_plot (value : Height) (x y : Float) : map.SameShape (map.plot value x y) := by
  unfold plot setIfInside
  split
  · exact sameShape_withSamples Array.size_modify
  · exact .refl map

theorem sameShape_walk (fuel : Nat) (value : Height) (dx dy : Float) (running : Float → Float → Bool)
    (x y : Float) : map.SameShape (map.walk fuel value dx dy running x y) := by
  induction fuel generalizing map x y with
  | zero => exact .refl map
  | succ fuel ih =>
    unfold walk
    split
    · exact (sameShape_plot _ _ _).trans (ih _ _)
    · exact .refl map

theorem sameShape_drawLine (start stop : Point) (value : Height) :
    map.SameShape (map.drawLine start stop value) := by
  have drawn {fuel : Nat} {dx dy x y : Float} {running : Float → Float → Bool} :
      map.SameShape ((map.plot value x y).walk fuel value dx dy running x y) :=
    (sameShape_plot _ _ _).trans (sameShape_walk _ _ _ _ _ _ _)
  simp only [drawLine]
  split
  · exact .refl map
  · split
    · exact drawn
    · split <;> exact drawn

end HeightMap

end Terrain
