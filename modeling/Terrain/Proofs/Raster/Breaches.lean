import Terrain.Proofs.Breaches
import Terrain.Proofs.Raster.Shapes
import Terrain.Raster.Map.Placement

/-!
# Breaches of rasters

Operations on rasters read and write samples by position, so all that can go wrong in them is a
position or a figure out of range. Two loops over samples carry all of the operations: `updateCells`
of maps and of profiles. They change heights only, so that the result has the shape of the raster they
work on.
-/

namespace Terrain

/-! ## Profiles -/

namespace HeightProfile

variable {profile first second : HeightProfile}

theorem fits_indexOf (x : Int) : Fits (profile.indexOf x) fun _ => True :=
  .ite (fun _ => trivial) fun _ => rfl

theorem fits_sampleAt (x : Int) : Fits (profile.sampleAt x) fun _ => True :=
  (fits_indexOf x).seq fun _ => .pure trivial

theorem fits_indices (interval : Interval) : Fits (indices interval) fun _ => True :=
  (fits_checkCoordinate _).seq fun _ => .pure trivial

theorem fits_overlap (physical : Interval) : Fits (profile.overlap physical) fun _ => True :=
  (fits_checkCoordinate _).seq fun _ => fits_indices _

theorem fits_localInterval (logical : Interval) :
    Fits (profile.localInterval logical) fun _ => True :=
  (fits_checkCoordinate _).seq fun _ => .pure trivial

/-- The samples are changed one after the other. -/
theorem fits_updateCells {positions : List Int} {change : Int → Except Breach (Height → Height)}
    (changes : ∀ x, Fits (change x) fun _ => True) :
    Fits (profile.updateCells positions change) profile.SameShape := by
  refine Fits.bind (?_ : Fits _ fun samples => samples.size = profile.samples.size) fun samples same =>
    .pure (sameShape_withSamples same)
  refine .foldlM rfl fun samples x _ same => (changes x).seq fun f => ?_
  refine .ite (fun _ => rfl) fun _ => .pure ?_
  rw [Array.size_modify, same]

theorem fits_zipWith (f : Height → Height → Height) : Fits (zipWith f profile first) profile.SameShape :=
  (fits_checkCoordinate _).seq fun _ => (fits_overlap _).seq fun _ => fits_updateCells fun _ =>
    (fits_checkCoordinate _).seq fun _ => (fits_sampleAt _).seq fun _ => .pure trivial

theorem fits_zipWith3 (f : Height → Height → Height → Height) :
    Fits (zipWith3 f profile first second) profile.SameShape :=
  (fits_checkCoordinate _).seq fun _ => (fits_checkCoordinate _).seq fun _ =>
    (fits_overlap _).seq fun _ => fits_updateCells fun _ =>
      (fits_checkCoordinate _).seq fun _ => (fits_sampleAt _).seq fun _ =>
        (fits_checkCoordinate _).seq fun _ => (fits_sampleAt _).seq fun _ => .pure trivial

theorem fits_clampHeights (low high : Height) :
    Fits (profile.clampHeights low high) profile.SameShape :=
  .ite (fun _ => rfl) fun _ => .pure (sameShape_mapSamples _)

theorem fits_crop (interval : Interval) (value : Height) :
    Fits (profile.crop interval value) profile.SameShape :=
  (fits_localInterval _).seq fun _ => .pure (sameShape_mapCells _)

theorem fits_fillInterval (interval : Interval) (value : Height) :
    Fits (profile.fillInterval interval value) profile.SameShape :=
  (fits_localInterval _).seq fun _ => (fits_indices _).seq fun _ => fits_updateCells fun _ => trivial

theorem fits_noiseLayer (waveLength : Extent) (amplitude : Height) (seed step : Nat) :
    Fits (profile.noiseLayer waveLength amplitude seed step) profile.SameShape :=
  .ite (fun _ => .pure (.refl profile)) fun _ => .ite (fun _ => rfl) fun _ =>
    .ite (fun _ => .pure (sameShape_mapCells _)) fun _ => .pure (sameShape_mapCells _)

theorem fits_noise (table : NoiseLayers) (seed : Nat) :
    Fits (profile.noise table seed) profile.SameShape :=
  .foldlM (sameShape_mapSamples _) fun _ _ _ same =>
    (fits_noiseLayer _ _ _ _).imp fun _ shaped => same.trans shaped

theorem fits_pattern (interval : Interval) : Fits (profile.pattern first interval) profile.SameShape := by
  refine .ite (fun _ => .pure (.refl profile)) fun _ => (fits_localInterval _).seq fun _ => ?_
  refine .ite (fun _ => .pure (.refl profile)) fun _ => fits_updateCells fun _ => ?_
  exact (fits_checkCoordinate _).seq fun _ => (fits_sampleAt _).seq fun _ => .pure trivial

end HeightProfile

/-! ## Maps -/

namespace HeightMap

variable {map first second : HeightMap} {profile : HeightProfile}

theorem fits_indexOf (size : Size) (point : Point) : Fits (indexOf size point) fun _ => True :=
  .ite (fun _ => trivial) fun _ => rfl

theorem fits_sampleAt (x y : Int) : Fits (map.sampleAt x y) fun _ => True :=
  (fits_indexOf _ _).seq fun _ => .pure trivial

theorem fits_sample (x y : Float) : Fits (map.sample x y) fun _ => True := by
  have inRow (left right : Int) (row : Int) : Fits (do
      if left = right then map.sampleAt left row
      else
        let leftHeight ← map.sampleAt left row
        let rightHeight ← map.sampleAt right row
        return lerp (Float.ofInt left) (Float.ofInt right) leftHeight rightHeight (snap x))
      fun _ => True :=
    .ite (fun _ => fits_sampleAt _ _) fun _ => (fits_sampleAt _ _).seq fun _ =>
      (fits_sampleAt _ _).seq fun _ => .pure trivial
  refine (inRow _ _ _).seq fun upper => .ite (fun _ => .pure trivial) fun _ => ?_
  exact (inRow _ _ _).seq fun lower => .pure trivial

theorem fits_sampleClamped (x y : Float) : Fits (map.sampleClamped x y) fun _ => True :=
  fits_sample _ _

theorem fits_sampleShifted (point offset : Point) :
    Fits (map.sampleShifted point offset) fun _ => True :=
  (fits_checkCoordinate _).seq fun _ => (fits_checkCoordinate _).seq fun _ => fits_sampleAt _ _

/-- The samples are changed one after the other. -/
theorem fits_updateCells {area : Rectangle} {change : Point → Except Breach (Height → Height)}
    (changes : ∀ point, Fits (change point) fun _ => True) :
    Fits (map.updateCells area change) map.SameShape := by
  refine Fits.bind (?_ : Fits _ fun samples => samples.size = map.samples.size) fun samples same =>
    .pure (sameShape_withSamples same)
  refine .foldlM rfl fun samples point _ same => (changes point).seq fun f => ?_
  exact (fits_indexOf _ _).seq fun i => .pure (Array.size_modify.trans same)

theorem fits_zipWith (f : Height → Height → Height) : Fits (zipWith f map first) map.SameShape :=
  fits_updateCells fun _ => (fits_sampleShifted _ _).seq fun _ => .pure trivial

theorem fits_zipWith3 (f : Height → Height → Height → Height) :
    Fits (zipWith3 f map first second) map.SameShape :=
  fits_updateCells fun _ => (fits_sampleShifted _ _).seq fun _ =>
    (fits_sampleShifted _ _).seq fun _ => .pure trivial

theorem fits_clampHeights (low high : Height) : Fits (map.clampHeights low high) map.SameShape :=
  .ite (fun _ => rfl) fun _ => .pure (sameShape_mapSamples _)

theorem fits_convexityMap (radius : Extent) : Fits (map.convexityMap radius) map.SameShape :=
  (fits_zipWith _).imp fun _ shaped =>
    ((sameShape_blur radius).trans (sameShape_mapSamples _)).trans shaped

theorem fits_fillRectangle (rectangle : Rectangle) (value : Height) :
    Fits (map.fillRectangle rectangle value) map.SameShape :=
  fits_updateCells fun _ => trivial

theorem fits_distort (maxDistance : Extent) :
    Fits (map.distort first second maxDistance) map.SameShape :=
  fits_updateCells fun _ => (fits_sampleShifted _ _).seq fun _ => (fits_sampleShifted _ _).seq fun _ =>
    (fits_sampleClamped _ _).seq fun _ => .pure trivial

theorem fits_noiseLayer (waveLength : Extent) (amplitude : Height) (seed step : Nat) (ridged : Bool) :
    Fits (map.noiseLayer waveLength amplitude seed step ridged) map.SameShape :=
  .ite (fun _ => .pure (.refl map)) fun _ => .ite (fun _ => rfl) fun _ =>
    .ite (fun _ => .pure (sameShape_mapCells _)) fun _ => .pure (sameShape_mapCells _)

theorem fits_noise (table : NoiseLayers) (seed : Nat) : Fits (map.noise table seed) map.SameShape :=
  .foldlM (sameShape_mapSamples _) fun _ _ _ same =>
    (fits_noiseLayer _ _ _ _ _).imp fun _ shaped => same.trans shaped

theorem fits_rescale (horizontal vertical : Scale) :
    Fits (map.rescale horizontal vertical) (filled (map.logical.stretched horizontal vertical)
      (map.raster.stretched horizontal vertical) 0 map.scale).SameShape :=
  .ite (fun _ => .pure (.refl _)) fun _ => fits_updateCells fun _ =>
    (fits_sampleClamped _ _).seq fun _ => .pure trivial

theorem fits_pattern (rectangle : Rectangle) : Fits (map.pattern first rectangle) map.SameShape :=
  .ite (fun _ => .pure (.refl map)) fun _ => fits_updateCells fun _ =>
    (fits_sampleShifted _ _).seq fun _ => .pure trivial

theorem fits_profileCoordinate (direction : Direction) (point : Point) :
    Fits (map.profileCoordinate direction point) fun _ => True := by
  cases direction <;> exact fits_checkCoordinate _

theorem fits_projection (direction : Direction) :
    Fits (map.projection profile direction) map.SameShape :=
  fits_updateCells fun _ => (fits_profileCoordinate _ _).seq fun _ => (fits_checkCoordinate _).seq fun _ =>
    (HeightProfile.fits_sampleAt _).seq fun _ => .pure trivial

theorem fits_shift (maxDistance : Extent) (direction : Direction) :
    Fits (map.shift profile maxDistance direction) map.SameShape := by
  refine fits_updateCells fun _ => (fits_profileCoordinate _ _).seq fun _ => ?_
  refine .ite (fun _ => .pure trivial) fun _ => (fits_checkCoordinate _).seq fun _ => ?_
  refine (HeightProfile.fits_sampleAt _).seq fun _ => ?_
  cases direction <;> exact (fits_sampleClamped _ _).seq fun _ => .pure trivial

theorem fits_transform (matrix : Matrix) (rectangle : Rectangle) :
    Fits (map.transform matrix rectangle) (create rectangle 0 map.scale).SameShape :=
  .ite (fun _ => .pure (.refl _)) fun _ => fits_updateCells fun _ =>
    .ite (fun _ => (fits_sample _ _).seq fun _ => .pure trivial) fun _ => .pure trivial

theorem fits_transformHeights (interval : Interval) (low high : Height) :
    Fits (map.transformHeights profile interval low high) map.SameShape :=
  (HeightProfile.fits_localInterval _).seq fun _ => .ite (fun _ => .pure (.refl map)) fun _ =>
    .pure (sameShape_mapSamples _)

end HeightMap

theorem HeightProfile.fits_slice {profile : HeightProfile} {map : HeightMap} (direction : Direction)
    (coordinate : Coordinate) : Fits (profile.slice map direction coordinate) profile.SameShape := by
  refine .ite (fun _ => .pure (.refl profile)) fun _ => (fits_checkCoordinate _).seq fun _ => ?_
  refine (fits_checkCoordinate _).seq fun _ => (fits_overlap _).seq fun _ => ?_
  refine fits_updateCells fun _ => (fits_checkCoordinate _).seq fun _ => ?_
  cases direction <;> exact (HeightMap.fits_sampleAt _ _).seq fun _ => .pure trivial

end Terrain
