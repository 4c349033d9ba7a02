import Terrain.Proofs.Line.Words
import Terrain.Proofs.Number.Magnitudes
import Terrain.Proofs.Raster.Breaches

/-!
# Samples stay heights

Samples are stored in sixteen signed bits, which have room for one number below the least height. No
operation on rasters leads there: if the samples and the heights it is given are in the range, so are
the samples it leaves.

* `AllHeights` — every sample of a buffer is a height.
* `Line.allHeights_blurLine` — means of heights are heights.
* `HeightProfile.InRange`, `HeightMap.InRange` — rasters all of whose samples are heights.
* `HeightMap.InRange.updateCells`, `HeightMap.InRange.zipWith`, … — operations keep them.
-/

namespace Terrain

/-! ## Heights -/

theorem isHeight_zero : IsHeight 0 := by decide

theorem isHeight_natAbs {height : Int} (isHeight : IsHeight height) :
    IsHeight (height.natAbs : Int) := by
  rw [Number.isHeight_iff] at isHeight ⊢
  omega

theorem isHeight_negHeight {height : Int} (isHeight : IsHeight height) :
    IsHeight (negHeight height) := by
  rw [Number.isHeight_iff] at isHeight ⊢
  unfold negHeight
  omega

/-- A sum crosses only the bound on the side of the sign of its first operand. -/
theorem isHeight_addHeights {x y : Int} (first : IsHeight x) (second : IsHeight y) :
    IsHeight (addHeights x y) := by
  rw [Number.isHeight_iff] at first second ⊢
  unfold addHeights heightMin heightMax
  dsimp only [Height]
  split <;> omega

theorem isHeight_min {x y : Height} (first : IsHeight x) (second : IsHeight y) : IsHeight (min x y) := by
  rcases min_choice x y with same | same <;> rw [same] <;> assumption

theorem isHeight_max {x y : Height} (first : IsHeight x) (second : IsHeight y) : IsHeight (max x y) := by
  rcases max_choice x y with same | same <;> rw [same] <;> assumption

theorem isHeight_absHeight {height : Int} (isHeight : IsHeight height) : IsHeight (absHeight height) :=
  isHeight_min (isHeight_natAbs isHeight) (by decide)

theorem isHeight_ite {condition : Prop} [Decidable condition] {x y : Height} (first : IsHeight x)
    (second : IsHeight y) : IsHeight (if condition then x else y) := by
  split
  · exact first
  · exact second

theorem isHeight_clampInt {low high height : Height} (isLow : IsHeight low) (isHigh : IsHeight high)
    (isHeight : IsHeight height) : IsHeight (Number.clampInt low high height) := by
  unfold Number.clampInt
  exact isHeight_ite isLow (isHeight_ite isHigh isHeight)

theorem isHeight_lerp (fromAt toAt : Float) (fromHeight toHeight : Height) (point : Float) :
    IsHeight (lerp fromAt toAt fromHeight toHeight point) :=
  Number.isHeight_clampHeightFloat _

/-- A draw lies between its bounds. -/
theorem pick_mem (bits : UInt64) {low high : Int} (ordered : low ≤ high) :
    low ≤ pick bits low high ∧ pick bits low high ≤ high := by
  have below := Nat.mod_lt bits.toNat (show 0 < (high - low + 1).toNat by omega)
  unfold pick
  omega

theorem isHeight_intAt (lattice : Lattice) (point : Point) {amplitude : Int}
    (isHeight : IsHeight amplitude) (positive : 0 ≤ amplitude) :
    IsHeight (lattice.intAt point (-amplitude) amplitude) := by
  have between := pick_mem (lattice.wordAt point) (show -amplitude ≤ amplitude by omega)
  rw [Number.isHeight_iff] at isHeight ⊢
  unfold Lattice.intAt
  omega

/-! ## Buffers -/

def AllHeights (samples : Array Height) : Prop := ∀ height ∈ samples, IsHeight height

namespace AllHeights

variable {samples : Array Height}

theorem replicate (count : Nat) {height : Height} (isHeight : IsHeight height) :
    AllHeights (Array.replicate count height) := by
  intro other member
  rw [Array.mem_replicate] at member
  exact member.2 ▸ isHeight

theorem getD (all : AllHeights samples) (place : Nat) : IsHeight (samples.getD place 0) := by
  rw [Array.getD_eq_getD_getElem?]
  cases found : samples[place]? with
  | none => exact isHeight_zero
  | some height => exact all height (Array.mem_of_getElem? found)

theorem map {α : Type} {items : Array α} {f : α → Height} (each : ∀ item ∈ items, IsHeight (f item)) :
    AllHeights (items.map f) := by
  intro height member
  obtain ⟨item, inside, rfl⟩ := Array.mem_map.1 member
  exact each item inside

theorem mapIdx {f : Nat → Height → Height} (all : AllHeights samples)
    (each : ∀ place height, IsHeight height → IsHeight (f place height)) :
    AllHeights (samples.mapIdx f) := by
  intro height member
  obtain ⟨place, inside, rfl⟩ := Array.mem_mapIdx.1 member
  exact each place _ (all _ (Array.getElem_mem inside))

theorem modify {f : Height → Height} (all : AllHeights samples) (place : Nat)
    (each : ∀ height, IsHeight height → IsHeight (f height)) : AllHeights (samples.modify place f) := by
  intro height member
  obtain ⟨other, inside, rfl⟩ := Array.getElem_of_mem member
  rw [Array.getElem_modify]
  have before := all _ (Array.getElem_mem (Array.size_modify ▸ inside))
  split
  · exact each _ before
  · exact before

theorem reverse (all : AllHeights samples) : AllHeights samples.reverse :=
  fun height member => all height (Array.mem_reverse.1 member)

end AllHeights

/-! ## Lines -/

namespace Line

theorem allHeights_blurLine {line : Array Height} (all : AllHeights line) (radius : Nat) :
    AllHeights (blurLine radius line) :=
  blurLine_mem fun height member => Number.isHeight_iff.1 (all height member)

end Line

namespace Grid

variable {kernel : Array Height → Array Height} {cells : Array Height}

theorem allHeights_mapColumns (width height : Nat) (all : AllHeights cells)
    (keeps : ∀ line, AllHeights line → AllHeights (kernel line)) :
    AllHeights (mapColumns width height kernel cells) := by
  refine .map fun place _ => AllHeights.getD ?_ _
  rw [Array.getD_eq_getD_getElem?]
  cases found : ((Array.range width).map fun x => kernel (column width height cells x))[place % width]? with
  | none => exact nofun
  | some line =>
    obtain ⟨x, -, rfl⟩ := Array.mem_map.1 (Array.mem_of_getElem? found)
    exact keeps _ (.map fun y _ => all.getD _)

end Grid

def KeepsHeights (f : Height → Height) : Prop := ∀ height, IsHeight height → IsHeight (f height)

theorem keepsHeights_const {height : Height} (isHeight : IsHeight height) :
    KeepsHeights fun _ => height :=
  fun _ _ => isHeight

/-! ## Profiles -/

namespace HeightProfile

variable {profile first second : HeightProfile}

def InRange (profile : HeightProfile) : Prop := AllHeights profile.samples

theorem inRange_filled (interval : Interval) {height : Height} (isHeight : IsHeight height)
    (scale : Scale) : (filled interval height scale).InRange :=
  .replicate _ isHeight

theorem InRange.mapSamples {f : Height → Height} (inRange : profile.InRange) (keeps : KeepsHeights f) :
    (profile.mapSamples f).InRange :=
  .map fun height member => keeps height (inRange height member)

theorem InRange.mapCells {f : Nat → Height → Height} (inRange : profile.InRange)
    (keeps : ∀ place, KeepsHeights (f place)) : (profile.mapCells f).InRange :=
  AllHeights.mapIdx inRange keeps

theorem InRange.sampleAt (inRange : profile.InRange) (x : Int) : Fits (profile.sampleAt x) IsHeight :=
  (fits_indexOf x).seq fun place => .pure (inRange.getD place)

theorem InRange.sample (inRange : profile.InRange) (x : Float) : IsHeight (profile.sample x) := by
  unfold HeightProfile.sample
  exact isHeight_ite isHeight_zero (isHeight_ite (inRange.getD _) (isHeight_lerp _ _ _ _ _))

/-- The samples are changed one after the other. -/
theorem InRange.updateCells {positions : List Int} {change : Int → Except Breach (Height → Height)}
    (inRange : profile.InRange) (changes : ∀ x, Fits (change x) KeepsHeights) :
    Fits (profile.updateCells positions change) InRange := by
  refine Fits.bind (?_ : Fits _ AllHeights) fun samples all => .pure all
  refine .foldlM inRange fun samples x _ all => (changes x).bind fun f keeps => ?_
  exact .ite (fun _ => rfl) fun _ => .pure (all.modify _ keeps)

theorem InRange.zipWith {f : Height → Height → Height} (inRange : profile.InRange)
    (other : first.InRange) (keeps : ∀ value, IsHeight value → KeepsHeights (f · value)) :
    Fits (zipWith f profile first) InRange :=
  (fits_checkCoordinate _).seq fun _ => (fits_overlap _).seq fun _ => inRange.updateCells fun _ =>
    (fits_checkCoordinate _).seq fun _ => (other.sampleAt _).bind fun value isHeight =>
      .pure (keeps value isHeight)

theorem InRange.zipWith3 {f : Height → Height → Height → Height} (inRange : profile.InRange)
    (other : first.InRange) (third : second.InRange)
    (keeps : ∀ a b, IsHeight a → IsHeight b → KeepsHeights (f · a b)) :
    Fits (zipWith3 f profile first second) InRange :=
  (fits_checkCoordinate _).seq fun _ => (fits_checkCoordinate _).seq fun _ =>
    (fits_overlap _).seq fun _ => inRange.updateCells fun _ =>
      (fits_checkCoordinate _).seq fun _ => (other.sampleAt _).bind fun a isHeight =>
        (fits_checkCoordinate _).seq fun _ => (third.sampleAt _).bind fun b isHeight' =>
          .pure (keeps a b isHeight isHeight')

theorem InRange.clampHeights {low high : Height} (inRange : profile.InRange) (isLow : IsHeight low)
    (isHigh : IsHeight high) : Fits (profile.clampHeights low high) InRange :=
  .ite (fun _ => rfl) fun _ => .pure (inRange.mapSamples fun _ => isHeight_clampInt isLow isHigh)

theorem InRange.crop {value : Height} (inRange : profile.InRange) (interval : Interval)
    (isHeight : IsHeight value) : Fits (profile.crop interval value) InRange := by
  refine (fits_localInterval _).seq fun keep => .pure (inRange.mapCells fun x height isHeight' => ?_)
  exact isHeight_ite isHeight' isHeight

theorem InRange.fillInterval {value : Height} (inRange : profile.InRange) (interval : Interval)
    (isHeight : IsHeight value) : Fits (profile.fillInterval interval value) InRange :=
  (fits_localInterval _).seq fun _ => (fits_indices _).seq fun _ => inRange.updateCells fun _ =>
    keepsHeights_const isHeight

theorem InRange.gradient {low high : Height} (inRange : profile.InRange) (source destination : Coordinate)
    (isLow : IsHeight low) (isHigh : IsHeight high) (fillOutside : Bool) :
    (profile.gradient source destination low high fillOutside).InRange := by
  refine inRange.mapCells fun x height isHeight => ?_
  refine isHeight_ite (isHeight_ite isLow isHeight) ?_
  exact isHeight_ite (isHeight_ite isHigh isHeight) (isHeight_lerp _ _ _ _ _)

theorem InRange.blur (inRange : profile.InRange) (radius : Extent) : (profile.blur radius).InRange :=
  Line.allHeights_blurLine inRange _

/-- A wave of one sample adds lattice values, which lie within the amplitude. -/
theorem InRange.noiseLayer {amplitude : Height} (inRange : profile.InRange) (waveLength : Extent)
    (isHeight : IsHeight amplitude) (seed step : Nat) :
    Fits (profile.noiseLayer waveLength amplitude seed step) InRange := by
  refine .ite (fun _ => .pure inRange) fun _ => .ite (fun _ => rfl) fun positive => ?_
  refine .ite (fun _ => .pure (inRange.mapCells fun x height isHeight' => ?_)) fun _ =>
    .pure (inRange.mapCells fun x height _ => Number.isHeight_clampHeightFloat _)
  exact isHeight_addHeights isHeight' (isHeight_intAt _ _ isHeight (Int.not_lt.1 positive))

theorem InRange.noise {table : NoiseLayers} (inRange : profile.InRange)
    (amplitudes : ∀ layer ∈ table.layers, IsHeight layer.2) (seed : Nat) :
    Fits (profile.noise table seed) InRange := by
  refine .foldlM (inRange.mapSamples (keepsHeights_const isHeight_zero)) fun _ layer member kept => ?_
  have inside := List.fst_mem_of_mem_zipIdx member
  exact kept.noiseLayer _ (amplitudes _ inside) _ _

theorem InRange.rescale (inRange : profile.InRange) (factor : Scale) : (profile.rescale factor).InRange :=
  (inRange_filled _ isHeight_zero _).mapCells fun _ _ _ => inRange.sample _

theorem InRange.copyOverlap (inRange : profile.InRange) (other : first.InRange) :
    Fits (profile.copyOverlap first) InRange :=
  inRange.zipWith other fun _ => keepsHeights_const

theorem InRange.pattern (inRange : profile.InRange) (tile : first.InRange) (interval : Interval) :
    Fits (profile.pattern first interval) InRange := by
  refine .ite (fun _ => .pure inRange) fun _ => (fits_localInterval _).seq fun _ => ?_
  refine .ite (fun _ => .pure inRange) fun _ => inRange.updateCells fun _ => ?_
  exact (fits_checkCoordinate _).seq fun _ => (tile.sampleAt _).bind fun _ isHeight =>
    .pure (keepsHeights_const isHeight)

/-- Between its key points a profile is interpolated, and beyond them it keeps their heights. -/
theorem InRange.ofKeys {keys : List (Coordinate × Height)} (inRange : profile.InRange)
    (heights : ∀ key ∈ keys, IsHeight key.2) : (profile.ofKeys keys).InRange := by
  unfold HeightProfile.ofKeys
  split
  case h_1 first last isFirst isLast =>
    have firstHeight := heights first (List.mem_of_head? isFirst)
    have lastHeight := heights last (List.mem_of_getLast? isLast)
    refine inRange.mapCells fun x height _ => ?_
    refine isHeight_ite firstHeight (isHeight_ite lastHeight (isHeight_ite ?_ (isHeight_lerp _ _ _ _ _)))
    generalize Number.floorTo _ _ _ = probe
    cases found : keyAtMost? keys probe with
    | none => exact firstHeight
    | some key => exact heights key (List.takeWhile_subset _ (List.mem_of_getLast? found))
  case h_2 => exact inRange

end HeightProfile

/-! ## Maps -/

namespace HeightMap

variable {map first second : HeightMap} {profile : HeightProfile}

def InRange (map : HeightMap) : Prop := AllHeights map.samples

theorem inRange_filled (logical raster : Rectangle) {height : Height} (isHeight : IsHeight height)
    (scale : Scale) : (filled logical raster height scale).InRange :=
  .replicate _ isHeight

theorem InRange.mapSamples {f : Height → Height} (inRange : map.InRange) (keeps : KeepsHeights f) :
    (map.mapSamples f).InRange :=
  .map fun height member => keeps height (inRange height member)

theorem InRange.mapCells {f : Point → Height → Height} (inRange : map.InRange)
    (keeps : ∀ point, KeepsHeights (f point)) : (map.mapCells f).InRange := by
  have kept (points : List Point) {samples : Array Height} (all : AllHeights samples) :
      AllHeights (points.foldl (fun samples point =>
        samples.modify (point.x.toNat + map.width * point.y.toNat) (f point)) samples) := by
    induction points generalizing samples with
    | nil => exact all
    | cons point points ih => exact ih (all.modify _ (keeps point))
  exact kept _ inRange

theorem InRange.sampleAt (inRange : map.InRange) (x y : Int) : Fits (map.sampleAt x y) IsHeight :=
  (fits_indexOf _ _).seq fun place => .pure (inRange.getD place)

/-- Samples between two others are interpolated. -/
theorem InRange.sample (inRange : map.InRange) (x y : Float) : Fits (map.sample x y) IsHeight := by
  have inRow (left right : Int) (row : Int) : Fits (do
      if left = right then map.sampleAt left row
      else
        let leftHeight ← map.sampleAt left row
        let rightHeight ← map.sampleAt right row
        return lerp (Float.ofInt left) (Float.ofInt right) leftHeight rightHeight (snap x)) IsHeight :=
    .ite (fun _ => inRange.sampleAt _ _) fun _ => (fits_sampleAt _ _).seq fun _ =>
      (fits_sampleAt _ _).seq fun _ => .pure (isHeight_lerp _ _ _ _ _)
  refine (inRow _ _ _).bind fun upper isHeight => .ite (fun _ => .pure isHeight) fun _ => ?_
  exact (inRow _ _ _).seq fun lower => .pure (isHeight_lerp _ _ _ _ _)

theorem InRange.sampleShifted (inRange : map.InRange) (point offset : Point) :
    Fits (map.sampleShifted point offset) IsHeight :=
  (fits_checkCoordinate _).seq fun _ => (fits_checkCoordinate _).seq fun _ => inRange.sampleAt _ _

/-- The samples are changed one after the other. -/
theorem InRange.updateCells {area : Rectangle} {change : Point → Except Breach (Height → Height)}
    (inRange : map.InRange) (changes : ∀ point, Fits (change point) KeepsHeights) :
    Fits (map.updateCells area change) InRange := by
  refine Fits.bind (?_ : Fits _ AllHeights) fun samples all => .pure all
  refine .foldlM inRange fun samples point _ all => (changes point).bind fun f keeps => ?_
  exact (fits_indexOf _ _).seq fun place => .pure (all.modify place keeps)

theorem InRange.zipWith {f : Height → Height → Height} (inRange : map.InRange)
    (other : first.InRange) (keeps : ∀ value, IsHeight value → KeepsHeights (f · value)) :
    Fits (zipWith f map first) InRange :=
  inRange.updateCells fun _ => (other.sampleShifted _ _).bind fun value isHeight =>
    .pure (keeps value isHeight)

theorem InRange.zipWith3 {f : Height → Height → Height → Height} (inRange : map.InRange)
    (other : first.InRange) (third : second.InRange)
    (keeps : ∀ a b, IsHeight a → IsHeight b → KeepsHeights (f · a b)) :
    Fits (zipWith3 f map first second) InRange :=
  inRange.updateCells fun _ => (other.sampleShifted _ _).bind fun a isHeight =>
    (third.sampleShifted _ _).bind fun b isHeight' => .pure (keeps a b isHeight isHeight')

theorem InRange.clampHeights {low high : Height} (inRange : map.InRange) (isLow : IsHeight low)
    (isHigh : IsHeight high) : Fits (map.clampHeights low high) InRange :=
  .ite (fun _ => rfl) fun _ => .pure (inRange.mapSamples fun _ => isHeight_clampInt isLow isHigh)

theorem InRange.crop {value : Height} (inRange : map.InRange) (rectangle : Rectangle)
    (isHeight : IsHeight value) : (map.crop rectangle value).InRange := by
  refine inRange.mapCells fun point height isHeight' => ?_
  exact isHeight_ite isHeight' isHeight

theorem InRange.fillRectangle {value : Height} (inRange : map.InRange) (rectangle : Rectangle)
    (isHeight : IsHeight value) : Fits (map.fillRectangle rectangle value) InRange :=
  inRange.updateCells fun _ => keepsHeights_const isHeight

theorem InRange.gradient {low high : Height} (inRange : map.InRange) (source destination : Point)
    (isLow : IsHeight low) (isHigh : IsHeight high) :
    (map.gradient source destination low high).InRange := by
  unfold HeightMap.gradient
  dsimp only
  split
  · exact inRange.mapSamples (keepsHeights_const isLow)
  · refine inRange.mapCells fun point height _ => ?_
    exact isHeight_ite isLow (isHeight_ite isHigh (isHeight_lerp _ _ _ _ _))

theorem InRange.radialGradient {low high : Height} (inRange : map.InRange) (center : Point)
    (radius : Extent) (isLow : IsHeight low) (isHigh : IsHeight high) :
    (map.radialGradient center radius low high).InRange := by
  refine inRange.mapCells fun point height _ => ?_
  exact isHeight_ite (isHeight_ite isLow isHigh) (isHeight_lerp _ _ _ _ _)

/-- Rows first, and then columns. -/
theorem InRange.blur (inRange : map.InRange) (radius : Extent) : (map.blur radius).InRange :=
  Grid.allHeights_mapColumns _ _
    (Grid.forall_mem_mapRows inRange fun _ all => Line.allHeights_blurLine all _)
    fun _ all => Line.allHeights_blurLine all _

theorem InRange.convexityMap (inRange : map.InRange) (radius : Extent) :
    Fits (map.convexityMap radius) InRange :=
  ((inRange.blur radius).mapSamples fun _ => isHeight_negHeight).zipWith inRange
    fun _ isHeight _ isHeight' => isHeight_addHeights isHeight' isHeight

theorem inRange_distanceMap (map : HeightMap) (maxDistance : Extent) :
    (map.distanceMap maxDistance).InRange :=
  .map fun _ _ => Number.isHeight_clampHeightFloat _

theorem InRange.distort (inRange : map.InRange) (horizontal vertical : HeightMap) (maxDistance : Extent) :
    Fits (map.distort horizontal vertical maxDistance) InRange :=
  inRange.updateCells fun _ => (fits_sampleShifted _ _).seq fun _ => (fits_sampleShifted _ _).seq fun _ =>
    (inRange.sample _ _).bind fun _ isHeight => .pure (keepsHeights_const isHeight)

theorem InRange.plot {value : Height} (inRange : map.InRange) (isHeight : IsHeight value) (x y : Float) :
    (map.plot value x y).InRange := by
  unfold HeightMap.plot setIfInside
  split
  · exact AllHeights.modify inRange _ (keepsHeights_const isHeight)
  · exact inRange

theorem InRange.walk {value : Height} (inRange : map.InRange) (isHeight : IsHeight value) (fuel : Nat)
    (dx dy : Float) (running : Float → Float → Bool) (x y : Float) :
    (map.walk fuel value dx dy running x y).InRange := by
  induction fuel generalizing map x y with
  | zero => exact inRange
  | succ fuel ih =>
    unfold HeightMap.walk
    split
    · exact ih (inRange.plot isHeight _ _) _ _
    · exact inRange

theorem InRange.drawLine {value : Height} (inRange : map.InRange) (start stop : Point)
    (isHeight : IsHeight value) : (map.drawLine start stop value).InRange := by
  have drawn {fuel : Nat} {dx dy x y : Float} {running : Float → Float → Bool} :
      ((map.plot value x y).walk fuel value dx dy running x y).InRange :=
    (inRange.plot isHeight _ _).walk isHeight _ _ _ _ _ _
  simp only [HeightMap.drawLine]
  split
  · exact inRange
  · split
    · exact drawn
    · split <;> exact drawn

/-- A wave of one sample adds lattice values or their magnitudes, which lie within the amplitude. -/
theorem InRange.noiseLayer {amplitude : Height} (inRange : map.InRange) (waveLength : Extent)
    (isHeight : IsHeight amplitude) (seed step : Nat) (ridged : Bool) :
    Fits (map.noiseLayer waveLength amplitude seed step ridged) InRange := by
  refine .ite (fun _ => .pure inRange) fun _ => .ite (fun _ => rfl) fun positive => ?_
  refine .ite (fun _ => .pure (inRange.mapCells fun point height isHeight' => ?_)) fun _ =>
    .pure (inRange.mapCells fun point height _ => Number.isHeight_clampHeightFloat _)
  have drawn := isHeight_intAt ⟨seed, step⟩ (map.logicalPoint point) isHeight (Int.not_lt.1 positive)
  have magnitude := isHeight_natAbs drawn
  exact isHeight_addHeights isHeight' (isHeight_ite magnitude drawn)

theorem InRange.noise {table : NoiseLayers} (inRange : map.InRange)
    (amplitudes : ∀ layer ∈ table.layers, IsHeight layer.2) (seed : Nat) :
    Fits (map.noise table seed) InRange := by
  refine .foldlM (inRange.mapSamples (keepsHeights_const isHeight_zero)) fun _ layer member kept => ?_
  have inside := List.fst_mem_of_mem_zipIdx member
  exact kept.noiseLayer _ (amplitudes _ inside) _ _ _

theorem InRange.copyOverlap (inRange : map.InRange) (other : first.InRange) :
    Fits (map.copyOverlap first) InRange :=
  inRange.zipWith other fun _ => keepsHeights_const

theorem InRange.rescale (inRange : map.InRange) (horizontal vertical : Scale) :
    Fits (map.rescale horizontal vertical) InRange := by
  have blank := inRange_filled (map.logical.stretched horizontal vertical)
    (map.raster.stretched horizontal vertical) isHeight_zero map.scale
  refine .ite (fun _ => .pure blank) fun _ => blank.updateCells fun _ => ?_
  exact (inRange.sample _ _).bind fun _ isHeight => .pure (keepsHeights_const isHeight)

theorem InRange.pattern (inRange : map.InRange) (tile : first.InRange) (rectangle : Rectangle) :
    Fits (map.pattern first rectangle) InRange :=
  .ite (fun _ => .pure inRange) fun _ => inRange.updateCells fun _ =>
    (tile.sampleShifted _ _).bind fun _ isHeight => .pure (keepsHeights_const isHeight)

theorem InRange.projection (inRange : map.InRange) (source : profile.InRange) (direction : Direction) :
    Fits (map.projection profile direction) InRange :=
  inRange.updateCells fun _ => (fits_profileCoordinate _ _).seq fun _ =>
    (fits_checkCoordinate _).seq fun _ => (source.sampleAt _).bind fun _ isHeight =>
      .pure (keepsHeights_const isHeight)

theorem InRange.shift (inRange : map.InRange) (profile : HeightProfile) (maxDistance : Extent)
    (direction : Direction) : Fits (map.shift profile maxDistance direction) InRange := by
  refine inRange.updateCells fun _ => (fits_profileCoordinate _ _).seq fun _ => ?_
  refine .ite (fun _ => .pure fun _ => id) fun _ => (fits_checkCoordinate _).seq fun _ => ?_
  refine (HeightProfile.fits_sampleAt _).seq fun _ => ?_
  cases direction <;>
    exact (inRange.sample _ _).bind fun _ isHeight => .pure (keepsHeights_const isHeight)

theorem InRange.transform (inRange : map.InRange) (matrix : Matrix) (rectangle : Rectangle) :
    Fits (map.transform matrix rectangle) InRange := by
  have blank := inRange_filled rectangle (rectangle.scaled map.scale) isHeight_zero map.scale
  refine .ite (fun _ => .pure blank) fun _ => blank.updateCells fun _ => ?_
  refine .ite (fun _ => ?_) fun _ => .pure fun _ => id
  exact (inRange.sample _ _).bind fun _ isHeight => .pure (keepsHeights_const isHeight)

theorem InRange.transformHeights (inRange : map.InRange) (function : profile.InRange)
    (interval : Interval) (low high : Height) :
    Fits (map.transformHeights profile interval low high) InRange := by
  refine (HeightProfile.fits_localInterval _).seq fun _ => .ite (fun _ => .pure inRange) fun _ => ?_
  refine .pure (inRange.mapSamples fun height isHeight => ?_)
  exact isHeight_ite (function.sample _) isHeight

end HeightMap

theorem HeightProfile.InRange.slice {profile : HeightProfile} {map : HeightMap}
    (inRange : profile.InRange) (source : map.InRange) (direction : Direction)
    (coordinate : Coordinate) : Fits (profile.slice map direction coordinate) InRange := by
  refine .ite (fun _ => .pure inRange) fun _ => (fits_checkCoordinate _).seq fun _ => ?_
  refine (fits_checkCoordinate _).seq fun _ => (fits_overlap _).seq fun _ => ?_
  refine inRange.updateCells fun _ => (fits_checkCoordinate _).seq fun _ => ?_
  cases direction <;>
    exact (source.sampleAt _ _).bind fun _ isHeight => .pure (keepsHeights_const isHeight)

end Terrain
