import Terrain.Proofs.Number.Errors
import Terrain.Proofs.Plan.Demands
import Terrain.Proofs.Raster.Breaches
import Terrain.Render.Renderer

/-!
# Footprints of rescaled rasters

A rescaling asks for the earlier content that its bounds come from, rounded outward, and leaves a
footprint whose start and length are truncated separately. So the footprint may miss a coordinate at a
start below zero and up to two at the end. It covers the bounds if no fraction is truncated, as with
whole factors.

* `Interval.Rescalable` — bounds and a factor with which nothing is clamped.
* `Interval.Rescales` — how far a rescaled footprint reaches.
* `Step.rescaled_footprints` — footprints of profiles and maps after a rescaling.
* `Renderer.gap_uncovered` — a point that is demanded and not covered.
-/

namespace Terrain

open Number

/-! ## Factors -/

/-- The value of a factor that scripts may rescale by. -/
structure IsFactor (factor : Scale) (q : ℚ) : Prop where
  isValue : IsValue factor q
  least : 1 / 10 ≤ q
  most : q ≤ 10

theorem isValue_scaleMin : IsValue scaleMin (7205759403792794 / 2 ^ 56) :=
  ⟨false, 7205759403792794, -56, rfl, by norm_num [signed]⟩

theorem isValue_scaleMax : IsValue scaleMax 10 := ⟨false, 10 * 2 ^ 49, -49, rfl, by norm_num [signed]⟩

theorem exists_isFactor {factor : Scale} (least : scaleMin ≤ factor) (most : factor ≤ scaleMax) :
    ∃ q, IsFactor factor q := by
  obtain ⟨q, isValue, above, below⟩ :=
    exists_isValue_of_le_of_le isValue_scaleMin isValue_scaleMax least most
  exact ⟨q, isValue, le_trans (by norm_num) above, below⟩

namespace IsFactor

variable {factor : Scale} {q : ℚ} {x : Float} {n : ℤ}

/-- The unit of errors: products and quotients of coordinates have at most 37 bits before the point. -/
def unit : Int := -15

theorem pos (isFactor : IsFactor factor q) : 0 < q := lt_of_lt_of_le (by norm_num) isFactor.least

theorem isNormal (isFactor : IsFactor factor q) : IsNormal q := by
  refine @isNormal_of_le _ (-4) (by decide) ?_
  rw [abs_of_pos isFactor.pos]
  exact le_trans (by norm_num) isFactor.least

theorem abs_mul_le (isFactor : IsFactor factor q) (small : |n| ≤ 2 ^ 33) :
    |(n : ℚ) * q| ≤ 2 ^ 37 := by
  have bound : |(n : ℚ)| ≤ 2 ^ 33 := by exact_mod_cast small
  rw [abs_mul, abs_of_pos isFactor.pos]
  calc |(n : ℚ)| * q ≤ 2 ^ 33 * 10 := mul_le_mul bound isFactor.most isFactor.pos.le (by norm_num)
    _ ≤ 2 ^ 37 := by norm_num

theorem abs_div_le (isFactor : IsFactor factor q) (small : |n| ≤ 2 ^ 33) :
    |(n : ℚ) / q| ≤ 2 ^ 37 := by
  have bound : |(n : ℚ)| ≤ 2 ^ 33 := by exact_mod_cast small
  rw [abs_div, abs_of_pos isFactor.pos]
  calc |(n : ℚ)| / q ≤ 2 ^ 33 / (1 / 10) :=
        div_le_div₀ (by norm_num) bound (by norm_num) isFactor.least
    _ ≤ 2 ^ 37 := by norm_num

theorem isNormal_mul (isFactor : IsFactor factor q) (n : ℤ) : IsNormal (n * q) := by
  rcases eq_or_ne n 0 with rfl | nonzero
  · left
    simp
  · have one : (1 : ℚ) ≤ |(n : ℚ)| := by exact_mod_cast Int.one_le_abs nonzero
    refine @isNormal_of_le _ (-4) (by decide) ?_
    rw [abs_mul, abs_of_pos isFactor.pos]
    calc (2 : ℚ) ^ (-4 : Int) ≤ 1 * (1 / 10) := by norm_num
      _ ≤ |(n : ℚ)| * q := mul_le_mul one isFactor.least (by norm_num) (abs_nonneg _)

theorem isNormal_div (isFactor : IsFactor factor q) (n : ℤ) : IsNormal (n / q) := by
  rcases eq_or_ne n 0 with rfl | nonzero
  · left
    simp
  · have one : (1 : ℚ) ≤ |(n : ℚ)| := by exact_mod_cast Int.one_le_abs nonzero
    refine @isNormal_of_le _ (-4) (by decide) ?_
    rw [abs_div, abs_of_pos isFactor.pos]
    calc (2 : ℚ) ^ (-4 : Int) ≤ 1 / 10 := by norm_num
      _ ≤ |(n : ℚ)| / q := div_le_div₀ (abs_nonneg _) one isFactor.pos isFactor.most

theorem rounds_mul (isFactor : IsFactor factor q) (isValue : IsValue x n) (small : |n| ≤ 2 ^ 33) :
    Rounds (x * factor) unit (n * q) :=
  isValue.mul isFactor.isValue (isNormal_intCast n) isFactor.isNormal (isFactor.isNormal_mul n)
    ((isFactor.abs_mul_le small).trans (by norm_num [unit])) (by decide)

theorem rounds_div (isFactor : IsFactor factor q) (isValue : IsValue x n) (small : |n| ≤ 2 ^ 33) :
    Rounds (x / factor) unit (n / q) :=
  isValue.div isFactor.isValue (isNormal_intCast n) isFactor.isNormal isFactor.pos.ne'
    (isFactor.isNormal_div n) ((isFactor.abs_div_le small).trans (by norm_num [unit])) (by decide)

end IsFactor

/-- The error of a product or a quotient, in numbers. -/
theorem error_lt {exact rounded : ℚ} (faithful : Faithful IsFactor.unit exact rounded) :
    exact - 1 / 32768 < rounded ∧ rounded < exact + 1 / 32768 := by
  have error := faithful.abs_sub_lt
  have unit : (2 : ℚ) ^ IsFactor.unit = 1 / 32768 := by norm_num [IsFactor.unit]
  rw [unit, abs_lt] at error
  constructor <;> linarith

theorem truncated_near (r : ℚ) : r - 1 ≤ truncated r ∧ truncated r ≤ r + 1 := by
  unfold truncated
  split
  · exact ⟨le_trans (by linarith) (Int.le_ceil r), (Int.ceil_lt_add_one r).le⟩
  · exact ⟨(Int.sub_one_lt_floor r).le, (Int.floor_le r).trans (by linarith)⟩

/-- Whole numbers next to rounded products and quotients are far inside 64 bits. -/
theorem clampInt_wide {exact rounded : ℚ} (faithful : Faithful IsFactor.unit exact rounded)
    (bound : |exact| ≤ 2 ^ 37) {n : ℤ} (above : rounded - 1 ≤ n) (below : n ≤ rounded + 1) :
    clampInt wideMin wideMax n = n := by
  obtain ⟨least, most⟩ := error_lt faithful
  rw [abs_le] at bound
  have low : (-2 ^ 38 : ℚ) ≤ n := by linarith
  have high : (n : ℚ) ≤ 2 ^ 38 := by linarith
  have low' : -2 ^ 38 ≤ n := by exact_mod_cast low
  have high' : n ≤ 2 ^ 38 := by exact_mod_cast high
  exact clampInt_of_mem (le_trans (by decide) low') (le_trans high' (by decide))

theorem isValue_ofInt_of_abs_le {n : ℤ} (small : |n| ≤ 2 ^ 33) : IsValue (Float.ofInt n) n := by
  rw [Int.abs_eq_natAbs] at small
  exact isValue_ofInt (by omega)

/-! ## Intervals -/

namespace Interval

variable {own prior : Interval} {factor : Scale} {q : ℚ} {x y : Float} {a b : ℤ}

/-- No figure is clamped, neither on the way to the earlier content nor on the way back. -/
structure Unclamped (own : Interval) (factor : Scale) : Prop where
  priorStart : IsCoordinate (floorTo wideMin wideMax (Float.ofInt own.start / factor))
  priorLength : ceilTo wideMin wideMax (Float.ofInt own.stop / factor) -
    floorTo wideMin wideMax (Float.ofInt own.start / factor) ≤ (extentMax : Int)
  start : IsCoordinate
    (truncateTo wideMin wideMax (Float.ofInt (own.unstretched factor).start * factor))
  length : truncateTo wideMin wideMax (Float.ofNat (own.unstretched factor).length * factor) ≤
    (extentMax : Int)

instance (own : Interval) (factor : Scale) : Decidable (own.Unclamped factor) :=
  decidable_of_iff
    (IsCoordinate (floorTo wideMin wideMax (Float.ofInt own.start / factor)) ∧
      ceilTo wideMin wideMax (Float.ofInt own.stop / factor) -
        floorTo wideMin wideMax (Float.ofInt own.start / factor) ≤ (extentMax : Int) ∧
      IsCoordinate
        (truncateTo wideMin wideMax (Float.ofInt (own.unstretched factor).start * factor)) ∧
      truncateTo wideMin wideMax (Float.ofNat (own.unstretched factor).length * factor) ≤
        (extentMax : Int))
    ⟨fun ⟨priorStart, priorLength, start, length⟩ => ⟨priorStart, priorLength, start, length⟩,
      fun ⟨priorStart, priorLength, start, length⟩ => ⟨priorStart, priorLength, start, length⟩⟩

/-- Bounds that can be rescaled by a factor without clamping. -/
structure Rescalable (own : Interval) (factor : Scale) : Prop where
  figures : own.Representable
  filled : own.isEmpty = false
  least : scaleMin ≤ factor
  most : factor ≤ scaleMax
  unclamped : own.Unclamped factor

theorem Representable.abs_start_le (figures : own.Representable) : |own.start| ≤ 2 ^ 33 := by
  obtain ⟨low, high⟩ := isCoordinate_iff.1 figures.start
  exact abs_le.2 ⟨le_trans (by decide) low, le_trans high (by decide)⟩

theorem Representable.abs_length_le (figures : own.Representable) : |(own.length : ℤ)| ≤ 2 ^ 33 := by
  have longest : (own.length : ℤ) ≤ 4294967295 := Int.ofNat_le.2 figures.length
  exact abs_le.2 ⟨le_trans (by decide) (Int.natCast_nonneg _), le_trans longest (by decide)⟩

theorem Representable.isValue_start (figures : own.Representable) :
    IsValue (Float.ofInt own.start) own.start :=
  isValue_ofInt_of_abs_le figures.abs_start_le

theorem Representable.isValue_length (figures : own.Representable) :
    IsValue (Float.ofNat own.length) (own.length : ℤ) :=
  isValue_ofNat (figures.length.trans_lt (by decide))

theorem Representable.abs_stop_le (figures : own.Representable) : |own.stop| ≤ 2 ^ 33 := by
  obtain ⟨low, high⟩ := isCoordinate_iff.1 figures.start
  have longest : (own.length : ℤ) ≤ 4294967295 := Int.ofNat_le.2 figures.length
  rw [abs_le, stop]
  omega

theorem start_lt_stop (filled : own.isEmpty = false) : own.start < own.stop := by
  have nonempty : own.length ≠ 0 := fun none => by
    rw [isEmpty_iff_length.2 none] at filled
    cases filled
  exact Int.lt_add_of_pos_right _ (Int.natCast_pos.2 (Nat.pos_of_ne_zero nonempty))

/-- The earlier content lies between the rounded ends of the bounds. -/
theorem Rescalable.exists_unstretched_eq (rescalable : own.Rescalable factor)
    (isFactor : IsFactor factor q) : ∃ first last : ℚ,
      Faithful IsFactor.unit (own.start / q) first ∧ Faithful IsFactor.unit (own.stop / q) last ∧
      IsCoordinate ⌊first⌋ ∧ ⌊first⌋ ≤ ⌈last⌉ ∧ ⌈last⌉ - ⌊first⌋ ≤ (extentMax : ℤ) ∧
      own.unstretched factor = ⟨⌊first⌋, (⌈last⌉ - ⌊first⌋).toNat⟩ := by
  have startSmall := rescalable.figures.abs_start_le
  have stopSmall := rescalable.figures.abs_stop_le
  have ordered := start_lt_stop rescalable.filled
  obtain ⟨first, isFirst, faithfulFirst⟩ :=
    isFactor.rounds_div rescalable.figures.isValue_start startSmall
  obtain ⟨last, isLast, faithfulLast⟩ :=
    isFactor.rounds_div (isValue_ofInt_of_abs_le stopSmall) stopSmall
  have floor : floorTo wideMin wideMax (Float.ofInt own.start / factor) = ⌊first⌋ := by
    rw [isFirst.floorTo]
    exact clampInt_wide faithfulFirst (isFactor.abs_div_le startSmall)
      (Int.sub_one_lt_floor first).le ((Int.floor_le first).trans (by linarith))
  have ceil : ceilTo wideMin wideMax (Float.ofInt own.stop / factor) = ⌈last⌉ := by
    rw [isLast.ceilTo]
    exact clampInt_wide faithfulLast (isFactor.abs_div_le stopSmall)
      (le_trans (by linarith) (Int.le_ceil last)) (Int.ceil_lt_add_one last).le
  have unclamped := rescalable.unclamped
  have inRange := unclamped.priorStart
  have fits := unclamped.priorLength
  rw [floor] at inRange fits
  rw [ceil] at fits
  -- the ends are a tenth apart at least, far more than they are rounded by
  have less : first < last := by
    have apart : (own.start : ℚ) / q + 1 / 10 ≤ own.stop / q := by
      have next : (own.start : ℚ) + 1 ≤ own.stop := by exact_mod_cast Int.add_one_le_iff.2 ordered
      have one : (1 : ℚ) ≤ own.stop - own.start := by linarith
      have tenth : 1 / 10 ≤ (own.stop - own.start : ℚ) / q :=
        div_le_div₀ (by linarith) one isFactor.pos isFactor.most
      rw [sub_div] at tenth
      linarith
    have above := (error_lt faithfulFirst).2
    have below := (error_lt faithfulLast).1
    linarith
  have between : ⌊first⌋ ≤ ⌈last⌉ := by
    exact_mod_cast (Int.floor_le first).trans (less.le.trans (Int.le_ceil last))
  refine ⟨first, last, faithfulFirst, faithfulLast, inRange, between, fits, ?_⟩
  rw [unstretched, if_neg (by rw [rescalable.filled]; exact Bool.false_ne_true)]
  exact ofFloatBounds_eq isFirst.floor isLast.ceil inRange between fits

/-- The footprint that is left, by the truncated products. -/
theorem Rescalable.exists_stretched_eq (rescalable : own.Rescalable factor)
    (isFactor : IsFactor factor q) (unstretched : own.unstretched factor = prior) :
    ∃ start length : ℚ,
      IsValue (Float.ofInt prior.start * factor) start ∧
      IsValue (Float.ofNat prior.length * factor) length ∧
      Faithful IsFactor.unit (prior.start * q) start ∧
      Faithful IsFactor.unit ((prior.length : ℤ) * q) length ∧ 0 ≤ length ∧
      prior.stretched factor = ⟨truncated start, ⌊length⌋.toNat⟩ := by
  have unclamped := rescalable.unclamped
  have inRange := unclamped.start
  have fits := unclamped.length
  have figures := rescalable.figures.unstretched factor
  rw [unstretched] at inRange fits figures
  have startSmall := figures.abs_start_le
  have lengthSmall := figures.abs_length_le
  obtain ⟨start, isStart, faithfulStart⟩ := isFactor.rounds_mul figures.isValue_start startSmall
  obtain ⟨length, isLength, faithfulLength⟩ := isFactor.rounds_mul figures.isValue_length lengthSmall
  -- a length is not negative, so truncating it rounds down
  have nonneg : 0 ≤ length := by
    have product : (0 : ℚ) ≤ (prior.length : ℤ) * q := by
      have pos := isFactor.pos
      positivity
    simpa using (faithfulLength 0).1 (by simpa using product)
  have floor : truncated length = ⌊length⌋ := if_neg nonneg.not_gt
  have near := truncated_near start
  have near' := truncated_near length
  have wide := clampInt_wide faithfulStart (isFactor.abs_mul_le startSmall) near.1 near.2
  have wide' := clampInt_wide faithfulLength (isFactor.abs_mul_le lengthSmall) near'.1 near'.2
  rw [isStart.truncateTo, wide] at inRange
  rw [isLength.truncateTo, wide', floor] at fits
  refine ⟨start, length, isStart, isLength, faithfulStart, faithfulLength, nonneg, ?_⟩
  rw [stretched, isStart.truncateTo, isLength.truncateTo, floor,
    clampInt_of_mem inRange.1 inRange.2, clampInt_of_mem (Int.floor_nonneg.2 nonneg) fits]

/-- Neither the start nor the length loses a fraction when it is stretched. -/
def Untruncated (prior : Interval) (factor : Scale) : Prop :=
  isWhole (Float.ofInt prior.start * factor) ∧ isWhole (Float.ofNat prior.length * factor)

/-- How far the footprint that is left of earlier content reaches around the bounds demanded. -/
structure Rescales (own : Interval) (factor : Scale) (prior after : Interval) : Prop where
  start : after.start ≤ own.start + if own.start < 0 then 1 else 0
  stop : own.stop ≤ after.stop + if 0 < own.start then 2 else 1
  contains : prior.Untruncated factor ∨ isWhole factor → after.containsInterval own = true

/-- Truncation goes above a bound only up to zero. -/
theorem truncated_le_of_lt {start : ℚ} {bound : ℤ} (less : start < bound + 1 / 2048) :
    truncated start ≤ bound + if bound < 0 then 1 else 0 := by
  unfold truncated
  split
  case isTrue negative =>
    have ceil := Int.ceil_lt_add_one start
    have nonpos : ⌈start⌉ ≤ 0 := Int.ceil_le.2 (by simpa using negative.le)
    have near : ⌈start⌉ < bound + 2 := by
      exact_mod_cast (by linarith : (⌈start⌉ : ℚ) < bound + 2)
    split <;> omega
  case isFalse =>
    have floor := Int.floor_le start
    have near : ⌊start⌋ < bound + 1 := by
      exact_mod_cast (by linarith : (⌊start⌋ : ℚ) < bound + 1)
    split <;> omega

/-- The rounded quotients of the ends and the rounded products of what lies between them. -/
structure Roundtrip (own : Interval) (q first last start length : ℚ) : Prop where
  faithfulFirst : Faithful IsFactor.unit (own.start / q) first
  faithfulLast : Faithful IsFactor.unit (own.stop / q) last
  faithfulStart : Faithful IsFactor.unit (⌊first⌋ * q) start
  faithfulLength : Faithful IsFactor.unit ((⌈last⌉ - ⌊first⌋ : ℤ) * q) length

namespace Roundtrip

variable {first last start length : ℚ}

/-- The product for the start is hardly above the start demanded. -/
theorem start_lt (trip : own.Roundtrip q first last start length) (isFactor : IsFactor factor q) :
    start < own.start + 1 / 2048 := by
  have pos := isFactor.pos
  have most := isFactor.most
  have floor := Int.floor_le first
  have above := (error_lt trip.faithfulFirst).2
  have above' := (error_lt trip.faithfulStart).2
  -- the error of the quotient grows at most tenfold
  have scaled : (⌊first⌋ : ℚ) * q < (own.start / q + 1 / 32768) * q :=
    mul_lt_mul_of_pos_right (floor.trans_lt above) pos
  rw [add_mul, div_mul_cancel₀ _ pos.ne'] at scaled
  linarith

/-- The products together are hardly below the end demanded. -/
theorem lt_add (trip : own.Roundtrip q first last start length) (isFactor : IsFactor factor q) :
    own.stop - 1 / 2048 < start + length := by
  have pos := isFactor.pos
  have most := isFactor.most
  have ceil := Int.le_ceil last
  have below := (error_lt trip.faithfulLast).1
  have below' := (error_lt trip.faithfulStart).1
  have below'' := (error_lt trip.faithfulLength).1
  have scaled : (own.stop / q - 1 / 32768) * q < (⌈last⌉ : ℚ) * q :=
    mul_lt_mul_of_pos_right (below.trans_le ceil) pos
  rw [sub_mul, div_mul_cancel₀ _ pos.ne'] at scaled
  push_cast at below''
  linarith

/-- Rounding keeps signs. -/
theorem start_nonpos (trip : own.Roundtrip q first last start length) (isFactor : IsFactor factor q)
    (nonpos : own.start ≤ 0) : start ≤ 0 := by
  have pos := isFactor.pos
  have quotient : (own.start : ℚ) / q ≤ 0 :=
    div_nonpos_of_nonpos_of_nonneg (by exact_mod_cast nonpos) pos.le
  have below : first ≤ 0 := by simpa using (trip.faithfulFirst 0).2 (by simpa using quotient)
  have product : (⌊first⌋ : ℚ) * q ≤ 0 :=
    mul_nonpos_of_nonpos_of_nonneg ((Int.floor_le _).trans below) pos.le
  simpa using (trip.faithfulStart 0).2 (by simpa using product)

/-- The end demanded is missed by what is truncated from the length, and from a start above zero. -/
theorem stop_le (trip : own.Roundtrip q first last start length) (isFactor : IsFactor factor q) :
    own.stop ≤ truncated start + ⌊length⌋ + if 0 < own.start then 2 else 1 := by
  have sum := trip.lt_add isFactor
  have floor := Int.sub_one_lt_floor length
  -- a start at most zero is truncated upward, so the end loses no more than a part of the length
  split
  case isTrue =>
    have near := (truncated_near start).1
    have less : own.stop < truncated start + ⌊length⌋ + 3 := by
      exact_mod_cast (by linarith : (own.stop : ℚ) < truncated start + ⌊length⌋ + 3)
    omega
  case isFalse nonpos =>
    have below := trip.start_nonpos isFactor (not_lt.1 nonpos)
    have near : start ≤ truncated start := by
      unfold truncated
      split
      case isTrue => exact Int.le_ceil start
      case isFalse above => rw [le_antisymm below (not_lt.1 above), Int.floor_zero, Int.cast_zero]
    have less : own.stop < truncated start + ⌊length⌋ + 2 := by
      exact_mod_cast (by linarith : (own.stop : ℚ) < truncated start + ⌊length⌋ + 2)
    omega

/-- Whole products cover the bounds demanded. -/
theorem covers_of_eq_intCast {n m : ℤ} (trip : own.Roundtrip q first last start length)
    (isFactor : IsFactor factor q) (wholeStart : start = n) (wholeLength : length = m) :
    truncated start ≤ own.start ∧ own.stop ≤ truncated start + ⌊length⌋ := by
  have less := trip.start_lt isFactor
  have sum := trip.lt_add isFactor
  rw [wholeStart] at less sum ⊢
  rw [wholeLength] at sum ⊢
  rw [truncated_intCast, Int.floor_intCast]
  have near : n < own.start + 1 := by exact_mod_cast (by linarith : (n : ℚ) < own.start + 1)
  have near' : own.stop < n + m + 1 := by exact_mod_cast (by linarith : (own.stop : ℚ) < n + m + 1)
  exact ⟨Int.lt_add_one_iff.1 near, Int.lt_add_one_iff.1 near'⟩

end Roundtrip

/-- A whole factor truncates nothing. -/
theorem untruncated_of_isWhole (isFactor : IsFactor factor q) (figures : prior.Representable)
    (whole : isWhole factor) : prior.Untruncated factor := by
  obtain ⟨k, rfl⟩ := isFactor.isValue.isWhole_iff.1 whole
  have product {x : Float} {n : ℤ} (isValue : IsValue x n) (small : |n| ≤ 2 ^ 33) :
      isWhole (x * factor) := by
    obtain ⟨rounded, isProduct, faithful⟩ := isFactor.rounds_mul isValue small
    have exact := faithful.eq_of_eq_intCast (by decide) (Int.cast_mul n k).symm
    exact isProduct.isWhole_iff.2 ⟨n * k, exact⟩
  exact ⟨product figures.isValue_start figures.abs_start_le,
    product figures.isValue_length figures.abs_length_le⟩

theorem Rescalable.rescales (rescalable : own.Rescalable factor) :
    own.Rescales factor (own.unstretched factor) ((own.unstretched factor).stretched factor) := by
  obtain ⟨q, isFactor⟩ := exists_isFactor rescalable.least rescalable.most
  obtain ⟨first, last, faithfulFirst, faithfulLast, inRange, ordered, fits, unstretched⟩ :=
    rescalable.exists_unstretched_eq isFactor
  obtain ⟨start, length, isStart, isLength, faithfulStart, faithfulLength, nonneg, stretched⟩ :=
    rescalable.exists_stretched_eq isFactor unstretched
  have between : (((⌈last⌉ - ⌊first⌋).toNat : ℕ) : ℤ) = ⌈last⌉ - ⌊first⌋ :=
    Int.toNat_of_nonneg (Int.sub_nonneg.2 ordered)
  dsimp only at isStart isLength faithfulStart faithfulLength
  rw [between] at faithfulLength
  have trip : own.Roundtrip q first last start length :=
    ⟨faithfulFirst, faithfulLast, faithfulStart, faithfulLength⟩
  have stop : stop ⟨truncated start, ⌊length⌋.toNat⟩ = truncated start + ⌊length⌋ := by
    rw [stop_mk, Int.toNat_of_nonneg (Int.floor_nonneg.2 nonneg)]
  have figures := rescalable.figures.unstretched factor
  rw [unstretched] at figures ⊢
  rw [stretched]
  refine ⟨truncated_le_of_lt (trip.start_lt isFactor), ?_, ?_⟩
  · rw [stop]
    exact trip.stop_le isFactor
  · intro exact
    have untruncated := exact.elim id (untruncated_of_isWhole isFactor figures)
    obtain ⟨n, wholeStart⟩ := isStart.isWhole_iff.1 untruncated.1
    obtain ⟨m, wholeLength⟩ := isLength.isWhole_iff.1 untruncated.2
    obtain ⟨start, last⟩ := trip.covers_of_eq_intCast isFactor wholeStart wholeLength
    rw [containsInterval_iff, stop]
    exact .inr ⟨start, last⟩

end Interval

/-! ## Steps -/

theorem HeightMap.raster_rescale {map rescaled : HeightMap} {horizontal vertical : Scale}
    (ran : map.rescale horizontal vertical = .ok rescaled) :
    rescaled.raster = map.raster.stretched horizontal vertical := by
  have shaped := map.fits_rescale horizontal vertical
  rw [ran] at shaped
  exact shaped.raster

namespace Step

variable {step : Step} {factor horizontal vertical : Scale}

theorem priorBounds_rescale_profile (action : step.action = .editProfile (.rescale factor))
    {own : Interval} (filled : own.isEmpty = false) :
    step.priorBounds (.interval own) = .ok (.interval (own.unstretched factor)) := by
  simp only [priorBounds, action, Bounds.isEmpty, filled]
  rfl

theorem priorBounds_rescale_map (action : step.action = .editMap (.rescale horizontal vertical))
    {own : Rectangle} (filled : own.isEmpty = false) :
    step.priorBounds (.rectangle own) = .ok (.rectangle (own.unstretched horizontal vertical)) := by
  simp only [priorBounds, action, Bounds.isEmpty, filled]
  rfl

/-- The footprint after a rescaling, simulated from the earlier content that its bounds come from, is
that of the rescaled raster. It reaches around the bounds but for the coordinates that truncation takes
away, along both axes of a map. -/
theorem rescaled_footprints (step : Step) :
    (∀ (own : Interval) (factor : Scale), step.action = .editProfile (.rescale factor) →
      own.Rescalable factor → ∃ prior after,
        step.priorBounds (.interval own) = .ok (.interval prior) ∧
        step.footprintAfter (.interval own) (.interval prior) = .ok (.interval after) ∧
        (∀ profile : HeightProfile, profile.interval = prior →
          (profile.rescale factor).interval = after) ∧
        own.Rescales factor prior after) ∧
    ∀ (own : Rectangle) (horizontal vertical : Scale),
      step.action = .editMap (.rescale horizontal vertical) →
      own.horizontal.Rescalable horizontal → own.vertical.Rescalable vertical → ∃ prior after,
        step.priorBounds (.rectangle own) = .ok (.rectangle prior) ∧
        step.footprintAfter (.rectangle own) (.rectangle prior) = .ok (.rectangle after) ∧
        (∀ map rescaled : HeightMap, map.raster = prior →
          map.rescale horizontal vertical = .ok rescaled → rescaled.raster = after) ∧
        own.horizontal.Rescales horizontal prior.horizontal after.horizontal ∧
        own.vertical.Rescales vertical prior.vertical after.vertical := by
  constructor
  · intro own factor action rescalable
    refine ⟨_, _, priorBounds_rescale_profile action rescalable.filled, ?_, ?_, rescalable.rescales⟩
    · simp only [footprintAfter, action, Bounds.asInterval]
      rfl
    · intro profile same
      rw [← same]
      rfl
  · intro own horizontal vertical action across down
    have filled : own.isEmpty = false := by
      rw [Rectangle.isEmpty_eq, across.filled, down.filled]
      rfl
    refine ⟨own.unstretched horizontal vertical,
      (own.unstretched horizontal vertical).stretched horizontal vertical,
      priorBounds_rescale_map action filled, ?_, ?_, across.rescales, down.rescales⟩
    · simp only [footprintAfter, action, Bounds.asRectangle]
      rfl
    · intro map rescaled same ran
      rw [← same]
      exact HeightMap.raster_rescale ran

def enlarging : Step := ⟨default, .editMap (.rescale 2.0 3.0), [], 0⟩

/-- Enlarged by whole factors, a map covers the bounds demanded of it. -/
theorem enlarging_covers : ∃ prior after,
    enlarging.priorBounds (.rectangle ⟨⟨-3, 4⟩, ⟨4, 5⟩⟩) = .ok (.rectangle prior) ∧
      enlarging.footprintAfter (.rectangle ⟨⟨-3, 4⟩, ⟨4, 5⟩⟩) (.rectangle prior) =
        .ok (.rectangle after) ∧
      after.horizontal.containsInterval ⟨-3, 4⟩ = true ∧
      after.vertical.containsInterval ⟨4, 5⟩ = true := by
  have across : Interval.Rescalable ⟨-3, 4⟩ 2.0 :=
    ⟨by decide, rfl, by decide +kernel, by decide +kernel, by decide +kernel⟩
  have down : Interval.Rescalable ⟨4, 5⟩ 3.0 :=
    ⟨by decide, rfl, by decide +kernel, by decide +kernel, by decide +kernel⟩
  obtain ⟨prior, after, before, simulated, -, rescalesAcross, rescalesDown⟩ :=
    (rescaled_footprints enlarging).2 ⟨⟨-3, 4⟩, ⟨4, 5⟩⟩ 2.0 3.0 rfl across down
  exact ⟨prior, after, before, simulated, rescalesAcross.contains (.inr (by decide +kernel)),
    rescalesDown.contains (.inr (by decide +kernel))⟩

end Step

/-! ## A gap -/

namespace Renderer

/-- A flat map that is made half as wide again, and a window of one point. -/
def gap : Sequence where
  steps := #[⟨⟨1, 1⟩, .makeMap (.flat 16383), [], 0⟩,
    ⟨⟨2, 1⟩, .editMap (.rescale 1.5 1.0), [], 0⟩,
    ⟨⟨3, 1⟩, .yield "main" ⟨⟨2, 0⟩, ⟨1, 1⟩⟩, [], 0⟩]
  scale := 1.0
  limit := 3
  slotCount := 1

def gapSamples : Option (Array Height) :=
  match run (start gap 400) with
  | .ok _ after => (after.gallery.get? "main").map (·.samples)
  | .error _ _ => none

/-- The point at 2 comes from the point at 1, whose footprint after the rescaling is 1 again: the start
and the length lose their halves. So a flat map is filled with zero there. -/
theorem gap_uncovered :
    Interval.Rescalable ⟨2, 1⟩ 1.5 ∧
    ((Interval.unstretched ⟨2, 1⟩ 1.5).stretched 1.5).containsInterval ⟨2, 1⟩ = false ∧
    ∃ after map, run (start gap 400) = .ok () after ∧ after.gallery.get? "main" = some map ∧
      map.samples = #[0] := by
  refine ⟨⟨by decide, rfl, by decide +kernel, by decide +kernel, by decide +kernel⟩,
    by decide +kernel, ?_⟩
  have samples : gapSamples = some #[0] := by decide +kernel
  unfold gapSamples at samples
  split at samples
  case h_1 after ran =>
    obtain ⟨map, hung, same⟩ := Option.map_eq_some_iff.1 samples
    exact ⟨after, map, ran, hung, same⟩
  case h_2 => cases samples

end Renderer

end Terrain
