import Terrain.Height
import Terrain.Proofs.Number.Whole

/-!
# Magnitudes of floats

Rounding moves a float by at most one unit in the last place. So a product whose exact value stays well
below a power of two stays below it when it is rounded, and truncation cannot reach the lowest of the
sixteen bits of a sample.

* `AtMost` — finite, with a bound on the magnitude.
* `atMost_roundWithAccuracy`, `AtMost.unpack_pack` — rounding and packing against the bound.
* `isHeight_clampHeightFloat`, `isHeight_weighted`, `isHeight_of_numberToHeight?` — floats that become
  heights are heights.
-/

namespace Terrain.Number

open Float.Model Float.Model.UnpackedFloat

/-! ## Rounding -/

/-- Finite, and of a magnitude that is at most a bound. -/
def AtMost (bound : ℚ) : UnpackedFloat → Prop
  | .zero _ => True
  | .finite _ mantissa exponent _ => (mantissa : ℚ) * 2 ^ exponent ≤ bound
  | _ => False

theorem AtMost.mono {unpacked : UnpackedFloat} {bound larger : ℚ} (atMost : AtMost bound unpacked)
    (le : bound ≤ larger) : AtMost larger unpacked := by
  cases unpacked with
  | zero => trivial
  | finite => exact le_trans atMost le
  | notANumber => exact atMost
  | infinity => exact atMost

/-- What is bounded is a zero or a finite number. -/
theorem AtMost.eq_zero_or_finite {unpacked : UnpackedFloat} {bound : ℚ}
    (atMost : AtMost bound unpacked) :
    (∃ sign, unpacked = .zero sign) ∨ ∃ sign mantissa exponent positive,
      unpacked = .finite sign mantissa exponent positive ∧
        (0 : ℚ) < mantissa * 2 ^ exponent ∧ (mantissa : ℚ) * 2 ^ exponent ≤ bound := by
  cases unpacked with
  | zero sign => exact .inl ⟨sign, rfl⟩
  | finite sign mantissa exponent positive =>
    have above : (0 : ℚ) < mantissa * 2 ^ exponent :=
      mul_pos (by exact_mod_cast positive) (zpow_pos (by norm_num) _)
    exact .inr ⟨sign, mantissa, exponent, positive, rfl, above, atMost⟩
  | notANumber => exact atMost.elim
  | infinity => exact atMost.elim

theorem mantissa_shiftRight (extended : ExtendedMantissa) (count : Nat) :
    (extended >>> count).mantissa = extended.mantissa / 2 ^ count := by
  induction count with
  | zero => simp [HShiftRight.hShiftRight, Nat.repeat]
  | succ count ih =>
    change (extended >>> count).mantissa / 2 = _
    rw [ih, Nat.div_div_eq_div_mul, Nat.pow_succ]

theorem mantissa_ofMantissaAndAccuracy (mantissa : Nat) (accuracy : Accuracy) :
    (ExtendedMantissa.ofMantissaAndAccuracy mantissa accuracy).mantissa = mantissa := by
  unfold ExtendedMantissa.ofMantissaAndAccuracy
  split <;> rfl

theorem roundedMantissa_le (extended : ExtendedMantissa) :
    extended.roundedMantissa ≤ extended.mantissa + 1 := by
  unfold ExtendedMantissa.roundedMantissa Accuracy.roundToNearestEven
  split <;> omega

/-- Dropping bits does not enlarge a number. -/
theorem div_pow_mul_le (mantissa count : Nat) (exponent : Int) :
    ((mantissa / 2 ^ count : Nat) : ℚ) * 2 ^ (exponent + count) ≤ mantissa * 2 ^ exponent := by
  have power : (0 : ℚ) < 2 ^ exponent := zpow_pos (by norm_num) _
  have whole : ((mantissa / 2 ^ count : Nat) : ℚ) * 2 ^ count ≤ mantissa := by
    exact_mod_cast Nat.div_mul_le_self mantissa (2 ^ count)
  calc ((mantissa / 2 ^ count : Nat) : ℚ) * 2 ^ (exponent + count)
      = ((mantissa / 2 ^ count : Nat) * 2 ^ count) * 2 ^ exponent := by
        rw [zpow_add₀ (by norm_num), zpow_natCast]
        ring
    _ ≤ mantissa * 2 ^ exponent := mul_le_mul_of_nonneg_right whole power.le

/-- The exponent that a number of limited size is shifted to. -/
theorem targetExponent_le {mantissa : Nat} {exponent unit : Int} (least : -1074 ≤ unit)
    (small : (mantissa : ℚ) * 2 ^ exponent < 2 ^ (unit + 53)) (positive : mantissa ≠ 0) :
    Format.binary64.targetExponent (totalExponent mantissa exponent) ≤ unit := by
  have digits : (2 : ℚ) ^ ((mantissa.log2 : Int) + exponent) < 2 ^ (unit + 53) := by
    refine lt_of_le_of_lt ?_ small
    rw [zpow_add₀ (by norm_num), zpow_natCast]
    refine mul_le_mul_of_nonneg_right ?_ (zpow_pos (by norm_num) _).le
    exact_mod_cast Nat.log2_self_le positive
  have less := (zpow_lt_zpow_iff_right₀ (by norm_num)).1 digits
  simp only [Format.targetExponent, totalExponent, Format.mantissaBits, Format.minExponent]
  norm_num
  omega

/-- Rounding adds at most a unit in the last place, given by its power of two. -/
theorem atMost_roundWithAccuracy {sign : Sign} {mantissa : Nat} {exponent unit : Int}
    {accuracy : Accuracy} (least : -1074 ≤ unit) (fine : exponent ≤ unit)
    (small : (mantissa : ℚ) * 2 ^ exponent < 2 ^ (unit + 53)) :
    AtMost (mantissa * 2 ^ exponent + 2 ^ unit)
      (roundWithAccuracy Format.binary64 sign mantissa exponent accuracy) := by
  unfold roundWithAccuracy shiftToTargetExponent shiftToExponent
  dsimp only
  set first := (Format.binary64.targetExponent (totalExponent mantissa exponent) - exponent).toNat
  -- the first shift stops at the unit, since the number has no more digits above it than fit
  have near : exponent + first ≤ unit := by
    by_cases positive : mantissa = 0
    · simp only [first, positive, Format.targetExponent, totalExponent, Format.mantissaBits,
        Format.minExponent]
      norm_num
      omega
    · have target := targetExponent_le least small positive
      omega
  set rounded := (ExtendedMantissa.ofMantissaAndAccuracy mantissa accuracy >>> first).roundedMantissa
  -- rounding adds at most one to what the shift leaves, and a second shift only takes away
  have floor : rounded ≤ mantissa / 2 ^ first + 1 := by
    have up := roundedMantissa_le (ExtendedMantissa.ofMantissaAndAccuracy mantissa accuracy >>> first)
    rwa [mantissa_shiftRight, mantissa_ofMantissaAndAccuracy] at up
  split
  · trivial
  · rw [AtMost, mantissa_shiftRight, mantissa_ofMantissaAndAccuracy]
    refine le_trans (div_pow_mul_le rounded _ _) ?_
    calc (rounded : ℚ) * 2 ^ (exponent + first)
        ≤ ((mantissa / 2 ^ first : Nat) + 1) * 2 ^ (exponent + first) :=
          mul_le_mul_of_nonneg_right (by exact_mod_cast floor) (zpow_pos (by norm_num) _).le
      _ = (mantissa / 2 ^ first : Nat) * 2 ^ (exponent + first) + 2 ^ (exponent + first) := by ring
      _ ≤ mantissa * 2 ^ exponent + 2 ^ unit :=
          add_le_add (div_pow_mul_le mantissa first exponent)
            (zpow_le_zpow_right₀ (by norm_num) near)

/-- The same for a number of any exponent, to which bits are added first. -/
theorem atMost_round {sign : Sign} {mantissa : Nat} {exponent unit : Int} (least : -1074 ≤ unit)
    (small : (mantissa : ℚ) * 2 ^ exponent < 2 ^ (unit + 53)) (positive : mantissa ≠ 0) :
    AtMost (mantissa * 2 ^ exponent + 2 ^ unit)
      (UnpackedFloat.round Format.binary64 sign mantissa exponent) := by
  unfold UnpackedFloat.round decreaseExponent
  dsimp only
  set count := (exponent - Format.binary64.targetExponent (totalExponent mantissa exponent)).toNat
  have same : ((mantissa <<< count : Nat) : ℚ) * 2 ^ (exponent - count) = mantissa * 2 ^ exponent := by
    rw [Nat.shiftLeft_eq, zpow_sub₀ (by norm_num), zpow_natCast]
    push_cast
    field_simp
  have target := targetExponent_le least small positive
  rw [← same] at small ⊢
  exact atMost_roundWithAccuracy least (by omega) small

/-! ## Packing -/

/-- What the bits of a float stand for has at most 53 bits, and fewer only next to zero. -/
theorem unpack_eq_finite {x : Float} {sign : Sign} {mantissa : Nat} {exponent : Int}
    {positive : 0 < mantissa} (unpacked : x.toModel.unpack = .finite sign mantissa exponent positive) :
    mantissa < 2 ^ 53 ∧ exponent ≤ 971 ∧ (2 ^ 52 ≤ mantissa ∨ exponent = -1074) := by
  change UnpackedFloat.unpack Format.binary64 x.toBits.toBitVec = _ at unpacked
  have bound := (@unpackMantissa Format.binary64 x.toBits.toBitVec).isLt
  have bits : 2 ^ Format.binary64.mantissaBitsWithoutImplicit = 2 ^ 52 := rfl
  have bias : Format.binary64.exponentBias = 1023 := by decide
  have field := (@unpackExponent Format.binary64 x.toBits.toBitVec).isLt
  unfold UnpackedFloat.unpack at unpacked
  dsimp only at unpacked bound field
  rw [bias] at unpacked
  split at unpacked
  · split at unpacked <;> cases unpacked
  case isFalse notFull =>
    -- the largest field of the exponent is taken by infinities and by what is not a number
    have below : (@unpackExponent Format.binary64 x.toBits.toBitVec).toNat ≠ 2047 :=
      fun full => notFull (BitVec.eq_of_toNat_eq full)
    split at unpacked
    case isTrue least =>
      -- a number without a leading one has the least exponent
      split at unpacked
      · cases unpacked
      · injection unpacked with _ mantissa exponent
        rw [least] at exponent
        simp at exponent
        omega
    case isFalse =>
      injection unpacked with _ mantissa exponent
      rw [toNat_append_one] at mantissa
      omega

/-- The bits of a sign, an exponent and a mantissa: the exponent zero leads next to zero, others keep
the mantissa with its leading one. -/
theorem unpack_packComponents (sign : Sign) (field : BitVec 11) (mantissa : BitVec 52)
    (finite : field.toNat ≠ 2047) :
    (field = 0#11 ∧ AtMost (2 ^ (-1022 : Int))
      (UnpackedFloat.unpack Format.binary64 (packComponents Format.binary64 sign field mantissa))) ∨
    (field ≠ 0#11 ∧ ∃ positive, UnpackedFloat.unpack Format.binary64
      (packComponents Format.binary64 sign field mantissa) =
        .finite sign (mantissa.toNat + 2 ^ 52) ((field.toNat : Int) - 1075) positive) := by
  have notFull : field ≠ -1#11 := by
    intro full
    rw [full] at finite
    exact finite rfl
  have bias : Format.binary64.exponentBias = 1023 := by decide
  unfold UnpackedFloat.unpack
  simp only [unpackExponent_packComponents, unpackMantissa_packComponents,
    unpackSign_packComponents, ofBitVec_toBitVec, bias]
  rw [if_neg notFull]
  split
  case isTrue least =>
    left
    refine ⟨least, ?_⟩
    split
    · trivial
    · rw [least]
      have small : (mantissa.toNat : ℚ) ≤ 2 ^ 52 := by exact_mod_cast mantissa.isLt.le
      calc (mantissa.toNat : ℚ) * 2 ^ (((0#11).toNat : Int) - (((1023 : Nat) : Int) + ((52 : Nat) : Int)) + 1)
          ≤ 2 ^ 52 * 2 ^ (((0#11).toNat : Int) - (((1023 : Nat) : Int) + ((52 : Nat) : Int)) + 1) :=
            mul_le_mul_of_nonneg_right small (zpow_pos (by norm_num) _).le
        _ = 2 ^ (-1022 : Int) := by
            rw [← zpow_natCast, ← zpow_add₀ (by norm_num)]
            rfl
  case isFalse normal =>
    right
    refine ⟨normal, by positivity, ?_⟩
    congr 1
    exact toNat_append_one mantissa

/-- A magnitude that is neither tiny nor huge survives packing. -/
theorem AtMost.unpack_pack {unpacked : UnpackedFloat} {bound : ℚ} (atMost : AtMost bound unpacked)
    (least : 2 ^ (-1022 : Int) ≤ bound) (most : bound ≤ 2 ^ 16) :
    AtMost bound (pack unpacked).unpack := by
  cases unpacked with
  | notANumber => exact atMost.elim
  | infinity => exact atMost.elim
  | zero sign =>
    rw [unpack_pack_zero]
    trivial
  | finite sign mantissa exponent positive =>
    -- with a small exponent the number does not overflow
    have low : exponent ≤ 16 := by
      have one : (1 : ℚ) ≤ mantissa := by exact_mod_cast positive
      have power : (2 : ℚ) ^ exponent ≤ 2 ^ (16 : Int) := by
        calc (2 : ℚ) ^ exponent ≤ mantissa * 2 ^ exponent :=
              le_mul_of_one_le_left (zpow_pos (by norm_num) _).le one
          _ ≤ 2 ^ (16 : Int) := le_trans atMost (by exact_mod_cast most)
      exact (zpow_le_zpow_iff_right₀ (by norm_num)).1 power
    have bias : Format.binary64.exponentBias = 1023 := by decide
    have bits : Format.binary64.mantissaBits = 53 := by decide
    change AtMost bound (UnpackedFloat.unpack Format.binary64 (UnpackedFloat.pack Format.binary64 _))
    simp only [UnpackedFloat.pack, bias, bits]
    rw [if_neg (by omega)]
    set field := (exponent + ((1023 : Nat) : Int) + ((52 : Nat) : Int)).toNat
    have fits : (BitVec.ofNat 11 field).toNat = field := by
      rw [BitVec.toNat_ofNat, Nat.mod_eq_of_lt (by omega)]
    split
    case isTrue digits =>
      rcases unpack_packComponents sign (BitVec.ofNat 11 field) (BitVec.ofNat 52 mantissa)
        (by omega) with ⟨-, tiny⟩ | ⟨nonzero, _, normal⟩
      · exact tiny.mono least
      · -- the number is what it was before packing
        obtain ⟨above, below⟩ := (Nat.log2_eq_iff (Nat.ne_of_gt positive)).1 (Nat.succ.inj digits)
        have same : (BitVec.ofNat 52 mantissa).toNat + 2 ^ 52 = mantissa := by
          rw [BitVec.toNat_ofNat]
          omega
        have kept : (field : Int) - 1075 = exponent := by
          have some : field ≠ 0 := by
            intro none
            rw [none] at nonzero
            exact nonzero rfl
          omega
        rw [normal, AtMost, same, fits, kept]
        exact atMost
    case isFalse =>
      -- without a leading one the number is tiny
      rcases unpack_packComponents sign 0#11 (BitVec.ofNat 52 mantissa) (by decide) with
        ⟨-, tiny⟩ | ⟨nonzero, -⟩
      · exact tiny.mono least
      · exact absurd rfl nonzero

/-! ## Arithmetic -/

/-- The value of a whole number, by its mantissa and exponent. -/
theorem wholeMantissa_mul_zpow {n : Int} (small : Small n) (nonzero : n ≠ 0) :
    (wholeMantissa n : ℚ) * 2 ^ wholeExponent n = n.natAbs := by
  have digits := small.log2_le nonzero
  have exponent : wholeExponent n = -((52 - n.natAbs.log2 : Nat) : Int) := by
    simp only [wholeExponent]
    omega
  rw [wholeMantissa, exponent, Nat.shiftLeft_eq, zpow_neg, zpow_natCast]
  push_cast
  rw [mul_assoc, mul_inv_cancel₀ (by positivity), mul_one]

theorem atMost_of_isWholeFloat {x : Float} {n : Int} (whole : IsWholeFloat x n) :
    AtMost n.natAbs x.toModel.unpack := by
  obtain ⟨small, unpacked⟩ := whole
  rw [unpacked]
  unfold unpackedWhole
  split
  case isTrue nonzero => exact (wholeMantissa_mul_zpow small nonzero).le
  case isFalse => trivial

/-- A product of floats that is below `2 ^ 15`. -/
theorem AtMost.mul {x y : Float} {bound other : ℚ} (atMost : AtMost bound x.toModel.unpack)
    (atMostOther : AtMost other y.toModel.unpack) (small : bound * other < 2 ^ 15) :
    AtMost (bound * other + 2 ^ (-38 : Int)) (x * y).toModel.unpack := by
  change AtMost _ (pack (UnpackedFloat.mul Format.binary64 x.toModel.unpack y.toModel.unpack)).unpack
  -- a product with zero is zero
  rcases atMost.eq_zero_or_finite with ⟨sign, zero⟩ |
    ⟨sign, mantissa, exponent, positive, unpacked, above, below⟩
  · rcases atMostOther.eq_zero_or_finite with ⟨sign', zero'⟩ | ⟨sign', _, _, _, unpacked', -⟩
    · rw [zero, zero', UnpackedFloat.mul, unpack_pack_zero]
      trivial
    · rw [zero, unpacked', UnpackedFloat.mul, unpack_pack_zero]
      trivial
  rcases atMostOther.eq_zero_or_finite with ⟨sign', zero'⟩ |
    ⟨sign', mantissa', exponent', positive', unpacked', above', below'⟩
  · rw [unpacked, zero', UnpackedFloat.mul, unpack_pack_zero]
    trivial
  have product : ((mantissa * mantissa' : Nat) : ℚ) * 2 ^ (exponent + exponent') ≤ bound * other := by
    calc ((mantissa * mantissa' : Nat) : ℚ) * 2 ^ (exponent + exponent')
        = (mantissa * 2 ^ exponent) * (mantissa' * 2 ^ exponent') := by
          rw [zpow_add₀ (by norm_num)]
          push_cast
          ring
      _ ≤ bound * other := mul_le_mul below below' above'.le (above.le.trans below)
  -- two full mantissas have 104 digits, so the product is small only if its exponent is
  have fine : exponent + exponent' ≤ -38 := by
    obtain ⟨-, low, normal⟩ := unpack_eq_finite unpacked
    obtain ⟨-, low', normal'⟩ := unpack_eq_finite unpacked'
    by_cases both : 2 ^ 52 ≤ mantissa ∧ 2 ^ 52 ≤ mantissa'
    · have digits : ((2 ^ 104 : Nat) : ℚ) ≤ (mantissa * mantissa' : Nat) := by
        exact_mod_cast Nat.mul_le_mul both.1 both.2
      have power : (2 : ℚ) ^ (104 + (exponent + exponent')) < 2 ^ (15 : Int) := by
        rw [zpow_add₀ (by norm_num)]
        refine lt_of_le_of_lt (le_trans ?_ product) (by exact_mod_cast small)
        exact mul_le_mul_of_nonneg_right (by exact_mod_cast digits) (zpow_pos (by norm_num) _).le
      have less := (zpow_lt_zpow_iff_right₀ (by norm_num)).1 power
      omega
    · omega
  have positiveBound : 0 ≤ bound * other := mul_nonneg (above.le.trans below) (above'.le.trans below')
  rw [unpacked, unpacked']
  refine AtMost.unpack_pack ?_ ?_ ?_
  · refine (atMost_roundWithAccuracy (by decide) fine ?_).mono (add_le_add product le_rfl)
    exact lt_of_le_of_lt product (by exact_mod_cast small)
  · refine le_trans ?_ (le_add_of_nonneg_left positiveBound)
    exact zpow_le_zpow_right₀ (by norm_num) (by norm_num)
  · have unit : (2 : ℚ) ^ (-38 : Int) ≤ 1 := zpow_le_one_of_nonpos₀ (by norm_num) (by norm_num)
    linarith

/-! ## Weights -/

def Nonnegative : UnpackedFloat → Prop
  | .finite sign .. | .infinity sign => sign = .positive
  | _ => True

theorem nonnegative_packComponents (field : BitVec 11) (mantissa : BitVec 52) :
    Nonnegative (UnpackedFloat.unpack Format.binary64
      (packComponents Format.binary64 .positive field mantissa)) := by
  unfold UnpackedFloat.unpack
  simp only [unpackSign_packComponents, ofBitVec_toBitVec]
  split
  · split <;> trivial
  · split
    · split <;> trivial
    · trivial

theorem Nonnegative.unpack_pack {unpacked : UnpackedFloat} (nonnegative : Nonnegative unpacked) :
    Nonnegative (pack unpacked).unpack := by
  cases unpacked with
  | notANumber => exact nonnegative
  | infinity sign =>
    cases nonnegative
    rfl
  | zero sign =>
    rw [unpack_pack_zero]
    trivial
  | finite sign mantissa exponent positive =>
    cases nonnegative
    change Nonnegative (UnpackedFloat.unpack Format.binary64 (UnpackedFloat.pack Format.binary64 _))
    unfold UnpackedFloat.pack
    dsimp only
    split
    · rfl
    · split <;> exact nonnegative_packComponents _ _

theorem nonnegative_roundWithAccuracy (mantissa : Nat) (exponent : Int) (accuracy : Accuracy) :
    Nonnegative (roundWithAccuracy Format.binary64 .positive mantissa exponent accuracy) := by
  unfold roundWithAccuracy
  dsimp only
  split <;> trivial

/-- A quotient, by the exponent that the dividend was shifted for. -/
theorem shiftLeft_div_mul_zpow (mantissa mantissa' : Nat) {exponent exponent' target : Int}
    (le : target ≤ exponent - exponent') :
    ((mantissa <<< (exponent - exponent' - target).toNat : Nat) : ℚ) / mantissa' * 2 ^ target =
      (mantissa * 2 ^ exponent) / (mantissa' * 2 ^ exponent') := by
  have power : (2 : ℚ) ^ (exponent - exponent') = 2 ^ (exponent - exponent' - target).toNat * 2 ^ target := by
    rw [← zpow_natCast, ← zpow_add₀ (by norm_num)]
    congr 1
    omega
  calc ((mantissa <<< (exponent - exponent' - target).toNat : Nat) : ℚ) / mantissa' * 2 ^ target
      = mantissa / mantissa' * 2 ^ (exponent - exponent') := by
        rw [power, Nat.shiftLeft_eq]
        push_cast
        ring
    _ = (mantissa * 2 ^ exponent) / (mantissa' * 2 ^ exponent') := by
        rw [zpow_sub₀ (by norm_num), div_mul_div_comm]

/-- A quotient that was cut off is at most the exact one. -/
theorem shiftLeft_div_mul_zpow_le (mantissa mantissa' : Nat) {exponent exponent' target : Int}
    (le : target ≤ exponent - exponent') :
    (((mantissa <<< (exponent - exponent' - target).toNat) / mantissa' : Nat) : ℚ) * 2 ^ target ≤
      (mantissa * 2 ^ exponent) / (mantissa' * 2 ^ exponent') := by
  rw [← shiftLeft_div_mul_zpow mantissa mantissa' le]
  exact mul_le_mul_of_nonneg_right Nat.cast_div_le (zpow_pos (by norm_num) _).le

/-- A quotient of whole numbers that is at most one. -/
theorem weight_div {x y : Float} {n m : Int} (whole : IsWholeFloat x n) (whole' : IsWholeFloat y m)
    (nonneg : 0 ≤ n) (le : n ≤ m) (positive : 0 < m) :
    AtMost (1 + 2 ^ (-52 : Int)) (x / y).toModel.unpack ∧ Nonnegative (x / y).toModel.unpack := by
  obtain ⟨small, unpacked⟩ := whole
  obtain ⟨small', unpacked'⟩ := whole'
  change AtMost _ (pack (UnpackedFloat.div Format.binary64 x.toModel.unpack y.toModel.unpack)).unpack ∧
    Nonnegative (pack (UnpackedFloat.div Format.binary64 x.toModel.unpack y.toModel.unpack)).unpack
  rw [unpacked, unpacked']
  have nonzero' : m ≠ 0 := by omega
  have sign' : signOf m = .positive := if_neg (by omega)
  by_cases zero : n = 0
  · subst zero
    simp only [unpackedWhole, ne_eq, not_true_eq_false, dite_false, sign', dif_pos nonzero',
      UnpackedFloat.div, unpack_pack_zero]
    trivial
  have sign : signOf n = .positive := if_neg (by omega)
  simp only [unpackedWhole, dif_pos zero, dif_pos nonzero', sign, sign', UnpackedFloat.div, divCore]
  set target := min (wholeExponent n - wholeExponent m) (Format.binary64.targetExponent
    (totalExponent (wholeMantissa n) (wholeExponent n) -
      totalExponent (wholeMantissa m) (wholeExponent m)))
  have quotient := shiftLeft_div_mul_zpow_le (wholeMantissa n) (wholeMantissa m)
    (show target ≤ wholeExponent n - wholeExponent m from min_le_left _ _)
  have one : (n.natAbs : ℚ) / m.natAbs ≤ 1 :=
    div_le_one_of_le₀ (by exact_mod_cast (by omega : n.natAbs ≤ m.natAbs)) (by positivity)
  rw [wholeMantissa_mul_zpow small zero, wholeMantissa_mul_zpow small' nonzero'] at quotient
  -- the quotient has no digits above one, so all of them are below
  have fine : target ≤ -52 := by
    have orders : n.natAbs.log2 ≤ m.natAbs.log2 := by
      rw [Nat.log2_eq_log_two, Nat.log2_eq_log_two]
      exact Nat.log_mono_right (by omega)
    refine le_trans (min_le_right _ _) ?_
    simp only [totalExponent, small.log2_wholeMantissa zero, small'.log2_wholeMantissa nonzero',
      wholeExponent, Format.targetExponent, Format.mantissaBits, Format.minExponent]
    norm_num
    omega
  refine ⟨AtMost.unpack_pack ?_ ?_ ?_, (nonnegative_roundWithAccuracy _ _ _).unpack_pack⟩
  · refine (atMost_roundWithAccuracy (by decide) fine ?_).mono
      (add_le_add (quotient.trans one) le_rfl)
    exact lt_of_le_of_lt (quotient.trans one) (by norm_num)
  · refine le_trans (zpow_le_one_of_nonpos₀ (by norm_num) (by norm_num)) ?_
    exact le_add_of_nonneg_right (zpow_pos (by norm_num) _).le
  · norm_num

theorem decreaseExponent_mul_zpow (mantissa : Nat) {exponent least : Int} (le : least ≤ exponent) :
    ((decreaseExponent mantissa exponent least).1 : ℚ) * 2 ^ least = mantissa * 2 ^ exponent := by
  have power : (2 : ℚ) ^ exponent = 2 ^ (exponent - least).toNat * 2 ^ least := by
    rw [← zpow_natCast, ← zpow_add₀ (by norm_num)]
    congr 1
    omega
  rw [decreaseExponent, Nat.shiftLeft_eq, power]
  push_cast
  ring

/-- Rounding of a difference. -/
theorem atMost_normalize {mantissa exponent unit : Int} {sign : Sign} (least : -1074 ≤ unit)
    (small : (mantissa.natAbs : ℚ) * 2 ^ exponent < 2 ^ (unit + 53)) :
    AtMost (mantissa.natAbs * 2 ^ exponent + 2 ^ unit)
      (UnpackedFloat.normalize Format.binary64 mantissa exponent sign) := by
  unfold UnpackedFloat.normalize
  split
  case h_1 negative =>
    have less := Int.compare_eq_lt.1 negative
    have same : (-mantissa).toNat = mantissa.natAbs := by omega
    rw [same]
    exact atMost_round least small (by omega)
  case h_2 => trivial
  case h_3 positive =>
    have greater := Int.compare_eq_gt.1 positive
    have same : mantissa.toNat = mantissa.natAbs := by omega
    rw [same]
    exact atMost_round least small (by omega)

/-- What a weight leaves of one. -/
theorem AtMost.one_sub {x : Float} (weight : AtMost (1 + 2 ^ (-52 : Int)) x.toModel.unpack)
    (nonnegative : Nonnegative x.toModel.unpack) :
    AtMost (1 + 2 ^ (-51 : Int)) (1.0 - x).toModel.unpack := by
  have one : (1.0 : Float).toModel.unpack = .finite .positive (2 ^ 52) (-52) (by decide) := rfl
  change AtMost _ (pack (UnpackedFloat.sub Format.binary64 (1.0 : Float).toModel.unpack
    x.toModel.unpack)).unpack
  refine AtMost.unpack_pack ?_ ?_ (by norm_num)
  swap
  · refine le_trans (zpow_le_one_of_nonpos₀ (by norm_num) (by norm_num)) ?_
    exact le_add_of_nonneg_right (zpow_pos (by norm_num) _).le
  rw [one]
  rcases weight.eq_zero_or_finite with ⟨sign, zero⟩ |
    ⟨sign, mantissa, exponent, positive, unpacked, above, below⟩
  · rw [zero]
    change ((2 ^ 52 : Nat) : ℚ) * 2 ^ (-52 : Int) ≤ _
    norm_num
  · rw [unpacked] at nonnegative
    obtain rfl : sign = .positive := nonnegative
    rw [unpacked]
    simp only [UnpackedFloat.sub, Sign.apply]
    -- both numbers are brought to one exponent, and their difference is at most the greater of them
    have first := decreaseExponent_mul_zpow (2 ^ 52) (min_le_left (-52) exponent)
    have second := decreaseExponent_mul_zpow mantissa (min_le_right (-52) exponent)
    set left := (decreaseExponent (2 ^ 52) (-52) (min (-52) exponent)).1
    set right := (decreaseExponent mantissa exponent (min (-52) exponent)).1
    have unit : ((2 ^ 52 : Nat) : ℚ) * 2 ^ (-52 : Int) = 1 := by norm_num
    have difference : (((left : Int) - right).natAbs : ℚ) * 2 ^ (min (-52) exponent) ≤
        1 + 2 ^ (-52 : Int) := by
      have most : ((left : Int) - right).natAbs ≤ max left right := by omega
      have power : (0 : ℚ) < 2 ^ (min (-52) exponent) := zpow_pos (by norm_num) _
      refine le_trans (mul_le_mul_of_nonneg_right (Nat.cast_le.2 most) power.le) ?_
      rw [Nat.cast_max, max_mul_of_nonneg _ _ power.le, first, second, unit]
      exact max_le (by norm_num) below
    refine (@atMost_normalize _ _ (-52) _ (by decide) (difference.trans_lt (by norm_num))).mono ?_
    refine le_trans (add_le_add difference le_rfl) ?_
    norm_num

/-! ## Truncation -/

theorem wholePart_le (mantissa : Nat) (exponent : Int) :
    ((wholePart mantissa exponent).1 : ℚ) ≤ mantissa * 2 ^ exponent := by
  cases exponent with
  | ofNat up =>
    simp only [wholePart, Nat.shiftLeft_eq]
    push_cast
    exact le_of_eq (by rw [Int.ofNat_eq_natCast, zpow_natCast])
  | negSucc down =>
    have dropped := div_pow_mul_le mantissa (down + 1) (Int.negSucc down)
    have none : Int.negSucc down + ((down + 1 : Nat) : Int) = 0 := by omega
    rw [none, zpow_zero, mul_one] at dropped
    simpa only [wholePart, Nat.shiftRight_eq_div_pow] using dropped

/-- Truncation of a magnitude below `2 ^ 15` gives a height. -/
theorem AtMost.isHeight_truncateHeight {x : Float} {bound : ℚ} (atMost : AtMost bound x.toModel.unpack)
    (small : bound < 2 ^ 15) : IsHeight (truncateHeight x) := by
  unfold truncateHeight truncateTo narrowBy
  rw [decode_eq]
  rcases atMost.eq_zero_or_finite with ⟨sign, zero⟩ |
    ⟨sign, mantissa, exponent, positive, unpacked, above, below⟩
  · rw [zero]
    cases sign <;> decide
  · rw [unpacked]
    have whole : (wholePart mantissa exponent).1 < 2 ^ 15 := by
      have less := (wholePart_le mantissa exponent).trans_lt (below.trans_lt small)
      exact_mod_cast less
    have truncated : IsHeight (truncateWhole (isNegative sign) mantissa exponent) := by
      cases sign <;> simp only [truncateWhole, isNegative, IsHeight, heightMin, heightMax] <;> grind
    have low : -32768 ≤ truncateWhole (isNegative sign) mantissa exponent :=
      le_trans (by decide) truncated.1
    have high : truncateWhole (isNegative sign) mantissa exponent ≤ 32767 := truncated.2
    simp only [Binary.ofUnpacked]
    rwa [clampInt_of_mem low high]

theorem order_of_ne_gt {mantissa mantissa' : Nat} {exponent exponent' : Int}
    (order : (compare exponent exponent').then (compare mantissa mantissa') ≠ .gt) :
    exponent < exponent' ∨ exponent = exponent' ∧ mantissa ≤ mantissa' := by
  simp only [ne_eq, Ordering.then_eq_gt, compare_gt_iff_gt, compare_eq_iff_eq] at order
  omega

/-- Of two unpacked floats the one with the smaller exponent is smaller, then the one with the smaller
mantissa. -/
theorem mul_zpow_le_of_order {mantissa mantissa' : Nat} {exponent exponent' : Int}
    (bits : mantissa < 2 ^ 53) (bits' : 2 ^ 52 ≤ mantissa')
    (order : exponent < exponent' ∨ exponent = exponent' ∧ mantissa ≤ mantissa') :
    (mantissa : ℚ) * 2 ^ exponent ≤ mantissa' * 2 ^ exponent' := by
  rcases order with less | ⟨rfl, le⟩
  · have twice : mantissa ≤ mantissa' * 2 := by omega
    have power : (2 : ℚ) ^ exponent * 2 ≤ 2 ^ exponent' := by
      rw [← zpow_add_one₀ (by norm_num)]
      exact zpow_le_zpow_right₀ (by norm_num) less
    have positive : (0 : ℚ) < 2 ^ exponent := zpow_pos (by norm_num) _
    calc (mantissa : ℚ) * 2 ^ exponent ≤ (mantissa' * 2) * 2 ^ exponent :=
          mul_le_mul_of_nonneg_right (by exact_mod_cast twice) positive.le
      _ = mantissa' * (2 ^ exponent * 2) := by ring
      _ ≤ mantissa' * 2 ^ exponent' := mul_le_mul_of_nonneg_left power (Nat.cast_nonneg _)
  · exact mul_le_mul_of_nonneg_right (by exact_mod_cast le) (zpow_pos (by norm_num) _).le

/-- What a float that is not negative is truncated to is a height, even if it is not a number. -/
theorem Nonnegative.isHeight_truncateHeight {x : Float} (nonnegative : Nonnegative x.toModel.unpack) :
    IsHeight (truncateHeight x) := by
  have range := narrowBy_mem truncateWhole (-32768) 32767 x (by decide) (by decide)
  refine ⟨?_, range.2⟩
  unfold truncateHeight truncateTo narrowBy
  rw [decode_eq]
  cases unpacked : x.toModel.unpack with
  | notANumber => decide
  | zero sign => cases sign <;> decide
  | infinity sign =>
    rw [unpacked] at nonnegative
    obtain rfl : sign = .positive := nonnegative
    decide
  | finite sign mantissa exponent positive =>
    rw [unpacked] at nonnegative
    obtain rfl : sign = .positive := nonnegative
    simp only [Binary.ofUnpacked, truncateWhole, isNegative, clampInt, heightMin]
    grind

/-- A float that is not below `-32767` is truncated to a height. -/
theorem isHeight_truncateHeight_of_not_lt {x : Float} (above : ¬x < -32767.0) :
    IsHeight (truncateHeight x) := by
  have least : (-32767.0 : Float).toModel.unpack =
      .finite .negative (32767 <<< 38) (-38) (by decide) := rfl
  have order : (x.toModel.unpack.compare (-32767.0 : Float).toModel.unpack == some .lt) = false := by
    simpa [LT.lt, Float.lt, Float.Model.lt, UnpackedFloat.lt] using above
  rw [least] at order
  cases unpacked : x.toModel.unpack with
  | notANumber => exact Nonnegative.isHeight_truncateHeight (by rw [unpacked]; trivial)
  | zero sign => exact Nonnegative.isHeight_truncateHeight (by rw [unpacked]; trivial)
  | infinity sign =>
    cases sign with
    | positive => exact Nonnegative.isHeight_truncateHeight (by rw [unpacked]; rfl)
    | negative =>
      rw [unpacked] at order
      cases order
  | finite sign mantissa exponent positive =>
    cases sign with
    | positive => exact Nonnegative.isHeight_truncateHeight (by rw [unpacked]; rfl)
    | negative =>
      -- among negative numbers the smaller magnitude is the greater number
      obtain ⟨bits, -⟩ := unpack_eq_finite unpacked
      rw [unpacked] at order
      have lower : exponent < -38 ∨ exponent = -38 ∧ mantissa ≤ 32767 <<< 38 := by
        apply order_of_ne_gt
        intro greater
        simp only [UnpackedFloat.compare, greater] at order
        exact absurd order (by decide)
      have atMost : AtMost ((32767 <<< 38 : Nat) * 2 ^ (-38 : Int)) x.toModel.unpack := by
        rw [unpacked]
        exact mul_zpow_le_of_order bits (by decide) lower
      exact atMost.isHeight_truncateHeight (by norm_num [Nat.shiftLeft_eq])

/-- A float that is not below one; it may not be a number. -/
theorem nonnegative_of_not_lt_one {x : Float} (above : ¬x < 1.0) : Nonnegative x.toModel.unpack := by
  have one : (1.0 : Float).toModel.unpack = .finite .positive (2 ^ 52) (-52) (by decide) := rfl
  have order : (x.toModel.unpack.compare (1.0 : Float).toModel.unpack == some .lt) = false := by
    simpa [LT.lt, Float.lt, Float.Model.lt, UnpackedFloat.lt] using above
  rw [one] at order
  cases unpacked : x.toModel.unpack with
  | notANumber => trivial
  | zero sign => trivial
  | infinity sign =>
    rw [unpacked] at order
    cases sign with
    | positive => rfl
    | negative => cases order
  | finite sign mantissa exponent positive =>
    rw [unpacked] at order
    cases sign with
    | positive => rfl
    | negative => cases order

/-! ## Heights -/

/-- Whatever a float stands for, clamped it becomes a height. -/
theorem isHeight_clampHeightFloat (value : Float) : IsHeight (clampHeightFloat value) := by
  unfold clampHeightFloat clamp
  split
  · decide +kernel
  case isFalse above =>
    split
    · decide +kernel
    · exact isHeight_truncateHeight_of_not_lt above

theorem isHeight_iff {value : Int} : IsHeight value ↔ -32767 ≤ value ∧ value ≤ 32767 := Iff.rfl

theorem isWholeFloat_heightMax : IsWholeFloat 32767.0 32767 := ⟨by norm_num [Small], rfl⟩

theorem small_of_isHeight {height : Int} (isHeight : IsHeight height) : Small height := by
  rw [isHeight_iff] at isHeight
  unfold Small
  omega

theorem atMost_ofInt {height : Int} (isHeight : IsHeight height) :
    AtMost 32767 (Float.ofInt height).toModel.unpack := by
  refine (atMost_of_isWholeFloat (isWholeFloat_ofInt (small_of_isHeight isHeight))).mono ?_
  rw [isHeight_iff] at isHeight
  exact_mod_cast (by omega : height.natAbs ≤ 32767)

/-- A height times a factor that exceeds one by a trifle at most. -/
theorem isHeight_weighted {height : Int} {factor : Float} (isHeight : IsHeight height)
    (weight : AtMost (1 + 2 ^ (-51 : Int)) factor.toModel.unpack) :
    IsHeight (weighted height factor) := by
  have product := (atMost_ofInt isHeight).mul weight (by norm_num)
  exact product.isHeight_truncateHeight (by norm_num)

/-- The weight of a mask sample. -/
theorem weight_maskFactor {mask : Int} (isHeight : IsHeight mask) :
    AtMost (1 + 2 ^ (-52 : Int)) (maskFactor mask).toModel.unpack ∧
      Nonnegative (maskFactor mask).toModel.unpack := by
  rw [isHeight_iff] at isHeight
  refine weight_div (isWholeFloat_ofInt ?_) isWholeFloat_heightMax (by omega) (by omega) (by decide)
  unfold Small
  omega

/-- A height weighted by a mask. -/
theorem isHeight_weighted_maskFactor {height mask : Int} (isHeight : IsHeight height)
    (isMask : IsHeight mask) : IsHeight (weighted height (maskFactor mask)) :=
  isHeight_weighted isHeight ((weight_maskFactor isMask).1.mono (by norm_num))

/-- A height weighted by what a mask leaves. -/
theorem isHeight_weighted_one_sub {height mask : Int} (isHeight : IsHeight height)
    (isMask : IsHeight mask) : IsHeight (weighted height (1.0 - maskFactor mask)) := by
  obtain ⟨weight, nonnegative⟩ := weight_maskFactor isMask
  exact isHeight_weighted isHeight (weight.one_sub nonnegative)

/-- A number in `[-1, 1]`. -/
theorem atMost_of_le {x : Float} (above : -1.0 ≤ x) (below : x ≤ 1.0) : AtMost 1 x.toModel.unpack := by
  have one : (1.0 : Float).toModel.unpack = .finite .positive (2 ^ 52) (-52) (by decide) := rfl
  have minusOne : (-1.0 : Float).toModel.unpack = .finite .negative (2 ^ 52) (-52) (by decide) := rfl
  have orderAbove : Option.any (·.isLE) ((-1.0 : Float).toModel.unpack.compare x.toModel.unpack) = true :=
    of_decide_eq_true above
  have orderBelow : Option.any (·.isLE) (x.toModel.unpack.compare (1.0 : Float).toModel.unpack) = true :=
    of_decide_eq_true below
  rw [minusOne] at orderAbove
  rw [one] at orderBelow
  have unit : ((2 ^ 52 : Nat) : ℚ) * 2 ^ (-52 : Int) = 1 := by norm_num
  cases unpacked : x.toModel.unpack with
  | notANumber =>
    rw [unpacked] at orderBelow
    cases orderBelow
  | zero sign => trivial
  | infinity sign =>
    rw [unpacked] at orderAbove orderBelow
    cases sign with
    | positive => cases orderBelow
    | negative => cases orderAbove
  | finite sign mantissa exponent positive =>
    obtain ⟨bits, -⟩ := unpack_eq_finite unpacked
    rw [unpacked] at orderAbove orderBelow
    -- either sign leaves a magnitude of at most one
    have lower : exponent < -52 ∨ exponent = -52 ∧ mantissa ≤ 2 ^ 52 := by
      cases sign with
      | positive =>
        apply order_of_ne_gt
        intro greater
        simp only [UnpackedFloat.compare, greater] at orderBelow
        exact absurd orderBelow (by decide)
      | negative =>
        have order : (compare (-52) exponent).then (compare (2 ^ 52) mantissa) ≠ .lt := by
          intro less
          simp only [UnpackedFloat.compare, less] at orderAbove
          exact absurd orderAbove (by decide)
        simp only [ne_eq, Ordering.then_eq_lt, compare_lt_iff_lt, compare_eq_iff_eq] at order
        omega
    exact unit ▸ mul_zpow_le_of_order bits (by decide) lower

theorem isHeight_of_numberToHeight? {n : Float} {height : Height}
    (converted : numberToHeight? n = some height) : IsHeight height := by
  unfold numberToHeight? at converted
  split at converted
  case isTrue within =>
    cases converted
    simp only [Bool.and_eq_true, decide_eq_true_eq] at within
    have product := (atMost_of_le within.1 within.2).mul
      (atMost_of_isWholeFloat isWholeFloat_heightMax) (by norm_num)
    exact product.isHeight_truncateHeight (by norm_num)
  case isFalse => cases converted

end Terrain.Number
