import Terrain.Number.Order
import Terrain.Proofs.Heap.Keys
import Terrain.Proofs.Number.Magnitudes

/-!
# Values of floats

A finite float is equal to one rational number. Floats compare as these numbers do, and each number but
zero is the value of one float only. Roundings to whole numbers are those of the value.

* `IsValue` — finite, and equal to a number.
* `IsValue.lt_iff`, `IsValue.le_iff`, `IsValue.eq_iff` — comparisons.
* `IsValue.isWhole_iff`, `IsValue.floorTo`, `IsValue.floor`, … — roundings.
* `isValue_ofInt` — whole numbers that have a float.
-/

namespace Terrain.Number

open Float.Model Float.Model.UnpackedFloat

variable {x y : Float} {p q : ℚ} {negative : Bool} {mantissa mantissa' : Nat} {exponent exponent' : Int}

/-! ## Values -/

def signed (negative : Bool) (magnitude : ℚ) : ℚ := if negative then -magnitude else magnitude

theorem abs_signed (negative : Bool) {magnitude : ℚ} (nonneg : 0 ≤ magnitude) :
    |signed negative magnitude| = magnitude := by
  unfold signed
  split
  · rw [abs_neg, abs_of_nonneg nonneg]
  · exact abs_of_nonneg nonneg

theorem signed_lt_zero_iff {magnitude : ℚ} (positive : 0 < magnitude) :
    signed negative magnitude < 0 ↔ negative = true := by
  unfold signed
  split
  case isTrue negative => exact iff_of_true (neg_lt_zero.2 positive) negative
  case isFalse other => exact iff_of_false (not_lt.2 positive.le) other

/-- Finite, and equal to a number. -/
def IsValue (x : Float) (q : ℚ) : Prop :=
  ∃ negative mantissa exponent, decode x = .finite negative mantissa exponent ∧
    q = signed negative (mantissa * 2 ^ exponent)

theorem isFinite_iff : isFinite x ↔ ∃ q, IsValue x q := by
  unfold isFinite IsValue
  cases decode x <;> simp

theorem IsValue.unique (isValue : IsValue x p) (isValue' : IsValue x q) : p = q := by
  obtain ⟨negative, mantissa, exponent, decoded, rfl⟩ := isValue
  obtain ⟨_, _, _, decoded', rfl⟩ := isValue'
  cases decoded.symm.trans decoded'
  rfl

/-- A mantissa and an exponent as they are decoded: the leading one of 53 bits is only missing next to
zero. -/
structure Canonical (mantissa : Nat) (exponent : Int) : Prop where
  bits : mantissa < 2 ^ 53
  least : -1074 ≤ exponent
  most : exponent ≤ 971
  normal : 2 ^ 52 ≤ mantissa ∨ exponent = -1074

/-- The bits of a finite float, in numbers. -/
theorem toNat_toBits (decoded : decode x = .finite negative mantissa exponent) :
    Canonical mantissa exponent ∧ negative = isSignNegative x ∧
      x.toBits.toNat % Nat.pow 2 63 = mantissa + (exponent + 1074).toNat * 2 ^ 52 := by
  have bound := x.toBits.toNat_lt
  have mask : (0x7ff : Nat) = 2 ^ 11 - 1 := by decide
  have maskFraction : (0xfffffffffffff : Nat) = 2 ^ 52 - 1 := by decide
  -- the fields of the word, as quotients and remainders
  have field : ((x.toBits >>> 52) &&& 0x7ff).toNat = x.toBits.toNat / 2 ^ 52 % 2 ^ 11 := by
    rw [UInt64.toNat_and, UInt64.toNat_shiftRight]
    simp only [UInt64.reduceToNat, Nat.shiftRight_eq_div_pow, mask, Nat.and_two_pow_sub_one_eq_mod]
  have fraction : (x.toBits &&& 0xfffffffffffff).toNat = x.toBits.toNat % 2 ^ 52 := by
    rw [UInt64.toNat_and]
    simp only [UInt64.reduceToNat, maskFraction, Nat.and_two_pow_sub_one_eq_mod]
  unfold decode at decoded
  simp only [field, fraction, leastExponent, mantissaBits, Nat.pow_eq] at decoded
  rw [Nat.pow_eq]
  split at decoded
  · split at decoded <;> cases decoded
  · split at decoded
    all_goals
      cases decoded
      refine ⟨⟨?_, ?_, ?_, ?_⟩, rfl, ?_⟩ <;> omega

theorem eq_of_decode_eq (decoded : decode x = .finite negative mantissa exponent)
    (same : decode y = decode x) : x = y := by
  -- the sign is the first bit of the word, and the mantissa and the exponent give the others
  obtain ⟨-, sign, bits⟩ := toNat_toBits decoded
  obtain ⟨-, sign', bits'⟩ := toNat_toBits (same.trans decoded)
  rw [sign, isSignNegative_eq, isSignNegative_eq] at sign'
  have bound := x.toBits.toNat_lt
  have bound' := y.toBits.toNat_lt
  apply eq_of_toBits_eq
  apply UInt64.toNat_inj.1
  rw [decide_eq_decide] at sign'
  rw [Nat.pow_eq] at *
  omega

/-! ## Comparisons -/

/-- Of two decoded floats the one with the smaller exponent is smaller, then the one with the smaller
mantissa. -/
theorem Canonical.mul_zpow_lt (canonical : Canonical mantissa exponent)
    (canonical' : Canonical mantissa' exponent')
    (order : exponent < exponent' ∨ exponent = exponent' ∧ mantissa < mantissa') :
    (mantissa : ℚ) * 2 ^ exponent < mantissa' * 2 ^ exponent' := by
  rcases order with less | ⟨rfl, less⟩
  -- above the least exponent there is a leading one, so that no mantissa is twice as large
  · have normal : 2 ^ 52 ≤ mantissa' := by
      have least := canonical.least
      exact canonical'.normal.resolve_right (by omega)
    have twice : mantissa < mantissa' * 2 := by
      have bits := canonical.bits
      omega
    have power : (2 : ℚ) ^ exponent * 2 ≤ 2 ^ exponent' := by
      rw [← zpow_add_one₀ (by norm_num)]
      exact zpow_le_zpow_right₀ (by norm_num) less
    calc (mantissa : ℚ) * 2 ^ exponent < (mantissa' * 2) * 2 ^ exponent :=
          mul_lt_mul_of_pos_right (by exact_mod_cast twice) (zpow_pos (by norm_num) _)
      _ = mantissa' * (2 ^ exponent * 2) := by ring
      _ ≤ mantissa' * 2 ^ exponent' := mul_le_mul_of_nonneg_left power (Nat.cast_nonneg _)
  · exact mul_lt_mul_of_pos_right (by exact_mod_cast less) (zpow_pos (by norm_num) _)

theorem Canonical.compare_mul_zpow (canonical : Canonical mantissa exponent)
    (canonical' : Canonical mantissa' exponent') :
    compare ((mantissa : ℚ) * 2 ^ exponent) (mantissa' * 2 ^ exponent') =
      (compare exponent exponent').then (compare mantissa mantissa') := by
  rcases lt_trichotomy exponent exponent' with less | rfl | greater
  · rw [compare_lt_iff_lt.2 less, compare_lt_iff_lt.2 (canonical.mul_zpow_lt canonical' (.inl less))]
    rfl
  · rw [compare_eq_iff_eq.2 rfl, Ordering.eq_then]
    rcases lt_trichotomy mantissa mantissa' with less | rfl | greater
    · rw [compare_lt_iff_lt.2 less,
        compare_lt_iff_lt.2 (canonical.mul_zpow_lt canonical' (.inr ⟨rfl, less⟩))]
    · rw [compare_eq_iff_eq.2 rfl, compare_eq_iff_eq.2 rfl]
    · rw [compare_gt_iff_gt.2 greater,
        compare_gt_iff_gt.2 (canonical'.mul_zpow_lt canonical (.inr ⟨rfl, greater⟩))]
  · rw [compare_gt_iff_gt.2 greater,
      compare_gt_iff_gt.2 (canonical'.mul_zpow_lt canonical (.inl greater))]
    rfl

/-- The unpacked form of a float with a value. -/
theorem IsValue.unpack (isValue : IsValue x q) :
    (q = 0 ∧ ∃ sign, x.toModel.unpack = .zero sign) ∨
    ∃ sign mantissa exponent positive, Canonical mantissa exponent ∧
      q = signed (isNegative sign) (mantissa * 2 ^ exponent) ∧
      x.toModel.unpack = .finite sign mantissa exponent positive := by
  obtain ⟨negative, mantissa, exponent, decoded, rfl⟩ := isValue
  obtain ⟨canonical, -, -⟩ := toNat_toBits decoded
  rw [decode_eq] at decoded
  cases unpacked : x.toModel.unpack with
  | notANumber => rw [unpacked] at decoded; cases decoded
  | infinity => rw [unpacked] at decoded; cases decoded
  | zero sign =>
    rw [unpacked] at decoded
    cases decoded
    left
    exact ⟨by simp [signed], sign, rfl⟩
  | finite sign =>
    rw [unpacked] at decoded
    cases decoded
    right
    exact ⟨sign, _, _, _, canonical, rfl, rfl⟩

theorem compare_neg_neg (a b : ℚ) : compare (-a) (-b) = (compare a b).swap := by
  rcases lt_trichotomy a b with less | rfl | greater
  · rw [compare_lt_iff_lt.2 less, compare_gt_iff_gt.2 (neg_lt_neg less)]
    rfl
  · rw [compare_eq_iff_eq.2 rfl, compare_eq_iff_eq.2 rfl]
    rfl
  · rw [compare_gt_iff_gt.2 greater, compare_lt_iff_lt.2 (neg_lt_neg greater)]
    rfl

/-- Unpacked floats compare as their values. -/
theorem IsValue.compare_eq (isValue : IsValue x p) (isValue' : IsValue y q) :
    x.toModel.unpack.compare y.toModel.unpack = some (compare p q) := by
  have above {mantissa : Nat} (exponent : Int) (positive : 0 < mantissa) :
      (0 : ℚ) < mantissa * 2 ^ exponent :=
    mul_pos (by exact_mod_cast positive) (zpow_pos (by norm_num) _)
  have below {mantissa : Nat} (exponent : Int) (positive : 0 < mantissa) :
      -((mantissa : ℚ) * 2 ^ exponent) < 0 :=
    neg_lt_zero.2 (above exponent positive)
  rcases isValue.unpack with ⟨rfl, sign, unpacked⟩ |
      ⟨sign, mantissa, exponent, positive, canonical, rfl, unpacked⟩ <;>
    rcases isValue'.unpack with ⟨rfl, sign', unpacked'⟩ |
      ⟨sign', mantissa', exponent', positive', canonical', rfl, unpacked'⟩ <;>
    rw [unpacked, unpacked']
  -- zero is compared by the sign of the other number, and so are numbers of different signs
  · exact congrArg some (compare_eq_iff_eq.2 rfl).symm
  · cases sign' with
    | negative => exact congrArg some (compare_gt_iff_gt.2 (below exponent' positive')).symm
    | positive => exact congrArg some (compare_lt_iff_lt.2 (above exponent' positive')).symm
  · cases sign with
    | negative => exact congrArg some (compare_lt_iff_lt.2 (below exponent positive)).symm
    | positive => exact congrArg some (compare_gt_iff_gt.2 (above exponent positive)).symm
  · have order := canonical.compare_mul_zpow canonical'
    cases sign with
    | negative =>
      cases sign' with
      | negative =>
        refine congrArg some (Eq.symm ?_)
        rw [← order]
        exact compare_neg_neg _ _
      | positive =>
        have less := (below exponent positive).trans (above exponent' positive')
        exact congrArg some (compare_lt_iff_lt.2 less).symm
    | positive =>
      cases sign' with
      | negative =>
        have greater := (below exponent' positive').trans (above exponent positive)
        exact congrArg some (compare_gt_iff_gt.2 greater).symm
      | positive => exact congrArg some order.symm

theorem IsValue.lt_iff (isValue : IsValue x p) (isValue' : IsValue y q) : x < y ↔ p < q := by
  have order : x < y ↔ x.toModel.unpack.compare y.toModel.unpack = some .lt := by
    simp [LT.lt, Float.lt, Float.Model.lt, UnpackedFloat.lt]
  rw [order, isValue.compare_eq isValue', Option.some.injEq, compare_lt_iff_lt]

theorem IsValue.le_iff (isValue : IsValue x p) (isValue' : IsValue y q) : x ≤ y ↔ p ≤ q := by
  have order : x ≤ y ↔ (x.toModel.unpack.compare y.toModel.unpack).any (·.isLE) = true :=
    ⟨of_decide_eq_true, decide_eq_true⟩
  rw [order, isValue.compare_eq isValue', Option.any_some, Ordering.isLE_iff_ne_gt, ← not_lt]
  exact compare_gt_iff_gt.not

/-- A float between two numbers is a number. -/
theorem exists_isValue_of_le_of_le (isValue : IsValue x p) (isValue' : IsValue y q) {z : Float}
    (above : x ≤ z) (below : z ≤ y) : ∃ r, IsValue z r ∧ p ≤ r ∧ r ≤ q := by
  have least : Option.any (·.isLE) (x.toModel.unpack.compare z.toModel.unpack) = true :=
    of_decide_eq_true above
  have most : Option.any (·.isLE) (z.toModel.unpack.compare y.toModel.unpack) = true :=
    of_decide_eq_true below
  -- no other float compares with anything, and an infinity is beyond one of the numbers
  have finite : isFinite z := by
    unfold isFinite
    rw [decode_eq]
    cases unpacked : z.toModel.unpack with
    | zero sign => rfl
    | finite sign => rfl
    | notANumber =>
      rw [unpacked] at most
      rcases isValue'.unpack with ⟨-, _, unpacked'⟩ | ⟨_, _, _, _, -, -, unpacked'⟩ <;>
        rw [unpacked'] at most <;> cases most
    | infinity sign =>
      rw [unpacked] at least most
      cases sign with
      | positive =>
        rcases isValue'.unpack with ⟨-, _, unpacked'⟩ | ⟨_, _, _, _, -, -, unpacked'⟩ <;>
          rw [unpacked'] at most <;> cases most
      | negative =>
        rcases isValue.unpack with ⟨-, _, unpacked'⟩ | ⟨_, _, _, _, -, -, unpacked'⟩ <;>
          rw [unpacked'] at least <;> cases least
  obtain ⟨r, isValue''⟩ := isFinite_iff.1 finite
  exact ⟨r, isValue'', (isValue.le_iff isValue'').1 above, (isValue''.le_iff isValue').1 below⟩

/-- Clamping leaves a number alone that lies in the range. -/
theorem IsValue.clamp_eq {low high : Float} {r : ℚ} (isValue : IsValue x r) (isLow : IsValue low p)
    (isHigh : IsValue high q) (above : p ≤ r) (below : r ≤ q) : clamp low high x = x := by
  unfold clamp
  rw [if_neg ((isValue.lt_iff isLow).not.2 above.not_gt),
    if_neg ((isHigh.lt_iff isValue).not.2 below.not_gt)]

/-- Decoded floats of one magnitude have the same mantissa and exponent. -/
theorem Canonical.eq_of_mul_zpow_eq (canonical : Canonical mantissa exponent)
    (canonical' : Canonical mantissa' exponent')
    (same : (mantissa : ℚ) * 2 ^ exponent = mantissa' * 2 ^ exponent') :
    exponent = exponent' ∧ mantissa = mantissa' := by
  have order := canonical.compare_mul_zpow canonical'
  rw [compare_eq_iff_eq.2 same, eq_comm, Ordering.then_eq_eq] at order
  exact ⟨compare_eq_iff_eq.1 order.1, compare_eq_iff_eq.1 order.2⟩

/-- Only zero is the value of two floats. -/
theorem IsValue.eq_iff (isValue : IsValue x p) (isValue' : IsValue y q) :
    x = y ↔ p = q ∧ (p = 0 → isSignNegative x = isSignNegative y) := by
  constructor
  · rintro rfl
    exact ⟨isValue.unique isValue', fun _ => rfl⟩
  · rintro ⟨rfl, signs⟩
    obtain ⟨negative, mantissa, exponent, decoded, value⟩ := isValue
    obtain ⟨negative', mantissa', exponent', decoded', value'⟩ := isValue'
    obtain ⟨canonical, sign, -⟩ := toNat_toBits decoded
    obtain ⟨canonical', sign', -⟩ := toNat_toBits decoded'
    have nonneg : (0 : ℚ) ≤ mantissa * 2 ^ exponent := by positivity
    have nonneg' : (0 : ℚ) ≤ mantissa' * 2 ^ exponent' := by positivity
    have magnitude := abs_signed negative nonneg
    have magnitude' := abs_signed negative' nonneg'
    rw [← value] at magnitude
    rw [← value', magnitude] at magnitude'
    obtain ⟨rfl, rfl⟩ := canonical.eq_of_mul_zpow_eq canonical' magnitude'
    -- a number other than zero has a sign of its own
    have signs : negative = negative' := by
      rcases eq_or_ne p 0 with zero | nonzero
      · rw [sign, sign', signs zero]
      · have positive : (0 : ℚ) < mantissa * 2 ^ exponent := by
          rw [← magnitude]
          exact abs_pos.2 nonzero
        rw [Bool.eq_iff_iff, ← signed_lt_zero_iff positive, ← signed_lt_zero_iff positive, ← value,
          ← value']
    subst signs
    exact eq_of_decode_eq decoded (decoded'.trans decoded.symm)

theorem isValue_zero : IsValue 0.0 0 := ⟨false, 0, _, rfl, by simp [signed]⟩

theorem isValue_neg_zero : IsValue (-0.0) 0 := ⟨true, 0, _, rfl, by simp [signed]⟩

theorem IsValue.eq_zero_or_eq_neg_zero (isValue : IsValue x 0) : x = 0.0 ∨ x = -0.0 := by
  cases sign : isSignNegative x with
  | false => exact .inl ((isValue.eq_iff isValue_zero).2 ⟨rfl, fun _ => sign⟩)
  | true => exact .inr ((isValue.eq_iff isValue_neg_zero).2 ⟨rfl, fun _ => sign⟩)

/-! ## Whole numbers -/

theorem isValue_of_isWholeFloat {n : Int} (whole : IsWholeFloat x n) : IsValue x n := by
  obtain ⟨small, unpacked⟩ := whole
  unfold IsValue
  rw [decode_eq, unpacked]
  unfold unpackedWhole
  split
  case isTrue nonzero =>
    refine ⟨_, _, _, rfl, ?_⟩
    rw [wholeMantissa_mul_zpow small nonzero]
    unfold signOf
    split
    case isTrue negative =>
      rw [isNegative, signed, if_pos rfl, ← Int.cast_natCast, Int.natCast_natAbs,
        abs_of_neg negative, Int.cast_neg, neg_neg]
    case isFalse nonneg =>
      rw [isNegative, signed, if_neg Bool.false_ne_true, ← Int.cast_natCast, Int.natCast_natAbs,
        abs_of_nonneg (not_lt.1 nonneg)]
  case isFalse zero =>
    refine ⟨_, _, _, rfl, ?_⟩
    simp [signed, isNegative, not_not.1 zero]

/-- A whole number has one float only; its zero has no sign. -/
theorem IsWholeFloat.unique {n : Int} (whole : IsWholeFloat x n) (whole' : IsWholeFloat y n) : x = y := by
  obtain ⟨negative, mantissa, exponent, decoded, -⟩ := isValue_of_isWholeFloat whole
  exact eq_of_decode_eq decoded (by rw [decode_eq, decode_eq, whole.2, whole'.2])

/-- Sums of whole numbers are exact. -/
theorem ofInt_add_ofInt {n m : Int} (smallN : Small n) (smallM : Small m) (small : Small (n + m)) :
    Float.ofInt n + Float.ofInt m = Float.ofInt (n + m) :=
  ((isWholeFloat_ofInt smallN).add (isWholeFloat_ofInt smallM) small).unique (isWholeFloat_ofInt small)

/-- Whole numbers of at most 53 bits have a float, and so has the next one. -/
theorem isValue_ofInt {n : Int} (small : n.natAbs ≤ 2 ^ 53) : IsValue (Float.ofInt n) n := by
  rcases lt_or_eq_of_le small with less | last
  · exact isValue_of_isWholeFloat (isWholeFloat_ofInt less)
  · rcases Int.natAbs_eq_iff.1 last with rfl | rfl
    · exact ⟨false, 2 ^ 52, 1, by decide +kernel, by norm_num [signed]⟩
    · exact ⟨true, 2 ^ 52, 1, by decide +kernel, by norm_num [signed]⟩

theorem isValue_ofNat {n : Nat} (small : n < 2 ^ 53) : IsValue (Float.ofNat n) n :=
  isValue_of_isWholeFloat (isWholeFloat_ofNat small)

/-! ## Roundings -/

theorem mul_zpow_ofNat (mantissa up : Nat) :
    (mantissa : ℚ) * 2 ^ Int.ofNat up = ((mantissa <<< up : Nat) : ℚ) := by
  rw [Nat.shiftLeft_eq, Int.ofNat_eq_natCast, zpow_natCast]
  push_cast
  rfl

theorem mul_zpow_negSucc (mantissa down : Nat) :
    (mantissa : ℚ) * 2 ^ Int.negSucc down = mantissa / ((2 ^ (down + 1) : Nat) : ℚ) := by
  rw [zpow_negSucc, div_eq_mul_inv]
  push_cast
  rfl

theorem wholePart_fst (mantissa : Nat) (exponent : Int) :
    ((wholePart mantissa exponent).1 : Int) = ⌊(mantissa : ℚ) * 2 ^ exponent⌋ := by
  cases exponent with
  | ofNat up =>
    rw [mul_zpow_ofNat, Int.floor_natCast]
    rfl
  | negSucc down =>
    rw [mul_zpow_negSucc, Rat.floor_natCast_div_natCast]
    change ((mantissa >>> (down + 1) : Nat) : Int) = _
    rw [Nat.shiftRight_eq_div_pow]
    rfl

/-- Nothing is cut off from a whole number. -/
theorem wholePart_snd (mantissa : Nat) (exponent : Int) :
    (wholePart mantissa exponent).2 = false ↔
      ((wholePart mantissa exponent).1 : ℚ) = mantissa * 2 ^ exponent := by
  cases exponent with
  | ofNat up =>
    rw [mul_zpow_ofNat]
    exact iff_of_true rfl rfl
  | negSucc down =>
    rw [mul_zpow_negSucc, eq_div_iff (by positivity)]
    change ((mantissa >>> (down + 1)) <<< (down + 1) != mantissa) = false ↔
      ((mantissa >>> (down + 1) : Nat) : ℚ) * _ = _
    rw [bne_eq_false_iff_eq, Nat.shiftLeft_eq]
    exact_mod_cast Iff.rfl

theorem floorWhole_eq (negative : Bool) (mantissa : Nat) (exponent : Int) :
    floorWhole negative mantissa exponent = ⌊signed negative (mantissa * 2 ^ exponent)⌋ := by
  have whole := wholePart_fst mantissa exponent
  have exact := wholePart_snd mantissa exponent
  have below := Int.floor_le ((mantissa : ℚ) * 2 ^ exponent)
  have above := Int.lt_floor_add_one ((mantissa : ℚ) * 2 ^ exponent)
  rw [← whole, Int.cast_natCast] at below above
  unfold floorWhole signed
  generalize wholePart mantissa exponent = part at *
  obtain ⟨part, cut⟩ := part
  cases negative with
  | false =>
    simp only [Bool.false_eq_true, if_false]
    exact whole
  | true =>
    simp only [if_true]
    symm
    rw [Int.floor_eq_iff]
    -- below zero the part that is cut off takes the floor one further down
    cases cut with
    | false =>
      have same := exact.1 rfl
      simp only [Bool.false_eq_true, if_false]
      push_cast
      constructor <;> linarith
    | true =>
      have different : (part : ℚ) ≠ mantissa * 2 ^ exponent := fun same => by
        have := exact.2 same
        contradiction
      have less := lt_of_le_of_ne below different
      simp only [if_true]
      push_cast
      constructor <;> linarith

theorem ceilWhole_eq (negative : Bool) (mantissa : Nat) (exponent : Int) :
    ceilWhole negative mantissa exponent = ⌈signed negative (mantissa * 2 ^ exponent)⌉ := by
  have opposite : signed (!negative) ((mantissa : ℚ) * 2 ^ exponent) =
      -signed negative (mantissa * 2 ^ exponent) := by
    cases negative <;> simp [signed]
  rw [ceilWhole, floorWhole_eq, opposite, Int.floor_neg, neg_neg]

/-- The whole part of a number, toward zero. -/
def truncated (q : ℚ) : ℤ := if q < 0 then ⌈q⌉ else ⌊q⌋

theorem truncateWhole_eq (negative : Bool) (mantissa : Nat) (exponent : Int) :
    truncateWhole negative mantissa exponent =
      truncated (signed negative (mantissa * 2 ^ exponent)) := by
  have nonneg : (0 : ℚ) ≤ mantissa * 2 ^ exponent := by positivity
  have whole := wholePart_fst mantissa exponent
  unfold truncateWhole truncated signed
  cases negative with
  | false =>
    simp only [Bool.false_eq_true, if_false, if_neg (not_lt.2 nonneg)]
    exact whole
  | true =>
    simp only [if_true]
    split
    · rw [Int.ceil_neg, ← whole]
    · have zero : (mantissa : ℚ) * 2 ^ exponent = 0 := by linarith
      rw [zero, Int.floor_zero] at whole
      rw [whole, zero, neg_zero, neg_zero, Int.floor_zero]

theorem truncated_intCast (n : ℤ) : truncated n = n := by
  unfold truncated
  split
  · exact Int.ceil_intCast n
  · exact Int.floor_intCast n

/-- A float is whole if its value is. -/
theorem IsValue.isWhole_iff (isValue : IsValue x q) : isWhole x ↔ ∃ n : ℤ, q = n := by
  obtain ⟨negative, mantissa, exponent, decoded, rfl⟩ := isValue
  have nonneg : (0 : ℚ) ≤ mantissa * 2 ^ exponent := by positivity
  have magnitude := abs_signed negative nonneg
  have exact : isWhole x ↔ ((⌊(mantissa : ℚ) * 2 ^ exponent⌋ : ℤ) : ℚ) = mantissa * 2 ^ exponent := by
    simp only [isWhole, decoded, Bool.not_eq_true', wholePart_snd, ← wholePart_fst, Int.cast_natCast]
  generalize (mantissa : ℚ) * 2 ^ exponent = value at *
  rw [exact]
  constructor
  · intro same
    refine ⟨if negative then -⌊value⌋ else ⌊value⌋, ?_⟩
    rw [signed, apply_ite Int.cast, Int.cast_neg, same]
  · rintro ⟨n, same⟩
    rw [same, ← Int.cast_abs] at magnitude
    rw [← magnitude, Int.floor_intCast]

section Narrowing

variable (isValue : IsValue x q) (low high : Int)

include isValue

theorem IsValue.floorTo : floorTo low high x = clampInt low high ⌊q⌋ := by
  obtain ⟨negative, mantissa, exponent, decoded, rfl⟩ := isValue
  rw [Number.floorTo, narrowBy, decoded, ← floorWhole_eq]

theorem IsValue.ceilTo : ceilTo low high x = clampInt low high ⌈q⌉ := by
  obtain ⟨negative, mantissa, exponent, decoded, rfl⟩ := isValue
  rw [Number.ceilTo, narrowBy, decoded, ← ceilWhole_eq]

theorem IsValue.truncateTo : truncateTo low high x = clampInt low high (truncated q) := by
  obtain ⟨negative, mantissa, exponent, decoded, rfl⟩ := isValue
  rw [Number.truncateTo, narrowBy, decoded, ← truncateWhole_eq]

end Narrowing

theorem isValue_ofWhole (negative : Bool) {n : Int} (small : n.natAbs ≤ 2 ^ 53) :
    IsValue (ofWhole negative n) n := by
  unfold ofWhole
  split
  case isTrue zero =>
    rw [zero, Int.cast_zero]
    cases negative with
    | false => exact isValue_zero
    | true => exact isValue_neg_zero
  case isFalse => exact isValue_ofInt small

/-- A rounding leaves whole numbers alone and does not lead past a whole number. -/
theorem IsValue.roundBy {whole : Bool → Nat → Int → Int} {rounded : ℚ → ℤ} (isValue : IsValue x q)
    (agrees : ∀ negative mantissa exponent,
      whole negative mantissa exponent = rounded (signed negative (mantissa * 2 ^ exponent)))
    (fixed : ∀ n : ℤ, rounded n = n) (monotone : Monotone rounded) :
    IsValue (roundBy whole x) (rounded q) := by
  obtain ⟨negative, mantissa, exponent, decoded, value⟩ := isValue
  have bits := (toNat_toBits decoded).1.bits
  have nonneg : (0 : ℚ) ≤ mantissa * 2 ^ exponent := by positivity
  have magnitude := abs_signed negative nonneg
  rw [← value] at magnitude
  unfold Number.roundBy
  rw [decoded]
  dsimp only
  split
  case isTrue fraction =>
    rw [agrees, ← value]
    apply isValue_ofWhole
    -- with fraction bits the number is so small that all whole numbers around have floats
    have small : |q| ≤ ((2 ^ 53 : ℤ) : ℚ) := by
      have power : (2 : ℚ) ^ exponent ≤ 1 := zpow_le_one_of_nonpos₀ (by norm_num) fraction.le
      have less : (mantissa : ℚ) ≤ ((2 ^ 53 : ℤ) : ℚ) := by exact_mod_cast bits.le
      calc |q| = mantissa * 2 ^ exponent := magnitude
        _ ≤ mantissa * 1 := mul_le_mul_of_nonneg_left power (Nat.cast_nonneg _)
        _ ≤ ((2 ^ 53 : ℤ) : ℚ) := by rw [mul_one]; exact less
    obtain ⟨least, most⟩ := abs_le.1 small
    have above := monotone least
    have below := monotone most
    rw [← Int.cast_neg, fixed] at above
    rw [fixed] at below
    omega
  case isFalse whole =>
    -- without them the number is whole itself
    obtain ⟨up, rfl⟩ := Int.eq_ofNat_of_zero_le (not_lt.1 whole)
    refine ⟨negative, mantissa, _, decoded, ?_⟩
    rw [← value, value, ← Int.ofNat_eq_natCast, mul_zpow_ofNat, signed, ← Int.cast_natCast,
      ← Int.cast_neg, ← apply_ite Int.cast, fixed]

theorem IsValue.floor (isValue : IsValue x q) : IsValue (floor x) (⌊q⌋ : ℤ) :=
  isValue.roundBy floorWhole_eq Int.floor_intCast Int.floor_mono

theorem IsValue.ceil (isValue : IsValue x q) : IsValue (ceil x) (⌈q⌉ : ℤ) :=
  isValue.roundBy ceilWhole_eq Int.ceil_intCast Int.ceil_mono

end Terrain.Number
