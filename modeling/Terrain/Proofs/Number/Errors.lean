import Terrain.Proofs.Number.Values

/-!
# Errors of products and quotients

Rounding does not pass over a multiple of the unit in the last place. So a product or a quotient of
floats is less than a unit away from the exact one, and exact if that is a multiple of the unit. Whole
numbers are multiples of every unit up to one, and their difference is exact.

* `Faithful` — rounding that passes over no multiple of a power of two.
* `faithful_roundedMantissa`, `exists_roundWithAccuracy_eq` — rounding of a mantissa.
* `IsValue.mul`, `IsValue.div`, `IsValue.sub` — values of products, quotients and differences.
* `narrowBy_zero_mul` — products with a zero.
-/

namespace Terrain.Number

open Float.Model Float.Model.UnpackedFloat

/-! ## Faithful rounding -/

/-- One number follows from another by a rounding that passes over no multiple of a power of two. -/
def Faithful (unit : Int) (exact rounded : ℚ) : Prop :=
  ∀ k : ℤ, (k * 2 ^ unit ≤ exact → k * 2 ^ unit ≤ rounded) ∧
    (exact ≤ k * 2 ^ unit → rounded ≤ k * 2 ^ unit)

namespace Faithful

variable {unit coarse : Int} {exact rounded : ℚ}

protected theorem refl (unit : Int) (exact : ℚ) : Faithful unit exact exact := fun _ => ⟨id, id⟩

/-- The multiples of a larger power are among those of a smaller one. -/
theorem mono (faithful : Faithful unit exact rounded) (le : unit ≤ coarse) :
    Faithful coarse exact rounded := by
  intro k
  have same : (k : ℚ) * 2 ^ coarse = (k * 2 ^ (coarse - unit).toNat : ℤ) * 2 ^ unit := by
    push_cast
    rw [mul_assoc, ← zpow_natCast, ← zpow_add₀ (by norm_num)]
    congr 2
    omega
  rw [same]
  exact faithful _

theorem neg (faithful : Faithful unit exact rounded) : Faithful unit (-exact) (-rounded) := by
  intro k
  have opposite : (k : ℚ) * 2 ^ unit = -(((-k : ℤ) : ℚ) * 2 ^ unit) := by
    push_cast
    ring
  rw [opposite, neg_le_neg_iff, neg_le_neg_iff, neg_le_neg_iff, neg_le_neg_iff]
  exact (faithful (-k)).symm

theorem signed (faithful : Faithful unit exact rounded) (negative : Bool) :
    Faithful unit (Number.signed negative exact) (Number.signed negative rounded) := by
  cases negative with
  | false => exact faithful
  | true => exact faithful.neg

theorem eq_of_eq_mul (faithful : Faithful unit exact rounded) {k : ℤ} (multiple : exact = k * 2 ^ unit) :
    rounded = exact := by
  obtain ⟨above, below⟩ := faithful k
  rw [multiple] at above below ⊢
  exact le_antisymm (below le_rfl) (above le_rfl)

/-- A whole number is a multiple of every power of two up to one. -/
theorem eq_of_eq_intCast (faithful : Faithful unit exact rounded) (fine : unit ≤ 0) {n : ℤ}
    (whole : exact = n) : rounded = n := by
  have multiple : exact = (n : ℤ) * 2 ^ (0 : ℤ) := by rw [whole, zpow_zero, mul_one]
  rw [(faithful.mono fine).eq_of_eq_mul multiple, whole]

/-- The error is less than a unit. -/
theorem abs_sub_lt (faithful : Faithful unit exact rounded) : |rounded - exact| < 2 ^ unit := by
  have power : (0 : ℚ) < 2 ^ unit := zpow_pos (by norm_num) _
  have below : ⌊exact / 2 ^ unit⌋ * 2 ^ unit ≤ exact := (le_div_iff₀ power).1 (Int.floor_le _)
  have above : exact < (⌊exact / 2 ^ unit⌋ + 1) * 2 ^ unit :=
    (div_lt_iff₀ power).1 (Int.lt_floor_add_one _)
  have least := (faithful ⌊exact / 2 ^ unit⌋).1 below
  have most := (faithful (⌊exact / 2 ^ unit⌋ + 1)).2 (by push_cast; exact above.le)
  rcases eq_or_lt_of_le below with same | less
  · rw [faithful.eq_of_eq_mul same.symm, sub_self, abs_zero]
    exact power
  · push_cast at most
    rw [abs_lt]
    constructor <;> linarith

end Faithful

/-! ## Rounding of a mantissa -/

variable {mantissa count : Nat} {exponent unit : Int} {accuracy : Accuracy} {quotient : ℚ} {sign : Sign}

theorem le_roundedMantissa (extended : ExtendedMantissa) :
    extended.mantissa ≤ extended.roundedMantissa := by
  unfold ExtendedMantissa.roundedMantissa Accuracy.roundToNearestEven
  split <;> omega

/-- A shifted mantissa is rounded to what is left of it or to the number after. -/
theorem roundedMantissa_shiftRight_mem (mantissa : Nat) (accuracy : Accuracy) (count : Nat) :
    mantissa / 2 ^ count ≤
        (ExtendedMantissa.ofMantissaAndAccuracy mantissa accuracy >>> count).roundedMantissa ∧
      (ExtendedMantissa.ofMantissaAndAccuracy mantissa accuracy >>> count).roundedMantissa ≤
        mantissa / 2 ^ count + 1 := by
  set extended := ExtendedMantissa.ofMantissaAndAccuracy mantissa accuracy >>> count with same
  have shifted : extended.mantissa = mantissa / 2 ^ count := by
    rw [same, mantissa_shiftRight, mantissa_ofMantissaAndAccuracy]
  exact shifted ▸ ⟨le_roundedMantissa extended, roundedMantissa_le extended⟩

/-- What a mantissa with an accuracy stands for: it is cut off, and nothing was cut off only if it is
accurate. -/
structure Approximates (mantissa : Nat) (accuracy : Accuracy) (quotient : ℚ) : Prop where
  below : mantissa ≤ quotient
  above : quotient < mantissa + 1
  exact : quotient = mantissa → accuracy = .exact

theorem approximates_exact (mantissa : Nat) : Approximates mantissa .exact mantissa :=
  ⟨le_rfl, lt_add_one _, fun _ => rfl⟩

/-- What is left of a mantissa after a shift is the floor of what it stands for. -/
theorem Approximates.floor_div (approximates : Approximates mantissa accuracy quotient) (count : Nat) :
    ((mantissa / 2 ^ count : Nat) : ℚ) ≤ quotient / 2 ^ count ∧
      quotient / 2 ^ count < (mantissa / 2 ^ count : Nat) + 1 := by
  have power : (0 : ℚ) < 2 ^ count := by positivity
  have floor : ((mantissa / 2 ^ count : Nat) : ℚ) * 2 ^ count ≤ mantissa := by
    exact_mod_cast Nat.div_mul_le_self mantissa (2 ^ count)
  have ceil : ((mantissa : ℚ) + 1) ≤ ((mantissa / 2 ^ count : Nat) + 1) * 2 ^ count := by
    exact_mod_cast Nat.lt_mul_of_div_lt (Nat.lt_succ_self (mantissa / 2 ^ count))
      (Nat.two_pow_pos count)
  exact ⟨(le_div_iff₀ power).2 (floor.trans approximates.below),
    (div_lt_iff₀ power).2 (approximates.above.trans_le ceil)⟩

/-- Nothing is rounded if the shift drops zeros only. -/
theorem Approximates.roundedMantissa_eq (approximates : Approximates mantissa accuracy quotient)
    (whole : quotient / 2 ^ count = (mantissa / 2 ^ count : Nat)) :
    (ExtendedMantissa.ofMantissaAndAccuracy mantissa accuracy >>> count).roundedMantissa =
      mantissa / 2 ^ count := by
  have product : quotient = (mantissa / 2 ^ count * 2 ^ count : Nat) := by
    push_cast
    rw [← whole, div_mul_cancel₀ _ (by positivity)]
  have floor : mantissa / 2 ^ count * 2 ^ count ≤ mantissa := Nat.div_mul_le_self _ _
  have ceil : mantissa ≤ mantissa / 2 ^ count * 2 ^ count := by
    exact_mod_cast product ▸ approximates.below
  -- shifting back gives the mantissa again, so only zeros were dropped
  have zeros : (mantissa / 2 ^ count) <<< count = mantissa := by
    rw [Nat.shiftLeft_eq]
    exact le_antisymm floor ceil
  obtain rfl := approximates.exact (by rw [product, le_antisymm floor ceil])
  have shifted := extendedMantissa_shiftRight (mantissa / 2 ^ count) count
  rw [zeros] at shifted
  rw [ExtendedMantissa.ofMantissaAndAccuracy, shifted]
  rfl

/-- Shifting and rounding passes over no number that survives the shift. -/
theorem faithful_roundedMantissa (approximates : Approximates mantissa accuracy quotient) :
    Faithful (exponent + count) (quotient * 2 ^ exponent)
      ((ExtendedMantissa.ofMantissaAndAccuracy mantissa accuracy >>> count).roundedMantissa *
        2 ^ (exponent + count)) := by
  obtain ⟨floor, ceil⟩ := approximates.floor_div count
  obtain ⟨least, most⟩ := roundedMantissa_shiftRight_mem mantissa accuracy count
  have power : (0 : ℚ) < 2 ^ (exponent + count) := zpow_pos (by norm_num) _
  have scaled : quotient * 2 ^ exponent = quotient / 2 ^ count * 2 ^ (exponent + count) := by
    rw [zpow_add₀ (by norm_num), zpow_natCast]
    field_simp
  intro k
  rw [scaled, mul_le_mul_iff_left₀ power, mul_le_mul_iff_left₀ power, mul_le_mul_iff_left₀ power,
    mul_le_mul_iff_left₀ power]
  constructor
  · intro le
    have less : k < ((mantissa / 2 ^ count + 1 : Nat) : ℤ) := by
      apply Int.cast_lt (R := ℚ) |>.1
      push_cast
      exact le.trans_lt ceil
    exact_mod_cast (by omega : k ≤ _)
  · intro le
    -- only what was cut off is rounded up, and then the next multiple is still above
    rcases eq_or_lt_of_le floor with whole | cut
    · rw [approximates.roundedMantissa_eq whole.symm]
      exact floor.trans le
    · have less : ((mantissa / 2 ^ count : Nat) : ℤ) < k := by
        apply Int.cast_lt (R := ℚ) |>.1
        exact cut.trans_le le
      exact_mod_cast (by omega : _ ≤ k)

/-- The place of the leading digit, from bounds of the number. -/
theorem Approximates.log2_add_mem (approximates : Approximates mantissa accuracy quotient)
    (positive : mantissa ≠ 0) {low high : Int} (least : 2 ^ low ≤ quotient * 2 ^ exponent)
    (most : quotient * 2 ^ exponent ≤ 2 ^ high) :
    low ≤ mantissa.log2 + exponent ∧ mantissa.log2 + exponent ≤ high := by
  have power : (0 : ℚ) < 2 ^ exponent := zpow_pos (by norm_num) _
  have floor : ((2 ^ mantissa.log2 : Nat) : ℚ) ≤ quotient :=
    (Nat.cast_le.2 (Nat.log2_self_le positive)).trans approximates.below
  have ceil : quotient < ((2 ^ (mantissa.log2 + 1) : Nat) : ℚ) :=
    approximates.above.trans_le (by exact_mod_cast Nat.lt_log2_self)
  push_cast at floor ceil
  constructor
  · have less : (2 : ℚ) ^ low < 2 ^ ((mantissa.log2 + 1 : Nat) + exponent) := by
      rw [zpow_add₀ (by norm_num), zpow_natCast]
      exact least.trans_lt (mul_lt_mul_of_pos_right ceil power)
    have order := (zpow_lt_zpow_iff_right₀ (by norm_num)).1 less
    omega
  · have le : (2 : ℚ) ^ (mantissa.log2 + exponent) ≤ 2 ^ high := by
      rw [zpow_add₀ (by norm_num), zpow_natCast]
      exact (mul_le_mul_of_nonneg_right floor power.le).trans most
    exact (zpow_le_zpow_iff_right₀ (by norm_num)).1 le

theorem shiftToTargetExponent_eq (digits : mantissa.log2 = 52 + count)
    (normal : -1074 ≤ exponent + count) :
    shiftToTargetExponent Format.binary64 mantissa exponent accuracy =
      (ExtendedMantissa.ofMantissaAndAccuracy mantissa accuracy >>> count, exponent + count) := by
  have target : Format.binary64.targetExponent (totalExponent mantissa exponent) =
      exponent + count := by
    simp only [Format.targetExponent, totalExponent, Format.mantissaBits, Format.minExponent]
    norm_num
    omega
  have amount : (exponent + count - exponent).toNat = count := by omega
  unfold shiftToTargetExponent shiftToExponent
  dsimp only
  rw [target, amount]

theorem roundedMantissa_mem (digits : mantissa.log2 = 52 + count) :
    2 ^ 52 ≤ (ExtendedMantissa.ofMantissaAndAccuracy mantissa accuracy >>> count).roundedMantissa ∧
      (ExtendedMantissa.ofMantissaAndAccuracy mantissa accuracy >>> count).roundedMantissa ≤ 2 ^ 53 := by
  have nonzero : mantissa ≠ 0 := by
    rintro rfl
    rw [Nat.log2_zero] at digits
    omega
  obtain ⟨floor, ceil⟩ := (Nat.log2_eq_iff nonzero).1 digits
  rw [Nat.pow_add] at floor
  rw [show 52 + count + 1 = 53 + count by omega, Nat.pow_add] at ceil
  have lower := (Nat.le_div_iff_mul_le (Nat.two_pow_pos count)).2 floor
  have upper := (Nat.div_lt_iff_lt_mul (Nat.two_pow_pos count)).2 ceil
  obtain ⟨least, most⟩ := roundedMantissa_shiftRight_mem mantissa accuracy count
  omega

/-- A mantissa that was rounded up to a power of two loses a zero, others stay. -/
theorem exists_roundWithAccuracy_eq_finite (digits : mantissa.log2 = 52 + count)
    (normal : -1074 ≤ exponent + count) (sign : Sign) :
    ∃ mantissa' exponent' positive,
      roundWithAccuracy Format.binary64 sign mantissa exponent accuracy =
        .finite sign mantissa' exponent' positive ∧
      mantissa'.log2 = 52 ∧ exponent + count ≤ exponent' ∧ exponent' ≤ exponent + count + 1 ∧
      (mantissa' : ℚ) * 2 ^ exponent' =
        (ExtendedMantissa.ofMantissaAndAccuracy mantissa accuracy >>> count).roundedMantissa *
          2 ^ (exponent + count) := by
  have first := @shiftToTargetExponent_eq _ _ _ accuracy digits normal
  obtain ⟨floor, ceil⟩ := @roundedMantissa_mem _ _ accuracy digits
  set rounded := (ExtendedMantissa.ofMantissaAndAccuracy mantissa accuracy >>> count).roundedMantissa
    with same
  -- rounding up may carry into a 54th digit, which is shifted out again
  rcases lt_or_eq_of_le ceil with less | full
  · have bits : rounded.log2 = 52 + 0 := (Nat.log2_eq_iff (by omega)).2 ⟨floor, less⟩
    have second := @shiftToTargetExponent_eq _ _ (exponent + count) .exact bits (by omega)
    have kept : (ExtendedMantissa.ofMantissaAndAccuracy rounded .exact >>> 0).mantissa = rounded := rfl
    refine ⟨rounded, exponent + count, by omega, ?_, bits, le_rfl, by omega, rfl⟩
    simp only [roundWithAccuracy, first, ← same, second, kept, Nat.cast_zero, add_zero]
    exact dif_neg (by omega)
  · have bits : rounded.log2 = 52 + 1 := by rw [full, Nat.log2_two_pow]
    have second := @shiftToTargetExponent_eq _ _ (exponent + count) .exact bits (by omega)
    have half : (ExtendedMantissa.ofMantissaAndAccuracy rounded .exact >>> 1).mantissa = 2 ^ 52 := by
      rw [mantissa_shiftRight, mantissa_ofMantissaAndAccuracy, full]
      rfl
    refine ⟨2 ^ 52, exponent + count + 1, by decide, ?_, Nat.log2_two_pow, by omega, le_rfl, ?_⟩
    · simp only [roundWithAccuracy, first, ← same, second, half]
      rfl
    · rw [full, zpow_add_one₀ (by norm_num)]
      norm_num
      ring

/-- A number with enough digits is rounded to 53 bits, faithfully. -/
theorem exists_roundWithAccuracy_eq (approximates : Approximates mantissa accuracy quotient)
    (digits : 52 ≤ mantissa.log2) (least : 2 ^ (-1022 : Int) ≤ quotient * 2 ^ exponent)
    (most : quotient * 2 ^ exponent ≤ 2 ^ (unit + 52)) (sign : Sign) :
    ∃ mantissa' exponent' positive,
      roundWithAccuracy Format.binary64 sign mantissa exponent accuracy =
        .finite sign mantissa' exponent' positive ∧
      mantissa'.log2 = 52 ∧ -1074 ≤ exponent' ∧ exponent' ≤ unit + 1 ∧
      Faithful unit (quotient * 2 ^ exponent) (mantissa' * 2 ^ exponent') := by
  have nonzero : mantissa ≠ 0 := by
    rintro rfl
    rw [Nat.log2_zero] at digits
    omega
  obtain ⟨lower, upper⟩ := approximates.log2_add_mem nonzero least most
  obtain ⟨count, extra⟩ := Nat.exists_eq_add_of_le digits
  obtain ⟨mantissa', exponent', positive, rounded, bits, low, high, value⟩ :=
    @exists_roundWithAccuracy_eq_finite _ _ exponent accuracy extra (by omega) sign
  refine ⟨mantissa', exponent', positive, rounded, bits, by omega, by omega, ?_⟩
  rw [value]
  exact (faithful_roundedMantissa approximates).mono (by omega)

/-! ## Values -/

variable {x y : Float} {p q : ℚ} {positive : 0 < mantissa}

theorem isValue_of_unpack_eq_zero (unpacked : x.toModel.unpack = .zero sign) : IsValue x 0 := by
  refine ⟨isNegative sign, 0, leastExponent, ?_, by simp [signed]⟩
  rw [decode_eq, unpacked]
  rfl

theorem isValue_of_unpack_eq (unpacked : x.toModel.unpack = .finite sign mantissa exponent positive) :
    IsValue x (signed (isNegative sign) (mantissa * 2 ^ exponent)) := by
  refine ⟨isNegative sign, mantissa, exponent, ?_, rfl⟩
  rw [decode_eq, unpacked]
  rfl

/-- Zero, or a number of a magnitude that has floats of 53 bits. -/
def IsNormal (q : ℚ) : Prop := q = 0 ∨ 2 ^ (-1022 : Int) ≤ |q|

theorem isNormal_of_le {low : Int} (normal : -1022 ≤ low) (least : 2 ^ low ≤ |q|) : IsNormal q :=
  .inr ((zpow_le_zpow_right₀ (by norm_num) normal).trans least)

theorem isNormal_intCast (n : ℤ) : IsNormal n := by
  rcases eq_or_ne n 0 with rfl | nonzero
  · exact .inl Int.cast_zero
  · refine @isNormal_of_le _ 0 (by decide) ?_
    rw [zpow_zero]
    exact_mod_cast Int.one_le_abs nonzero

theorem IsNormal.le_of_signed {negative : Bool} {magnitude : ℚ}
    (normal : IsNormal (signed negative magnitude)) (positive : 0 < magnitude) :
    2 ^ (-1022 : Int) ≤ magnitude := by
  rw [IsNormal, ← abs_eq_zero, abs_signed _ positive.le] at normal
  exact normal.resolve_left positive.ne'

theorem two_zpow_least : (2 : ℚ) ^ (-1022 : Int) = 2 ^ 52 * 2 ^ (-1074 : Int) := by
  rw [← zpow_natCast, ← zpow_add₀ (by norm_num)]
  rfl

/-- Outside the neighbourhood of zero a mantissa has 53 bits. -/
theorem Canonical.log2_eq (canonical : Canonical mantissa exponent)
    (normal : 2 ^ (-1022 : Int) ≤ (mantissa : ℚ) * 2 ^ exponent) : mantissa.log2 = 52 := by
  have full : 2 ^ 52 ≤ mantissa := by
    refine canonical.normal.elim id fun tiny => ?_
    rw [tiny, two_zpow_least, mul_le_mul_iff_left₀ (zpow_pos (by norm_num) _)] at normal
    exact_mod_cast normal
  exact (Nat.log2_eq_iff (by omega)).2 ⟨full, canonical.bits⟩

theorem IsValue.unpack_of_isNormal (isValue : IsValue x q) (normal : IsNormal q) :
    (q = 0 ∧ ∃ sign, x.toModel.unpack = .zero sign) ∨
    ∃ (sign : Sign) (mantissa : Nat) (exponent : Int) (positive : 0 < mantissa), mantissa.log2 = 52 ∧
      q = signed (isNegative sign) (mantissa * 2 ^ exponent) ∧
      x.toModel.unpack = .finite sign mantissa exponent positive := by
  rcases isValue.unpack with zero | ⟨sign, mantissa, exponent, positive, canonical, rfl, unpacked⟩
  · exact .inl zero
  · have above : (0 : ℚ) < mantissa * 2 ^ exponent :=
      mul_pos (by exact_mod_cast positive) (zpow_pos (by norm_num) _)
    exact .inr ⟨sign, mantissa, exponent, positive, canonical.log2_eq (normal.le_of_signed above), rfl,
      unpacked⟩

/-- A float follows from a number by faithful rounding. -/
def Rounds (x : Float) (unit : Int) (exact : ℚ) : Prop :=
  ∃ rounded, IsValue x rounded ∧ Faithful unit exact rounded

theorem rounds_pack_zero (sign : Sign) (unit : Int) : Rounds (.ofModel (pack (.zero sign))) unit 0 :=
  ⟨0, isValue_of_unpack_eq_zero (unpack_pack_zero sign), .refl _ _⟩

/-- A number with enough digits is rounded and packed. -/
theorem rounds_pack (approximates : Approximates mantissa accuracy quotient)
    (digits : 52 ≤ mantissa.log2)
    (normal : IsNormal (signed (isNegative sign) (quotient * 2 ^ exponent)))
    (most : |signed (isNegative sign) (quotient * 2 ^ exponent)| ≤ 2 ^ (unit + 52))
    (finite : unit ≤ 970) :
    Rounds (.ofModel (pack (roundWithAccuracy Format.binary64 sign mantissa exponent accuracy))) unit
      (signed (isNegative sign) (quotient * 2 ^ exponent)) := by
  have positive : 0 < mantissa := by
    rcases Nat.eq_zero_or_pos mantissa with rfl | positive
    · rw [Nat.log2_zero] at digits
      omega
    · exact positive
  have above : 0 < quotient * 2 ^ exponent :=
    mul_pos ((Nat.cast_pos.2 positive).trans_le approximates.below) (zpow_pos (by norm_num) _)
  rw [abs_signed _ above.le] at most
  obtain ⟨mantissa', exponent', positive', rounded, bits, low, high, faithful⟩ :=
    exists_roundWithAccuracy_eq approximates digits (normal.le_of_signed above) most sign
  have packed := unpack_pack_normal sign positive' bits low (by omega)
  refine ⟨_, isValue_of_unpack_eq (Eq.trans ?_ packed), faithful.signed _⟩
  rw [rounded]

theorem signed_mul (sign sign' : Sign) (a b : ℚ) :
    signed (isNegative (sign * sign')) (a * b) =
      signed (isNegative sign) a * signed (isNegative sign') b := by
  cases sign <;> cases sign'
  case negative.negative => exact (neg_mul_neg a b).symm
  case negative.positive => exact (neg_mul a b).symm
  case positive.negative => exact (mul_neg a b).symm
  case positive.positive => rfl

theorem signed_div (sign sign' : Sign) (a b : ℚ) :
    signed (isNegative (sign / sign')) (a / b) =
      signed (isNegative sign) a / signed (isNegative sign') b := by
  cases sign <;> cases sign'
  case negative.negative => exact (neg_div_neg_eq a b).symm
  case negative.positive => exact (neg_div b a).symm
  case positive.negative => exact (div_neg a).symm
  case positive.positive => rfl

theorem IsValue.mul (isValue : IsValue x p) (isValue' : IsValue y q) (normal : IsNormal p)
    (normal' : IsNormal q) (normalProduct : IsNormal (p * q)) (most : |p * q| ≤ 2 ^ (unit + 52))
    (finite : unit ≤ 970) : Rounds (x * y) unit (p * q) := by
  change Rounds (.ofModel (pack (UnpackedFloat.mul Format.binary64 x.toModel.unpack
    y.toModel.unpack))) unit _
  rcases isValue.unpack_of_isNormal normal with ⟨rfl, sign, unpacked⟩ |
      ⟨sign, mantissa, exponent, positive, bits, rfl, unpacked⟩ <;>
    rcases isValue'.unpack_of_isNormal normal' with ⟨rfl, sign', unpacked'⟩ |
      ⟨sign', mantissa', exponent', positive', bits', rfl, unpacked'⟩ <;>
    rw [unpacked, unpacked', UnpackedFloat.mul]
  case inl.inl =>
    rw [mul_zero]
    exact rounds_pack_zero _ _
  case inl.inr =>
    rw [zero_mul]
    exact rounds_pack_zero _ _
  case inr.inl =>
    rw [mul_zero]
    exact rounds_pack_zero _ _
  case inr.inr =>
    have product : ((mantissa : ℚ) * 2 ^ exponent) * (mantissa' * 2 ^ exponent') =
        (mantissa * mantissa' : Nat) * 2 ^ (exponent + exponent') := by
      rw [zpow_add₀ (by norm_num)]
      push_cast
      ring
    have digits : 52 ≤ (mantissa * mantissa').log2 := by
      have floor := Nat.log2_self_le positive.ne'
      rw [bits] at floor
      exact (Nat.le_log2 (Nat.mul_pos positive positive').ne').2
        (floor.trans (Nat.le_mul_of_pos_right _ positive'))
    rw [← signed_mul, product] at normalProduct most ⊢
    exact rounds_pack (approximates_exact _) digits normalProduct most finite

/-- A quotient of whole numbers and what its remainder says about it. -/
theorem approximates_div (dividend : Nat) {divisor : Nat} (positive : 0 < divisor) :
    Approximates (dividend / divisor) (accuracyOfFraction (dividend % divisor) divisor)
      (dividend / divisor) := by
  have above : (0 : ℚ) < divisor := by exact_mod_cast positive
  refine ⟨Nat.cast_div_le, ?_, ?_⟩
  · rw [div_lt_iff₀ above]
    exact_mod_cast Nat.lt_mul_of_div_lt (Nat.lt_succ_self _) positive
  · intro same
    rw [div_eq_iff above.ne'] at same
    have whole : dividend = dividend / divisor * divisor := by exact_mod_cast same
    have none : dividend % divisor = 0 := by
      rw [whole, Nat.mul_mod_left]
    rw [none, accuracyOfFraction, if_pos rfl]

/-- The dividend of a normal quotient is shifted by so many digits that 53 of them are left. -/
theorem le_log2_div {mantissa' : Nat} {exponent' target : Int} (bits : mantissa.log2 = 52)
    (bits' : mantissa'.log2 = 52) (positive : 0 < mantissa) (positive' : 0 < mantissa')
    (targeted : target = min (exponent - exponent') (Format.binary64.targetExponent
      (totalExponent mantissa exponent - totalExponent mantissa' exponent')))
    (normal : 2 ^ (-1022 : Int) ≤
      ((mantissa <<< (exponent - exponent' - target).toNat : Nat) : ℚ) / mantissa' * 2 ^ target) :
    52 ≤ (mantissa <<< (exponent - exponent' - target).toNat / mantissa').log2 := by
  set shifted := mantissa <<< (exponent - exponent' - target).toNat with shift
  have floor : 2 ^ 52 * mantissa' ≤ shifted := by
    -- at the least exponent the quotient itself is large enough, above it 53 digits are shifted in
    rcases le_or_gt target (-1074) with low | high
    · have large : (2 : ℚ) ^ 52 * 2 ^ target ≤ shifted / mantissa' * 2 ^ target := by
        refine le_trans ?_ normal
        rw [two_zpow_least]
        exact mul_le_mul_of_nonneg_left (zpow_le_zpow_right₀ (by norm_num) low) (by norm_num)
      rw [mul_le_mul_iff_left₀ (zpow_pos (by norm_num) _),
        le_div_iff₀ (by exact_mod_cast positive')] at large
      exact_mod_cast large
    · have exact : target = exponent - exponent' - 53 := by
        simp only [Format.targetExponent, totalExponent, Format.mantissaBits, Format.minExponent,
          bits, bits'] at targeted
        norm_num at targeted
        omega
      have ceil := (Nat.log2_eq_iff positive'.ne').1 bits'
      have full := (Nat.log2_eq_iff positive.ne').1 bits
      have count : (exponent - exponent' - target).toNat = 53 := by omega
      rw [shift, count, Nat.shiftLeft_eq]
      omega
  have full := (Nat.le_div_iff_mul_le positive').2 floor
  exact (Nat.le_log2 (by omega)).2 full

theorem IsValue.div (isValue : IsValue x p) (isValue' : IsValue y q) (normal : IsNormal p)
    (normal' : IsNormal q) (nonzero : q ≠ 0) (normalQuotient : IsNormal (p / q))
    (most : |p / q| ≤ 2 ^ (unit + 52)) (finite : unit ≤ 970) : Rounds (x / y) unit (p / q) := by
  change Rounds (.ofModel (pack (UnpackedFloat.div Format.binary64 x.toModel.unpack
    y.toModel.unpack))) unit _
  obtain ⟨sign', mantissa', exponent', positive', bits', rfl, unpacked'⟩ :=
    (isValue'.unpack_of_isNormal normal').resolve_left fun zero => nonzero zero.1
  rw [unpacked']
  rcases isValue.unpack_of_isNormal normal with ⟨rfl, sign, unpacked⟩ |
      ⟨sign, mantissa, exponent, positive, bits, rfl, unpacked⟩
  · rw [unpacked, zero_div, UnpackedFloat.div]
    exact rounds_pack_zero _ _
  · simp only [unpacked, UnpackedFloat.div, divCore]
    -- whole numbers are divided, at an exponent that is chosen beforehand
    set target := min (exponent - exponent') (Format.binary64.targetExponent
      (totalExponent mantissa exponent - totalExponent mantissa' exponent')) with targeted
    have quotient := shiftLeft_div_mul_zpow mantissa mantissa'
      (show target ≤ exponent - exponent' from min_le_left _ _)
    have above : (0 : ℚ) < (mantissa * 2 ^ exponent) / (mantissa' * 2 ^ exponent') := by positivity
    rw [← signed_div, ← quotient] at normalQuotient most ⊢
    rw [← quotient] at above
    have digits := le_log2_div bits bits' positive positive' targeted (normalQuotient.le_of_signed above)
    exact rounds_pack (approximates_div _ positive') digits normalQuotient most finite

/-- The unpacked form of a whole number is its exact one, but a zero has either sign. -/
theorem IsValue.unpack_whole {n : Int} (isValue : IsValue x n) (small : Small n) :
    (n = 0 ∧ ∃ sign, x.toModel.unpack = .zero sign) ∨
      n ≠ 0 ∧ x.toModel.unpack = unpackedWhole n := by
  rcases eq_or_ne n 0 with rfl | nonzero
  · rw [Int.cast_zero] at isValue
    rcases isValue.eq_zero_or_eq_neg_zero with rfl | rfl
    · exact .inl ⟨rfl, .positive, rfl⟩
    · exact .inl ⟨rfl, .negative, rfl⟩
  · have exact : IsValue (Float.ofInt n) n := isValue_ofInt small.le
    have same : x = Float.ofInt n :=
      (isValue.eq_iff exact).2 ⟨rfl, fun zero => absurd (Int.cast_eq_zero.1 zero) nonzero⟩
    rw [same]
    exact .inr ⟨nonzero, (isWholeFloat_ofInt small).2⟩

/-- The difference of whole numbers is exact, whatever the signs of zeros. -/
theorem IsValue.sub {n m : Int} (isValue : IsValue x n) (isValue' : IsValue y m) (small : Small n)
    (small' : Small m) (smallDifference : Small (n - m)) : IsValue (x - y) (n - m : Int) := by
  change IsValue (.ofModel (pack (UnpackedFloat.sub Format.binary64 x.toModel.unpack
    y.toModel.unpack))) _
  -- a zero of either sign is a form of its own, so it is not among the exact forms
  rcases isValue.unpack_whole small with ⟨rfl, sign, unpacked⟩ | ⟨nonzero, unpacked⟩ <;>
    rcases isValue'.unpack_whole small' with ⟨rfl, sign', unpacked'⟩ | ⟨nonzero', unpacked'⟩ <;>
    rw [unpacked, unpacked']
  case inl.inl =>
    rw [UnpackedFloat.sub, Int.sub_zero, Int.cast_zero]
    split <;> exact isValue_of_unpack_eq_zero (unpack_pack_zero _)
  case inl.inr =>
    have opposite : UnpackedFloat.sub Format.binary64 (.zero sign) (unpackedWhole m) =
        (unpackedWhole m).neg := by
      rw [unpackedWhole, dif_pos nonzero']
      rfl
    rw [opposite, neg_unpackedWhole nonzero', Int.zero_sub]
    rw [Int.zero_sub] at smallDifference
    exact isValue_of_isWholeFloat (isWholeFloat_pack smallDifference)
  case inr.inl =>
    have same : UnpackedFloat.sub Format.binary64 (unpackedWhole n) (.zero sign') =
        unpackedWhole n := by
      rw [unpackedWhole, dif_pos nonzero]
      rfl
    rw [same, Int.sub_zero]
    exact isValue_of_isWholeFloat (isWholeFloat_pack small)
  case inr.inr =>
    rw [sub_unpackedWhole small small' smallDifference nonzero']
    exact isValue_of_isWholeFloat (isWholeFloat_pack smallDifference)

/-- A product with a zero is a zero or no number, so that it is narrowed to zero. -/
theorem narrowBy_zero_mul {whole : Bool → Nat → Int → Int} {low high : Int} {x : Float} (y : Float)
    (isZero : IsValue x 0) (exact : ∀ negative, whole negative 0 leastExponent = 0) (above : low ≤ 0)
    (below : 0 ≤ high) : narrowBy whole low high (x * y) = 0 := by
  have zero (sign : Sign) : narrowBy whole low high (.ofModel (pack (.zero sign))) = 0 := by
    have unpacked : (Float.ofModel (pack (.zero sign))).toModel.unpack = .zero sign :=
      unpack_pack_zero sign
    rw [narrowBy, decode_eq, unpacked]
    simp only [Binary.ofUnpacked]
    rw [exact, clampInt_of_mem above below]
  have none : narrowBy whole low high (.ofModel (pack .notANumber)) = 0 := by
    have unpacked : (Float.ofModel (pack .notANumber)).toModel.unpack = .notANumber := rfl
    rw [narrowBy, decode_eq, unpacked]
    rfl
  change narrowBy whole low high (.ofModel (pack (UnpackedFloat.mul Format.binary64 x.toModel.unpack
    y.toModel.unpack))) = 0
  obtain ⟨sign, unpacked⟩ : ∃ sign, x.toModel.unpack = .zero sign := by
    rcases isZero.eq_zero_or_eq_neg_zero with rfl | rfl
    · exact ⟨.positive, rfl⟩
    · exact ⟨.negative, rfl⟩
  rw [unpacked]
  cases y.toModel.unpack with
  | notANumber => exact none
  | infinity sign' => exact none
  | zero sign' => exact zero _
  | finite sign' mantissa exponent positive => exact zero _

end Terrain.Number
