import Terrain.Proofs.Number.Errors

/-!
# Sums of floats

A sum is rounded faithfully, like a product or a quotient. Its operands may be tiny: unless they cancel
each other, their sum is a multiple of the smaller of their units.

* `IsValue.add`, `IsValue.neg`, `IsValue.magnitude` — values of sums, opposites and magnitudes.
* `IsValue.isNormal_add` — a sum with a number that is not tiny is not tiny.
* `IsValue.iterate_add_eq`, `IsValue.iterate_add_near` — adding one number again and again.
-/

namespace Terrain.Number

open Float.Model Float.Model.UnpackedFloat

variable {x y : Float} {p q : ℚ} {unit exponent : Int} {mantissa : Nat} {sign : Sign}

/-- Rounding keeps a number away from zero by as many units. -/
theorem Faithful.reaches {exact rounded : ℚ} (faithful : Faithful unit exact rounded) {k : ℕ}
    (reached : k * 2 ^ unit ≤ |exact|) : k * 2 ^ unit ≤ |rounded| := by
  rcases le_abs.1 reached with above | below
  · exact le_abs.2 (.inl ((faithful k).1 (by exact_mod_cast above)))
  · have opposite := (faithful.neg k).1 (by exact_mod_cast below)
    exact le_abs.2 (.inr (by exact_mod_cast opposite))

/-! ## Rounding of whole mantissas -/

theorem decreaseExponent_value (mantissa : Nat) (exponent target : Int) :
    ((decreaseExponent mantissa exponent target).1 : ℚ) *
      2 ^ (decreaseExponent mantissa exponent target).2 = mantissa * 2 ^ exponent := by
  have power : (2 : ℚ) ^ exponent =
      2 ^ (exponent - target).toNat * 2 ^ (exponent - ((exponent - target).toNat : Int)) := by
    rw [← zpow_natCast, ← zpow_add₀ (by norm_num)]
    congr 1
    omega
  rw [decreaseExponent, Nat.shiftLeft_eq, power]
  push_cast
  ring

theorem rounds_round (positive : 0 < mantissa)
    (normal : IsNormal (signed (isNegative sign) (mantissa * 2 ^ exponent)))
    (most : |signed (isNegative sign) ((mantissa : ℚ) * 2 ^ exponent)| ≤ 2 ^ (unit + 52))
    (finite : unit ≤ 970) :
    Rounds (.ofModel (pack (UnpackedFloat.round Format.binary64 sign mantissa exponent))) unit
      (signed (isNegative sign) (mantissa * 2 ^ exponent)) := by
  have above : (0 : ℚ) < mantissa * 2 ^ exponent :=
    mul_pos (Nat.cast_pos.2 positive) (zpow_pos (by norm_num) _)
  have least := ((approximates_exact mantissa).log2_add_mem positive.ne' (normal.le_of_signed above)
    (abs_signed _ above.le ▸ most)).1
  unfold UnpackedFloat.round
  dsimp only
  set target := Format.binary64.targetExponent (totalExponent mantissa exponent) with targeted
  -- a short mantissa is shifted until it has 53 digits
  have digits : 52 ≤ (decreaseExponent mantissa exponent target).1.log2 := by
    simp only [Format.targetExponent, totalExponent, Format.mantissaBits, Format.minExponent]
      at targeted
    norm_num at targeted
    simp only [decreaseExponent]
    rw [log2_shiftLeft positive]
    omega
  rw [← decreaseExponent_value mantissa exponent target] at normal most ⊢
  exact rounds_pack (approximates_exact _) digits normal most finite

theorem rounds_normalize {mantissa : Int} (normal : IsNormal (mantissa * 2 ^ exponent))
    (most : |(mantissa : ℚ) * 2 ^ exponent| ≤ 2 ^ (unit + 52)) (finite : unit ≤ 970) :
    Rounds (.ofModel (pack (UnpackedFloat.normalize Format.binary64 mantissa exponent sign))) unit
      (mantissa * 2 ^ exponent) := by
  unfold UnpackedFloat.normalize
  split
  case h_1 order =>
    have negative := Int.compare_eq_lt.1 order
    have value : (mantissa : ℚ) * 2 ^ exponent =
        signed (isNegative .negative) (((-mantissa).toNat : Nat) * 2 ^ exponent) := by
      have same : (((-mantissa).toNat : Int) : ℚ) = -mantissa := by
        exact_mod_cast Int.toNat_of_nonneg (by omega)
      change _ = -(_ * _)
      rw [← Int.cast_natCast, same]
      ring
    rw [value] at normal most ⊢
    exact rounds_round (by omega) normal most finite
  case h_2 order =>
    rw [Int.compare_eq_eq.1 order, Int.cast_zero, zero_mul]
    exact rounds_pack_zero _ _
  case h_3 order =>
    have positive := Int.compare_eq_gt.1 order
    have value : (mantissa : ℚ) * 2 ^ exponent =
        signed (isNegative .positive) ((mantissa.toNat : Nat) * 2 ^ exponent) := by
      have same : ((mantissa.toNat : Int) : ℚ) = mantissa := by
        exact_mod_cast Int.toNat_of_nonneg (by omega)
      change _ = _ * _
      rw [← Int.cast_natCast, same]
    rw [value] at normal most ⊢
    exact rounds_round (by omega) normal most finite

/-- A float of 53 bits is packed as it is. -/
theorem isValue_pack {positive : 0 < mantissa} (canonical : Canonical mantissa exponent)
    (normal : IsNormal (signed (isNegative sign) (mantissa * 2 ^ exponent))) :
    IsValue (.ofModel (pack (.finite sign mantissa exponent positive)))
      (signed (isNegative sign) (mantissa * 2 ^ exponent)) := by
  have above : (0 : ℚ) < mantissa * 2 ^ exponent :=
    mul_pos (Nat.cast_pos.2 positive) (zpow_pos (by norm_num) _)
  have bits := canonical.log2_eq (normal.le_of_signed above)
  exact isValue_of_unpack_eq (unpack_pack_normal sign positive bits canonical.least canonical.most)

/-! ## Sums -/

theorem apply_mul (sign : Sign) (mantissa : Nat) (scale : ℚ) :
    ((sign.apply (mantissa : Int) : ℤ) : ℚ) * scale = signed (isNegative sign) (mantissa * scale) := by
  cases sign with
  | negative =>
    change ((-(mantissa : Int) : ℤ) : ℚ) * scale = -(mantissa * scale)
    push_cast
    ring
  | positive => exact congrArg (· * scale) (Int.cast_natCast mantissa)

theorem IsValue.add (isValue : IsValue x p) (isValue' : IsValue y q) (normal : IsNormal (p + q))
    (most : |p + q| ≤ 2 ^ (unit + 52)) (finite : unit ≤ 970) : Rounds (x + y) unit (p + q) := by
  change Rounds (.ofModel (pack (UnpackedFloat.add Format.binary64 x.toModel.unpack
    y.toModel.unpack))) unit _
  rcases isValue.unpack with ⟨rfl, sign, unpacked⟩ |
      ⟨sign, mantissa, exponent, positive, canonical, rfl, unpacked⟩ <;>
    rcases isValue'.unpack with ⟨rfl, sign', unpacked'⟩ |
      ⟨sign', mantissa', exponent', positive', canonical', rfl, unpacked'⟩ <;>
    rw [unpacked, unpacked']
  case inl.inl =>
    rw [add_zero, UnpackedFloat.add]
    split <;> exact rounds_pack_zero _ _
  case inl.inr =>
    rw [zero_add] at normal ⊢
    exact ⟨_, isValue_pack canonical' normal, .refl _ _⟩
  case inr.inl =>
    rw [add_zero] at normal ⊢
    exact ⟨_, isValue_pack canonical normal, .refl _ _⟩
  case inr.inr =>
    simp only [UnpackedFloat.add]
    have first := decreaseExponent_mul_zpow mantissa (min_le_left exponent exponent')
    have second := decreaseExponent_mul_zpow mantissa' (min_le_right exponent exponent')
    rw [← first, ← second, ← apply_mul, ← apply_mul, ← add_mul, ← Int.cast_add] at normal most ⊢
    exact rounds_normalize normal most finite

/-- A float is a multiple of the unit of any power of two that it reaches. -/
theorem IsValue.exists_eq_mul (isValue : IsValue x p) {low : Int} (least : 2 ^ low ≤ |p|) :
    ∃ k : ℤ, p = k * 2 ^ (low - 52) := by
  rcases isValue.unpack with ⟨rfl, -, -⟩ | ⟨sign, mantissa, exponent, positive, canonical, rfl, -⟩
  · exact ⟨0, by simp⟩
  · have nonneg : (0 : ℚ) ≤ mantissa * 2 ^ exponent := by positivity
    rw [abs_signed _ nonneg] at least
    have less : (2 : ℚ) ^ low < 2 ^ (53 + exponent) := by
      rw [zpow_add₀ (by norm_num)]
      refine least.trans_lt (mul_lt_mul_of_pos_right ?_ (zpow_pos (by norm_num) _))
      exact_mod_cast canonical.bits
    have order := (zpow_lt_zpow_iff_right₀ (by norm_num)).1 less
    obtain ⟨count, more⟩ := Int.eq_ofNat_of_zero_le (show 0 ≤ exponent - (low - 52) by omega)
    have power : (2 : ℚ) ^ exponent = 2 ^ count * 2 ^ (low - 52) := by
      rw [← zpow_natCast, ← zpow_add₀ (by norm_num)]
      congr 1
      omega
    refine ⟨sign.apply (mantissa * 2 ^ count : Nat), ?_⟩
    rw [apply_mul, power]
    push_cast
    ring_nf

theorem isNormal_mul_zpow (k : ℤ) {unit : Int} (low : -1022 ≤ unit) : IsNormal (k * 2 ^ unit) := by
  rcases eq_or_ne k 0 with rfl | nonzero
  · exact .inl (by simp)
  · refine isNormal_of_le low ?_
    have one : (1 : ℚ) ≤ |(k : ℚ)| := by exact_mod_cast Int.one_le_abs nonzero
    have power : (0 : ℚ) < 2 ^ unit := zpow_pos (by norm_num) _
    rw [abs_mul, abs_of_pos power]
    exact le_mul_of_one_le_left power.le one

/-- Next to a number that is not tiny, only a number of its size can cancel it, and that leaves a multiple
of their units. -/
theorem IsValue.isNormal_add (isValue : IsValue x p) (isValue' : IsValue y q) {low : Int}
    (reached : 2 ^ low ≤ |q|) (high : -900 ≤ low) : IsNormal (p + q) := by
  have half : (2 : ℚ) ^ low = 2 * 2 ^ (low - 1) := by
    rw [← zpow_one_add₀ (by norm_num)]
    congr 1
    omega
  rcases le_or_gt (2 ^ (low - 1)) |p| with large | small
  · obtain ⟨k, rfl⟩ := isValue.exists_eq_mul large
    obtain ⟨k', rfl⟩ := isValue'.exists_eq_mul
      ((zpow_le_zpow_right₀ (by norm_num) (show low - 1 ≤ low by omega)).trans reached)
    rw [← add_mul, ← Int.cast_add]
    exact isNormal_mul_zpow _ (by omega)
  · refine @isNormal_of_le _ (low - 1) (by omega) ?_
    have rest := abs_sub_abs_le_abs_sub q (-p)
    rw [abs_neg, sub_neg_eq_add, add_comm q p] at rest
    linarith

/-! ## Opposites and magnitudes -/

theorem signed_neg (sign : Sign) (magnitude : ℚ) :
    signed (isNegative (-sign)) magnitude = -signed (isNegative sign) magnitude := by
  cases sign with
  | negative => exact (neg_neg magnitude).symm
  | positive => rfl

theorem IsNormal.neg (normal : IsNormal p) : IsNormal (-p) := by
  rwa [IsNormal, neg_eq_zero, abs_neg]

theorem IsValue.neg (isValue : IsValue x p) (normal : IsNormal p) : IsValue (-x) (-p) := by
  change IsValue (.ofModel (pack x.toModel.unpack.neg)) _
  rcases isValue.unpack with ⟨rfl, sign, unpacked⟩ |
    ⟨sign, mantissa, exponent, positive, canonical, rfl, unpacked⟩
  · rw [unpacked, neg_zero]
    exact isValue_of_unpack_eq_zero (unpack_pack_zero _)
  · rw [unpacked]
    have opposite := normal.neg
    rw [← signed_neg] at opposite ⊢
    exact isValue_pack canonical opposite

theorem Rounds.neg (rounds : Rounds x unit p) (reached : p = 0 ∨ 2 ^ unit ≤ |p|) (low : -1022 ≤ unit) :
    Rounds (-x) unit (-p) := by
  obtain ⟨rounded, isValue, faithful⟩ := rounds
  have normal : IsNormal rounded := by
    rcases reached with rfl | reached
    · exact .inl (faithful.eq_of_eq_mul (by simp : (0 : ℚ) = (0 : ℤ) * 2 ^ unit))
    · refine isNormal_of_le low ?_
      have kept := @Faithful.reaches _ _ _ faithful 1 (by rwa [Nat.cast_one, one_mul])
      rwa [Nat.cast_one, one_mul] at kept
  exact ⟨-rounded, isValue.neg normal, faithful.neg⟩

def unsigned : UnpackedFloat → UnpackedFloat
  | .notANumber => .notANumber
  | .infinity _ => .infinity .positive
  | .zero _ => .zero .positive
  | .finite _ mantissa exponent positive => .finite .positive mantissa exponent positive

/-- A word without its first bit is that of a positive float. -/
theorem unpack_and (bits : UInt64) :
    UnpackedFloat.unpack Format.binary64 (bits &&& 0x7fffffffffffffff).toBitVec =
      unsigned (UnpackedFloat.unpack Format.binary64 bits.toBitVec) := by
  have bound := bits.toNat_lt
  have mask : (0x7fffffffffffffff : Nat) = 2 ^ 63 - 1 := by decide
  have rest : (bits &&& 0x7fffffffffffffff).toNat = bits.toNat % 2 ^ 63 := by
    rw [UInt64.toNat_and]
    simp only [UInt64.reduceToNat, mask, Nat.and_two_pow_sub_one_eq_mod]
  have exponent : @unpackExponent Format.binary64 (bits &&& 0x7fffffffffffffff).toBitVec =
      @unpackExponent Format.binary64 bits.toBitVec := by
    apply BitVec.eq_of_toNat_eq
    simp only [unpackExponent, BitVec.toNat_cast, BitVec.extractLsb_toNat, UInt64.toNat_toBitVec, rest,
      Nat.shiftRight_eq_div_pow]
    norm_num
    omega
  have mantissa : @unpackMantissa Format.binary64 (bits &&& 0x7fffffffffffffff).toBitVec =
      @unpackMantissa Format.binary64 bits.toBitVec := by
    apply BitVec.eq_of_toNat_eq
    simp only [unpackMantissa, BitVec.toNat_cast, BitVec.extractLsb_toNat, UInt64.toNat_toBitVec, rest,
      Nat.shiftRight_eq_div_pow]
    norm_num
  have sign : @unpackSign Format.binary64 (bits &&& 0x7fffffffffffffff).toBitVec = 0#1 := by
    apply BitVec.eq_of_toNat_eq
    simp only [unpackSign, BitVec.toNat_cast, BitVec.extractLsb_toNat, UInt64.toNat_toBitVec, rest,
      Nat.shiftRight_eq_div_pow]
    norm_num
  unfold UnpackedFloat.unpack
  simp only [exponent, mantissa, sign]
  split
  · split <;> rfl
  · split
    · split <;> rfl
    · rfl

theorem IsValue.magnitude (isValue : IsValue x p) (normal : IsNormal p) :
    IsValue (Number.magnitude x) |p| := by
  change IsValue (.ofModel (pack (UnpackedFloat.unpack Format.binary64
    (x.toModel.toBits &&& 0x7fffffffffffffff).toBitVec))) _
  rw [unpack_and]
  change IsValue (.ofModel (pack (unsigned x.toModel.unpack))) _
  rcases isValue.unpack with ⟨rfl, sign, unpacked⟩ |
    ⟨sign, mantissa, exponent, positive, canonical, rfl, unpacked⟩
  · rw [unpacked, abs_zero]
    exact isValue_of_unpack_eq_zero (unpack_pack_zero _)
  · have above : (0 : ℚ) < mantissa * 2 ^ exponent :=
      mul_pos (Nat.cast_pos.2 positive) (zpow_pos (by norm_num) _)
    rw [unpacked, abs_signed _ above.le]
    exact @isValue_pack _ _ .positive positive canonical (.inr (normal.le_of_signed above |>.trans
      (le_abs_self _)))

theorem IsValue.beq_eq (isValue : IsValue x p) (isValue' : IsValue y q) : (x == y) = decide (p = q) := by
  have order : (x == y) = (x.toModel.unpack.compare y.toModel.unpack == some .eq) := rfl
  rw [order, isValue.compare_eq isValue', Bool.eq_iff_iff, beq_iff_eq, Option.some.injEq,
    compare_eq_iff_eq, decide_eq_true_iff]

/-! ## Slopes -/

/-- A quotient of whole numbers is zero or not tinier than its divisor allows. -/
theorem zpow_neg_le_abs_div {n m : Int} (nonzero : n ≠ 0) (nonzero' : m ≠ 0) {bits : ℕ}
    (short : m.natAbs ≤ 2 ^ bits) : (2 : ℚ) ^ (-(bits : Int)) ≤ |(n : ℚ) / m| := by
  have above : (0 : ℚ) < |(m : ℚ)| := abs_pos.2 (Int.cast_ne_zero.2 nonzero')
  have one : (1 : ℚ) ≤ |(n : ℚ)| := by exact_mod_cast Int.one_le_abs nonzero
  have short' : |(m : ℚ)| ≤ 2 ^ bits := by
    rw [← Int.cast_abs, Int.abs_eq_natAbs]
    exact_mod_cast short
  rw [abs_div, le_div_iff₀ above, zpow_neg, zpow_natCast, inv_mul_le_iff₀ (by positivity)]
  calc |(m : ℚ)| ≤ 2 ^ bits * 1 := by rwa [mul_one]
    _ ≤ 2 ^ bits * |(n : ℚ)| := mul_le_mul_of_nonneg_left one (by positivity)

/-- A quotient of whole numbers that is one at most. -/
theorem rounds_div {n m : Int} (isValue : IsValue x n) (isValue' : IsValue y m) (nonzero : m ≠ 0)
    (small : Small m) (flat : n.natAbs ≤ m.natAbs) : Rounds (x / y) (-52) (n / m) := by
  have above : (0 : ℚ) < |(m : ℚ)| := abs_pos.2 (Int.cast_ne_zero.2 nonzero)
  have flat' : |(n : ℚ)| ≤ |(m : ℚ)| := by
    have order : |n| ≤ |m| := by
      rw [Int.abs_eq_natAbs, Int.abs_eq_natAbs]
      exact_mod_cast flat
    exact_mod_cast order
  have normal : IsNormal ((n : ℚ) / m) := by
    rcases eq_or_ne n 0 with rfl | nonzero'
    · exact .inl (by simp)
    · exact @isNormal_of_le _ (-(53 : ℕ)) (by decide) (zpow_neg_le_abs_div nonzero' nonzero small.le)
  refine isValue.div isValue' (isNormal_intCast n) (isNormal_intCast m) (Int.cast_ne_zero.2 nonzero)
    normal ?_ (by decide)
  rw [abs_div, div_le_iff₀ above]
  norm_num
  exact flat'

/-- Its opposite. -/
theorem rounds_neg_div {n m : Int} (isValue : IsValue x n) (isValue' : IsValue y m) (nonzero : m ≠ 0)
    (short : m.natAbs ≤ 2 ^ 52) (flat : n.natAbs ≤ m.natAbs) :
    Rounds (-(x / y)) (-52) (n / (-m : Int)) := by
  have reached : (n : ℚ) / m = 0 ∨ 2 ^ (-52 : Int) ≤ |(n : ℚ) / m| := by
    rcases eq_or_ne n 0 with rfl | nonzero'
    · exact .inl (by rw [Int.cast_zero, zero_div])
    · exact .inr (@zpow_neg_le_abs_div _ _ nonzero' nonzero 52 short)
  have small : Small m := short.trans_lt (by decide)
  have rounds := (rounds_div isValue isValue' nonzero small flat).neg reached (by decide)
  rwa [Int.cast_neg, div_neg]

/-! ## Adding one number again and again -/

/-- On a grid that the floats resolve, all sums are exact. -/
theorem IsValue.iterate_add_eq {k step : ℤ} (isValue : IsValue x (k * 2 ^ unit))
    (isValue' : IsValue y (step * 2 ^ unit)) (low : -1022 ≤ unit) (high : unit ≤ 970) (count : Nat)
    (bounded : ∀ i ≤ count, |k + i * step| ≤ 2 ^ 52) :
    IsValue ((· + y)^[count] x) ((k + count * step : ℤ) * 2 ^ unit) := by
  induction count with
  | zero => simpa using isValue
  | succ count ih =>
    have before := ih fun i le => bounded i (le.trans (Nat.le_succ _))
    have next : ((k + count * step : ℤ) : ℚ) * 2 ^ unit + step * 2 ^ unit =
        ((k + (count + 1 : Nat) * step : ℤ) : ℚ) * 2 ^ unit := by
      push_cast
      ring
    have power : (0 : ℚ) < 2 ^ unit := zpow_pos (by norm_num) _
    have most : |((k + (count + 1 : Nat) * step : ℤ) : ℚ) * 2 ^ unit| ≤ 2 ^ (unit + 52) := by
      have bound : |((k + (count + 1 : Nat) * step : ℤ) : ℚ)| ≤ 2 ^ 52 := by
        exact_mod_cast bounded (count + 1) le_rfl
      rw [abs_mul, abs_of_pos power, zpow_add₀ (by norm_num), mul_comm]
      exact mul_le_mul_of_nonneg_left bound power.le
    obtain ⟨rounded, isSum, faithful⟩ := before.add isValue' (next ▸ isNormal_mul_zpow _ low)
      (next ▸ most) high
    rw [next] at faithful
    rw [Function.iterate_succ_apply', ← faithful.eq_of_eq_mul rfl]
    exact isSum

/-- Otherwise every sum adds an error of one unit at most, and that of the number itself. -/
theorem IsValue.iterate_add_near {low : Int} {slope error : ℚ} (isValue : IsValue x p)
    (isValue' : IsValue y q) (reached : 2 ^ low ≤ |q|) (high : -900 ≤ low) (finite : unit ≤ 970)
    (close : |q - slope| ≤ error) (count : Nat)
    (bounded : ∀ i ≤ count, |p + i * slope| + count * (2 ^ unit + error) ≤ 2 ^ (unit + 52)) :
    ∃ r, IsValue ((· + y)^[count] x) r ∧
      |r - (p + count * slope)| ≤ count * (2 ^ unit + error) := by
  have power : (0 : ℚ) < 2 ^ unit := zpow_pos (by norm_num) _
  have nonneg : 0 ≤ error := (abs_nonneg _).trans close
  suffices steps : ∀ i ≤ count, ∃ r, IsValue ((· + y)^[i] x) r ∧
      |r - (p + i * slope)| ≤ i * (2 ^ unit + error) from steps count le_rfl
  intro i le
  induction i with
  | zero => exact ⟨p, isValue, by simp⟩
  | succ i ih =>
    obtain ⟨r, before, near⟩ := ih (Nat.le_of_succ_le le)
    have room : ((i + 1 : Nat) : ℚ) * (2 ^ unit + error) ≤ count * (2 ^ unit + error) :=
      mul_le_mul_of_nonneg_right (Nat.cast_le.2 le) (by linarith)
    have drift : |r + q - (p + (i + 1 : Nat) * slope)| ≤ i * (2 ^ unit + error) + error := by
      have split : r + q - (p + (i + 1 : Nat) * slope) = (r - (p + i * slope)) + (q - slope) := by
        push_cast
        ring
      rw [split]
      exact (abs_add_le _ _).trans (add_le_add near close)
    have most : |r + q| ≤ 2 ^ (unit + 52) := by
      have inside := bounded (i + 1) le
      have apart := abs_add_le (r + q - (p + (i + 1 : Nat) * slope)) (p + (i + 1 : Nat) * slope)
      rw [sub_add_cancel] at apart
      push_cast at *
      linarith
    obtain ⟨rounded, isSum, faithful⟩ :=
      before.add isValue' (before.isNormal_add isValue' reached high) most finite
    refine ⟨rounded, Function.iterate_succ_apply' (· + y) i x ▸ isSum, ?_⟩
    have whole := abs_add_le (rounded - (r + q)) (r + q - (p + (i + 1 : Nat) * slope))
    rw [sub_add_sub_cancel] at whole
    have rounding := faithful.abs_sub_lt
    push_cast at *
    linarith

end Terrain.Number
