import Terrain.Proofs.Number.Sums

/-!
# Whole numbers of more bits than a float has

A whole number of more than 53 bits is rounded when it is made a float. The rounding passes over no
float and ends at a whole number, so that an order between the number and a float is kept.

* `isWhole_iff` — whole floats.
* `IsValue.order_of_faithful` — faithful rounding and floats of any size.
* `rounds_ofInt` — whole numbers are rounded to 53 bits.
* `exists_isValue_ofInt` — what becomes of a whole number.
-/

namespace Terrain.Number

open Float.Model Float.Model.UnpackedFloat

variable {x : Float} {p exact rounded : ℚ} {low : Int}

/-- A float is whole if it is equal to a whole number. -/
theorem isWhole_iff : isWhole x ↔ ∃ n : ℤ, IsValue x n := by
  constructor
  · intro whole
    have finite : isFinite x := by
      unfold isWhole at whole
      unfold isFinite
      cases decoded : decode x with
      | finite negative mantissa exponent => rfl
      | _ =>
        rw [decoded] at whole
        cases whole
    obtain ⟨q, isValue⟩ := isFinite_iff.1 finite
    obtain ⟨n, rfl⟩ := isValue.isWhole_iff.1 whole
    exact ⟨n, isValue⟩
  · rintro ⟨n, isValue⟩
    exact isValue.isWhole_iff.2 ⟨n, rfl⟩

/-! ## Floats and faithful rounding -/

/-- A power of two that a number has reached, it has reached after rounding in its binade. -/
theorem Faithful.reaches_zpow (faithful : Faithful (low - 52) exact rounded)
    (reached : 2 ^ low ≤ |exact|) : 2 ^ low ≤ |rounded| := by
  have power : ((2 ^ 52 : ℕ) : ℚ) * 2 ^ (low - 52) = 2 ^ low := by
    rw [Nat.cast_pow, Nat.cast_ofNat, ← zpow_natCast, ← zpow_add₀ (by norm_num)]
    congr 1
    omega
  rw [← power] at reached ⊢
  exact faithful.reaches reached

/-- Rounding to the unit of the leading digit passes over no float at all: those below that digit are
farther away than the power of two that the number has reached. -/
theorem IsValue.order_of_faithful (isValue : IsValue x p) (faithful : Faithful (low - 52) exact rounded)
    (reached : 2 ^ low ≤ |exact|) : (p ≤ exact → p ≤ rounded) ∧ (exact ≤ p → rounded ≤ p) := by
  have power : (2 : ℚ) ^ low = ((2 ^ 52 : ℤ) : ℚ) * 2 ^ (low - 52) := by
    rw [Int.cast_pow, Int.cast_ofNat, ← zpow_natCast, ← zpow_add₀ (by norm_num)]
    congr 1
    omega
  rcases le_or_gt (2 ^ low) |p| with large | small
  · obtain ⟨k, rfl⟩ := isValue.exists_eq_mul large
    exact faithful k
  · obtain ⟨above, below⟩ := abs_lt.1 small
    rcases le_abs.1 reached with high | deep
    · -- the number is above all of these floats, and stays there
      have stays := (faithful (2 ^ 52)).1 (power ▸ high)
      rw [← power] at stays
      exact ⟨fun _ => below.le.trans stays, fun order => absurd (high.trans order) below.not_ge⟩
    · have opposite : exact ≤ ((-2 ^ 52 : ℤ) : ℚ) * 2 ^ (low - 52) := by
        rw [Int.cast_neg, neg_mul, ← power]
        linarith
      have stays := (faithful (-2 ^ 52)).2 opposite
      rw [Int.cast_neg, neg_mul, ← power] at stays
      exact ⟨fun order => by linarith, fun _ => stays.trans above.le⟩

/-! ## Conversions -/

theorem ofScientific_eq {n : Nat} (nonzero : n ≠ 0) : UnpackedFloat.ofScientific Format.binary64 n 0 =
    roundWithAccuracy Format.binary64 .positive (n <<< 53 * 10 ^ 0) (-53) .exact := by
  have high : ¬(0 : Int) > 2 ^ Format.binary64.exponentBits := not_lt.2 (pow_nonneg (by norm_num) _)
  have low : ¬(0 : Int) < -(2 ^ Format.binary64.exponentBits + (n.log2 : Int)) :=
    not_lt.2 (neg_nonpos.2 (add_nonneg (pow_nonneg (by norm_num) _) (Int.natCast_nonneg _)))
  have bits : Format.binary64.mantissaBits = 53 := by decide
  unfold UnpackedFloat.ofScientific
  rw [dif_neg nonzero, if_neg high, if_neg low, if_pos le_rfl]
  simp only [UnpackedFloat.mul, bits]
  rfl

/-- A whole number is rounded in its own binade. -/
theorem rounds_ofNat {n : Nat} (nonzero : n ≠ 0) (finite : n.log2 ≤ 1022) :
    Rounds (Float.ofNat n) (n.log2 - 52) n := by
  rcases lt_or_ge n (2 ^ 53) with small | large
  · exact ⟨n, isValue_ofNat small, .refl _ _⟩
  have digits : (n <<< 53 * 10 ^ 0).log2 = 52 + (n.log2 + 1) := by
    rw [Nat.pow_zero, Nat.mul_one, log2_shiftLeft (Nat.pos_of_ne_zero nonzero)]
    omega
  obtain ⟨mantissa, exponent, positive, rounded, bits, least, most, value⟩ :=
    @exists_roundWithAccuracy_eq_finite _ _ (-53) .exact digits (by omega) .positive
  have converted : Float.ofNat n = .ofModel (pack (.finite .positive mantissa exponent positive)) := by
    change Float.ofScientific n false 0 = _
    unfold Float.ofScientific
    rw [dif_neg (by omega), ← rounded]
    exact congrArg (fun unpacked => Float.ofModel (pack unpacked)) (ofScientific_eq nonzero)
  have isValue : IsValue (Float.ofNat n) ((mantissa : ℚ) * 2 ^ exponent) := by
    rw [converted]
    exact isValue_of_unpack_eq (unpack_pack_normal .positive positive bits (by omega) (by omega))
  have faithful := @faithful_roundedMantissa _ (n.log2 + 1) (-53) _ _ (approximates_exact (n <<< 53 * 10 ^ 0))
  have exact : ((n <<< 53 * 10 ^ 0 : Nat) : ℚ) * 2 ^ (-53 : Int) = n := by
    rw [Nat.pow_zero, Nat.mul_one, Nat.shiftLeft_eq]
    push_cast
    ring
  rw [← value, exact] at faithful
  refine ⟨_, isValue, ?_⟩
  convert faithful using 1
  omega

theorem rounds_ofInt {n : Int} (nonzero : n ≠ 0) (finite : n.natAbs.log2 ≤ 1022) :
    Rounds (Float.ofInt n) (n.natAbs.log2 - 52) n := by
  cases n with
  | ofNat n => exact rounds_ofNat (by simpa using nonzero) finite
  | negSucc n =>
    have rounds := @rounds_ofNat (n + 1) (by omega) finite
    have reached : (2 : ℚ) ^ ((n + 1).log2 - 52 : Int) ≤ |((n + 1 : Nat) : ℚ)| := by
      rw [Nat.abs_cast]
      calc (2 : ℚ) ^ ((n + 1).log2 - 52 : Int) ≤ 2 ^ ((n + 1).log2 : Int) :=
            zpow_le_zpow_right₀ (by norm_num) (by omega)
        _ ≤ ((n + 1 : Nat) : ℚ) := by
            rw [zpow_natCast]
            exact_mod_cast Nat.log2_self_le (Nat.succ_ne_zero n)
    have opposite := rounds.neg (.inr reached) (by omega)
    rwa [show ((Int.negSucc n : Int) : ℚ) = -((n + 1 : Nat) : ℚ) by rw [Int.cast_negSucc]]

/-- A whole number becomes a whole number, on the same side of every float. -/
theorem exists_isValue_ofInt {n : Int} (finite : n.natAbs.log2 ≤ 1022) :
    ∃ m : Int, IsValue (Float.ofInt n) m ∧ ∀ x p, IsValue x p →
      (p ≤ n → p ≤ m) ∧ (n ≤ p → (m : ℚ) ≤ p) := by
  rcases eq_or_ne n 0 with rfl | nonzero
  · exact ⟨0, isValue_ofInt (by decide), fun _ _ _ => ⟨id, id⟩⟩
  obtain ⟨rounded, isValue, faithful⟩ := rounds_ofInt nonzero finite
  have reached : (2 : ℚ) ^ (n.natAbs.log2 : Int) ≤ |(n : ℚ)| := by
    rw [← Int.cast_abs, Int.abs_eq_natAbs, zpow_natCast]
    exact_mod_cast Nat.log2_self_le (Int.natAbs_ne_zero.2 nonzero)
  have whole : ∃ m : ℤ, rounded = m := by
    rcases le_or_gt ((n.natAbs.log2 : Int) - 52) 0 with fine | coarse
    · exact ⟨n, faithful.eq_of_eq_intCast fine rfl⟩
    · obtain ⟨k, multiple⟩ := isValue.exists_eq_mul (faithful.reaches_zpow reached)
      obtain ⟨up, same⟩ := Int.eq_ofNat_of_zero_le coarse.le
      refine ⟨k * 2 ^ up, ?_⟩
      rw [multiple, same, zpow_natCast]
      push_cast
      rfl
  obtain ⟨m, rfl⟩ := whole
  exact ⟨m, isValue, fun _ _ float => float.order_of_faithful faithful reached⟩

end Terrain.Number
