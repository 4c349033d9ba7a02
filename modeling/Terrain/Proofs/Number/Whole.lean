import Mathlib
import Terrain.Number.Rounding

/-!
# Floats that are whole numbers

A whole number of at most 53 bits has an exact float. So long as nothing leaves that range, sums and
products by one are exact too, and every rounding gives the number back.

* `decode_eq` — the bits of a float against its unpacked form.
* `IsWholeFloat` — a float that stands for a whole number.
* `isWholeFloat_ofInt`, `IsWholeFloat.mul_one`, `IsWholeFloat.add` — exact floats.
* `IsWholeFloat.floorTo`, `IsWholeFloat.ceilTo`, `IsWholeFloat.truncateTo` — back to numbers.
-/

namespace Terrain.Number

open Float.Model Float.Model.UnpackedFloat

/-! ## Bits and unpacked floats -/

def isNegative : Sign → Bool
  | .negative => true
  | .positive => false

def Binary.ofUnpacked : UnpackedFloat → Binary
  | .notANumber => .nan
  | .infinity sign => .infinite (isNegative sign)
  | .zero sign => .finite (isNegative sign) 0 leastExponent
  | .finite sign mantissa exponent _ => .finite (isNegative sign) mantissa exponent

theorem toNat_unpackExponent (bits : UInt64) :
    (@unpackExponent Format.binary64 bits.toBitVec).toNat = ((bits >>> 52) &&& 0x7ff).toNat := by
  have mask : (0x7ff : Nat) = 2 ^ 11 - 1 := by decide
  simp only [unpackExponent, BitVec.toNat_cast, BitVec.extractLsb_toNat, UInt64.toNat_and,
    UInt64.toNat_shiftRight, UInt64.reduceToNat, UInt64.toNat_toBitVec, mask,
    Nat.and_two_pow_sub_one_eq_mod]

theorem toNat_unpackMantissa (bits : UInt64) :
    (@unpackMantissa Format.binary64 bits.toBitVec).toNat = (bits &&& 0xfffffffffffff).toNat := by
  have mask : (0xfffffffffffff : Nat) = 2 ^ 52 - 1 := by decide
  simp only [unpackMantissa, BitVec.toNat_cast, BitVec.extractLsb_toNat, UInt64.toNat_and,
    UInt64.reduceToNat, UInt64.toNat_toBitVec, mask, Nat.and_two_pow_sub_one_eq_mod,
    Nat.shiftRight_zero]

theorem toNat_unpackSign (bits : UInt64) :
    (@unpackSign Format.binary64 bits.toBitVec).toNat = (bits >>> 63).toNat := by
  have bound := bits.toNat_lt
  simp only [unpackSign, BitVec.toNat_cast, BitVec.extractLsb_toNat, UInt64.reduceToNat,
    UInt64.toNat_toBitVec, UInt64.toNat_shiftRight, Nat.shiftRight_eq_div_pow, Nat.reduceMod,
    Nat.reduceAdd, Nat.reduceSub, Nat.reducePow]
  omega

theorem isNegative_unpackSign (bits : UInt64) :
    isNegative (Sign.ofBitVec (@unpackSign Format.binary64 bits.toBitVec)) =
      (bits >>> 63 != 0) := by
  have same := toNat_unpackSign bits
  unfold Sign.ofBitVec
  by_cases clear : bits >>> 63 = 0
  · have zero : @unpackSign Format.binary64 bits.toBitVec = 0#1 := by
      apply BitVec.eq_of_toNat_eq
      rw [same, clear]
      rfl
    rw [if_pos zero, clear]
    rfl
  · have one : @unpackSign Format.binary64 bits.toBitVec ≠ 0#1 := by
      intro zero
      rw [zero] at same
      exact clear (UInt64.toNat_inj.1 same.symm)
    rw [if_neg one, bne_iff_ne.2 clear]
    rfl

theorem toNat_append_one {width : Nat} (mantissa : BitVec width) :
    (1#1 ++ mantissa).toNat = mantissa.toNat + 2 ^ width := by
  rw [BitVec.toNat_append, ← Nat.shiftLeft_add_eq_or_of_lt mantissa.isLt, Nat.shiftLeft_eq]
  simp
  omega

theorem decode_eq (x : Float) : decode x = .ofUnpacked x.toModel.unpack := by
  have exponent := toNat_unpackExponent x.toBits
  have mantissa := toNat_unpackMantissa x.toBits
  change decode x = .ofUnpacked (UnpackedFloat.unpack Format.binary64 x.toBits.toBitVec)
  unfold decode UnpackedFloat.unpack
  dsimp only
  rw [← exponent, ← mantissa, ← isNegative_unpackSign]
  have full : (@unpackExponent Format.binary64 x.toBits.toBitVec = -1#11) ↔
      (@unpackExponent Format.binary64 x.toBits.toBitVec).toNat = 0x7ff := by
    rw [← BitVec.toNat_inj]
    rfl
  have least : (@unpackExponent Format.binary64 x.toBits.toBitVec = 0#11) ↔
      (@unpackExponent Format.binary64 x.toBits.toBitVec).toNat = 0 := by
    rw [← BitVec.toNat_inj]
    rfl
  have none : (@unpackMantissa Format.binary64 x.toBits.toBitVec = 0#52) ↔
      (@unpackMantissa Format.binary64 x.toBits.toBitVec).toNat = 0 := by
    rw [← BitVec.toNat_inj]
    rfl
  simp only [full, least, none]
  split
  · split <;> rfl
  · split
    case isTrue low =>
      split
      case isTrue zero => simp [Binary.ofUnpacked, zero]
      case isFalse => simp [Binary.ofUnpacked, low, leastExponent, Format.exponentBias]
    case isFalse =>
      simp only [Binary.ofUnpacked, toNat_append_one]
      congr 1
      simp [leastExponent, Format.exponentBias]
      omega

/-! ## Rounding -/

theorem extendedMantissa_shiftRight (mantissa count : Nat) :
    (⟨mantissa <<< count, false, false⟩ : ExtendedMantissa) >>> count =
      ⟨mantissa, false, false⟩ := by
  change Nat.repeat ExtendedMantissa.shiftRightOne count _ = _
  induction count generalizing mantissa with
  | zero => rfl
  | succ count ih =>
    have even : mantissa <<< (count + 1) = (mantissa * 2) <<< count := by
      rw [Nat.shiftLeft_eq, Nat.shiftLeft_eq, Nat.pow_succ', Nat.mul_assoc]
    change ExtendedMantissa.shiftRightOne (Nat.repeat ExtendedMantissa.shiftRightOne count _) = _
    rw [even, ih]
    simp [ExtendedMantissa.shiftRightOne]

theorem log2_shiftLeft {mantissa : Nat} (positive : 0 < mantissa) (count : Nat) :
    (mantissa <<< count).log2 = mantissa.log2 + count := by
  induction count with
  | zero => rfl
  | succ count ih =>
    have doubled : mantissa <<< (count + 1) = 2 * (mantissa <<< count) := by
      rw [Nat.shiftLeft_eq, Nat.shiftLeft_eq, Nat.pow_succ]
      ac_rfl
    have nonzero : mantissa <<< count ≠ 0 := by
      rw [Nat.shiftLeft_eq]
      exact Nat.mul_ne_zero (Nat.ne_of_gt positive) (Nat.ne_of_gt (Nat.two_pow_pos count))
    rw [doubled, Nat.log2_two_mul nonzero, ih]
    rfl

theorem targetExponent_of_log2 {mantissa : Nat} {exponent : Int} {extra : Nat}
    (digits : mantissa.log2 = 52 + extra) (normal : leastExponent ≤ exponent) :
    Format.binary64.targetExponent (totalExponent mantissa (exponent - extra)) = exponent := by
  simp only [Format.targetExponent, totalExponent, Format.mantissaBits, Format.minExponent, digits]
  simp only [leastExponent] at normal
  omega

theorem shiftToTargetExponent_shiftLeft {mantissa : Nat} {exponent : Int}
    (digits : mantissa.log2 = 52) (normal : leastExponent ≤ exponent) (extra : Nat) :
    shiftToTargetExponent Format.binary64 (mantissa <<< extra) (exponent - extra) .exact =
      (⟨mantissa, false, false⟩, exponent) := by
  have positive : 0 < mantissa := by
    rcases Nat.eq_zero_or_pos mantissa with rfl | positive
    · cases digits
    · exact positive
  have total : (mantissa <<< extra).log2 = 52 + extra := by rw [log2_shiftLeft positive, digits]
  have count : (exponent - (exponent - (extra : Int))).toNat = extra := by omega
  unfold shiftToTargetExponent shiftToExponent
  dsimp only
  rw [targetExponent_of_log2 total normal, count]
  refine Prod.ext (extendedMantissa_shiftRight mantissa extra) ?_
  change exponent - extra + extra = exponent
  omega

/-- Bits that were only shifted in are rounded away again without loss. -/
theorem roundWithAccuracy_shiftLeft (sign : Sign) {mantissa : Nat} {exponent : Int}
    (positive : 0 < mantissa) (digits : mantissa.log2 = 52) (normal : leastExponent ≤ exponent)
    (extra : Nat) :
    roundWithAccuracy Format.binary64 sign (mantissa <<< extra) (exponent - extra) .exact =
      .finite sign mantissa exponent positive := by
  have again := shiftToTargetExponent_shiftLeft digits normal 0
  rw [Nat.shiftLeft_zero, Int.ofNat_zero, Int.sub_zero] at again
  have rounded : ExtendedMantissa.roundedMantissa ⟨mantissa, false, false⟩ = mantissa := rfl
  simp only [roundWithAccuracy, shiftToTargetExponent_shiftLeft digits normal extra, rounded, again,
    Nat.ne_of_gt positive, dite_false]

/-! ## Whole numbers -/

/-- Sign of a whole number; zero counts as positive. -/
def signOf (n : Int) : Sign := if n < 0 then .negative else .positive

def wholeMantissa (n : Int) : Nat := n.natAbs <<< (52 - n.natAbs.log2)

def wholeExponent (n : Int) : Int := (n.natAbs.log2 : Int) - 52

theorem wholeMantissa_pos {n : Int} (nonzero : n ≠ 0) : 0 < wholeMantissa n := by
  rw [wholeMantissa, Nat.shiftLeft_eq]
  exact Nat.mul_pos (Int.natAbs_pos.2 nonzero) (Nat.two_pow_pos _)

/-- The unpacked form of a whole number of at most 53 bits. -/
def unpackedWhole (n : Int) : UnpackedFloat :=
  if nonzero : n ≠ 0 then
    .finite (signOf n) (wholeMantissa n) (wholeExponent n) (wholeMantissa_pos nonzero)
  else .zero .positive

def Small (n : Int) : Prop := n.natAbs < 2 ^ 53

theorem Small.log2_le {n : Int} (small : Small n) (nonzero : n ≠ 0) : n.natAbs.log2 ≤ 52 := by
  have less := (Nat.log2_lt (Int.natAbs_ne_zero.2 nonzero)).2 small
  omega

theorem Small.log2_wholeMantissa {n : Int} (small : Small n) (nonzero : n ≠ 0) :
    (wholeMantissa n).log2 = 52 := by
  have digits := small.log2_le nonzero
  rw [wholeMantissa, log2_shiftLeft (Int.natAbs_pos.2 nonzero)]
  omega

theorem le_wholeExponent (n : Int) : leastExponent ≤ wholeExponent n := by
  simp only [leastExponent, wholeExponent]
  omega

/-- A magnitude shifted to the left is rounded to the 53-bit mantissa. -/
theorem roundWithAccuracy_natAbs {n : Int} (small : Small n) (nonzero : n ≠ 0) (sign : Sign)
    {extra : Nat} (enough : 52 ≤ n.natAbs.log2 + extra) :
    roundWithAccuracy Format.binary64 sign (n.natAbs <<< extra) (-(extra : Int)) .exact =
      .finite sign (wholeMantissa n) (wholeExponent n) (wholeMantissa_pos nonzero) := by
  have digits := small.log2_le nonzero
  have rest := roundWithAccuracy_shiftLeft sign (wholeMantissa_pos nonzero)
    (small.log2_wholeMantissa nonzero) (le_wholeExponent n) (n.natAbs.log2 + extra - 52)
  have mantissa : wholeMantissa n <<< (n.natAbs.log2 + extra - 52) = n.natAbs <<< extra := by
    rw [wholeMantissa, ← Nat.shiftLeft_add]
    congr 1
    omega
  have exponent :
      wholeExponent n - ((n.natAbs.log2 + extra - 52 : Nat) : Int) = -(extra : Int) := by
    simp only [wholeExponent]
    omega
  rwa [mantissa, exponent] at rest

theorem round_natAbs {n : Int} (small : Small n) (nonzero : n ≠ 0) (sign : Sign) {extra : Nat} :
    UnpackedFloat.round Format.binary64 sign (n.natAbs <<< extra) (-(extra : Int)) =
      .finite sign (wholeMantissa n) (wholeExponent n) (wholeMantissa_pos nonzero) := by
  have digits := small.log2_le nonzero
  have positive := Int.natAbs_pos.2 nonzero
  have target : Format.binary64.targetExponent
      (totalExponent (n.natAbs <<< extra) (-(extra : Int))) = wholeExponent n := by
    simp only [Format.targetExponent, totalExponent, Format.mantissaBits, Format.minExponent,
      log2_shiftLeft positive, wholeExponent]
    omega
  unfold UnpackedFloat.round
  dsimp only [decreaseExponent]
  rw [target]
  have count : (n.natAbs <<< extra) <<< (-(extra : Int) - wholeExponent n).toNat =
      n.natAbs <<< (extra + (-(extra : Int) - wholeExponent n).toNat) :=
    (Nat.shiftLeft_add _ _ _).symm
  have exponent : -(extra : Int) - ((-(extra : Int) - wholeExponent n).toNat : Int) =
      -((extra + (-(extra : Int) - wholeExponent n).toNat : Nat) : Int) := by omega
  rw [count, exponent]
  refine roundWithAccuracy_natAbs small nonzero sign ?_
  simp only [wholeExponent]
  omega

/-- A whole number, given with a power of two that it is divided by again, is normalized exactly. -/
theorem normalize_shiftLeft {n : Int} (small : Small n) (extra : Nat) :
    UnpackedFloat.normalize Format.binary64 (n * 2 ^ extra) (-(extra : Int)) .positive =
      unpackedWhole n := by
  have power : (0 : Int) < 2 ^ extra := Int.pow_pos (by decide)
  unfold UnpackedFloat.normalize unpackedWhole signOf
  rcases Int.lt_trichotomy n 0 with negative | rfl | positive
  · have nonzero : n ≠ 0 := by omega
    have less : n * 2 ^ extra < 0 := Int.mul_neg_of_neg_of_pos negative power
    have magnitude : (-(n * 2 ^ extra)).toNat = n.natAbs <<< extra := by
      rw [Nat.shiftLeft_eq, ← Int.neg_mul]
      have same : -n = (n.natAbs : Int) := by omega
      rw [same]
      norm_cast
    rw [Int.compare_eq_lt.2 less, dif_pos nonzero, if_pos negative]
    dsimp only
    rw [magnitude]
    exact round_natAbs small nonzero .negative
  · simp
  · have nonzero : n ≠ 0 := by omega
    have greater : 0 < n * 2 ^ extra := Int.mul_pos positive power
    have magnitude : (n * 2 ^ extra).toNat = n.natAbs <<< extra := by
      rw [Nat.shiftLeft_eq]
      have same : n = (n.natAbs : Int) := by omega
      rw [same]
      norm_cast
    rw [Int.compare_eq_gt.2 greater, dif_pos nonzero, if_neg (by omega)]
    dsimp only
    rw [magnitude]
    exact round_natAbs small nonzero .positive

/-! ## Packing -/

theorem unpackSign_packComponents {spec : Format} {sign : Sign}
    {exponent : BitVec spec.exponentBits} {mantissa : BitVec spec.mantissaBitsWithoutImplicit} :
    unpackSign (packComponents spec sign exponent mantissa) = sign.toBitVec := by
  ext index less
  have only : index = 0 := Nat.lt_one_iff.1 less
  simp [only, unpackSign, packComponents, BitVec.getLsbD_append, BitVec.getElem_append]

theorem ofBitVec_toBitVec (sign : Sign) : Sign.ofBitVec sign.toBitVec = sign := by
  cases sign <;> rfl

theorem unpack_pack_zero (sign : Sign) : (pack (.zero sign)).unpack = .zero sign := by
  cases sign <;> rfl

/-- A float with a mantissa of 53 bits and an exponent in range is packed without loss. -/
theorem unpack_pack_normal (sign : Sign) {mantissa : Nat} {exponent : Int} (positive : 0 < mantissa)
    (digits : mantissa.log2 = 52) (low : -1074 ≤ exponent) (high : exponent ≤ 971) :
    (pack (.finite sign mantissa exponent positive)).unpack =
      .finite sign mantissa exponent positive := by
  obtain ⟨least, most⟩ := (Nat.log2_eq_iff (Nat.ne_of_gt positive)).1 digits
  have biased : exponent + ((1023 : Nat) : Int) + ((52 : Nat) : Int) =
      ((exponent + 1075).toNat : Int) := by omega
  have field : (BitVec.ofNat 11 (exponent + 1075).toNat).toNat = (exponent + 1075).toNat := by
    rw [BitVec.toNat_ofNat, Nat.mod_eq_of_lt (by omega)]
  have notFull : BitVec.ofNat 11 (exponent + 1075).toNat ≠ -1#11 := by
    intro full
    have value := congrArg BitVec.toNat full
    rw [field] at value
    change _ = 2047 at value
    omega
  have notLeast : BitVec.ofNat 11 (exponent + 1075).toNat ≠ 0#11 := by
    intro none
    have value := congrArg BitVec.toNat none
    rw [field] at value
    change _ = 0 at value
    omega
  have packed : UnpackedFloat.pack Format.binary64 (.finite sign mantissa exponent positive) =
      packComponents Format.binary64 sign (BitVec.ofNat 11 (exponent + 1075).toNat)
        (BitVec.ofNat 52 mantissa) := by
    have bias : Format.binary64.exponentBias = 1023 := by decide
    have bits : Format.binary64.mantissaBits = 53 := by decide
    simp only [UnpackedFloat.pack, bias, bits, digits, biased, Int.toNat_natCast]
    rw [if_neg (by omega), if_pos trivial]
  change UnpackedFloat.unpack Format.binary64 (UnpackedFloat.pack Format.binary64 _) = _
  rw [packed]
  unfold UnpackedFloat.unpack
  simp only [unpackExponent_packComponents, unpackMantissa_packComponents,
    unpackSign_packComponents, ofBitVec_toBitVec]
  rw [if_neg notFull, if_neg notLeast]
  congr 1
  · rw [toNat_append_one, BitVec.toNat_ofNat]
    omega
  · rw [field]
    have bias : Format.binary64.exponentBias = 1023 := by decide
    simp only [bias]
    omega

theorem unpack_pack_unpackedWhole {n : Int} (small : Small n) :
    (pack (unpackedWhole n)).unpack = unpackedWhole n := by
  unfold unpackedWhole
  split
  case isTrue nonzero =>
    have digits := small.log2_le nonzero
    refine unpack_pack_normal _ _ (small.log2_wholeMantissa nonzero) ?_ ?_
    all_goals
      simp only [wholeExponent]
      omega
  case isFalse => exact unpack_pack_zero _

/-! ## Exact arithmetic -/

theorem neg_unpackedWhole {n : Int} (nonzero : n ≠ 0) : (unpackedWhole n).neg = unpackedWhole (-n) := by
  have sign : -signOf n = signOf (-n) := by
    unfold signOf
    split <;> split <;> first | rfl | omega
  unfold unpackedWhole
  rw [dif_pos nonzero, dif_pos (by omega)]
  simp only [UnpackedFloat.neg, sign, wholeMantissa, wholeExponent, Int.natAbs_neg]

theorem apply_decreaseExponent {n : Int} (small : Small n) (nonzero : n ≠ 0) {least : Int}
    (below : least ≤ wholeExponent n) :
    (signOf n).apply ((decreaseExponent (wholeMantissa n) (wholeExponent n) least).1 : Int) =
      n * 2 ^ (-least).toNat := by
  have digits := small.log2_le nonzero
  have count : 52 - n.natAbs.log2 + (wholeExponent n - least).toNat = (-least).toNat := by
    simp only [wholeExponent] at below ⊢
    omega
  have magnitude : (decreaseExponent (wholeMantissa n) (wholeExponent n) least).1 =
      n.natAbs * 2 ^ (-least).toNat := by
    simp only [decreaseExponent, wholeMantissa]
    rw [← Nat.shiftLeft_add, count, Nat.shiftLeft_eq]
  rw [magnitude, Int.natCast_mul, Int.natCast_pow]
  unfold signOf
  split
  case isTrue negative =>
    have same : (n.natAbs : Int) = -n := by omega
    rw [same, Sign.apply, Int.neg_mul, Int.neg_neg]
    rfl
  case isFalse =>
    have same : (n.natAbs : Int) = n := by omega
    rw [same, Sign.apply]
    rfl

theorem add_unpackedWhole {n m : Int} (smallN : Small n) (smallM : Small m) (small : Small (n + m)) :
    UnpackedFloat.add Format.binary64 (unpackedWhole n) (unpackedWhole m) = unpackedWhole (n + m) := by
  by_cases nonzeroN : n = 0
  · subst nonzeroN
    rw [Int.zero_add]
    by_cases nonzeroM : m = 0
    · subst nonzeroM
      rfl
    · simp only [unpackedWhole, dif_pos nonzeroM]
      rfl
  by_cases nonzeroM : m = 0
  · subst nonzeroM
    rw [Int.add_zero]
    simp only [unpackedWhole, dif_pos nonzeroN]
    rfl
  -- both mantissas are brought to the smaller exponent, where the sum is one of whole numbers
  have least : min (wholeExponent n) (wholeExponent m) =
      -((-min (wholeExponent n) (wholeExponent m)).toNat : Int) := by
    have digits := smallN.log2_le nonzeroN
    simp only [wholeExponent]
    omega
  simp only [unpackedWhole, dif_pos nonzeroN, dif_pos nonzeroM, UnpackedFloat.add]
  rw [apply_decreaseExponent smallN nonzeroN (Int.min_le_left _ _),
    apply_decreaseExponent smallM nonzeroM (Int.min_le_right _ _), ← Int.add_mul]
  have normal := normalize_shiftLeft small (-min (wholeExponent n) (wholeExponent m)).toNat
  rwa [← least] at normal

/-- A difference is a sum with the opposite. -/
theorem sub_eq_add_opposite (format : Format) (a b : UnpackedFloat) :
    UnpackedFloat.sub format a b = UnpackedFloat.add format a b.neg := by
  cases a <;> cases b <;> try rfl
  case finite.finite sign' _ _ _ =>
    simp only [UnpackedFloat.sub, UnpackedFloat.add, UnpackedFloat.neg]
    cases sign' with
    | negative => exact congrArg (UnpackedFloat.normalize format · _ _) (Int.sub_neg _ _)
    | positive => exact congrArg (UnpackedFloat.normalize format · _ _) Int.sub_eq_add_neg

theorem sub_unpackedWhole {n m : Int} (smallN : Small n) (smallM : Small m) (small : Small (n - m))
    (nonzero : m ≠ 0) :
    UnpackedFloat.sub Format.binary64 (unpackedWhole n) (unpackedWhole m) = unpackedWhole (n - m) := by
  have opposite : Small (-m) := by
    unfold Small at *
    omega
  rw [sub_eq_add_opposite, neg_unpackedWhole nonzero, add_unpackedWhole smallN opposite small]
  rfl

/-- A float that stands for a whole number of at most 53 bits. -/
def IsWholeFloat (x : Float) (n : Int) : Prop := Small n ∧ x.toModel.unpack = unpackedWhole n

theorem isWholeFloat_pack {n : Int} (small : Small n) :
    IsWholeFloat (.ofModel (pack (unpackedWhole n))) n :=
  ⟨small, unpack_pack_unpackedWhole small⟩

namespace IsWholeFloat

variable {x y : Float} {n m : Int}

theorem mul_one (whole : IsWholeFloat x n) : IsWholeFloat (x * 1.0) n := by
  obtain ⟨small, unpacked⟩ := whole
  have one : (1.0 : Float).toModel.unpack = .finite .positive (2 ^ 52) (-52) (by decide) := rfl
  have product : UnpackedFloat.mul Format.binary64 x.toModel.unpack (1.0 : Float).toModel.unpack =
      unpackedWhole n := by
    rw [unpacked, one]
    unfold unpackedWhole
    split
    case isTrue nonzero =>
      have sign : signOf n * Sign.positive = signOf n := by cases signOf n <;> rfl
      simp only [UnpackedFloat.mul]
      rw [sign, ← Nat.shiftLeft_eq]
      exact roundWithAccuracy_shiftLeft _ _ (small.log2_wholeMantissa nonzero)
        (le_wholeExponent n) 52
    case isFalse => rfl
  change IsWholeFloat (.ofModel (pack (UnpackedFloat.mul Format.binary64 x.toModel.unpack
    (1.0 : Float).toModel.unpack))) n
  rw [product]
  exact isWholeFloat_pack small

theorem neg (whole : IsWholeFloat x n) (nonzero : n ≠ 0) : IsWholeFloat (-x) (-n) := by
  obtain ⟨small, unpacked⟩ := whole
  have small' : Small (-n) := by
    unfold Small at *
    omega
  change IsWholeFloat (.ofModel (pack x.toModel.unpack.neg)) (-n)
  rw [unpacked, neg_unpackedWhole nonzero]
  exact isWholeFloat_pack small'

theorem add (whole : IsWholeFloat x n) (whole' : IsWholeFloat y m) (small : Small (n + m)) :
    IsWholeFloat (x + y) (n + m) := by
  obtain ⟨smallN, unpackedN⟩ := whole
  obtain ⟨smallM, unpackedM⟩ := whole'
  change IsWholeFloat (.ofModel (pack (UnpackedFloat.add Format.binary64 x.toModel.unpack
    y.toModel.unpack))) _
  rw [unpackedN, unpackedM, add_unpackedWhole smallN smallM small]
  exact isWholeFloat_pack small

/-- A whole number has no fraction to round. -/
theorem narrowBy {whole : Bool → Nat → Int → Int} {low high : Int} (isWhole : IsWholeFloat x n)
    (exact : ∀ (sign : Sign) (mantissa count : Nat),
      whole (isNegative sign) (mantissa <<< count) (-(count : Int)) = sign.apply mantissa)
    (above : low ≤ n) (below : n ≤ high) : narrowBy whole low high x = n := by
  obtain ⟨small, unpacked⟩ := isWhole
  unfold Number.narrowBy
  rw [decode_eq, unpacked]
  unfold unpackedWhole
  by_cases nonzero : n = 0
  · rw [dif_neg (by simpa using nonzero)]
    have zero := exact .positive 0 1074
    rw [Nat.zero_shiftLeft] at zero
    have value : whole (isNegative .positive) 0 leastExponent = 0 := zero
    simp only [Binary.ofUnpacked]
    rw [value, nonzero, clampInt_of_mem (by omega) (by omega)]
  · have digits := small.log2_le nonzero
    have exponent : wholeExponent n = -((52 - n.natAbs.log2 : Nat) : Int) := by
      simp only [wholeExponent]
      omega
    have value : (signOf n).apply n.natAbs = n := by
      unfold signOf
      split <;> simp only [Sign.apply] <;> omega
    rw [dif_pos nonzero]
    simp only [Binary.ofUnpacked]
    rw [exponent, wholeMantissa, exact, value, clampInt_of_mem above below]

end IsWholeFloat

theorem isWholeFloat_ofNat {n : Nat} (small : n < 2 ^ 53) : IsWholeFloat (Float.ofNat n) n := by
  have word : n.toUInt64.toNat = n := by
    rw [Nat.toUInt64, UInt64.toNat_ofNat']
    omega
  have exact' : Float.ofNat n = n.toUInt64.toFloat * 1.0 := by
    change Float.ofScientific n false 0 = _
    unfold Float.ofScientific
    rw [dif_pos ⟨small, by decide⟩]
    rfl
  have converted : n.toUInt64.toFloat = .ofModel (pack (unpackedWhole n)) := by
    change Float.ofModel
      (pack (UnpackedFloat.normalize Format.binary64 (n.toUInt64.toNat : Int) 0 .positive)) = _
    have normal := normalize_shiftLeft (n := n) (by simpa [Small] using small) 0
    rw [word]
    rw [Int.pow_zero, Int.mul_one] at normal
    exact congrArg (fun unpacked => Float.ofModel (pack unpacked)) normal
  rw [exact', converted]
  exact (isWholeFloat_pack (by simpa [Small] using small)).mul_one

theorem isWholeFloat_ofInt {n : Int} (small : Small n) : IsWholeFloat (Float.ofInt n) n := by
  cases n with
  | ofNat n => exact isWholeFloat_ofNat (by simpa [Small] using small)
  | negSucc n =>
    have magnitude : n + 1 < 2 ^ 53 := small
    exact (isWholeFloat_ofNat magnitude).neg (by omega)

theorem wholePart_shiftLeft (mantissa count : Nat) :
    wholePart (mantissa <<< count) (-(count : Int)) = (mantissa, false) := by
  cases count with
  | zero => rfl
  | succ count =>
    change wholePart (mantissa <<< (count + 1)) (Int.negSucc count) = _
    simp only [wholePart, Nat.shiftLeft_shiftRight, bne_self_eq_false]

theorem floorWhole_shiftLeft (sign : Sign) (mantissa count : Nat) :
    floorWhole (isNegative sign) (mantissa <<< count) (-(count : Int)) = sign.apply mantissa := by
  unfold floorWhole
  rw [wholePart_shiftLeft]
  cases sign <;> simp [isNegative, Sign.apply]

theorem ceilWhole_shiftLeft (sign : Sign) (mantissa count : Nat) :
    ceilWhole (isNegative sign) (mantissa <<< count) (-(count : Int)) = sign.apply mantissa := by
  unfold ceilWhole floorWhole
  rw [wholePart_shiftLeft]
  cases sign <;> simp [isNegative, Sign.apply]

theorem truncateWhole_shiftLeft (sign : Sign) (mantissa count : Nat) :
    truncateWhole (isNegative sign) (mantissa <<< count) (-(count : Int)) =
      sign.apply mantissa := by
  unfold truncateWhole
  rw [wholePart_shiftLeft]
  cases sign <;> simp [isNegative, Sign.apply]

namespace IsWholeFloat

variable {x : Float} {n low high : Int}

theorem floorTo (isWhole : IsWholeFloat x n) (above : low ≤ n) (below : n ≤ high) :
    floorTo low high x = n :=
  isWhole.narrowBy floorWhole_shiftLeft above below

theorem ceilTo (isWhole : IsWholeFloat x n) (above : low ≤ n) (below : n ≤ high) :
    ceilTo low high x = n :=
  isWhole.narrowBy ceilWhole_shiftLeft above below

theorem truncateTo (isWhole : IsWholeFloat x n) (above : low ≤ n) (below : n ≤ high) :
    truncateTo low high x = n :=
  isWhole.narrowBy truncateWhole_shiftLeft above below

end IsWholeFloat

end Terrain.Number
