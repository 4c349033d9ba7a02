import Terrain.Number.Binary

/-!
# Rounding to whole numbers

Floors, ceilings, truncations and rounding of floats, computed on the exact binary value. Narrowing
into an integer range saturates at both ends and sends not-a-number to zero, so it is total.

* `truncateTo` — toward zero, then into `[low, high]`.
* `floorTo` — toward negative infinity, then into `[low, high]`.
* `floor`, `ceil`, `round` — the same roundings with a float as result; a zero keeps the sign.
-/

namespace Terrain.Number

/-! ## Exact whole parts -/

/-- `mantissa · 2 ^ exponent` without its fraction, and whether a fraction was dropped. -/
def wholePart (mantissa : Nat) (exponent : Int) : Nat × Bool :=
  match exponent with
  | .ofNat up => (mantissa <<< up, false)
  | .negSucc down =>
    let whole := mantissa >>> (down + 1)
    (whole, whole <<< (down + 1) != mantissa)

/-- Largest whole number not above `± mantissa · 2 ^ exponent`. -/
def floorWhole (negative : Bool) (mantissa : Nat) (exponent : Int) : Int :=
  let (whole, cut) := wholePart mantissa exponent
  if negative then -((whole : Int) + if cut then 1 else 0) else whole

/-- Smallest whole number not below `± mantissa · 2 ^ exponent`. -/
def ceilWhole (negative : Bool) (mantissa : Nat) (exponent : Int) : Int :=
  -floorWhole (!negative) mantissa exponent

/-- The whole part of `± mantissa · 2 ^ exponent`, toward zero. -/
def truncateWhole (negative : Bool) (mantissa : Nat) (exponent : Int) : Int :=
  let (whole, _) := wholePart mantissa exponent
  if negative then -(whole : Int) else whole

/-- Nearest whole number to `± mantissa · 2 ^ exponent`; a half goes away from zero. -/
def roundWhole (negative : Bool) (mantissa : Nat) (exponent : Int) : Int :=
  let (halves, _) := wholePart mantissa (exponent + 1)
  let nearest := (halves + 1) / 2
  if negative then -(nearest : Int) else nearest

/-! ## Narrowing into an integer range -/

/-- Moves `value` to the nearest end of `[low, high]` when it lies outside. -/
def clampInt (low high value : Int) : Int :=
  if value < low then low else if high < value then high else value

/-- Narrows a rounded float: infinities go to the ends, not-a-number to zero. -/
def narrowBy (whole : Bool → Nat → Int → Int) (low high : Int) (x : Float) : Int :=
  match decode x with
  | .nan => 0
  | .infinite negative => if negative then low else high
  | .finite negative mantissa exponent => clampInt low high (whole negative mantissa exponent)

/-- Truncates toward zero and saturates into `[low, high]`. -/
def truncateTo (low high : Int) (x : Float) : Int := narrowBy truncateWhole low high x

/-- Rounds toward negative infinity and saturates into `[low, high]`. -/
def floorTo (low high : Int) (x : Float) : Int := narrowBy floorWhole low high x

/-- Rounds toward positive infinity and saturates into `[low, high]`. -/
def ceilTo (low high : Int) (x : Float) : Int := narrowBy ceilWhole low high x

/-! ## Rounding with a float as result -/

/-- A whole number as a float that takes the given sign when it is zero. -/
def ofWhole (negative : Bool) (whole : Int) : Float :=
  if whole = 0 then (if negative then -0.0 else 0.0) else Float.ofInt whole

/-- Applies an exact rounding; a float without fraction bits is already whole. -/
def roundBy (whole : Bool → Nat → Int → Int) (x : Float) : Float :=
  match decode x with
  | .finite negative mantissa exponent =>
    if exponent < 0 then ofWhole negative (whole negative mantissa exponent) else x
  | _ => x

/-- Rounds toward negative infinity. -/
def floor (x : Float) : Float := roundBy floorWhole x

/-- Rounds toward positive infinity. -/
def ceil (x : Float) : Float := roundBy ceilWhole x

/-- Rounds to the nearest whole number, halves away from zero. -/
def round (x : Float) : Float := roundBy roundWhole x

/-- Finite and without a fraction. -/
def isWhole (x : Float) : Bool :=
  match decode x with
  | .finite _ mantissa exponent => !(wholePart mantissa exponent).2
  | _ => false

/-! ## Bounds on narrowed values -/

theorem clampInt_mem (low high value : Int) (ordered : low ≤ high) :
    low ≤ clampInt low high value ∧ clampInt low high value ≤ high := by
  unfold clampInt
  split
  · exact ⟨Int.le_refl _, ordered⟩
  · split
    · exact ⟨ordered, Int.le_refl _⟩
    · omega

theorem clampInt_of_mem {low high value : Int} (above : low ≤ value) (below : value ≤ high) :
    clampInt low high value = value := by
  unfold clampInt
  split
  · omega
  · split <;> omega

/-- A narrowed float lies in the range it was narrowed to, whatever the float. -/
theorem narrowBy_mem (whole : Bool → Nat → Int → Int) (low high : Int) (x : Float)
    (low_nonpos : low ≤ 0) (high_nonneg : 0 ≤ high) :
    low ≤ narrowBy whole low high x ∧ narrowBy whole low high x ≤ high := by
  unfold narrowBy
  split
  · exact ⟨low_nonpos, high_nonneg⟩
  · split <;> omega
  · exact clampInt_mem low high _ (by omega)

end Terrain.Number
