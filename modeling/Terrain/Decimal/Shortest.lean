import Terrain.Number.Binary

/-!
# Shortest decimal digits

A float stands for every real number that rounds to it. `shortest` picks the decimal with the fewest
digits among them and, of those, the one nearest to the float itself. All comparisons are between
whole numbers.

* `Digits` — `digits · 10 ^ exponent`, without trailing zeros.
* `Neighbourhood` — a float together with the ends of the interval that rounds to it.
* `shortest` — the digits of a positive binary value.
-/

namespace Terrain.Decimal

/-- The decimal `digits · 10 ^ exponent`. -/
structure Digits where
  digits : Nat
  exponent : Int
  deriving Repr, DecidableEq

/-- Removes trailing zeros, at most `fuel` of them. -/
def Digits.strip (fuel : Nat) (decimal : Digits) : Digits :=
  match fuel with
  | 0 => decimal
  | fuel + 1 =>
    if decimal.digits != 0 && decimal.digits % 10 == 0 then
      Digits.strip fuel ⟨decimal.digits / 10, decimal.exponent + 1⟩
    else decimal

/-- A positive value with the ends of the interval of reals that round to it, all three as
numerators over one denominator. The ends belong to the interval when the mantissa is even. -/
structure Neighbourhood where
  low : Nat
  value : Nat
  high : Nat
  denominator : Nat
  closed : Bool

/-- The interval of reals that round to `mantissa · 2 ^ exponent`. The gap below a power of two is
half as wide as the gap above it. -/
def Neighbourhood.ofBinary (mantissa : Nat) (exponent : Int) : Neighbourhood :=
  let narrowBelow := mantissa == Nat.pow 2 Number.mantissaBits && Number.leastExponent < exponent
  let up := exponent.toNat
  { low := (4 * mantissa - if narrowBelow then 1 else 2) <<< up
    value := (4 * mantissa) <<< up
    high := (4 * mantissa + 2) <<< up
    denominator := 4 <<< (-exponent).toNat
    closed := mantissa % 2 == 0 }

/-- Compares `numerator / denominator` with `digits · 10 ^ exponent`. -/
def compareScaled (numerator denominator : Nat) (decimal : Digits) : Ordering :=
  match decimal.exponent with
  | .ofNat up => compare numerator (decimal.digits * Nat.pow 10 up * denominator)
  | .negSucc down => compare (numerator * Nat.pow 10 (down + 1)) (decimal.digits * denominator)

/-- Whether a decimal rounds to the value. -/
def Neighbourhood.holds (around : Neighbourhood) (decimal : Digits) : Bool :=
  match compareScaled around.low around.denominator decimal,
      compareScaled around.high around.denominator decimal with
  | .lt, .gt => true
  | .lt, .eq | .eq, .gt | .eq, .eq => around.closed
  | _, _ => false

/-- `numerator / denominator` divided by `10 ^ exponent`, rounded down. -/
def scaledQuotient (numerator denominator : Nat) (exponent : Int) : Nat :=
  match exponent with
  | .ofNat up => numerator / (denominator * Nat.pow 10 up)
  | .negSucc down => numerator * Nat.pow 10 (down + 1) / denominator

/-- The exponent `e` with `10 ^ e ≤ numerator / denominator < 10 ^ (e + 1)`. The first guess comes
from the bit lengths and is at most one too large. -/
def decimalExponent (numerator denominator : Nat) : Int :=
  let bits : Int := (Nat.log2 numerator : Int) - Nat.log2 denominator
  let guess := (bits * 30103).fdiv 100000 + 1
  if scaledQuotient numerator denominator guess = 0 then
    if scaledQuotient numerator denominator (guess - 1) = 0 then guess - 2 else guess - 1
  else guess

/-- Whether the upper of two neighbouring decimals is at least as near to the value as the lower. -/
def Neighbourhood.upperIsNearer (around : Neighbourhood) (lower : Digits) : Bool :=
  -- the midpoint between `lower` and the next decimal, over one more digit
  let midpoint : Digits := ⟨10 * lower.digits + 5, lower.exponent - 1⟩
  compareScaled around.value around.denominator midpoint != .lt

/-- Tries the two neighbours of the value with `count` digits, then with one digit more. -/
def Neighbourhood.search (around : Neighbourhood) (leading : Int) (count fuel : Nat) : Digits :=
  let exponent := leading - (count - 1 : Nat)
  let lower : Digits := ⟨scaledQuotient around.value around.denominator exponent, exponent⟩
  let upper : Digits := ⟨lower.digits + 1, exponent⟩
  match fuel with
  | 0 => lower
  | fuel + 1 =>
    match around.holds lower, around.holds upper with
    | true, true => if around.upperIsNearer lower then upper else lower
    | true, false => lower
    | false, true => upper
    | false, false => around.search leading (count + 1) fuel

/-- The fewest digits that read back as the positive value `mantissa · 2 ^ exponent`. -/
def shortest (mantissa : Nat) (exponent : Int) : Digits :=
  let around := Neighbourhood.ofBinary mantissa exponent
  let leading := decimalExponent around.value around.denominator
  (around.search leading 1 17).strip 20

end Terrain.Decimal
