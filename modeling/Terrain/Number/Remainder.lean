import Terrain.Number.Rounding

/-!
# Exact remainders

The remainder of a division truncated toward zero is again a float, so it is found without rounding:
both operands are written over one power of two and the remainder is taken on the mantissas.
-/

namespace Terrain.Number

/-- The float `± mantissa · 2 ^ exponent`, for a value that has one. -/
def ofBinary (negative : Bool) (mantissa : Nat) (exponent : Int) : Float :=
  let sign : Nat := if negative then Nat.pow 2 63 else 0
  if mantissa = 0 then
    Float.ofBits sign.toUInt64
  else
    let last := max (exponent + (Nat.log2 mantissa : Int) - mantissaBits) leastExponent
    let aligned :=
      if last ≤ exponent then mantissa <<< (exponent - last).toNat
      else mantissa >>> (last - exponent).toNat
    if aligned < Nat.pow 2 mantissaBits then
      Float.ofBits (sign + aligned).toUInt64
    else
      let field := (last - leastExponent).toNat + 1
      Float.ofBits (sign + field * Nat.pow 2 mantissaBits + (aligned - Nat.pow 2 mantissaBits)).toUInt64

/-- Remainder of `x / y` truncated toward zero; it takes the sign of `x`. -/
def remainder (x y : Float) : Float :=
  match decode x, decode y with
  | .finite negative mantissa exponent, .finite _ divisor divisorExponent =>
    if divisor = 0 then quietNaN
    else
      let common := min exponent divisorExponent
      let rest := (mantissa <<< (exponent - common).toNat) %
        (divisor <<< (divisorExponent - common).toNat)
      ofBinary negative rest common
  | .finite .., .infinite _ => x
  | _, _ => quietNaN

/-- What is left of `x` beyond its whole part; it takes the sign of `x`. -/
def fraction (x : Float) : Float := remainder x 1.0

end Terrain.Number
