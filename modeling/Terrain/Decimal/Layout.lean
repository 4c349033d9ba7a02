import Terrain.Decimal.Shortest

/-!
# Decimal text of floats

Three layouts of one value:

* `plain` — the shortest digits written out in full, never with an exponent;
* `tagged` — the same digits with `.0` kept on whole numbers and an exponent for very large and very
  small magnitudes;
* `onePlace` — the exact value rounded to one decimal place, a half to the even digit.
-/

namespace Terrain.Decimal

open Terrain.Number (Binary decode)

/-- A run of zeros. -/
def zeros (count : Nat) : String := String.ofList (List.replicate count '0')

/-- Decimal digits of a natural number. -/
def digitsOf (n : Nat) : String := String.ofList (Nat.toDigits 10 n)

/-- Number of decimal digits of a natural number. -/
def digitCount (n : Nat) : Nat := (Nat.toDigits 10 n).length

/-- Digits without an exponent; `whole` is appended when there is no fraction. -/
def positional (decimal : Digits) (whole : String) : String :=
  let digits := Nat.toDigits 10 decimal.digits
  match decimal.exponent with
  | .ofNat up => String.ofList digits ++ zeros up ++ whole
  | .negSucc down =>
    let places := down + 1
    if digits.length ≤ places then
      "0." ++ zeros (places - digits.length) ++ String.ofList digits
    else
      String.ofList (digits.take (digits.length - places)) ++ "." ++
        String.ofList (digits.drop (digits.length - places))

/-- One digit, the others after a point, then the exponent. -/
def scientific (decimal : Digits) : String :=
  let digits := Nat.toDigits 10 decimal.digits
  let leading := decimal.exponent + (digits.length - 1 : Nat)
  let exponent := (if leading < 0 then "e-" else "e") ++ digitsOf leading.natAbs
  let rest := String.ofList (digits.drop 1)
  String.ofList (digits.take 1) ++ (if rest.isEmpty then "" else "." ++ rest) ++ exponent

/-- Writes the sign and the special values, and leaves the digits to `layout`. -/
def signed (layout : Digits → String) (x : Float) : String :=
  match decode x with
  | .nan => "NaN"
  | .infinite negative => if negative then "-inf" else "inf"
  | .finite negative mantissa exponent =>
    let text := layout (if mantissa = 0 then ⟨0, 0⟩ else shortest mantissa exponent)
    if negative then "-" ++ text else text

/-- Shortest digits in full, whole numbers without a point. -/
def plain (x : Float) : String := signed (positional · "") x

/-- Shortest digits with `.0` on whole numbers; an exponent from `10 ^ 16` on and below
`10 ^ (-4)`. -/
def tagged (x : Float) : String :=
  signed (fun decimal =>
    let leading := decimal.exponent + (digitCount decimal.digits - 1 : Nat)
    if decimal.digits = 0 then "0.0"
    else if leading < -4 || 16 ≤ leading then scientific decimal
    else positional decimal ".0") x

/-- `numerator / denominator` rounded to a whole number, a half to the even one. -/
def roundHalfEven (numerator denominator : Nat) : Nat :=
  let quotient := numerator / denominator
  match compare (2 * (numerator % denominator)) denominator with
  | .lt => quotient
  | .eq => quotient + quotient % 2
  | .gt => quotient + 1

/-- The exact value with one decimal place, a half to the even digit. -/
def onePlace (x : Float) : String :=
  match decode x with
  | .nan => "NaN"
  | .infinite negative => if negative then "-inf" else "inf"
  | .finite negative mantissa exponent =>
    let tenths := roundHalfEven ((10 * mantissa) <<< exponent.toNat) (1 <<< (-exponent).toNat)
    let text := digitsOf (tenths / 10) ++ "." ++ digitsOf (tenths % 10)
    if negative then "-" ++ text else text

end Terrain.Decimal
