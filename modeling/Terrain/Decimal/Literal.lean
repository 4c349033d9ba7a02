import Terrain.Number.Binary

/-!
# Number literals

Numbers as written in decimal. They are read as integers or as floats only when a reader knows which
it wants.

* `Literal.integer?`, `Literal.float?` — the two readings.
* `Literal.ofText?` — free-standing numbers as callers type them.
* `Literal.floatOfText?` — floats as callers type them, infinities included.
-/

namespace Terrain

/-- A number as written: `± digits · 10 ^ exponent`, and whether it had neither a fraction nor an
exponent. -/
structure Literal where
  negative : Bool
  digits : Nat
  exponent : Int
  integral : Bool
  deriving Repr, DecidableEq

namespace Literal

/-- Number of decimal digits of the digits written. -/
def digitCount (literal : Literal) : Nat := (Nat.toDigits 10 literal.digits).length

/-- Exact reading as a 64-bit integer, signed or unsigned. A minus sign before zero makes a float,
and so does a magnitude that does not fit. -/
def integer? (literal : Literal) : Option Int :=
  if !literal.integral then none
  else if literal.negative then
    if literal.digits = 0 || literal.digits > Nat.pow 2 63 then none else some (-(literal.digits : Int))
  else if literal.digits < Nat.pow 2 64 then some literal.digits
  else none

/-- Nearest float; `none` when the magnitude is too large for one. -/
def float? (literal : Literal) : Option Float :=
  let leading := literal.exponent + literal.digitCount
  let magnitude? : Option Float :=
    if literal.digits = 0 then some 0.0
    else if leading > 310 then none
    else if leading < -400 then some 0.0
    else
      let value := match literal.exponent with
        | .ofNat up => Float.ofScientific literal.digits false up
        | .negSucc down => Float.ofScientific literal.digits true (down + 1)
      if Number.isFinite value then some value else none
  magnitude?.map fun value => if literal.negative then -value else value

/-! ## Reading digits -/

def digitsValue (digits : List Char) : Nat :=
  digits.foldl (fun value c => 10 * value + (c.toNat - '0'.toNat)) 0

/-- Splits off a sign; tells whether it was a minus. -/
def splitSign : List Char → Bool × List Char
  | '-' :: rest => (true, rest)
  | '+' :: rest => (false, rest)
  | rest => (false, rest)

/-- A signed whole number: an optional sign and at least one digit. -/
def whole? (chars : List Char) : Option Int :=
  let (negative, digits) := splitSign chars
  if digits.isEmpty || !digits.all Char.isDigit then none
  else some (if negative then -(digitsValue digits : Int) else digitsValue digits)

/-- The literal of a whole part, a fraction and what follows them, which is nothing or an exponent. -/
def ofParts? (negative : Bool) (whole fraction : List Char) : List Char → Option Literal
  | [] => some ⟨negative, digitsValue (whole ++ fraction), -(fraction.length : Int), fraction.isEmpty⟩
  | mark :: rest =>
    if mark = 'e' || mark = 'E' then
      (whole? rest).map fun exponent =>
        ⟨negative, digitsValue (whole ++ fraction), exponent - fraction.length, false⟩
    else none

/-- A free-standing number: an optional sign, digits with an optional point before, between or after
them, and an optional exponent. -/
def ofText? (text : String) : Option Literal :=
  let (negative, chars) := splitSign text.toList
  let whole := chars.takeWhile Char.isDigit
  let (fraction, rest) := match chars.dropWhile Char.isDigit with
    | '.' :: rest => (rest.takeWhile Char.isDigit, rest.dropWhile Char.isDigit)
    | rest => ([], rest)
  if whole.isEmpty && fraction.isEmpty then none else ofParts? negative whole fraction rest

/-- The nearest float; magnitudes too large for one are infinite. -/
def toFloat (literal : Literal) : Float :=
  literal.float?.getD (if literal.negative then -Number.infinity else Number.infinity)

/-- The floats that are written in words, in letters of either case. -/
def namedFloat? (word : List Char) : Option Float :=
  match String.ofList (word.map Char.toLower) with
  | "inf" | "infinity" => some Number.infinity
  | "nan" => some Number.quietNaN
  | _ => none

/-- A free-standing float: a number, or a float written in words after an optional sign. -/
def floatOfText? (text : String) : Option Float :=
  match ofText? text with
  | some literal => some literal.toFloat
  | none =>
    let (negative, word) := splitSign text.toList
    (namedFloat? word).map fun value => if negative then -value else value

end Literal

end Terrain
