/-!
# The value behind a 64-bit float

`Terrain.Number.decode` splits the bits of a `Float` into a sign, a whole mantissa and a power of
two, so that rounding, truncation, remainders and decimal text are exact integer computations
instead of calls into the platform's mathematics library.

* `Binary` — not a number, an infinity, or `± mantissa · 2 ^ exponent`.
* `decode` — the binary value of a float.
-/

namespace Terrain.Number

/-- What the bits of a float stand for. -/
inductive Binary where
  | nan
  | infinite (negative : Bool)
  | finite (negative : Bool) (mantissa : Nat) (exponent : Int)
  deriving Repr, DecidableEq

/-- Number of mantissa bits below the implicit leading one. -/
def mantissaBits : Nat := 52

/-- Power of two carried by the last mantissa bit of the smallest floats. -/
def leastExponent : Int := -1074

/-- Whether the sign bit is set, which tells the two zeros apart. -/
def isSignNegative (x : Float) : Bool := x.toBits >>> 63 != 0

/-- Reads a float as a sign, a mantissa and a power of two. -/
def decode (x : Float) : Binary :=
  let bits := x.toBits
  let negative := bits >>> 63 != 0
  let field := ((bits >>> 52) &&& 0x7ff).toNat
  let fraction := (bits &&& 0xfffffffffffff).toNat
  if field = 0x7ff then
    if fraction = 0 then .infinite negative else .nan
  else if field = 0 then
    .finite negative fraction leastExponent
  else
    .finite negative (fraction + Nat.pow 2 mantissaBits) (leastExponent + (field - 1))

/-- Positive infinity. -/
def infinity : Float := Float.ofBits 0x7ff0000000000000

/-- Positive quiet not-a-number. -/
def quietNaN : Float := Float.ofBits 0x7ff8000000000000

/-- Neither infinite nor not-a-number. -/
def isFinite (x : Float) : Bool :=
  match decode x with
  | .finite .. => true
  | _ => false

end Terrain.Number
