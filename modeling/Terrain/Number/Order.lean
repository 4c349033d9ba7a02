import Terrain.Number.Rounding

/-!
# Orders and selections on floats

Two orders are in use. The total order compares bit patterns, so that it separates the two zeros and
gives not-a-number a place beyond the infinities; `orderKey` embeds it into the integers. The usual
order is that of the values, and `lesser`, `greater` and `clamp` select by it.
-/

namespace Terrain.Number

/-! ## Total order -/

/-- Position of a bit pattern in the total order: patterns with a sign count down from `-1`, others up
from `0`. -/
def orderKey (bits : UInt64) : Int :=
  let magnitude := (bits &&& 0x7fffffffffffffff).toNat
  if bits >>> 63 != 0 then -(magnitude : Int) - 1 else magnitude

/-- Compares two bit patterns of floats in the total order. -/
def totalCompare (a b : UInt64) : Ordering := compare (orderKey a) (orderKey b)

/-! ## Selection by value -/

/-- The smaller operand. A single not-a-number is passed over and equal operands give the first. -/
def lesser (x y : Float) : Float :=
  if x.isNaN then y else if y < x then y else x

/-- The larger operand. A single not-a-number is passed over and equal operands give the first. -/
def greater (x y : Float) : Float :=
  if x.isNaN then y else if x < y then y else x

/-- Moves `x` to the nearest end of `[low, high]`; not-a-number stays as it is. -/
def clamp (low high x : Float) : Float :=
  if x < low then low else if high < x then high else x

/-- Magnitude of a float. -/
def magnitude (x : Float) : Float := Float.ofBits (x.toBits &&& 0x7fffffffffffffff)

end Terrain.Number
