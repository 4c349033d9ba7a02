import Terrain.Plane.Point

/-!
# Half-open intervals

An interval `[start, start + length)` of coordinates. Ends are formed without bounds; results are
moved back into the coordinate and extent ranges, start and length separately.

* `combine` — the hull, with an empty operand as identity.
* `intersect` — the overlap, of length zero when disjoint.
* `scaled` — every physical sample the logical interval touches.
-/

namespace Terrain

structure Interval where
  start : Coordinate
  length : Extent
  deriving Repr, DecidableEq, Inhabited

namespace Interval

/-- The whole coordinate space. -/
def everything : Interval := ⟨coordinateMin, extentMax⟩

/-- The smallest interval with both coordinates in it. -/
def ofCoordinates (a b : Coordinate) : Interval :=
  let low := min a b
  let high := max a b
  ⟨low, narrowExtent (high - low + 1)⟩

/-- Exclusive end; it may lie outside the coordinate range. -/
def stop (interval : Interval) : Int := interval.start + interval.length

def isEmpty (interval : Interval) : Bool := interval.length == 0

/-- Interval between two unbounded ends. -/
def ofBounds (start stop : Int) : Interval :=
  let start := narrowCoordinate start
  ⟨start, narrowExtent (stop - start)⟩

/-- Smallest interval around both operands, empty or not. -/
def hull (a b : Interval) : Interval := ofBounds (min a.start b.start) (max a.stop b.stop)

/-- Smallest interval around both operands; an empty operand is the identity. -/
def combine (a b : Interval) : Interval :=
  if a.isEmpty then b else if b.isEmpty then a else hull a b

/-- Overlap of both operands. -/
def intersect (a b : Interval) : Interval :=
  let start := max a.start b.start
  ⟨start, narrowExtent (min a.stop b.stop - start)⟩

/-- Grows by the same amount on both sides. -/
def expand (interval : Interval) (amount : Extent) : Interval :=
  ofBounds (interval.start - amount) (interval.stop + amount)

/-- Shrinks by the same amount on both sides; the length stops at zero. -/
def contract (interval : Interval) (amount : Extent) : Interval :=
  ⟨narrowCoordinate (interval.start + amount), narrowExtent ((interval.length : Int) - 2 * amount)⟩

/-- Whether a coordinate lies in the interval. -/
def contains (interval : Interval) (coordinate : Int) : Bool :=
  interval.start ≤ coordinate && coordinate < interval.stop

/-- Whether another interval lies inside; an empty one lies in every interval. -/
def containsInterval (outer inner : Interval) : Bool :=
  inner.isEmpty || (outer.start ≤ inner.start && inner.stop ≤ outer.stop)

/-- Every physical sample the interval touches at a scale. -/
def scaled (interval : Interval) (scale : Scale) : Interval :=
  let start := Float.ofInt interval.start
  let first := Number.floorTo wideMin wideMax (start * scale)
  let last := Number.ceilTo wideMin wideMax ((start + Float.ofNat interval.length) * scale)
  ofBounds first last

/-- Start and length times a factor, each truncated. -/
def stretched (interval : Interval) (factor : Scale) : Interval :=
  ⟨Number.truncateTo coordinateMin coordinateMax (Float.ofInt interval.start * factor),
    (Number.truncateTo 0 extentMax (Float.ofNat interval.length * factor)).toNat⟩

/-- Moves the interval; the start saturates. -/
def translated (interval : Interval) (offset : Coordinate) : Interval :=
  ⟨narrowCoordinate (interval.start + offset), interval.length⟩

end Interval

end Terrain
