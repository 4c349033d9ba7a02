import Terrain.Plane.Interval

/-!
# Axis-aligned rectangles

A rectangle is a position and a size; each axis is a half-open interval. A rectangle with no area is
empty even when one of its sides is not.

* `combine`, `intersect`, `expand`, `contract` — axis by axis.
* `cells` — the points of a rectangle row by row.
-/

namespace Terrain

structure Rectangle where
  position : Point
  size : Size
  deriving Repr, DecidableEq, Inhabited

namespace Rectangle

/-- The whole plane. -/
def everything : Rectangle := ⟨⟨coordinateMin, coordinateMin⟩, ⟨extentMax, extentMax⟩⟩

def empty : Rectangle := ⟨⟨0, 0⟩, ⟨0, 0⟩⟩

def ofIntervals (horizontal vertical : Interval) : Rectangle :=
  ⟨⟨horizontal.start, vertical.start⟩, ⟨horizontal.length, vertical.length⟩⟩

def horizontal (rectangle : Rectangle) : Interval :=
  ⟨rectangle.position.x, rectangle.size.width⟩

def vertical (rectangle : Rectangle) : Interval :=
  ⟨rectangle.position.y, rectangle.size.height⟩

/-- The side along an axis. -/
def along (rectangle : Rectangle) : Direction → Interval
  | .horizontal => rectangle.horizontal
  | .vertical => rectangle.vertical

/-- The side across an axis. -/
def across (rectangle : Rectangle) : Direction → Interval
  | .horizontal => rectangle.vertical
  | .vertical => rectangle.horizontal

/-- The rectangle an interval covers when it is stretched across the plane: whole rows for
`horizontal`, whole columns for `vertical`. -/
def band (interval : Interval) : Direction → Rectangle
  | .horizontal => ofIntervals .everything interval
  | .vertical => ofIntervals interval .everything

/-- Whether the rectangle has no area. -/
def isEmpty (rectangle : Rectangle) : Bool := rectangle.size.area == 0

/-- Exclusive ending point, saturated into the coordinate range. -/
def endingPoint (rectangle : Rectangle) : Point :=
  ⟨narrowCoordinate rectangle.horizontal.stop, narrowCoordinate rectangle.vertical.stop⟩

/-- Smallest rectangle around both operands; an operand with no area is the identity. -/
def combine (a b : Rectangle) : Rectangle :=
  if a.isEmpty then b
  else if b.isEmpty then a
  else ofIntervals (.hull a.horizontal b.horizontal) (.hull a.vertical b.vertical)

/-- The smallest rectangle with both points in it. -/
def ofPoints (a b : Point) : Rectangle := combine ⟨a, ⟨1, 1⟩⟩ ⟨b, ⟨1, 1⟩⟩

/-- Overlap of both operands; sides are zero where they are disjoint. -/
def intersect (a b : Rectangle) : Rectangle :=
  ofIntervals (.intersect a.horizontal b.horizontal) (.intersect a.vertical b.vertical)

/-- Grows on every side. -/
def expand (rectangle : Rectangle) (amount : Extent) : Rectangle :=
  ofIntervals (rectangle.horizontal.expand amount) (rectangle.vertical.expand amount)

/-- Grows on both sides of one axis. -/
def expandIn (rectangle : Rectangle) (amount : Extent) : Direction → Rectangle
  | .horizontal => ofIntervals (rectangle.horizontal.expand amount) rectangle.vertical
  | .vertical => ofIntervals rectangle.horizontal (rectangle.vertical.expand amount)

/-- Shrinks on every side; sides stop at zero. -/
def contract (rectangle : Rectangle) (amount : Extent) : Rectangle :=
  ofIntervals (rectangle.horizontal.contract amount) (rectangle.vertical.contract amount)

/-- Shrinks on both sides of one axis. -/
def contractIn (rectangle : Rectangle) (amount : Extent) : Direction → Rectangle
  | .horizontal => ofIntervals (rectangle.horizontal.contract amount) rectangle.vertical
  | .vertical => ofIntervals rectangle.horizontal (rectangle.vertical.contract amount)

/-- Whether another rectangle lies inside; one with no area lies in every rectangle. -/
def containsRectangle (outer inner : Rectangle) : Bool :=
  inner.isEmpty || (outer.horizontal.containsInterval inner.horizontal &&
    outer.vertical.containsInterval inner.vertical)

def containsPoint (rectangle : Rectangle) (point : Point) : Bool :=
  rectangle.horizontal.contains point.x && rectangle.vertical.contains point.y

/-- Every physical sample the rectangle touches at a scale. -/
def scaled (rectangle : Rectangle) (scale : Scale) : Rectangle :=
  ofIntervals (rectangle.horizontal.scaled scale) (rectangle.vertical.scaled scale)

/-- Both sides stretched by factors. -/
def stretched (rectangle : Rectangle) (horizontal vertical : Scale) : Rectangle :=
  ofIntervals (rectangle.horizontal.stretched horizontal) (rectangle.vertical.stretched vertical)

/-- Moves the rectangle; the position saturates. -/
def translated (rectangle : Rectangle) (offset : Point) : Rectangle :=
  ⟨rectangle.position + offset, rectangle.size⟩

/-! ## Points of a rectangle -/

/-- The coordinates from `start` up to, but not including, `stop`. -/
def span (start stop : Int) : List Int :=
  (List.range (stop - start).toNat).map fun step : Nat => start + step

/-- The points of a rectangle row by row, up to its saturated ending point. -/
def cells (rectangle : Rectangle) : List Point :=
  let stop := rectangle.endingPoint
  (span rectangle.position.y stop.y).flatMap fun y =>
    (span rectangle.position.x stop.x).map fun x => ⟨x, y⟩

end Rectangle

end Terrain
