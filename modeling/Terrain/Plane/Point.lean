import Terrain.Number.Rounding

/-!
# Coordinates, points and extents

Coordinates are integers that stay within 32 signed bits and extents are natural numbers that stay
within 32 bits. Sums are formed without bounds and then moved back into the range, so that every
operation on points saturates instead of wrapping.

* `narrowCoordinate`, `narrowExtent` — the saturating returns into the range.
* `Direction`, `Point`, `Size` — with the operations the rasters and the script machine share.
-/

namespace Terrain

/-- A coordinate in the logical or in the physical plane. -/
abbrev Coordinate := Int

/-- A one-dimensional length. -/
abbrev Extent := Nat

/-- Factor from logical coordinates to physical samples. -/
abbrev Scale := Float

def coordinateMin : Coordinate := -2147483648
def coordinateMax : Coordinate := 2147483647
def extentMax : Extent := 4294967295

/-- Least and greatest whole numbers a 64-bit intermediate can hold. -/
def wideMin : Int := -9223372036854775808
def wideMax : Int := 9223372036854775807

/-- Within 32 signed bits. -/
def IsCoordinate (value : Int) : Prop := coordinateMin ≤ value ∧ value ≤ coordinateMax

instance (value : Int) : Decidable (IsCoordinate value) :=
  inferInstanceAs (Decidable (_ ∧ _))

/-- Saturates into the coordinate range. -/
def narrowCoordinate (value : Int) : Coordinate :=
  Number.clampInt coordinateMin coordinateMax value

/-- Saturates into the extent range; negative values become zero. -/
def narrowExtent (value : Int) : Extent := min value.toNat extentMax

/-- The coordinate with the same lowest 32 bits. -/
def wrapCoordinate (value : Int) : Coordinate := value.bmod 4294967296

/-- Axis selector of directional operations. -/
inductive Direction where
  | horizontal
  | vertical
  deriving Repr, DecidableEq

namespace Direction

/-- Reads the number scripts use; only 0 and 1 are directions. -/
def ofNumber? : Int → Option Direction
  | 0 => some .horizontal
  | 1 => some .vertical
  | _ => none

def toNumber : Direction → Int
  | .horizontal => 0
  | .vertical => 1

def name : Direction → String
  | .horizontal => "Horizontal"
  | .vertical => "Vertical"

end Direction

/-- An integer point. -/
structure Point where
  x : Coordinate
  y : Coordinate
  deriving Repr, DecidableEq, Inhabited

namespace Point

def origin : Point := ⟨0, 0⟩

/-- The coordinate along an axis. -/
def along (point : Point) : Direction → Coordinate
  | .horizontal => point.x
  | .vertical => point.y

/-- Saturating sum. -/
def add (p q : Point) : Point := ⟨narrowCoordinate (p.x + q.x), narrowCoordinate (p.y + q.y)⟩

/-- Saturating difference. -/
def sub (p q : Point) : Point := ⟨narrowCoordinate (p.x - q.x), narrowCoordinate (p.y - q.y)⟩

/-- Saturating negation: the least coordinate goes to the greatest. -/
def neg (p : Point) : Point := ⟨narrowCoordinate (-p.x), narrowCoordinate (-p.y)⟩

instance : Add Point := ⟨add⟩
instance : Sub Point := ⟨sub⟩
instance : Neg Point := ⟨neg⟩

/-- A coordinate times a factor, rounded toward negative infinity. -/
def scaleCoordinate (coordinate : Coordinate) (scale : Scale) : Coordinate :=
  narrowCoordinate (Number.floorTo wideMin wideMax (Float.ofInt coordinate * scale))

/-- Both components times a factor, rounded toward negative infinity. -/
def scaled (point : Point) (scale : Scale) : Point :=
  ⟨scaleCoordinate point.x scale, scaleCoordinate point.y scale⟩

/-- Euclidean distance. -/
def distanceTo (p q : Point) : Float :=
  let dx := Float.ofInt q.x - Float.ofInt p.x
  let dy := Float.ofInt q.y - Float.ofInt p.y
  (dx * dx + dy * dy).sqrt

end Point

/-- A two-dimensional extent. -/
structure Size where
  width : Extent
  height : Extent
  deriving Repr, DecidableEq, Inhabited

namespace Size

/-- Number of samples covered. -/
def area (size : Size) : Nat := size.width * size.height

def along (size : Size) : Direction → Extent
  | .horizontal => size.width
  | .vertical => size.height

end Size

end Terrain
