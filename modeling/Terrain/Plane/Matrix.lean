import Terrain.Number.Order
import Terrain.Plane.Rectangle

/-!
# Affine transformations

A two-by-two matrix and an offset, acting on logical coordinates. Sums and products are
evaluated in the order written, which fixes their rounding.

* `apply`, `inverse` — the map and its inverse.
* `image` — the integer bounding rectangle of the image of a rectangle.
-/

namespace Terrain

/-- `(x, y) ↦ (xx · x + xy · y + tx, yx · x + yy · y + ty)`. -/
structure Matrix where
  xx : Float
  xy : Float
  yx : Float
  yy : Float
  tx : Float
  ty : Float

namespace Matrix

def identity : Matrix := ⟨1.0, 0.0, 0.0, 1.0, 0.0, 0.0⟩

def determinant (matrix : Matrix) : Float := matrix.xx * matrix.yy - matrix.yx * matrix.xy

/-- A finite determinant other than zero. -/
def isInvertible (matrix : Matrix) : Bool :=
  Number.isFinite matrix.determinant && matrix.determinant != 0.0

/-- The inverse transformation; meaningless, but defined, for a singular matrix. -/
def inverse (matrix : Matrix) : Matrix :=
  let i := 1.0 / matrix.determinant
  { xx := i * matrix.yy
    yx := -i * matrix.yx
    xy := -i * matrix.xy
    yy := i * matrix.xx
    tx := i * (matrix.xy * matrix.ty - matrix.yy * matrix.tx)
    ty := i * (matrix.yx * matrix.tx - matrix.xx * matrix.ty) }

def apply (matrix : Matrix) (x y : Float) : Float × Float :=
  (matrix.xx * x + matrix.xy * y + matrix.tx, matrix.yx * x + matrix.yy * y + matrix.ty)

/-- A float bound as a coordinate, saturated. -/
def boundOf (x : Float) : Coordinate := Number.truncateTo coordinateMin coordinateMax x

/-- Integer bounding rectangle of the image, with corners taken as continuous points. -/
def image (matrix : Matrix) (rectangle : Rectangle) : Rectangle :=
  if rectangle.isEmpty then ⟨rectangle.position, ⟨0, 0⟩⟩
  else
    let left := Float.ofInt rectangle.position.x
    let top := Float.ofInt rectangle.position.y
    let right := left + Float.ofNat rectangle.size.width
    let bottom := top + Float.ofNat rectangle.size.height
    let corners := [matrix.apply left top, matrix.apply right top, matrix.apply left bottom,
      matrix.apply right bottom]
    let xs := corners.map (·.1)
    let ys := corners.map (·.2)
    let least (values : List Float) := values.foldl Number.lesser Number.infinity
    let most (values : List Float) := values.foldl Number.greater (-Number.infinity)
    let before (x : Float) := narrowCoordinate (boundOf (Number.ceil x) - 1)
    .ofPoints ⟨boundOf (Number.floor (least xs)), boundOf (Number.floor (least ys))⟩
      ⟨before (most xs), before (most ys)⟩

end Matrix

end Terrain
