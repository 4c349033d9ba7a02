import Terrain.Raster.Basic

/-!
# Bounds of rasters

The logical extent that must be rendered of a raster: a rectangle for a map, an interval for a
profile. Bounds of one kind fold together; mixing kinds is a broken invariant.
-/

namespace Terrain

inductive Bounds where
  | rectangle (extent : Rectangle)
  | interval (extent : Interval)
  deriving Repr, DecidableEq, Inhabited

namespace Bounds

def empty : RasterKind → Bounds
  | .map => .rectangle .empty
  | .profile => .interval ⟨0, 0⟩

def kind : Bounds → RasterKind
  | .rectangle _ => .map
  | .interval _ => .profile

def isEmpty : Bounds → Bool
  | .rectangle extent => extent.isEmpty
  | .interval extent => extent.isEmpty

/-- Field-by-field text. -/
def fields : Bounds → String
  | .rectangle extent => s!"Rect({extent.fields})"
  | .interval extent => s!"Interval({extent.fields})"

/-- Smallest bounds around both; empty bounds are the identity. -/
def combine : Bounds → Bounds → Except Breach Bounds
  | .rectangle a, .rectangle b => .ok (.rectangle (.combine a b))
  | .interval a, .interval b => .ok (.interval (.combine a b))
  | a, b => .error (.mixedBounds a.fields b.fields)

/-- The rectangle of a map's bounds. -/
def asRectangle : Bounds → Except Breach Rectangle
  | .rectangle extent => .ok extent
  | .interval extent => .error (.mapBoundsExpected extent)

/-- The interval of a profile's bounds. -/
def asInterval : Bounds → Except Breach Interval
  | .interval extent => .ok extent
  | .rectangle extent => .error (.profileBoundsExpected extent)

/-- Bytes of a raster over these bounds; nothing for empty bounds. -/
def memorySize (bounds : Bounds) (scale : Scale) : Except Breach Nat :=
  if bounds.isEmpty then .ok 0
  else
    match bounds with
    | .rectangle extent => HeightMap.memorySize extent scale
    | .interval extent => HeightProfile.memorySize extent scale

/-- Short text used in listings. -/
def describe : Bounds → String
  | .rectangle ⟨position, size⟩ => s!"[{position.x}, {position.y}; {size.width}x{size.height}]"
  | .interval ⟨start, length⟩ => s!"[{start}; {length}]"

end Bounds

end Terrain
