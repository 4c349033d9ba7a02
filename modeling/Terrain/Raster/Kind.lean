/-!
# The two kinds of raster

A map has samples over a rectangle of the plane, a profile over an interval of one axis.
-/

namespace Terrain

/-- A raster is a map or a profile. -/
inductive RasterKind where
  | map
  | profile
  deriving Repr, DecidableEq

namespace RasterKind

/-- Lower-case description. -/
def describe : RasterKind → String
  | .map => "height map"
  | .profile => "height profile"

/-- Name of the type scripts see. -/
def typeName : RasterKind → String
  | .map => "HeightMap"
  | .profile => "HeightProfile"

def other : RasterKind → RasterKind
  | .map => .profile
  | .profile => .map

end RasterKind

end Terrain
