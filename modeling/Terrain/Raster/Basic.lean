import Terrain.Raster.Map

/-!
# Rasters of either kind
-/

namespace Terrain

inductive Raster where
  | map (raster : HeightMap)
  | profile (raster : HeightProfile)
  deriving Inhabited

namespace Raster

def kind : Raster → RasterKind
  | .map _ => .map
  | .profile _ => .profile

/-- The map in a slot, which must be one. -/
def asMap (slot : Nat) : Raster → Except Breach HeightMap
  | .map raster => .ok raster
  | .profile _ => .error (.wrongRaster slot .profile)

/-- The profile in a slot, which must be one. -/
def asProfile (slot : Nat) : Raster → Except Breach HeightProfile
  | .profile raster => .ok raster
  | .map _ => .error (.wrongRaster slot .map)

/-- Bytes held by a raster. -/
def memorySize : Raster → Nat
  | .map raster => raster.ownMemorySize
  | .profile raster => raster.ownMemorySize

end Raster

end Terrain
