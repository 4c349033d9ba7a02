import Terrain.Json.Document
import Terrain.Raster.Map

/-!
# Map files

A rendered map as a document: its logical placement, its scale and its samples row by row.
-/

namespace Terrain.HeightMap

/-- The map as a document. -/
def document (map : HeightMap) : Document :=
  .record [
    ("x", .integer map.logical.position.x),
    ("y", .integer map.logical.position.y),
    ("width", .integer map.logical.size.width),
    ("height", .integer map.logical.size.height),
    ("scale", .float map.scale),
    ("raster_width", .integer map.raster.size.width),
    ("raster_height", .integer map.raster.size.height),
    ("heights", .list (map.samples.toList.map .integer))]

end Terrain.HeightMap
