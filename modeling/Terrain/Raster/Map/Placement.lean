import Terrain.Plane.Matrix
import Terrain.Raster.Map.Pointwise
import Terrain.Raster.Profile.Placement

/-!
# Moving, resampling and filling maps

Operations that change where a map lies, or that fill it from a pattern, from a profile or from
itself seen through a transformation.
-/

namespace Terrain.HeightMap

/-- The part of a map inside a logical rectangle; samples it does not cover are 0. -/
def cutout (source : HeightMap) (rectangle : Rectangle) : Except Breach HeightMap :=
  (create rectangle 0 source.scale).copyOverlap source

/-- Shifts the map by a logical offset without touching the samples. -/
def moveBy (map : HeightMap) (offset : Point) : HeightMap :=
  { map with
    logical := map.logical.translated offset
    raster := map.raster.translated (offset.scaled map.scale) }

/-- Reallocates to a logical rectangle; new samples get a height. -/
def resize (map : HeightMap) (rectangle : Rectangle) (value : Height) : Except Breach HeightMap :=
  (create rectangle value map.scale).copyOverlap map

/-- Resamples the map so that its footprint grows by two factors. -/
def rescale (map : HeightMap) (horizontal vertical : Scale) : Except Breach HeightMap :=
  let raster := map.raster.stretched horizontal vertical
  let stepX := HeightProfile.resampleStep raster.size.width map.raster.size.width
  let stepY := HeightProfile.resampleStep raster.size.height map.raster.size.height
  let target := filled (map.logical.stretched horizontal vertical) raster 0 map.scale
  if map.samples.isEmpty then .ok target
  else
    target.updateCells target.bounds fun point => do
      let value ← map.sampleClamped (Float.ofInt point.x * stepX) (Float.ofInt point.y * stepY)
      return fun _ => value

/-- Tiles a logical rectangle of another map over the whole map. -/
def pattern (map tile : HeightMap) (rectangle : Rectangle) : Except Breach HeightMap :=
  let source := Rectangle.intersect (tile.localRectangle rectangle) tile.bounds
  if rectangle.isEmpty || source.isEmpty then .ok map
  else
    map.updateCells map.bounds fun point => do
      let px := wrapCoordinate ((point.x + map.raster.position.x).emod source.size.width)
      let py := wrapCoordinate ((point.y + map.raster.position.y).emod source.size.height)
      let value ← tile.sampleShifted ⟨px, py⟩ source.position
      return fun _ => value

/-- Local index in a profile of the physical coordinate of a map's sample along the profile's axis:
the vertical one for rows, the horizontal one for columns. -/
def profileCoordinate (map : HeightMap) (direction : Direction) (point : Point) :
    Except Breach Coordinate :=
  match direction with
  | .horizontal => checkCoordinate (point.y + map.raster.position.y)
  | .vertical => checkCoordinate (point.x + map.raster.position.x)

/-- Stretches a profile across the map. Along `horizontal` every row takes the profile's sample at
its `y`, along `vertical` every column the one at its `x`; other samples stay as they are. -/
def projection (map : HeightMap) (profile : HeightProfile) (direction : Direction) :
    Except Breach HeightMap :=
  map.updateCells (map.overlap (.band profile.interval direction)) fun point => do
    let along ← map.profileCoordinate direction point
    let value ← profile.sampleAt (← checkCoordinate (along - profile.interval.start))
    return fun _ => value

/-- Shifts rows (or columns) by the heights of a profile; the greatest height shifts by the greatest
distance. -/
def shift (map : HeightMap) (profile : HeightProfile) (maxDistance : Extent)
    (direction : Direction) : Except Breach HeightMap :=
  let factor := Float.ofNat (scaledExtent map.scale maxDistance) / 32767.0
  map.updateCells map.bounds fun point => do
    let along ← map.profileCoordinate direction point
    if !profile.interval.contains along then return id
    let offset :=
      Float.ofInt (← profile.sampleAt (← checkCoordinate (along - profile.interval.start))) * factor
    let value ← match direction with
      | .horizontal => map.sampleClamped (Float.ofInt point.x - offset) (Float.ofInt point.y)
      | .vertical => map.sampleClamped (Float.ofInt point.x) (Float.ofInt point.y - offset)
    return fun _ => value

/-- Fills a logical rectangle by looking up every sample's preimage in the previous content; what
comes from outside it becomes 0. -/
def transform (map : HeightMap) (matrix : Matrix) (rectangle : Rectangle) :
    Except Breach HeightMap :=
  let inverse := matrix.inverse
  let target := create rectangle 0 map.scale
  if map.samples.isEmpty then .ok target
  else
    let lastX := Float.ofNat (map.width - 1)
    let lastY := Float.ofNat (map.height - 1)
    target.updateCells target.bounds fun point => do
      let (tx, ty) := inverse.apply (target.logicalX (Float.ofInt point.x))
        (target.logicalY (Float.ofInt point.y))
      let x := map.localCoordinate tx .horizontal
      let y := map.localCoordinate ty .vertical
      if 0.0 ≤ x && x ≤ lastX && 0.0 ≤ y && y ≤ lastY then
        let value ← map.sample x y
        return fun _ => value
      else return id

/-- Sends heights in `[low, high]` through a profile, spread over its logical interval. -/
def transformHeights (map : HeightMap) (function : HeightProfile) (interval : Interval)
    (low high : Height) : Except Breach HeightMap := do
  let source ← function.localInterval interval
  if source.isEmpty || high < low then return map
  let spread := Float.ofInt (max (high - low) 1)
  let start := Float.ofInt source.start
  let last := Float.ofNat (source.length - 1)
  return map.mapSamples fun height =>
    if low ≤ height ∧ height ≤ high then
      let fraction := Float.ofInt (height - low) / spread
      function.sample (start + fraction * last)
    else height

end Terrain.HeightMap
