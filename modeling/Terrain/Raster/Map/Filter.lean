import Terrain.Line.Blur
import Terrain.Line.Distance
import Terrain.Line.Grid
import Terrain.Raster.Map.Pointwise
import Terrain.Raster.Profile.Pointwise

/-!
# Neighbourhood operations

Blurs, the difference of a raster from its blur, distances to the ground, and distortion.
-/

namespace Terrain

def HeightProfile.blur (profile : HeightProfile) (radius : Extent) : HeightProfile :=
  { profile with
    samples := Line.blurLine (scaledExtent profile.scale radius) profile.samples }

namespace HeightMap

/-- Box blur along one axis; the radius is logical. -/
def blurIn (map : HeightMap) (radius : Extent) (direction : Direction) : HeightMap :=
  let kernel := Line.blurLine (scaledExtent map.scale radius)
  match direction with
  | .horizontal => { map with samples := Grid.mapRows map.width map.height kernel map.samples }
  | .vertical => { map with samples := Grid.mapColumns map.width map.height kernel map.samples }

/-- Box blur along rows, then along columns. -/
def blur (map : HeightMap) (radius : Extent) : HeightMap :=
  (map.blurIn radius .horizontal).blurIn radius .vertical

/-- Difference between a map and its blur. -/
def convexityMap (map : HeightMap) (radius : Extent) : Except Breach HeightMap :=
  (map.blur radius).invert.addMap map

section Distances

variable {α : Type} [Add α] [Sub α] [Mul α] [Div α] [LE α] [LT α] [DecidableLE α] [DecidableLT α]
  [Inhabited α]

/-- Squared distances to the nearest sample that is not positive, cut off at `limit ^ 2`: one
transform along rows, one along columns. The arithmetic is a parameter. -/
def squaredDistances (ofNat : Nat → α) (limit : Nat) (map : HeightMap) : Array α :=
  let costs := map.samples.map fun height =>
    if height ≤ 0 then ofNat 0 else ofNat limit * ofNat limit
  let kernel := Line.distanceTransform ofNat
  Grid.mapColumns map.width map.height kernel (Grid.mapRows map.width map.height kernel costs)

end Distances

/-- Distance to the nearest sample that is not positive; the greatest distance maps to the greatest
height. -/
def distanceMap (map : HeightMap) (maxDistance : Extent) : HeightMap :=
  let limit := max (scaledExtent map.scale maxDistance) 1
  let distances : Array Float := map.squaredDistances Float.ofNat limit
  { map with
    samples := distances.map fun squared =>
      clampHeightFloat (squared.sqrt * 32767.0 / Float.ofNat limit) }

/-- Displaces samples by two maps; the greatest height moves by the greatest distance. -/
def distort (map horizontal vertical : HeightMap) (maxDistance : Extent) :
    Except Breach HeightMap :=
  let factor := Float.ofNat (scaledExtent map.scale maxDistance) / 32767.0
  let horizontalOffset := map.raster.position - horizontal.raster.position
  let verticalOffset := map.raster.position - vertical.raster.position
  map.updateCells (map.overlap (.intersect horizontal.raster vertical.raster)) fun point => do
    let dx := Float.ofInt (← horizontal.sampleShifted point horizontalOffset) * factor
    let dy := Float.ofInt (← vertical.sampleShifted point verticalOffset) * factor
    let value ← map.sampleClamped (Float.ofInt point.x + dx) (Float.ofInt point.y + dy)
    return fun _ => value

end HeightMap

end Terrain
