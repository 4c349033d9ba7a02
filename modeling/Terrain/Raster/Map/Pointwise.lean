import Terrain.Raster.Map

/-!
# Sample-by-sample operations on maps

Each sample of the result depends on the samples of the operands at the same point. Operations with
other maps change the samples that all operands cover and leave the others as they are.

* `zipWith`, `zipWith3` — the general operations on the overlap.
* `addMap`, `intersect`, `unify`, `combine`, … — their instances.
* `crop`, `fillRectangle`, `gradient`, `radialGradient` — operations that look at the place.
-/

namespace Terrain.HeightMap

/-! ## One map -/

def abs (map : HeightMap) : HeightMap := map.mapSamples absHeight

def invert (map : HeightMap) : HeightMap := map.mapSamples negHeight

def add (map : HeightMap) (addend : Height) : HeightMap := map.mapSamples (addHeights · addend)

def multiply (map : HeightMap) (factor : Float) : HeightMap :=
  map.mapSamples fun height => clampHeightFloat (Float.ofInt height * factor)

/-- Moves every sample into `[low, high]`, which must not be reversed when there is a sample. -/
def clampHeights (map : HeightMap) (low high : Height) : Except Breach HeightMap :=
  if high < low ∧ !map.samples.isEmpty then .error .boundsReversed
  else .ok (map.mapSamples (Number.clampInt low high))

/-- Replaces every sample outside `[low, high]`. -/
def cropHeights (map : HeightMap) (low high replacement : Height) : HeightMap :=
  map.mapSamples fun height => if height < low ∨ high < height then replacement else height

/-- Replaces every sample outside a logical rectangle. -/
def crop (map : HeightMap) (rectangle : Rectangle) (value : Height) : HeightMap :=
  let keep := map.localRectangle rectangle
  map.mapCells fun point height => if keep.containsPoint point then height else value

/-- Sets every sample inside a logical rectangle. -/
def fillRectangle (map : HeightMap) (rectangle : Rectangle) (value : Height) :
    Except Breach HeightMap :=
  map.updateCells (.intersect map.bounds (map.localRectangle rectangle)) fun _ => .ok fun _ => value

/-- Linear gradient along a logical segment. Samples that project before the source get `low`,
behind the destination `high`. -/
def gradient (map : HeightMap) (source destination : Point) (low high : Height) : HeightMap :=
  let start := map.localPoint source
  let stop := map.localPoint destination
  let gx := Float.ofInt stop.x - Float.ofInt start.x
  let gy := Float.ofInt stop.y - Float.ofInt start.y
  let lengthSquared := gx * gx + gy * gy
  if lengthSquared == 0.0 then map.mapSamples fun _ => low
  else
    map.mapCells fun point _ =>
      let px := Float.ofInt point.x - Float.ofInt start.x
      let py := Float.ofInt point.y - Float.ofInt start.y
      let t := (px * gx + py * gy) / lengthSquared
      if t ≤ 0.0 then low else if t ≥ 1.0 then high else lerp 0.0 1.0 low high t

/-- Radial gradient: `low` at the logical center, `high` at the radius and beyond. -/
def radialGradient (map : HeightMap) (center : Point) (radius : Extent) (low high : Height) :
    HeightMap :=
  let center := map.localPoint center
  let radius := Float.ofNat (scaledExtent map.scale radius)
  map.mapCells fun point _ =>
    let distance := point.distanceTo center
    if distance ≥ radius then (if radius == 0.0 && distance == 0.0 then low else high)
    else lerp 0.0 radius low high distance

/-! ## Two and three maps -/

/-- Sample of a map at local coordinates of another, shifted by the offset of their corners. -/
def sampleShifted (map : HeightMap) (point offset : Point) : Except Breach Height := do
  let x ← checkCoordinate (point.x + offset.x)
  let y ← checkCoordinate (point.y + offset.y)
  map.sampleAt x y

/-- Applies `f this other` wherever both maps have a sample. -/
def zipWith (f : Height → Height → Height) (map other : HeightMap) : Except Breach HeightMap :=
  let offset := map.raster.position - other.raster.position
  map.updateCells (map.overlap other.raster) fun point => do
    let value ← other.sampleShifted point offset
    return fun height => f height value

/-- Applies `f this first second` wherever all three maps have a sample. -/
def zipWith3 (f : Height → Height → Height → Height) (map first second : HeightMap) :
    Except Breach HeightMap :=
  let firstOffset := map.raster.position - first.raster.position
  let secondOffset := map.raster.position - second.raster.position
  map.updateCells (map.overlap (.intersect first.raster second.raster)) fun point => do
    let a ← first.sampleShifted point firstOffset
    let b ← second.sampleShifted point secondOffset
    return fun height => f height a b

def addMap (map addend : HeightMap) : Except Breach HeightMap := zipWith addHeights map addend

/-- Adds a height weighted by a mask. -/
def addMasked (map : HeightMap) (addend : Height) (mask : HeightMap) : Except Breach HeightMap :=
  zipWith (fun height m => addHeights height (weighted addend (maskFactor m))) map mask

def addMapMasked (map addend mask : HeightMap) : Except Breach HeightMap :=
  zipWith3 (fun height a m => addHeights height (weighted a (maskFactor m))) map addend mask

/-- Blends two maps: the mask weighs the first, its complement the second. -/
def combine (map other mask : HeightMap) : Except Breach HeightMap :=
  zipWith3 (fun height o m =>
    let factor := maskFactor m
    addHeights (weighted height factor) (weighted o (1.0 - factor))) map other mask

/-- The lower of two maps. -/
def intersect (map other : HeightMap) : Except Breach HeightMap :=
  zipWith (fun a b => min a b) map other

/-- The higher of two maps. -/
def unify (map other : HeightMap) : Except Breach HeightMap :=
  zipWith (fun a b => max a b) map other

/-- Multiplies by the weights of another map. -/
def multiplyMap (map factor : HeightMap) : Except Breach HeightMap :=
  zipWith (fun height f => weighted height (maskFactor f)) map factor

/-- Copies what the other map covers. -/
def copyOverlap (map other : HeightMap) : Except Breach HeightMap :=
  zipWith (fun _ value => value) map other

end Terrain.HeightMap
