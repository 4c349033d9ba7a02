import Terrain.Raster.Profile

/-!
# Height maps

Two-dimensional rasters of heights. A map has a logical rectangle, which scripts see, and a physical
one, which is the same area in samples; local coordinates count samples from the corner of the
physical rectangle, and sample `(x, y)` stands at `x + width * y`.

* `HeightMap` — the raster; `create`, `memorySize`.
* `sampleAt`, `sample`, `sampleClamped` — reading by local coordinates, exact and between samples.
* `localRectangle`, `localPoint`, `logicalPoint`, … — conversions.
* `mapSamples`, `mapCells`, `updateCells` — the three ways every operation changes samples.
-/

namespace Terrain

structure HeightMap where
  logical : Rectangle
  raster : Rectangle
  scale : Scale
  samples : Array Height
  deriving Inhabited

namespace HeightMap

/-- A map with given rectangles, of one height. -/
def filled (logical raster : Rectangle) (height : Height) (scale : Scale) : HeightMap :=
  ⟨logical, raster, scale, Array.replicate raster.size.area height⟩

/-- A map over a logical rectangle, of one height. -/
def create (logical : Rectangle) (height : Height) (scale : Scale) : HeightMap :=
  filled logical (logical.scaled scale) height scale

/-- Bytes of a map beside its samples. -/
def headerSize : Nat := 64

/-- Bytes needed for a map over a logical rectangle. -/
def memorySize (logical : Rectangle) (scale : Scale) : Except Breach Nat :=
  checkMemory headerSize (logical.scaled scale).size.area

/-- Bytes held by a map. -/
def ownMemorySize (map : HeightMap) : Nat := headerSize + 2 * map.samples.size

/-- Samples in a row. -/
def width (map : HeightMap) : Extent := map.raster.size.width

/-- Number of rows. -/
def height (map : HeightMap) : Extent := map.raster.size.height

/-- The rectangle of local coordinates. -/
def bounds (map : HeightMap) : Rectangle := ⟨.origin, map.raster.size⟩

/-! ## Reading -/

/-- Position in the buffer of local coordinates that must exist. -/
def indexOf (size : Size) (point : Point) : Except Breach Nat :=
  if (⟨.origin, size⟩ : Rectangle).containsPoint point then
    .ok (point.x.toNat + size.width * point.y.toNat)
  else .error (.outsideMap point.x point.y size)

/-- Sample at local coordinates that must exist. -/
def sampleAt (map : HeightMap) (x y : Int) : Except Breach Height := do
  let i ← indexOf map.raster.size ⟨x, y⟩
  return map.samples.getD i 0

/-- Sample at local coordinates, if there is one. -/
def sampleAt? (map : HeightMap) (x y : Int) : Option Height :=
  (map.sampleAt x y).toOption

/-- Writes a sample if it exists. -/
def setIfInside (map : HeightMap) (x y : Int) (value : Height) : HeightMap :=
  match indexOf map.raster.size ⟨x, y⟩ with
  | .ok i => { map with samples := map.samples.modify i fun _ => value }
  | .error _ => map

/-- A position just above a whole number counts as that number. -/
def snap (x : Float) : Float :=
  let whole := Number.floor x
  if whole + 0.00005 > x then whole else x

/-- Bilinear sample at fractional local coordinates whose neighbours must exist. -/
def sample (map : HeightMap) (x y : Float) : Except Breach Height := do
  let x := snap x
  let y := snap y
  let left := Number.floorTo coordinateMin coordinateMax x
  let right := Number.ceilTo coordinateMin coordinateMax x
  let top := Number.floorTo coordinateMin coordinateMax y
  let bottom := Number.ceilTo coordinateMin coordinateMax y
  let inRow (row : Int) : Except Breach Height := do
    if left = right then map.sampleAt left row
    else
      let leftHeight ← map.sampleAt left row
      let rightHeight ← map.sampleAt right row
      return lerp (Float.ofInt left) (Float.ofInt right) leftHeight rightHeight x
  let upper ← inRow top
  if top = bottom then return upper
  else
    let lower ← inRow bottom
    return lerp (Float.ofInt top) (Float.ofInt bottom) upper lower y

/-- Bilinear sample with the position moved into the map. -/
def sampleClamped (map : HeightMap) (x y : Float) : Except Breach Height :=
  map.sample (Number.clamp 0.0 (Float.ofNat (map.width - 1)) x)
    (Number.clamp 0.0 (Float.ofNat (map.height - 1)) y)

/-! ## Conversions -/

/-- A logical rectangle in local coordinates. -/
def localRectangle (map : HeightMap) (logical : Rectangle) : Rectangle :=
  (logical.scaled map.scale).translated (-map.raster.position)

/-- A physical rectangle in local coordinates. -/
def localPhysical (map : HeightMap) (physical : Rectangle) : Rectangle :=
  physical.translated (-map.raster.position)

/-- A logical point in local coordinates. -/
def localPoint (map : HeightMap) (logical : Point) : Point :=
  logical.scaled map.scale - map.raster.position

/-- A physical point in local coordinates. -/
def localPhysicalPoint (map : HeightMap) (physical : Point) : Point :=
  physical - map.raster.position

/-- A fractional logical coordinate as a fractional local one. -/
def localCoordinate (map : HeightMap) (logical : Float) (direction : Direction) : Float :=
  logical * map.scale - Float.ofInt (map.raster.position.along direction)

/-- The logical point that contains a local sample. -/
def logicalPoint (map : HeightMap) (point : Point) : Point :=
  let absolute := point + map.raster.position
  let convert (coordinate : Coordinate) : Coordinate :=
    Number.floorTo coordinateMin coordinateMax (Float.ofInt coordinate / map.scale)
  ⟨convert absolute.x, convert absolute.y⟩

/-- A fractional local coordinate as a logical one, along the horizontal axis. -/
def logicalX (map : HeightMap) (x : Float) : Float :=
  (x + Float.ofInt map.raster.position.x) / map.scale

/-- A fractional local coordinate as a logical one, along the vertical axis. -/
def logicalY (map : HeightMap) (y : Float) : Float :=
  (y + Float.ofInt map.raster.position.y) / map.scale

/-- Local rectangle shared with a physical rectangle. -/
def overlap (map : HeightMap) (physical : Rectangle) : Rectangle :=
  map.localPhysical (.intersect map.raster physical)

/-! ## Changing samples -/

/-- Changes every sample. -/
def mapSamples (map : HeightMap) (f : Height → Height) : HeightMap :=
  { map with samples := map.samples.map f }

/-- Changes every sample at local coordinates, knowing them. In a map so wide that its local rectangle
ends behind the last coordinate, the samples from there on stay as they are. -/
def mapCells (map : HeightMap) (f : Point → Height → Height) : HeightMap :=
  let width := map.width
  { map with
    samples := map.bounds.cells.foldl (fun samples point =>
      samples.modify (point.x.toNat + width * point.y.toNat) (f point)) map.samples }

@[simp] theorem size_mapCells (map : HeightMap) (f : Point → Height → Height) :
    (map.mapCells f).samples.size = map.samples.size := by
  have kept (points : List Point) (samples : Array Height) : (points.foldl (fun samples point =>
      samples.modify (point.x.toNat + map.width * point.y.toNat) (f point)) samples).size =
        samples.size := by
    induction points generalizing samples with
    | nil => rfl
    | cons point points ih => rw [List.foldl_cons, ih, Array.size_modify]
  exact kept _ _

/-- Changes the samples of a local area in row order. The change of a sample may need samples that
do not exist, and the sample itself may lie outside; either breaks off the operation. -/
def updateCells (map : HeightMap) (area : Rectangle)
    (change : Point → Except Breach (Height → Height)) : Except Breach HeightMap := do
  let size := map.raster.size
  let samples ← area.cells.foldlM (fun (samples : Array Height) point => do
    let f ← change point
    let i ← indexOf size point
    return samples.modify i f) map.samples
  return { map with samples }

end HeightMap

end Terrain
