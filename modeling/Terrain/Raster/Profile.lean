import Terrain.Failure
import Terrain.Height

/-!
# Height profiles

One-dimensional rasters of heights over a physical interval. A local index counts samples from the
start of the interval.

* `HeightProfile` — the raster; `filled`, `forLogical`, `memorySize`.
* `sampleAt`, `sample` — reading by local index, exact and between samples.
* `localInterval`, `localCoordinate`, `logicalCoordinate`, `scaledExtent` — conversions.
-/

namespace Terrain

structure HeightProfile where
  interval : Interval
  scale : Scale
  samples : Array Height
  deriving Inhabited

/-- A logical length as a number of physical samples. -/
def scaledExtent (scale : Scale) (extent : Extent) : Extent :=
  (Number.truncateTo 0 extentMax (Float.ofNat extent * scale)).toNat

/-- Greatest value a memory figure can have. -/
def memoryMax : Nat := 18446744073709551615

/-- Bytes of a header and of two-byte samples, which must fit 64 bits. -/
def checkMemory (header samples : Nat) : Except Breach Nat :=
  if header + 2 * samples ≤ memoryMax then .ok (header + 2 * samples) else .error .overflow

namespace HeightProfile

/-- A profile over a physical interval, of one height. -/
def filled (interval : Interval) (height : Height) (scale : Scale) : HeightProfile :=
  ⟨interval, scale, Array.replicate interval.length height⟩

/-- A profile over every physical sample a logical interval touches, of one height. -/
def forLogical (interval : Interval) (height : Height) (scale : Scale) : HeightProfile :=
  filled (interval.scaled scale) height scale

/-- Bytes of a profile beside its samples. -/
def headerSize : Nat := 40

/-- Bytes needed for a profile over a logical interval. -/
def memorySize (interval : Interval) (scale : Scale) : Except Breach Nat :=
  checkMemory headerSize (interval.scaled scale).length

/-- Bytes held by a profile. -/
def ownMemorySize (profile : HeightProfile) : Nat := headerSize + 2 * profile.samples.size

def length (profile : HeightProfile) : Extent := profile.interval.length

/-- The interval of local indices. -/
def bounds (profile : HeightProfile) : Interval := ⟨0, profile.interval.length⟩

/-- Position of a local index in the buffer; it must exist. -/
def indexOf (profile : HeightProfile) (x : Int) : Except Breach Nat :=
  if 0 ≤ x ∧ x < profile.interval.length then .ok x.toNat else .error .outsideProfile

/-- Sample at a local index that must exist. -/
def sampleAt (profile : HeightProfile) (x : Int) : Except Breach Height := do
  let i ← profile.indexOf x
  return profile.samples.getD i 0

/-- Sample at a local index, if there is one. -/
def sampleAt? (profile : HeightProfile) (x : Int) : Option Height :=
  if x < 0 then none else profile.samples[x.toNat]?

/-- Linear sample between local indices; positions outside move to the nearest end. -/
def sample (profile : HeightProfile) (x : Float) : Height :=
  let read (position : Float) := profile.samples.getD (Number.truncateTo 0 memoryMax position).toNat 0
  if profile.samples.isEmpty then 0
  else
    let x := Number.clamp 0.0 (Float.ofNat (profile.samples.size - 1)) x
    let left := Number.floor x
    let right := Number.ceil x
    if left == right then read left else lerp left right (read left) (read right) x

/-- A logical interval in local indices. The negated start must be a coordinate. -/
def localInterval (profile : HeightProfile) (logical : Interval) : Except Breach Interval := do
  let offset ← checkCoordinate (-profile.interval.start)
  return (logical.scaled profile.scale).translated offset

/-- A logical coordinate as a local index. -/
def localCoordinate (profile : HeightProfile) (logical : Coordinate) : Coordinate :=
  narrowCoordinate
    (Number.floorTo wideMin wideMax (Float.ofInt logical * profile.scale) - profile.interval.start)

/-- A fractional local index as a logical coordinate. -/
def logicalCoordinate (profile : HeightProfile) (position : Float) : Float :=
  (position + Float.ofInt profile.interval.start) / profile.scale

/-! ## Changing samples -/

/-- Changes every sample, knowing its local index. -/
def mapCells (profile : HeightProfile) (f : Nat → Height → Height) : HeightProfile :=
  { profile with samples := profile.samples.mapIdx f }

/-- Changes every sample. -/
def mapSamples (profile : HeightProfile) (f : Height → Height) : HeightProfile :=
  { profile with samples := profile.samples.map f }

/-- Local indices of an interval in ascending order; its end must be a coordinate. -/
def indices (interval : Interval) : Except Breach (List Int) := do
  let stop ← checkCoordinate (interval.start + wrapCoordinate interval.length)
  return Rectangle.span interval.start stop

/-- Local indices shared with a physical interval. -/
def overlap (profile : HeightProfile) (physical : Interval) : Except Breach (List Int) := do
  let offset ← checkCoordinate (-profile.interval.start)
  indices ((Interval.intersect profile.interval physical).translated offset)

/-- Changes the samples at some local indices. The change of a sample may need samples that do not
exist, and the sample itself may lie outside; either breaks off the operation. -/
def updateCells (profile : HeightProfile) (positions : List Int)
    (change : Int → Except Breach (Height → Height)) : Except Breach HeightProfile := do
  let size := profile.samples.size
  let samples ← positions.foldlM (fun (samples : Array Height) x => do
    let f ← change x
    if x < 0 ∨ (size : Int) ≤ x then throw .outsideProfile
    return samples.modify x.toNat f) profile.samples
  return { profile with samples }

end HeightProfile

end Terrain
