import Terrain.Raster.Map
import Terrain.Raster.Profile.Pointwise

/-!
# Moving, resampling and filling profiles

Operations that change where a profile lies, or that fill it from key points, from a pattern or from
a line of a map.
-/

namespace Terrain.HeightProfile

/-- The part of a profile inside a physical interval; samples it does not cover are 0. -/
def cutout (source : HeightProfile) (interval : Interval) : Except Breach HeightProfile :=
  (filled interval 0 source.scale).copyOverlap source

/-- Reflects the profile around coordinate 0. -/
def flip (profile : HeightProfile) : HeightProfile :=
  { profile with
    samples := profile.samples.reverse
    interval := ⟨narrowCoordinate (-profile.interval.stop), profile.interval.length⟩ }

/-- Moves the sample at logical `x` to `x + offset`. -/
def moveBy (profile : HeightProfile) (offset : Coordinate) : HeightProfile :=
  { profile with
    interval := profile.interval.translated (Point.scaleCoordinate offset profile.scale) }

/-- Step in the old samples for one step in the new ones, so that both ends meet. -/
def resampleStep (newLength oldLength : Extent) : Float :=
  if newLength ≤ 1 ∨ oldLength ≤ 1 then 0.0
  else Float.ofNat (oldLength - 1) / Float.ofNat (newLength - 1)

/-- Resamples the profile so that its footprint grows by a factor. -/
def rescale (profile : HeightProfile) (factor : Scale) : HeightProfile :=
  let interval := profile.interval.stretched factor
  let step := resampleStep interval.length profile.interval.length
  (filled interval 0 profile.scale).mapCells fun x _ => profile.sample (Float.ofNat x * step)

/-- Reallocates to a logical interval; new samples get a height. -/
def resize (profile : HeightProfile) (interval : Interval) (value : Height) :
    Except Breach HeightProfile :=
  (forLogical interval value profile.scale).copyOverlap profile

/-- Puts a key point in its place, replacing one at the same coordinate. -/
def insertKey (coordinate : Coordinate) (height : Height) :
    List (Coordinate × Height) → List (Coordinate × Height)
  | [] => [(coordinate, height)]
  | (other, value) :: rest =>
    if coordinate < other then (coordinate, height) :: (other, value) :: rest
    else if coordinate = other then (coordinate, height) :: rest
    else (other, value) :: insertKey coordinate height rest

/-- Key points in ascending order; of those at one coordinate the last counts. -/
def keyPoints (points : List (Coordinate × Height)) : List (Coordinate × Height) :=
  points.foldl (fun keys point => insertKey point.1 point.2 keys) []

/-- The greatest key at most `probe`, in ascending key points. -/
def keyAtMost? (keys : List (Coordinate × Height)) (probe : Coordinate) :
    Option (Coordinate × Height) :=
  (keys.takeWhile fun key => key.1 ≤ probe).getLast?

/-- The least key above `probe`, in ascending key points. -/
def keyAbove? (keys : List (Coordinate × Height)) (probe : Coordinate) :
    Option (Coordinate × Height) :=
  keys.find? fun key => narrowCoordinate (probe + 1) ≤ key.1

/-- Piecewise linear through ascending logical key points; beyond the first and the last key it keeps
their heights. Without keys nothing changes. -/
def ofKeys (profile : HeightProfile) (keys : List (Coordinate × Height)) : HeightProfile :=
  match keys.head?, keys.getLast? with
  | some first, some last =>
    profile.mapCells fun i _ =>
      let logical := profile.logicalCoordinate (Float.ofNat i)
      if logical ≤ Float.ofInt first.1 then first.2
      else if logical ≥ Float.ofInt last.1 then last.2
      else
        let probe := Number.floorTo coordinateMin coordinateMax logical
        let lower := (keyAtMost? keys probe).getD first
        let upper := (keyAbove? keys probe).getD last
        if lower.1 = upper.1 then lower.2
        else lerp (Float.ofInt lower.1) (Float.ofInt upper.1) lower.2 upper.2 logical
  | _, _ => profile

/-- Tiles a logical interval of another profile over the whole profile. -/
def pattern (profile tile : HeightProfile) (interval : Interval) : Except Breach HeightProfile := do
  if interval.isEmpty then return profile
  let source := Interval.intersect (← tile.localInterval interval) tile.bounds
  if source.isEmpty then return profile
  profile.updateCells (Rectangle.span 0 profile.samples.size) fun x => do
    let phase := wrapCoordinate ((x + profile.interval.start).emod source.length)
    let value ← tile.sampleAt (← checkCoordinate (phase + source.start))
    return fun _ => value

/-- Copies a line of a map, one sample wide. A horizontal profile reads the row at a logical
coordinate, a vertical one the column; samples the map does not cover stay as they are. -/
def slice (profile : HeightProfile) (map : HeightMap) (direction : Direction)
    (coordinate : Coordinate) : Except Breach HeightProfile := do
  let line := Point.scaleCoordinate coordinate profile.scale
  let along := map.raster.along direction
  let across := map.raster.across direction
  if !across.contains line then return profile
  let localLine ← checkCoordinate (line - across.start)
  let offset ← checkCoordinate (profile.interval.start - along.start)
  let positions ← profile.overlap along
  profile.updateCells positions fun x => do
    let position ← checkCoordinate (x + offset)
    let value ← match direction with
      | .horizontal => map.sampleAt position localLine
      | .vertical => map.sampleAt localLine position
    return fun _ => value

end Terrain.HeightProfile
