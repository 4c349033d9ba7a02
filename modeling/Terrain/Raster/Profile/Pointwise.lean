import Terrain.Raster.Profile

/-!
# Sample-by-sample operations on profiles

Each sample of the result depends on the samples of the operands at the same coordinate. Operations
with other profiles change the samples that all operands cover and leave the others as they are.

* `zipWith`, `zipWith3` — the general operations on the overlap.
* `addProfile`, `intersect`, `unify`, `combine`, … — their instances.
-/

namespace Terrain.HeightProfile

/-! ## One profile -/

def abs (profile : HeightProfile) : HeightProfile := profile.mapSamples absHeight

def invert (profile : HeightProfile) : HeightProfile := profile.mapSamples negHeight

def add (profile : HeightProfile) (addend : Height) : HeightProfile :=
  profile.mapSamples (addHeights · addend)

def multiply (profile : HeightProfile) (factor : Float) : HeightProfile :=
  profile.mapSamples fun height => clampHeightFloat (Float.ofInt height * factor)

/-- Moves every sample into `[low, high]`, which must not be reversed when there is a sample. -/
def clampHeights (profile : HeightProfile) (low high : Height) : Except Breach HeightProfile :=
  if high < low ∧ !profile.samples.isEmpty then .error .boundsReversed
  else .ok (profile.mapSamples (Number.clampInt low high))

/-- Replaces every sample outside `[low, high]`. -/
def cropHeights (profile : HeightProfile) (low high replacement : Height) : HeightProfile :=
  profile.mapSamples fun height => if height < low ∨ high < height then replacement else height

/-- Replaces every sample outside a logical interval. -/
def crop (profile : HeightProfile) (interval : Interval) (value : Height) :
    Except Breach HeightProfile := do
  let keep ← profile.localInterval interval
  return profile.mapCells fun x height =>
    if keep.contains (wrapCoordinate x) then height else value

/-- Sets every sample inside a logical interval. -/
def fillInterval (profile : HeightProfile) (interval : Interval) (value : Height) :
    Except Breach HeightProfile := do
  let inside ← profile.localInterval interval
  let positions ← indices (.intersect profile.bounds inside)
  profile.updateCells positions fun _ => .ok fun _ => value

/-- Linear gradient between two logical coordinates. Samples beyond the ends take the heights of the
ends if `fillOutside` is set, and stay as they are otherwise. -/
def gradient (profile : HeightProfile) (source destination : Coordinate) (low high : Height)
    (fillOutside : Bool) : HeightProfile :=
  let start := Float.ofInt (profile.localCoordinate source)
  let stop := Float.ofInt (profile.localCoordinate destination)
  profile.mapCells fun i height =>
    let x := Float.ofNat i
    let t := if start == stop then (if x < start then -1.0 else 2.0) else (x - start) / (stop - start)
    if t < 0.0 then (if fillOutside then low else height)
    else if t > 1.0 then (if fillOutside then high else height)
    else lerp 0.0 1.0 low high t

/-! ## Two and three profiles -/

/-- Applies `f this other` wherever both profiles have a sample. -/
def zipWith (f : Height → Height → Height) (profile other : HeightProfile) :
    Except Breach HeightProfile := do
  let offset ← checkCoordinate (profile.interval.start - other.interval.start)
  let positions ← profile.overlap other.interval
  profile.updateCells positions fun x => do
    let value ← other.sampleAt (← checkCoordinate (x + offset))
    return fun height => f height value

/-- Applies `f this first second` wherever all three profiles have a sample. -/
def zipWith3 (f : Height → Height → Height → Height) (profile first second : HeightProfile) :
    Except Breach HeightProfile := do
  let firstOffset ← checkCoordinate (profile.interval.start - first.interval.start)
  let secondOffset ← checkCoordinate (profile.interval.start - second.interval.start)
  let positions ← profile.overlap (.intersect first.interval second.interval)
  profile.updateCells positions fun x => do
    let a ← first.sampleAt (← checkCoordinate (x + firstOffset))
    let b ← second.sampleAt (← checkCoordinate (x + secondOffset))
    return fun height => f height a b

def addProfile (profile addend : HeightProfile) : Except Breach HeightProfile :=
  zipWith addHeights profile addend

/-- Adds a height weighted by a mask. -/
def addMasked (profile : HeightProfile) (addend : Height) (mask : HeightProfile) :
    Except Breach HeightProfile :=
  zipWith (fun height m => addHeights height (weighted addend (maskFactor m))) profile mask

def addProfileMasked (profile addend mask : HeightProfile) : Except Breach HeightProfile :=
  zipWith3 (fun height a m => addHeights height (weighted a (maskFactor m))) profile addend mask

/-- Blends two profiles: the mask weighs the first, its complement the second. -/
def combine (profile other mask : HeightProfile) : Except Breach HeightProfile :=
  zipWith3 (fun height o m =>
    let factor := maskFactor m
    addHeights (weighted height factor) (weighted o (1.0 - factor))) profile other mask

/-- The lower of two profiles. -/
def intersect (profile other : HeightProfile) : Except Breach HeightProfile :=
  zipWith (fun a b => min a b) profile other

/-- The higher of two profiles. -/
def unify (profile other : HeightProfile) : Except Breach HeightProfile :=
  zipWith (fun a b => max a b) profile other

/-- Multiplies by the weights of another profile. -/
def multiplyProfile (profile factor : HeightProfile) : Except Breach HeightProfile :=
  zipWith (fun height f => weighted height (maskFactor f)) profile factor

/-- Copies what the other profile covers. -/
def copyOverlap (profile other : HeightProfile) : Except Breach HeightProfile :=
  zipWith (fun _ value => value) profile other

end Terrain.HeightProfile
