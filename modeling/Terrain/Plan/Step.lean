import Terrain.Failure
import Terrain.Height
import Terrain.Plane.Matrix
import Terrain.Raster.NoiseLayers

/-!
# Recorded steps

A script draws nothing itself: it records steps, with every number resolved, and the renderer carries
them out later. A step works on slots, which are numbers of rasters in a plan. A maker fills its
target slot with a new raster, an edit changes the raster that is there, and a yield copies a
rectangle of a map into the results.

* `MapMaker`, `MapEdit`, `ProfileMaker`, `ProfileEdit`, `Action` — what a step does.
* `Step` — an action with its target slot, the slots it reads beside it, and the place in the script it
  came from.
* `Step.readSlots` — the slots a step depends on.
-/

namespace Terrain

/-- Number of a raster in a rendering plan. -/
abbrev Slot := Nat

/-- A new map. -/
inductive MapMaker where
  | flat (height : Height)
  | noise (table : NoiseLayers) (seed : Nat)
  | gradient (source destination : Point) (low high : Height)
  | radialGradient (center : Point) (radius : Extent) (low high : Height)
  | projection (direction : Direction)
  | clone

/-- A change of a map. -/
inductive MapEdit where
  | abs
  | add (height : Height)
  | addMap
  | addMasked (height : Height)
  | addMapMasked
  | blur (radius : Extent)
  | clampHeights (low high : Height)
  | combine
  | convexity (radius : Extent)
  | crop (rectangle : Rectangle) (height : Height)
  | cropHeights (low high replacement : Height)
  | distanceMap (maxDistance : Extent)
  | distort (maxDistance : Extent)
  | drawLine (start stop : Point) (height : Height)
  | fillRectangle (rectangle : Rectangle) (height : Height)
  | intersect
  | invert
  | move (offset : Point)
  | multiply (factor : Float)
  | multiplyMap
  | noiseLayer (waveLength : Extent) (amplitude : Height) (seed : Nat) (ridged : Bool)
  | pattern (repeated : Rectangle)
  | rescale (horizontal vertical : Scale)
  | resize (rectangle : Rectangle) (height : Height)
  | shift (maxDistance : Extent) (direction : Direction)
  | transform (matrix : Matrix)
  | transformHeights (interval : Interval) (low high : Height)
  | unify

/-- A new profile. -/
inductive ProfileMaker where
  | flat (height : Height)
  | gradient (source destination : Coordinate) (low high : Height)
  | ofKeys (keys : List (Coordinate × Height))
  | noise (table : NoiseLayers) (seed : Nat)
  | slice (direction : Direction) (coordinate : Coordinate)
  | clone

/-- A change of a profile. -/
inductive ProfileEdit where
  | abs
  | add (height : Height)
  | addProfile
  | addMasked (height : Height)
  | addProfileMasked
  | blur (radius : Extent)
  | clampHeights (low high : Height)
  | combine
  | crop (interval : Interval) (height : Height)
  | cropHeights (low high replacement : Height)
  | fillInterval (interval : Interval) (height : Height)
  | flip
  | intersect
  | invert
  | move (offset : Coordinate)
  | multiply (factor : Float)
  | multiplyProfile
  | noiseLayer (waveLength : Extent) (amplitude : Height) (seed : Nat)
  | pattern (repeated : Interval)
  | rescale (factor : Scale)
  | resize (interval : Interval) (height : Height)
  | unify

/-- What a step does to its target. -/
inductive Action where
  | makeMap (maker : MapMaker)
  | editMap (edit : MapEdit)
  | yield (name : String) (rectangle : Rectangle)
  | makeProfile (maker : ProfileMaker)
  | editProfile (edit : ProfileEdit)

/-! ## Names -/

def MapMaker.name : MapMaker → String
  | flat .. => "Flat"
  | noise .. => "Noise"
  | gradient .. => "Gradient"
  | radialGradient .. => "RadialGradient"
  | projection .. => "Projection"
  | clone => "Clone"

def MapEdit.name : MapEdit → String
  | abs => "Abs"
  | add .. => "Add"
  | addMap => "AddMap"
  | addMasked .. => "AddMasked"
  | addMapMasked => "AddMapMasked"
  | blur .. => "Blur"
  | clampHeights .. => "ClampHeights"
  | combine => "Combine"
  | convexity .. => "ConvexityMap"
  | crop .. => "Crop"
  | cropHeights .. => "CropHeights"
  | distanceMap .. => "DistanceMap"
  | distort .. => "Distort"
  | drawLine .. => "DrawLine"
  | fillRectangle .. => "FillRectangle"
  | intersect => "Intersect"
  | invert => "Invert"
  | move .. => "Move"
  | multiply .. => "Multiply"
  | multiplyMap => "MultiplyMap"
  | noiseLayer .. => "NoiseLayer"
  | pattern .. => "Pattern"
  | rescale .. => "Rescale"
  | resize .. => "Resize"
  | shift .. => "Shift"
  | transform .. => "Transform"
  | transformHeights .. => "TransformHeights"
  | unify => "Unify"

def ProfileMaker.name : ProfileMaker → String
  | flat .. => "Flat"
  | gradient .. => "Gradient"
  | ofKeys .. => "FromArray"
  | noise .. => "Noise"
  | slice .. => "Slice"
  | clone => "Clone"

def ProfileEdit.name : ProfileEdit → String
  | abs => "Abs"
  | add .. => "Add"
  | addProfile => "AddProfile"
  | addMasked .. => "AddMasked"
  | addProfileMasked => "AddProfileMasked"
  | blur .. => "Blur"
  | clampHeights .. => "ClampHeights"
  | combine => "Combine"
  | crop .. => "Crop"
  | cropHeights .. => "CropHeights"
  | fillInterval .. => "FillInterval"
  | flip => "Flip"
  | intersect => "Intersect"
  | invert => "Invert"
  | move .. => "Move"
  | multiply .. => "Multiply"
  | multiplyProfile => "MultiplyProfile"
  | noiseLayer .. => "NoiseLayer"
  | pattern .. => "Pattern"
  | rescale .. => "Rescale"
  | resize .. => "Resize"
  | unify => "Unify"

namespace Action

def name : Action → String
  | makeMap maker => "HeightMap." ++ maker.name
  | editMap edit => "HeightMap." ++ edit.name
  | yield .. => "Yield"
  | makeProfile maker => "HeightProfile." ++ maker.name
  | editProfile edit => "HeightProfile." ++ edit.name

/-- Whether the action fills its target instead of working on the raster that is there. -/
def isMaker : Action → Bool
  | makeMap _ | makeProfile _ => true
  | editMap _ | yield .. | editProfile _ => false

/-- Kind of the target. -/
def kind : Action → RasterKind
  | makeMap _ | editMap _ | yield .. => .map
  | makeProfile _ | editProfile _ => .profile

end Action

/-- One recorded step. -/
structure Step where
  location : Location
  action : Action
  /-- Slots read beside the target, in the order in which the action counts them. -/
  arguments : List Slot
  target : Slot

namespace Step

def isMaker (step : Step) : Bool := step.action.isMaker

/-- Slots whose content the step reads: the arguments and, unless it fills it, the target. -/
def readSlots (step : Step) : List Slot :=
  step.arguments ++ if step.isMaker then [] else [step.target]

/-- Text used in listings. -/
def describe (step : Step) : String :=
  let slots := match step.arguments with
    | [] => ""
    | slots => " (" ++ ", ".intercalate (slots.map toString) ++ ")"
  s!"{step.action.name} -> {step.target}{slots} at {step.location.describe}"

end Step

end Terrain
