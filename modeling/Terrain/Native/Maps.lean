import Terrain.Native.Noise

/-!
# Height maps

What the functions of height maps record. Static functions make a map, methods change one.
-/

namespace Terrain.Native

/-- The maker of a static function. -/
def mapMaker? (call : NativeCall) : Option (Query (MapMaker × List Slot)) :=
  match call.name with
  | "Flat" => some do
    call.expect 0 1
    return (.flat (← call.optional 0 0 call.height), [])
  | "Noise" => some do
    call.expect 0 2
    return (.noise (← call.noiseTable 0) (← call.seed 1), [])
  | "Gradient" => some do
    call.expect 4 4
    return (.gradient (← call.point 0) (← call.point 1) (← call.height 2) (← call.height 3), [])
  | "RadialGradient" => some do
    call.expect 4 4
    return (.radialGradient (← call.point 0) (← call.extent 1) (← call.height 2) (← call.height 3), [])
  | "Projection" => some do
    call.expect 2 2
    let profile ← call.profile 0
    return (.projection (← call.direction 1), [profile])
  | "Clone" => some do
    call.expect 1 1
    return (.clone, [← call.map 0])
  | _ => none

/-- A sum weighted by a mask; the addend is a height or a map. The mask is looked at first. -/
def mapAddMasked (call : NativeCall) : Query (MapEdit × List Slot) := do
  call.expect 2 2
  let mask ← call.map 1
  match ← call.value 0 with
  | .number _ => return (.addMasked (← call.height 0), [mask])
  | _ => return (.addMapMasked, [← call.map 0, mask])

/-- A linear transformation, which must be invertible. -/
def mapTransform (call : NativeCall) : Query (MapEdit × List Slot) := do
  call.expect 4 4
  let matrix : Matrix :=
    { xx := ← call.number 0, xy := ← call.number 1, yx := ← call.number 2, yy := ← call.number 3
      tx := 0.0, ty := 0.0 }
  if matrix.isInvertible then return (.transform matrix, [])
  else call.refuse .nonInvertibleTransformation "transformation matrix is not invertible"

/-- The edit of a method. -/
def mapEdit? (call : NativeCall) : Option (Query (MapEdit × List Slot)) :=
  match call.name with
  | "Abs" => some do
    call.expect 0 0
    return (.abs, [])
  | "Add" => some do
    call.expect 1 1
    return (.add (← call.height 0), [])
  | "AddMap" => some do
    call.expect 1 1
    return (.addMap, [← call.map 0])
  | "AddMasked" => some (mapAddMasked call)
  | "Blur" => some do
    call.expect 1 1
    return (.blur (← call.extent 0), [])
  | "ClampHeights" => some do
    call.expect 2 2
    let (low, high) ← call.heightRange 0
    return (.clampHeights low high, [])
  | "Combine" => some do
    call.expect 2 2
    return (.combine, [← call.map 0, ← call.map 1])
  | "ConvexityMap" => some do
    call.expect 1 1
    return (.convexity (← call.extent 0), [])
  | "Crop" => some do
    call.expect 2 3
    return (.crop (← call.rectangle 0) (← call.optional 2 0 call.height), [])
  | "CropHeights" => some do
    call.expect 2 3
    let (low, high) ← call.heightRange 0
    return (.cropHeights low high (← call.optional 2 0 call.height), [])
  | "DistanceMap" => some do
    call.expect 1 1
    return (.distanceMap (← call.extent 0), [])
  | "Distort" => some do
    call.expect 3 3
    let arguments := [← call.map 0, ← call.map 1]
    return (.distort (← call.extent 2), arguments)
  | "DrawLine" => some do
    call.expect 3 3
    return (.drawLine (← call.point 0) (← call.point 1) (← call.height 2), [])
  | "FillRectangle" => some do
    call.expect 3 3
    return (.fillRectangle (← call.rectangle 0) (← call.height 2), [])
  | "Intersect" => some do
    call.expect 1 1
    return (.intersect, [← call.map 0])
  | "Invert" => some do
    call.expect 0 0
    return (.invert, [])
  | "Move" => some do
    call.expect 1 1
    return (.move (← call.point 0), [])
  | "Multiply" => some do
    call.expect 1 1
    return (.multiply (← call.number 0), [])
  | "MultiplyMap" => some do
    call.expect 1 1
    return (.multiplyMap, [← call.map 0])
  | "NoiseLayer" => some do
    call.expect 2 4
    let (waveLength, amplitude) ← call.layer
    let ridged ← call.optional 2 false call.boolean
    return (.noiseLayer waveLength amplitude (← call.seed 3) ridged, [])
  | "Pattern" => some do
    call.expect 3 3
    let tile ← call.map 0
    return (.pattern (← call.rectangle 1), [tile])
  | "Rescale" => some do
    call.expect 1 2
    let horizontal ← call.scale 0
    return (.rescale horizontal (← call.optional 1 horizontal call.scale), [])
  | "Resize" => some do
    call.expect 2 3
    return (.resize (← call.rectangle 0) (← call.optional 2 0 call.height), [])
  | "Shift" => some do
    call.expect 3 3
    let profile ← call.profile 0
    return (.shift (← call.extent 1) (← call.direction 2), [profile])
  | "Transform" => some (mapTransform call)
  | "TransformHeights" => some do
    call.expect 3 5
    let function ← call.profile 0
    return (.transformHeights (← call.interval 1) (← call.optional 3 heightMin call.height)
      (← call.optional 4 heightMax call.height), [function])
  | "Unify" => some do
    call.expect 1 1
    return (.unify, [← call.map 0])
  | _ => none

end Terrain.Native
