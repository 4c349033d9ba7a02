import Terrain.Native.Noise
import Terrain.Raster.Profile.Placement

/-!
# Height profiles

What the functions of height profiles record. Static functions make a profile, methods change one.
-/

namespace Terrain.Native

/-- One control point, from an entry of an array. -/
def controlPoint (call : NativeCall) (entry : Entry) : Query (Coordinate × Height) := do
  match ← Query.value entry.key, ← Query.value entry.value with
  | .number key, .number value => return (← call.toCoordinate key, ← call.toHeight value)
  | _, _ =>
    call.refuse .incorrectArgumentType "FromArray needs an array of numbers keyed by numbers"

/-- Control points from an array of heights by coordinate; of two at one coordinate the later one
counts. -/
def controlPoints (call : NativeCall) : Query (List (Coordinate × Height)) := do
  let items ← call.array 0
  return HeightProfile.keyPoints (← items.toList.mapM (controlPoint call))

/-- The maker of a static function. -/
def profileMaker? (call : NativeCall) : Option (Query (ProfileMaker × List Slot)) :=
  match call.name with
  | "Flat" => some do
    call.expect 0 1
    return (.flat (← call.optional 0 0 call.height), [])
  | "Gradient" => some do
    call.expect 4 4
    return (.gradient (← call.coordinate 0) (← call.coordinate 1) (← call.height 2) (← call.height 3), [])
  | "FromArray" => some do
    call.expect 1 1
    return (.ofKeys (← controlPoints call), [])
  | "Noise" => some do
    call.expect 0 2
    return (.noise (← call.noiseTable 0) (← call.seed 1), [])
  | "Slice" => some do
    call.expect 3 3
    let map ← call.map 0
    return (.slice (← call.direction 1) (← call.coordinate 2), [map])
  | "Clone" => some do
    call.expect 1 1
    return (.clone, [← call.profile 0])
  | _ => none

/-- A sum weighted by a mask; the addend is a height or a profile. The mask is looked at first. -/
def profileAddMasked (call : NativeCall) : Query (ProfileEdit × List Slot) := do
  call.expect 2 2
  let mask ← call.profile 1
  match ← call.value 0 with
  | .number _ => return (.addMasked (← call.height 0), [mask])
  | _ => return (.addProfileMasked, [← call.profile 0, mask])

/-- The edit of a method. -/
def profileEdit? (call : NativeCall) : Option (Query (ProfileEdit × List Slot)) :=
  match call.name with
  | "Abs" => some do
    call.expect 0 0
    return (.abs, [])
  | "Add" => some do
    call.expect 1 1
    return (.add (← call.height 0), [])
  | "AddProfile" => some do
    call.expect 1 1
    return (.addProfile, [← call.profile 0])
  | "AddMasked" => some (profileAddMasked call)
  | "Blur" => some do
    call.expect 1 1
    return (.blur (← call.extent 0), [])
  | "ClampHeights" => some do
    call.expect 2 2
    let (low, high) ← call.heightRange 0
    return (.clampHeights low high, [])
  | "Combine" => some do
    call.expect 2 2
    return (.combine, [← call.profile 0, ← call.profile 1])
  | "Crop" => some do
    call.expect 2 3
    return (.crop (← call.interval 0) (← call.optional 2 0 call.height), [])
  | "CropHeights" => some do
    call.expect 2 3
    let (low, high) ← call.heightRange 0
    return (.cropHeights low high (← call.optional 2 0 call.height), [])
  | "FillInterval" => some do
    call.expect 3 3
    return (.fillInterval (← call.interval 0) (← call.height 2), [])
  | "Flip" => some do
    call.expect 0 0
    return (.flip, [])
  | "Intersect" => some do
    call.expect 1 1
    return (.intersect, [← call.profile 0])
  | "Invert" => some do
    call.expect 0 0
    return (.invert, [])
  | "Move" => some do
    call.expect 1 1
    return (.move (← call.coordinate 0), [])
  | "Multiply" => some do
    call.expect 1 1
    return (.multiply (← call.number 0), [])
  | "MultiplyProfile" => some do
    call.expect 1 1
    return (.multiplyProfile, [← call.profile 0])
  | "NoiseLayer" => some do
    call.expect 2 3
    let (waveLength, amplitude) ← call.layer
    return (.noiseLayer waveLength amplitude (← call.seed 2), [])
  | "Pattern" => some do
    call.expect 3 3
    let tile ← call.profile 0
    return (.pattern (← call.interval 1), [tile])
  | "Rescale" => some do
    call.expect 1 1
    return (.rescale (← call.scale 0), [])
  | "Resize" => some do
    call.expect 2 3
    return (.resize (← call.interval 0) (← call.optional 2 0 call.height), [])
  | "Unify" => some do
    call.expect 1 1
    return (.unify, [← call.profile 0])
  | _ => none

end Terrain.Native
