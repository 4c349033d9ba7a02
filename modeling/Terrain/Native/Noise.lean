import Terrain.Native.Arguments

/-!
# Arguments of noise

Layers, seeds and single waves, shared by maps and profiles.
-/

namespace Terrain.NativeCall

/-- A wave length, which is a whole number from one on, and an amplitude in `(0, 1]`. -/
def wave (call : NativeCall) (waveLength amplitude : Float) : Query (Extent × Height) :=
  if !Number.isWhole waveLength || waveLength < 1.0 || 4294967295.0 < waveLength then
    call.refuse .nonpositiveWaveLength
      s!"noise wave length {Decimal.plain waveLength} must be a positive integer"
  else
    match numberToHeight? amplitude with
    | some height =>
      if 0 < height then return ((Number.truncateTo 0 extentMax waveLength).toNat, height)
      else refuseAmplitude
    | none => refuseAmplitude
where
  refuseAmplitude : Query (Extent × Height) :=
    call.refuse .nonpositiveAmplitude
      s!"noise amplitude {Decimal.plain amplitude} must be in (0, 1]"

/-- Wave length and amplitude of a single layer, the first two arguments. -/
def layer (call : NativeCall) : Query (Extent × Height) := do
  let waveLength ← call.number 0
  let amplitude ← call.number 1
  call.wave waveLength amplitude

/-- One layer of a table, from an entry of an array. -/
def tableEntry (call : NativeCall) (entry : Entry) : Query (Extent × Height) := do
  let waveLength ← match ← Query.value entry.key with
    | .number value => pure value
    | other =>
      call.refuse .incorrectArgumentType
        s!"noise wave lengths must be numbers, got {other.typeName}"
  let amplitude ← match ← Query.value entry.value with
    | .number value => pure value
    | other =>
      call.refuse .incorrectArgumentType s!"noise amplitudes must be numbers, got {other.typeName}"
  call.wave waveLength amplitude

/-- A table of layers: an array from wave lengths to amplitudes, or the standard one if the argument
is missing or null. -/
def noiseTable (call : NativeCall) (index : Nat) : Query NoiseLayers := do
  if !call.has index then return .standard
  if let .null ← call.value index then return .standard
  let items ← call.array index
  let layers ← items.toList.mapM call.tableEntry
  return layers.foldl (fun table (waveLength, amplitude) => table.insert waveLength amplitude) .empty

/-- The optional seed of a call, mixed with the seed of the run. -/
def seed (call : NativeCall) (index : Nat) : Query Nat := do
  let inner ← call.optional index 0.0 call.number
  if !Number.isWhole inner || inner < 0.0 || 4294967295.0 < inner then
    call.refuse .numberOverflow s!"seed {Decimal.plain inner} is not a valid seed"
  else
    return combineSeeds (Number.truncateTo 0 extentMax inner).toNat (← read).parameters.seed

end Terrain.NativeCall
