import Terrain.Height

/-!
# Noise layers

A table from wave length to amplitude, in ascending order of wave length, that drives noise of
several octaves.
-/

namespace Terrain

/-- Wave lengths with their amplitudes, ascending. -/
structure NoiseLayers where
  layers : List (Extent × Height)
  deriving Repr, DecidableEq

namespace NoiseLayers

def empty : NoiseLayers := ⟨[]⟩

/-- Puts an entry in its place, replacing one of the same wave length. -/
def insertSorted (waveLength : Extent) (amplitude : Height) :
    List (Extent × Height) → List (Extent × Height)
  | [] => [(waveLength, amplitude)]
  | (other, height) :: rest =>
    if waveLength < other then (waveLength, amplitude) :: (other, height) :: rest
    else if waveLength = other then (waveLength, amplitude) :: rest
    else (other, height) :: insertSorted waveLength amplitude rest

def insert (table : NoiseLayers) (waveLength : Extent) (amplitude : Height) : NoiseLayers :=
  ⟨insertSorted waveLength amplitude table.layers⟩

/-- Octaves from `2 ^ power` downward, each weaker by `persistence`, while the amplitude is at
least one. -/
def octaves (persistence : Float) (amplitude : Float) (power : Nat) (done : NoiseLayers) :
    NoiseLayers :=
  if amplitude < 1.0 then done
  else
    let done := done.insert (Nat.pow 2 power) (truncateHeight amplitude)
    match power with
    | 0 => done
    | power + 1 => octaves persistence (amplitude * persistence) power done

/-- Octaves at every power of two up to a wave length. The longest wave takes half the height range
and each shorter one is weaker by `persistence`. -/
def withPersistence (maxWaveLength : Extent) (persistence : Float) : NoiseLayers :=
  octaves persistence (32767.0 / 2.0) (Nat.log2 (max maxWaveLength 1)) empty

/-- The octaves used when a script names none. -/
def standard : NoiseLayers := withPersistence 256 0.5

def isEmpty (table : NoiseLayers) : Bool := table.layers.isEmpty

def size (table : NoiseLayers) : Nat := table.layers.length

/-- Longest wave length, zero for an empty table. -/
def maxWaveLength (table : NoiseLayers) : Extent :=
  match table.layers.getLast? with
  | some (waveLength, _) => waveLength
  | none => 0

end NoiseLayers

end Terrain
