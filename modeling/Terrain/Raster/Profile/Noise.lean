import Terrain.Line.Spline
import Terrain.Random.Sequence
import Terrain.Raster.NoiseLayers
import Terrain.Raster.Profile

/-!
# Noise on profiles

Lattice noise keyed by logical coordinates, so that it does not depend on the raster it is drawn
into. A profile reads row zero of the lattice.

* `Terrain.latticeCoordinates` — the four lattice coordinates around a position.
* `noiseLayer` — adds one octave.
* `noise` — replaces the content by all octaves of a table.
-/

namespace Terrain

/-- Multiples of a wave length around a position: two at or below it and two above. -/
def latticeCoordinates (position : Float) (waveLength : Extent) : Int × Int × Int × Int :=
  let base := Number.floorTo wideMin wideMax position
  let below := multipleAtMost base waveLength
  let above := multipleAbove base waveLength
  (multipleBelow below waveLength, below, above, multipleAbove above waveLength)

/-- The lattice value at a point, in `[-amplitude, amplitude]`. -/
def Lattice.height (lattice : Lattice) (amplitude : Height) (x y : Int) : Int :=
  lattice.intAt ⟨wrapCoordinate x, wrapCoordinate y⟩ (-amplitude) amplitude

namespace HeightProfile

/-- What an octave adds to the sample at a local index. -/
def noiseAt (profile : HeightProfile) (waveLength : Extent) (amplitude : Height)
    (lattice : Lattice) (i : Nat) : Float :=
  let position := profile.logicalCoordinate (Float.ofNat i)
  let (x0, x1, x2, x3) := latticeCoordinates position waveLength
  let value (x : Int) := Float.ofInt (lattice.height amplitude x 0)
  Line.catmullRom (value x0) (value x1) (value x2) (value x3)
    ((position - Float.ofInt x1) / Float.ofNat waveLength)

/-- Adds one octave. A wave of one physical sample takes the lattice values themselves, a longer one
the spline through them, and a shorter one adds nothing. -/
def noiseLayer (profile : HeightProfile) (waveLength : Extent) (amplitude : Height)
    (seed step : Nat) : Except Breach HeightProfile :=
  let lattice : Lattice := ⟨seed, step⟩
  let physical := scaledExtent profile.scale waveLength
  if physical = 0 ∨ profile.samples.isEmpty then .ok profile
  else if amplitude < 0 then .error .boundsReversed
  else if physical = 1 then
    .ok <| profile.mapCells fun i height =>
      let x := Number.floorTo wideMin wideMax (profile.logicalCoordinate (Float.ofNat i))
      addHeights height (lattice.height amplitude x 0)
  else
    .ok <| profile.mapCells fun i height =>
      clampHeightFloat (profile.noiseAt waveLength amplitude lattice i + Float.ofInt height)

/-- Replaces the content by layered noise; layer `i` uses step `i` of the seed. -/
def noise (profile : HeightProfile) (table : NoiseLayers) (seed : Nat) :
    Except Breach HeightProfile :=
  table.layers.zipIdx.foldlM
    (fun profile ((waveLength, amplitude), step) =>
      profile.noiseLayer waveLength amplitude seed step)
    (profile.mapSamples fun _ => 0)

end HeightProfile

end Terrain
