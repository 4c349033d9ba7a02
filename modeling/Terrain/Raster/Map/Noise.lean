import Terrain.Raster.Map.Pointwise
import Terrain.Raster.Profile.Noise

/-!
# Noise on maps

Lattice noise keyed by logical coordinates, so that it does not depend on the raster it is drawn
into.

* `noiseLayer` — adds one octave.
* `noise` — replaces the content by all octaves of a table.
-/

namespace Terrain.HeightMap

/-- The spline value of an octave at local coordinates. -/
def noiseAt (map : HeightMap) (waveLength : Extent) (amplitude : Height) (lattice : Lattice)
    (point : Point) : Float :=
  let logicalX := map.logicalX (Float.ofInt point.x)
  let logicalY := map.logicalY (Float.ofInt point.y)
  let (x0, x1, x2, x3) := latticeCoordinates logicalX waveLength
  let (y0, y1, y2, y3) := latticeCoordinates logicalY waveLength
  let xs := #[x0, x1, x2, x3]
  let ys := #[y0, y1, y2, y3]
  Line.bicubic
    (fun i j => Float.ofInt (lattice.height amplitude (xs.getD i 0) (ys.getD j 0)))
    ((logicalX - Float.ofInt x1) / Float.ofNat waveLength)
    ((logicalY - Float.ofInt y1) / Float.ofNat waveLength)

/-- Adds one octave. A wave of one physical sample takes the lattice values themselves, a longer one
the spline through them, and a shorter one adds nothing. A ridged octave adds magnitudes. -/
def noiseLayer (map : HeightMap) (waveLength : Extent) (amplitude : Height) (seed step : Nat)
    (ridged : Bool) : Except Breach HeightMap :=
  let lattice : Lattice := ⟨seed, step⟩
  let physical := scaledExtent map.scale waveLength
  if physical = 0 ∨ map.samples.isEmpty then .ok map
  else if amplitude < 0 then .error .boundsReversed
  else if physical = 1 then
    .ok <| map.mapCells fun point height =>
      let logical := map.logicalPoint point
      let value := lattice.intAt logical (-amplitude) amplitude
      addHeights height (if ridged then value.natAbs else value)
  else
    .ok <| map.mapCells fun point height =>
      let value := map.noiseAt waveLength amplitude lattice point
      let value := if ridged then Number.magnitude value else value
      clampHeightFloat (value + Float.ofInt height)

/-- Replaces the content by layered noise; layer `i` uses step `i` of the seed. -/
def noise (map : HeightMap) (table : NoiseLayers) (seed : Nat) : Except Breach HeightMap :=
  table.layers.zipIdx.foldlM
    (fun map ((waveLength, amplitude), step) => map.noiseLayer waveLength amplitude seed step false)
    (map.mapSamples fun _ => 0)

end Terrain.HeightMap
