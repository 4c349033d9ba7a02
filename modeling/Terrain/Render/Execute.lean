import Terrain.Plan.Demand
import Terrain.Raster.Map.Drawing
import Terrain.Raster.Map.Filter
import Terrain.Raster.Map.Noise
import Terrain.Raster.Map.Placement
import Terrain.Render.Gallery
import Terrain.Render.Table

/-!
# Carrying out steps

What each action does to the rasters. While an edit runs, its target is out of the table; an edit that
names its own target among its arguments reads a copy of it as it was before the step.

* `ArgumentReader` — the rasters that a step reads, by their place among its arguments.
* `MapMaker.run`, `MapEdit.run`, `ProfileMaker.run`, `ProfileEdit.run` — what actions compute.
* `Step.run` — what a step does to the table and to the results.
-/

namespace Terrain

namespace RasterTable

/-- The map in a slot that must hold one. -/
def mapAt (table : RasterTable) (slot : Slot) : Except Breach HeightMap := do
  (← table.get slot).asMap slot

/-- The profile in a slot that must hold one. -/
def profileAt (table : RasterTable) (slot : Slot) : Except Breach HeightProfile := do
  (← table.get slot).asProfile slot

end RasterTable

/-- The raster that an argument of a step names, with its slot, by the place of the argument. -/
abbrev ArgumentReader := Nat → Except Breach (Slot × Raster)

namespace ArgumentReader

/-- Looks up an argument in a list of slots, and what is in the slot. -/
def ofSlots (arguments : List Slot) (read : Slot → Except Breach Raster) : ArgumentReader :=
  fun index => do
    match arguments[index]? with
    | some slot => return (slot, ← read slot)
    | none => throw .missingArgument

/-- An argument that must be a map. -/
def map (reader : ArgumentReader) (index : Nat) : Except Breach HeightMap := do
  let (slot, raster) ← reader index
  raster.asMap slot

/-- An argument that must be a profile. -/
def profile (reader : ArgumentReader) (index : Nat) : Except Breach HeightProfile := do
  let (slot, raster) ← reader index
  raster.asProfile slot

end ArgumentReader

/-- The map a maker makes for a rectangle. -/
def MapMaker.run (arguments : ArgumentReader) (own : Rectangle) (scale : Scale) :
    MapMaker → Except Breach HeightMap
  | flat height => .ok (.create own height scale)
  | noise layers seed => (HeightMap.create own 0 scale).noise layers seed
  | gradient source destination low high =>
    .ok ((HeightMap.create own 0 scale).gradient source destination low high)
  | radialGradient center radius low high =>
    .ok ((HeightMap.create own 0 scale).radialGradient center radius low high)
  | projection direction => do
    (HeightMap.create own 0 scale).projection (← arguments.profile 0) direction
  | clone => do (← arguments.map 0).cutout own

/-- The map after an edit. The bounds are those the step has to produce. -/
def MapEdit.run (arguments : ArgumentReader) (own : Bounds) (map : HeightMap) :
    MapEdit → Except Breach HeightMap
  | abs => .ok map.abs
  | add height => .ok (map.add height)
  | addMap => do map.addMap (← arguments.map 0)
  | addMasked height => do map.addMasked height (← arguments.map 0)
  | addMapMasked => do map.addMapMasked (← arguments.map 0) (← arguments.map 1)
  | blur radius => .ok (map.blur radius)
  | clampHeights low high => map.clampHeights low high
  | combine => do map.combine (← arguments.map 0) (← arguments.map 1)
  | convexity radius => map.convexityMap radius
  | crop rectangle height => .ok (map.crop rectangle height)
  | cropHeights low high replacement => .ok (map.cropHeights low high replacement)
  | distanceMap maxDistance => .ok (map.distanceMap maxDistance)
  | distort maxDistance => do map.distort (← arguments.map 0) (← arguments.map 1) maxDistance
  | drawLine start stop height => .ok (map.drawLine start stop height)
  | fillRectangle rectangle height => map.fillRectangle rectangle height
  | intersect => do map.intersect (← arguments.map 0)
  | invert => .ok map.invert
  | move offset => .ok (map.moveBy offset)
  | multiply factor => .ok (map.multiply factor)
  | multiplyMap => do map.multiplyMap (← arguments.map 0)
  | noiseLayer waveLength amplitude seed ridged => map.noiseLayer waveLength amplitude seed 0 ridged
  | pattern repeated => do map.pattern (← arguments.map 0) repeated
  | rescale horizontal vertical => map.rescale horizontal vertical
  | resize rectangle height => map.resize rectangle height
  | shift maxDistance direction => do map.shift (← arguments.profile 0) maxDistance direction
  | transform matrix => do map.transform matrix (← own.asRectangle)
  | transformHeights interval low high => do
    map.transformHeights (← arguments.profile 0) interval low high
  | unify => do map.unify (← arguments.map 0)

/-- The profile a maker makes for an interval. -/
def ProfileMaker.run (arguments : ArgumentReader) (own : Interval) (scale : Scale) :
    ProfileMaker → Except Breach HeightProfile
  | flat height => .ok (.forLogical own height scale)
  | gradient source destination low high =>
    .ok ((HeightProfile.forLogical own 0 scale).gradient source destination low high true)
  | ofKeys keys => .ok ((HeightProfile.forLogical own 0 scale).ofKeys keys)
  | noise layers seed => (HeightProfile.forLogical own 0 scale).noise layers seed
  | slice direction coordinate => do
    (HeightProfile.forLogical own 0 scale).slice (← arguments.map 0) direction coordinate
  | clone => do (← arguments.profile 0).cutout (own.scaled scale)

/-- The profile after an edit. -/
def ProfileEdit.run (arguments : ArgumentReader) (profile : HeightProfile) :
    ProfileEdit → Except Breach HeightProfile
  | abs => .ok profile.abs
  | add height => .ok (profile.add height)
  | addProfile => do profile.addProfile (← arguments.profile 0)
  | addMasked height => do profile.addMasked height (← arguments.profile 0)
  | addProfileMasked => do profile.addProfileMasked (← arguments.profile 0) (← arguments.profile 1)
  | blur radius => .ok (profile.blur radius)
  | clampHeights low high => profile.clampHeights low high
  | combine => do profile.combine (← arguments.profile 0) (← arguments.profile 1)
  | crop interval height => profile.crop interval height
  | cropHeights low high replacement => .ok (profile.cropHeights low high replacement)
  | fillInterval interval height => profile.fillInterval interval height
  | flip => .ok profile.flip
  | intersect => do profile.intersect (← arguments.profile 0)
  | invert => .ok profile.invert
  | move offset => .ok (profile.moveBy offset)
  | multiply factor => .ok (profile.multiply factor)
  | multiplyProfile => do profile.multiplyProfile (← arguments.profile 0)
  | noiseLayer waveLength amplitude seed => profile.noiseLayer waveLength amplitude seed 0
  | pattern repeated => do profile.pattern (← arguments.profile 0) repeated
  | rescale factor => .ok (profile.rescale factor)
  | resize interval height => profile.resize interval height
  | unify => do profile.unify (← arguments.profile 0)

namespace Step

/-- The raster that a maker makes for bounds. -/
def create (step : Step) (own : Bounds) (scale : Scale) (table : RasterTable) :
    Except Breach Raster := do
  let arguments := ArgumentReader.ofSlots step.arguments table.get
  match step.action with
  | .makeMap maker => return .map (← maker.run arguments (← own.asRectangle) scale)
  | .makeProfile maker => return .profile (← maker.run arguments (← own.asInterval) scale)
  | action => throw (.notCreator action.name)

/-- The raster after an edit that has to produce bounds. -/
def change (step : Step) (own : Bounds) (arguments : ArgumentReader) : Raster → Except Breach Raster
  | .map map => do
    match step.action with
    | .editMap edit => return .map (← edit.run arguments own map)
    | action => throw (.stepMismatch action.name .map)
  | .profile profile => do
    match step.action with
    | .editProfile edit => return .profile (← edit.run arguments profile)
    | action => throw (.stepMismatch action.name .profile)

/-- What an edit finds in a slot while its target is out of the table: there is a copy of the target if
the edit reads it. -/
def lookUp (step : Step) (table : RasterTable) (copy : Option Raster) (slot : Slot) :
    Except Breach Raster :=
  match copy with
  | some raster => if slot = step.target then .ok raster else table.get slot
  | none => table.get slot

/-- Carries out a step that has to produce bounds. -/
def run (step : Step) (own : Bounds) (scale : Scale) (table : RasterTable) (gallery : Gallery) :
    Except Breach (RasterTable × Gallery) := do
  if step.isMaker then
    return (table.set step.target (← step.create own scale table), gallery)
  match step.action with
  | .yield name rectangle =>
    return (table, gallery.insert name (← (← table.mapAt step.target).cutout rectangle))
  | _ =>
    let (target, table) ← table.take step.target
    let copy := if step.arguments.contains step.target then some target else none
    let arguments := ArgumentReader.ofSlots step.arguments (step.lookUp table copy)
    return (table.set step.target (← step.change own arguments target), gallery)

end Step

end Terrain
