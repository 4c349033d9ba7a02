import Std.Data.TreeMap
import Terrain.Plan.Demand

/-!
# Memory budget

The steps are played through on footprints alone, which gives the bytes resident before each step and
those it takes on top of them. Yielded maps stay resident to the end.
-/

namespace Terrain

namespace Budget

/-- What is resident. -/
structure State where
  /-- Bounds of the raster in each filled slot. -/
  footprints : Std.TreeMap Slot Bounds
  /-- Bytes of all of them and of the yielded maps. -/
  resident : Nat

/-- Adds bytes. -/
def State.occupy (state : State) (bounds : Bounds) (scale : Scale) : Except Breach State := do
  return { state with resident := ← checkFigure (state.resident + (← bounds.memorySize scale)) }

/-- Removes bytes, which must have been counted. -/
def State.vacate (state : State) (bounds : Bounds) (scale : Scale) : Except Breach State := do
  let size ← bounds.memorySize scale
  if size ≤ state.resident then return { state with resident := state.resident - size }
  throw .overflow

/-- Replaces the footprint of a slot. -/
def State.replace (state : State) (slot : Slot) (bounds : Bounds) (scale : Scale) :
    Except Breach State := do
  let vacated ← match state.footprints[slot]? with
    | some old => state.vacate old scale
    | none => pure state
  State.occupy { vacated with footprints := vacated.footprints.insert slot bounds } bounds scale

/-- Frees a slot; freeing an empty one changes nothing. -/
def State.free (scale : Scale) (state : State) (slot : Slot) : Except Breach State :=
  match state.footprints[slot]? with
  | some old => State.vacate { state with footprints := state.footprints.erase slot } old scale
  | none => .ok state

/-- Footprint of the target before a step. -/
def State.footprint (state : State) (step : Step) : Bounds :=
  if step.isMaker then .empty step.action.kind
  else state.footprints.getD step.target (.empty step.action.kind)

/-- What is resident after the work of a step, before its releases. -/
def State.perform (state : State) (step : Step) (own : Bounds) (scale : Scale) :
    Except Breach State := do
  match step.action with
  | .yield _ rectangle => state.occupy (.rectangle rectangle) scale
  | .makeMap _ | .makeProfile _ => state.replace step.target own scale
  | .editMap _ | .editProfile _ =>
    state.replace step.target (← step.footprintAfter own (state.footprint step)) scale

/-- Bytes needed while a step runs, and what is resident after it. -/
def advance (scale : Scale) (state : State) (step : Step) (own : Bounds) (releases : List Slot) :
    Except Breach (Nat × State) := do
  let extra ← step.extraMemory own (state.footprint step) scale
  let requirement ← checkFigure (state.resident + extra)
  let performed ← state.perform step own scale
  return (requirement, ← releases.foldlM (State.free scale) performed)

end Budget

end Terrain
