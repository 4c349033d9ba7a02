import Terrain.Machine.State

/-!
# Recording steps

Operations on rasters are recorded and not carried out. A new raster is a handle with a slot of its
own.
-/

namespace Terrain.Machine

/-- Records a step. -/
def record (step : Step) : MachineM Unit := do
  match (← get).sequence.check step with
  | .ok _ => modify fun machine => { machine with sequence := machine.sequence.push step }
  | .error failure => throw failure

/-- Reserves a slot. -/
def reserve : MachineM Slot := fun _ machine =>
  let (slot, sequence) := machine.sequence.reserve
  .ok slot { machine with sequence }

/-- Gives a raster handle its slot. -/
def assignSlot (id : ObjectId) (slot : Slot) : MachineM Unit := do
  let machine ← get
  match machine.slots.assign id slot machine.heap with
  | .ok slots => set { machine with slots }
  | .error breach => throw (.breach breach)

/-- Records a step that makes a raster from those in some slots; answers its handle. -/
def make (action : Action) (arguments : List Slot) (location : Location) : MachineM ObjectId := do
  let slot ← reserve
  record ⟨location, action, arguments, slot⟩
  let id ← onHeap (Heap.register (.raster action.kind))
  assignSlot id slot
  return id

/-- Records a step that changes a raster by those in some slots; answers its handle. -/
def edit (receiver : ObjectId) (action : Action) (arguments : List Slot) (location : Location) :
    MachineM ObjectId := do
  let target ← inspect (Query.slot receiver)
  record ⟨location, action, arguments, target⟩
  return receiver

/-- Records that a map is yielded under a name. A map that is not enabled counts as generated, but no
step is recorded for it. -/
def yieldObject (name : String) (id : ObjectId) (location : Location) : MachineM Unit := do
  let program ← read
  match ← inspect (Query.value id) with
  | .raster .map =>
    if !program.script.supports name then
      raise (.script ⟨.unsupportedMapName, location, s!"map {name} is not declared by the script"⟩)
    modify fun machine => { machine with generated := Dictionary.insert name () machine.generated }
    if program.parameters.isEnabled name then
      let target ← inspect (Query.slot id)
      record ⟨location, .yield name program.parameters.window, [], target⟩
  | other =>
    raise (.script ⟨.incorrectYieldType, location,
      s!"only height maps can be yielded, got {other.typeName}"⟩)

end Terrain.Machine
