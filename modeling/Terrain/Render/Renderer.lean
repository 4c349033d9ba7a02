import Terrain.Plan.Schedule
import Terrain.Render.Execute
import Terrain.Status

/-!
# The renderer

Carries out a sequence one step at a time. A schedule must have been made before the first step, and
every step is held against the memory limit before it touches a raster.

* `Renderer.plan` — makes the schedule.
* `Renderer.step`, `Renderer.run` — one step; all of them.
-/

namespace Terrain

structure Renderer where
  sequence : Sequence
  /-- Bytes a step may need. -/
  memoryLimit : Nat
  producers : Producers
  status : Status
  schedule? : Option Schedule
  table : RasterTable
  gallery : Gallery
  /-- Number of steps carried out. -/
  cursor : Nat

/-- Computations that advance a renderer. -/
abbrev RenderM := EStateM Failure Renderer

namespace Renderer

/-- A renderer at the start of a sequence. -/
def start (sequence : Sequence) (memoryLimit : Nat) : Renderer where
  sequence
  memoryLimit
  producers := .ofSteps sequence.steps
  status := .ready
  schedule? := none
  table := .ofSize sequence.slotCount
  gallery := .empty
  cursor := 0

/-- Passes on a broken invariant. -/
def check {α : Type} (result : Except Breach α) : RenderM α :=
  match result with
  | .ok value => return value
  | .error breach => throw (.breach breach)

/-- Makes the schedule. -/
def plan : RenderM Unit := do
  let renderer ← get
  let schedule ← check (Schedule.ofSequence renderer.sequence renderer.producers)
  modify fun renderer => { renderer with schedule? := some schedule }

/-- The error of a step that needs too much memory. -/
def memoryFault (index : Nat) (step : Step) (memory limit : Nat) : Error :=
  .resourceLimit ⟨.rendererMemoryLimit, step.location,
    s!"step {index} ({step.action.name}) needs {memory} bytes, limit is {limit}"⟩

/-- Carries out the next step and frees the slots no later step names. -/
def step : RenderM Progress := do
  let renderer ← get
  if renderer.status ≠ .ready then
    throw (.error (.apiUsage s!"renderer is {renderer.status.describe}, not ready"))
  let some schedule := renderer.schedule?
    | throw (.error (.apiUsage "rendering metadata must be calculated before stepping"))
  let some step := renderer.sequence.steps[renderer.cursor]?
    | do
      set { renderer with status := .finished }
      return .finished
  let some facts := schedule[renderer.cursor]?
    | throw (.error (.apiUsage "rendering metadata does not match the sequence"))
  if renderer.memoryLimit < facts.memory then
    set { renderer with status := .faulted }
    throw (.error (memoryFault renderer.cursor step facts.memory renderer.memoryLimit))
  let (table, gallery) ←
    check (step.run facts.bounds renderer.sequence.scale renderer.table renderer.gallery)
  let cursor := renderer.cursor + 1
  let isLast := renderer.sequence.size ≤ cursor
  set { renderer with
    table := facts.releases.foldl RasterTable.release table
    gallery
    cursor
    status := if isLast then .finished else .ready }
  return if isLast then .finished else .running

/-- At most so many further steps. -/
def runFor : Nat → RenderM Unit
  | 0 => return
  | steps + 1 => do
    if (← get).status = .ready then
      discard step
      runFor steps

/-- Makes the schedule, unless there is one, and carries out all steps that are left. An empty
sequence takes one step to find its end. -/
def run : RenderM Unit := do
  if (← get).schedule?.isNone then plan
  let renderer ← get
  runFor (renderer.sequence.size - renderer.cursor + 1)

/-- Steps carried out, in percent. -/
def progress (renderer : Renderer) : Float :=
  if renderer.sequence.isEmpty then 100.0
  else Float.ofNat renderer.cursor * 100.0 / Float.ofNat renderer.sequence.size

/-- Listing of the whole state. -/
def dump (renderer : Renderer) : String :=
  let sequence := renderer.sequence
  let percent := Decimal.onePlace renderer.progress
  let schedule := match renderer.schedule? with
    | some schedule => "metadata:\n" ++ schedule.dump
    | none => ""
  String.join [
    s!"status: {renderer.status.describe}, step {renderer.cursor}/{sequence.size} ({percent}%)\n",
    s!"memory limit: {renderer.memoryLimit} B\n",
    "sequence:\n", sequence.dump, schedule,
    "objects:\n", renderer.table.dump,
    "rendered maps:\n", renderer.gallery.dump]

end Renderer

end Terrain
