import Terrain.Plan.Budget
import Terrain.Plan.Extents
import Terrain.Plan.Lifetimes
import Terrain.Plan.Sequence

/-!
# Schedules

All that is known of a sequence before anything is drawn: the bounds of every step, the slots freed
after it and the memory it needs.
-/

namespace Terrain

/-- Facts about one step. -/
structure StepFacts where
  /-- What the step has to produce. -/
  bounds : Bounds
  /-- Bytes resident while the step runs, temporaries included. -/
  memory : Nat
  /-- Slots freed right after the step. -/
  releases : List Slot
  deriving Repr, DecidableEq

abbrev Schedule := Array StepFacts

namespace Schedule

/-- Takes the next step, with its bounds and releases. -/
def advance (scale : Scale) (state : Budget.State × Schedule)
    (item : Step × Bounds × List Slot) : Except Breach (Budget.State × Schedule) := do
  let (step, bounds, releases) := item
  let (memory, budget) ← Budget.advance scale state.1 step bounds releases
  return (budget, state.2.push ⟨bounds, memory, releases⟩)

/-- The schedule of a sequence with known producers. -/
def ofSequence (sequence : Sequence) (producers : Producers) : Except Breach Schedule := do
  let extents ← Extents.ofSteps sequence.steps producers
  let releases := Lifetimes.ofSteps sequence.steps
  let items := sequence.steps.toList.zip (extents.toList.zip releases)
  return (← items.foldlM (advance sequence.scale) (⟨∅, 0⟩, #[])).2

/-- Largest requirement of all steps. -/
def peak (schedule : Schedule) : Nat := schedule.foldl (fun most facts => max most facts.memory) 0

/-- Listing of the facts. -/
def dump (schedule : Schedule) : String :=
  String.join (schedule.mapIdx fun index facts =>
    let releases := ", ".intercalate (facts.releases.map toString)
    s!"{index}: bounds {facts.bounds.describe}, memory {facts.memory} B, release [{releases}]\n").toList

end Schedule

end Terrain
