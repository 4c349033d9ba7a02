import Terrain.Plan.Demand
import Terrain.Plan.Producers

/-!
# Bounds of steps

What each step has to produce, found from the last step backwards: every step hands what it needs of
each slot it reads to the step that produced it. Only yields need something on their own.
-/

namespace Terrain

/-- Bounds of every step. -/
abbrev Extents := Array Bounds

namespace Extents

/-- Nothing is needed yet. -/
def initial (steps : Array Step) : Extents := steps.map fun step => .empty step.action.kind

/-- What a step needs of one of the slots it reads: its share as an argument, as often as it stands
there, and its earlier content if the step changes it. -/
def needs (step : Step) (own : Bounds) (slot : Slot) : Except Breach (List Bounds) := do
  let arguments ← (step.arguments.filter (· == slot)).mapM fun _ => step.argumentBounds own
  if !step.isMaker && slot == step.target then return arguments ++ [← step.priorBounds own]
  return arguments

/-- All that a step needs of one slot. -/
def need? (step : Step) (own : Bounds) (slot : Slot) : Except Breach (Option Bounds) := do
  match ← needs step own slot with
  | [] => return none
  | first :: rest => return some (← rest.foldlM Bounds.combine first)

/-- Hands what a step needs of one slot to its producer. -/
def demand (step : Step) (own : Bounds) (extents : Extents) (edge : Edge) :
    Except Breach Extents := do
  match ← need? step own edge.slot, extents[edge.producer]? with
  | some need, some present => return extents.setIfInBounds edge.producer (← present.combine need)
  | _, _ => return extents

/-- Hands on the needs of the steps below a number, the last one first. -/
def propagate (steps : Array Step) (producers : Producers) :
    Nat → Extents → Except Breach Extents
  | 0, extents => .ok extents
  | index + 1, extents => do
    match steps[index]?, extents[index]? with
    | some step, some own =>
      propagate steps producers index
        (← (producers.edges index).foldlM (demand step own) extents)
    | _, _ => propagate steps producers index extents

def ofSteps (steps : Array Step) (producers : Producers) : Except Breach Extents :=
  propagate steps producers steps.size (initial steps)

end Extents

end Terrain
