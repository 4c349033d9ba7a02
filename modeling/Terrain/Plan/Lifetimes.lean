import Std.Data.TreeSet
import Terrain.Plan.Step

/-!
# Lifetimes of slots

A slot is released after the last step that names it. The steps are walked from the last one
backwards, so the first step met that names a slot is its last use.
-/

namespace Terrain

namespace Lifetimes

/-- Slots named by later steps. -/
abbrev Seen := Std.TreeSet Slot

/-- Notes a slot; it is released here if no later step names it. -/
def note (state : Seen × List Slot) (slot : Slot) : Seen × List Slot :=
  if state.1.contains slot then state else (state.1.insert slot, state.2 ++ [slot])

/-- Slots named by a step, in the order of their release. -/
def slotsOf (step : Step) : List Slot := step.arguments ++ [step.target]

/-- Slots released after a step, knowing those that later steps name. -/
def visit (step : Step) (state : Seen × List (List Slot)) : Seen × List (List Slot) :=
  let (seen, released) := (slotsOf step).foldl note (state.1, [])
  (seen, released :: state.2)

/-- For every step, the slots released after it. -/
def ofSteps (steps : Array Step) : List (List Slot) := (steps.foldr visit (∅, [])).2

end Lifetimes

end Terrain
