import Std.Data.TreeMap
import Terrain.Plan.Step

/-!
# Producers

For every step, and every slot it reads, the step that last wrote the slot before it.
-/

namespace Terrain

/-- The step that last wrote a slot. -/
structure Edge where
  slot : Slot
  producer : Nat
  deriving Repr, DecidableEq

/-- Edges of every step of a sequence, in the order in which the step reads its slots. -/
abbrev Producers := Array (List Edge)

namespace Producers

/-- The last writer of each slot written so far. -/
abbrev Writers := Std.TreeMap Slot Nat

/-- Edges of a step; a slot nobody has written has none. -/
def edgesOf (writers : Writers) (step : Step) : List Edge :=
  step.readSlots.filterMap fun slot => writers[slot]?.map fun producer => ⟨slot, producer⟩

/-- Takes the next step, whose number is the number of steps taken so far. A yield counts as a writer
of its target. -/
def advance (state : Writers × Producers) (step : Step) : Writers × Producers :=
  (state.1.insert step.target state.2.size, state.2.push (edgesOf state.1 step))

def ofSteps (steps : Array Step) : Producers := (steps.foldl advance (∅, #[])).2

/-- Edges of a step by its number. -/
def edges (producers : Producers) (step : Nat) : List Edge := producers.getD step []

/-- Producer of a slot as a step sees it. -/
def producer? (producers : Producers) (step : Nat) (slot : Slot) : Option Nat :=
  ((producers.edges step).find? (·.slot == slot)).map (·.producer)

end Producers

end Terrain
