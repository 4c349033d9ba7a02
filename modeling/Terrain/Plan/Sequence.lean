import Terrain.Decimal.Layout
import Terrain.Plan.Step

/-!
# Recorded sequences

The steps a script has recorded, in order, together with the number of slots it has reserved. A
sequence only grows, and not beyond its limit.
-/

namespace Terrain

structure Sequence where
  steps : Array Step
  scale : Scale
  /-- Greatest number of steps. -/
  limit : Nat
  /-- Number of slots reserved so far. -/
  slotCount : Nat

namespace Sequence

def empty (scale : Scale) (limit : Nat) : Sequence := ⟨#[], scale, limit, 0⟩

def size (sequence : Sequence) : Nat := sequence.steps.size

def isEmpty (sequence : Sequence) : Bool := sequence.steps.isEmpty

/-- Whether a step can be recorded: the sequence is not full, and the target is a reserved slot. -/
def check (sequence : Sequence) (step : Step) : Except Failure Unit :=
  if sequence.limit ≤ sequence.size then
    .error (.error (.resourceLimit ⟨.renderingSequenceTooLong, step.location,
      s!"rendering sequence exceeded {sequence.limit} steps"⟩))
  else if sequence.slotCount ≤ step.target then .error (.breach .unreservedSlot)
  else .ok ()

/-- Appends a step. -/
def push (sequence : Sequence) (step : Step) : Sequence :=
  { sequence with steps := sequence.steps.push step }

/-- Reserves the next slot; slots are never used twice. -/
def reserve (sequence : Sequence) : Slot × Sequence :=
  (sequence.slotCount, { sequence with slotCount := sequence.slotCount + 1 })

/-- Listing of the steps. -/
def dump (sequence : Sequence) : String :=
  let heading :=
    s!"scale {Decimal.plain sequence.scale}, {sequence.size} steps, {sequence.slotCount} slots\n"
  let lines := sequence.steps.mapIdx fun index step => s!"{index}: {step.describe}\n"
  heading ++ String.join lines.toList

end Sequence

end Terrain
