import Terrain.Failure
import Terrain.Random.Xxh3

/-!
# Random sources

A `RandomSequence` is drawn from in order and drives the randomness scripts see. A `Lattice` gives
each point of the plane its own value, which depends on the seed, the step and the point only, so
that rasters may be filled in any order.

* `pick` — a draw reduced into an integer range.
* `RandomSequence.nextWord`, `nextInt`, `nextUnit`, `nextSeed`.
* `Lattice.wordAt`, `Lattice.intAt`.
* `combineSeeds` — a script's seed mixed with the seed of the run.
-/

namespace Terrain

/-- The value of `[low, high]` that 64 random bits select. -/
def pick (bits : UInt64) (low high : Int) : Int :=
  low + (bits.toNat % (high - low + 1).toNat : Nat)

/-- `pick` with its demands: ordered bounds, no more than 63 bits apart. -/
def pickChecked (bits : UInt64) (low high : Int) : Except Breach Int :=
  if high < low then .error .boundsReversed
  else if wideMax < high - low then .error .overflow
  else .ok (pick bits low high)

/-- A sequential source. -/
structure RandomSequence where
  state : UInt64
  deriving Repr, DecidableEq

namespace RandomSequence

/-- Distance between consecutive states. -/
def increment : UInt64 := 0x9e3779b97f4a7c15

def ofSeed (seed : Nat) : RandomSequence := ⟨seed.toUInt64 ^^^ increment⟩

/-- The next 64 bits. -/
def nextWord (sequence : RandomSequence) : UInt64 × RandomSequence :=
  let state := sequence.state + increment
  let z := (state ^^^ (state >>> 30)) * 0xbf58476d1ce4e5b9
  let z := (z ^^^ (z >>> 27)) * 0x94d049bb133111eb
  (z ^^^ (z >>> 31), ⟨state⟩)

/-- The next 32-bit seed, from the upper half of a word. -/
def nextSeed (sequence : RandomSequence) : Nat × RandomSequence :=
  let (word, sequence) := sequence.nextWord
  ((word >>> 32).toNat, sequence)

/-- The next integer in `[low, high]`. -/
def nextInt (sequence : RandomSequence) (low high : Int) : Except Breach Int × RandomSequence :=
  let (word, sequence) := sequence.nextWord
  (pickChecked word low high, sequence)

/-- The next float in `[0, 1)`, a multiple of `2 ^ (-53)`. -/
def nextUnit (sequence : RandomSequence) : Float × RandomSequence :=
  let (word, sequence) := sequence.nextWord
  ((word >>> 11).toFloat / 9007199254740992.0, sequence)

end RandomSequence

/-- The 32 bits that stand for an integer, by its residue. -/
def toWord32 (value : Int) : UInt32 := (value.emod 4294967296).toNat.toUInt32

/-- Mixes a script's seed with the seed of the run. -/
def combineSeeds (inner outer : Nat) : Nat :=
  (Xxh3.digest8 inner.toUInt32 outer.toUInt32 0 >>> 32).toNat

/-- A source addressed by points. -/
structure Lattice where
  seed : Nat
  step : Nat
  deriving Repr, DecidableEq

namespace Lattice

/-- Moves to an independent source of the same seed. -/
def advance (lattice : Lattice) : Lattice := { lattice with step := (lattice.step + 1) % 4294967296 }

/-- The 64 bits at a point. -/
def wordAt (lattice : Lattice) (point : Point) : UInt64 :=
  Xxh3.digest12 lattice.step.toUInt32 (toWord32 point.x) (toWord32 point.y) lattice.seed.toUInt64

/-- The integer of `[low, high]` at a point. -/
def intAt (lattice : Lattice) (point : Point) (low high : Int) : Int :=
  pick (lattice.wordAt point) low high

end Lattice

end Terrain
