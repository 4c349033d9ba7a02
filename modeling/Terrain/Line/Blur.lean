import Terrain.Height

/-!
# Box blur of a line

Each sample becomes the mean of the window of `2 * radius + 1` samples around it, truncated toward
zero. Beyond its ends the line repeats its end samples. The window sum is carried along the line:
moving one sample on adds the sample that enters and subtracts the one that leaves.

* `replicated` — the line continued beyond its ends.
* `blurLine` — the blurred line.
-/

namespace Terrain.Line

/-- Sample at any position; the ends of the line are repeated outside it. -/
def replicated (line : Array Height) (position : Int) : Height :=
  line.getD (min position.toNat (line.size - 1)) 0

/-- Sum of the window around the first sample: the samples before the line equal the first one, and
those behind it the last. -/
def firstWindow (line : Array Height) (radius : Nat) : Int :=
  let last := line.size - 1
  let inside := (line.extract 0 (min radius last + 1)).foldl (· + ·) 0
  (radius : Int) * replicated line 0 + inside + ((radius - last : Nat) : Int) * replicated line last

/-- Emits the means of `count` windows, starting with the one at `position` of the given sum. -/
def slideWindow (line : Array Height) (radius : Nat) (count position : Nat) (total : Int)
    (done : Array Height) : Array Height :=
  match count with
  | 0 => done
  | count + 1 =>
    let mean := total.tdiv (2 * radius + 1)
    let entering := replicated line ((position : Int) + radius + 1)
    let leaving := replicated line ((position : Int) - radius)
    slideWindow line radius count (position + 1) (total + (entering - leaving)) (done.push mean)

/-- Mean over the window around every sample. -/
def blurLine (radius : Nat) (line : Array Height) : Array Height :=
  slideWindow line radius line.size 0 (firstWindow line radius) (Array.mkEmpty line.size)

end Terrain.Line
