import Terrain.Failure
import Terrain.Proofs.Line.Blur

/-!
# Blurs in machine words

Samples have sixteen signed bits and the sum of a window is carried in 64. With radii of 32 bits there
is room for all sums, from the first sample of the first window on, and every mean is a sample again,
since it lies between the least and the greatest sample of its line.

* `Line.blurWords` — the blur of a line with every sum and every mean checked for its word.
* `Line.windowMean_mem` — a mean lies between the bounds of its window.
* `Line.blurWords_eq` — no check fails, and the result is the blur.
-/

namespace Terrain.Line

/-- A height that sixteen signed bits can hold. -/
def IsSample (height : Int) : Prop := -32768 ≤ height ∧ height ≤ 32767

instance (height : Int) : Decidable (IsSample height) := inferInstanceAs (Decidable (_ ∧ _))

/-- A sum, which must fit 64 signed bits. -/
def checkSum (sum : Int) : Except Breach Int :=
  if wideMin ≤ sum ∧ sum ≤ wideMax then .ok sum else .error .overflow

/-- A mean, which must fit the sixteen bits of a sample. -/
def checkSample (mean : Height) : Except Breach Height :=
  if IsSample mean then .ok mean else .error .overflow

def sumWords (radius : Nat) (line : Array Height) : Except Breach Int :=
  (List.range (2 * radius + 1)).foldlM
    (fun (total : Int) (step : Nat) => checkSum (total + replicated line (0 - radius + step))) 0

/-- Means of `count` windows, starting with the one at `position` of the given sum. -/
def slideWords (radius : Nat) (line : Array Height) :
    (count position : Nat) → (total : Int) → (done : Array Height) → Except Breach (Array Height)
  | 0, _, _, done => .ok done
  | count + 1, position, total, done => do
    let mean ← checkSample (total.tdiv (2 * radius + 1))
    let change ← checkSum
      (replicated line ((position : Int) + radius + 1) - replicated line ((position : Int) - radius))
    let total ← checkSum (total + change)
    slideWords radius line count (position + 1) total (done.push mean)

def blurWords (radius : Nat) (line : Array Height) : Except Breach (Array Height) := do
  if line.isEmpty then return line
  slideWords radius line line.size 0 (← sumWords radius line) #[]

/-! ## Bounds of means -/

section Bounds

variable {radius : Nat} {heights : Int → Height} {low high : Height}

/-- Sum of the first samples of a window. -/
theorem sum_range_mem (count : Nat) (place : Int)
    (between : ∀ at', low ≤ heights at' ∧ heights at' ≤ high) :
    count * low ≤ ∑ step ∈ Finset.range count, heights (place + (step : Nat)) ∧
      ∑ step ∈ Finset.range count, heights (place + (step : Nat)) ≤ count * high := by
  constructor
  · have bound := Finset.card_nsmul_le_sum (Finset.range count)
      (fun step : Nat => heights (place + step)) low fun step _ => (between _).1
    simpa using bound
  · have bound := Finset.sum_le_card_nsmul (Finset.range count)
      (fun step : Nat => heights (place + step)) high fun step _ => (between _).2
    simpa using bound

/-- A mean lies between the least and the greatest sample of its window, toward whichever side it is
truncated. -/
theorem windowMean_mem (place : Int) (between : ∀ at', low ≤ heights at' ∧ heights at' ≤ high) :
    low ≤ windowMean radius heights place ∧ windowMean radius heights place ≤ high := by
  have positive : (0 : Int) < 2 * radius + 1 := by omega
  have sums := sum_range_mem (2 * radius + 1) (place - radius) between
  -- dividing keeps the order, and the bounds of the sum are multiples of the width
  have equal (height : Height) : ((2 * radius + 1 : Nat) * height : Int).tdiv (2 * radius + 1) = height := by
    push_cast
    exact Int.mul_tdiv_cancel_left height (by omega)
  constructor
  · calc low
      _ = ((2 * radius + 1 : Nat) * low : Int).tdiv (2 * radius + 1) := (equal low).symm
      _ ≤ windowMean radius heights place := Int.tdiv_le_tdiv positive sums.1
  · calc windowMean radius heights place
      _ ≤ ((2 * radius + 1 : Nat) * high : Int).tdiv (2 * radius + 1) := Int.tdiv_le_tdiv positive sums.2
      _ = high := equal high

end Bounds

variable {radius : Nat} {line : Array Height} {low high : Height}

/-- The line continued beyond its ends has no other samples than the line. -/
theorem replicated_mem (nonempty : 0 < line.size) (place : Int) : replicated line place ∈ line := by
  have inside : min place.toNat (line.size - 1) < line.size := by omega
  simp [replicated, inside]

/-- A blur stays between the bounds of the line. -/
theorem blurLine_mem (between : ∀ height ∈ line, low ≤ height ∧ height ≤ high) :
    ∀ height ∈ blurLine radius line, low ≤ height ∧ height ≤ high := by
  intro height member
  rw [← Array.mem_toList_iff, toList_blurLine, List.mem_map] at member
  obtain ⟨place, inside, rfl⟩ := member
  have nonempty : 0 < line.size := Nat.lt_of_le_of_lt (Nat.zero_le _) (List.mem_range.1 inside)
  exact windowMean_mem _ fun at' => between _ (replicated_mem nonempty at')

/-- A line between two equal bounds. -/
theorem eq_of_flat {after : Array Height} {level : Height} (size : after.size = line.size)
    (flat : ∀ height ∈ line, height = level) (between : ∀ height ∈ after, level ≤ height ∧ height ≤ level) :
    after = line := by
  refine Array.ext size fun place inAfter inLine => ?_
  have bounds := between _ (Array.getElem_mem inAfter)
  rw [flat _ (Array.getElem_mem inLine)]
  exact Int.le_antisymm bounds.2 bounds.1

/-! ## No word overflows -/

/-- Sums of few enough samples fit. -/
theorem checkSum_eq {count : Nat} {sum : Int} (few : count ≤ 2 * extentMax + 1)
    (above : count * (-32768) ≤ sum) (below : sum ≤ count * 32767) : checkSum sum = .ok sum := by
  refine if_pos ?_
  simp only [extentMax, wideMin, wideMax] at *
  omega

theorem sumWords_eq (nonempty : 0 < line.size) (samples : ∀ height ∈ line, IsSample height)
    (inRange : radius ≤ extentMax) :
    sumWords radius line = .ok (windowSum radius (replicated line) 0) := by
  have between (at' : Int) := samples _ (replicated_mem nonempty at')
  -- every prefix of the window has a sum that fits
  have prefixes (count : Nat) (few : count ≤ 2 * radius + 1) :
      (List.range count).foldlM
          (fun (total : Int) (step : Nat) => checkSum (total + replicated line (0 - radius + step))) 0 =
        .ok (∑ step ∈ Finset.range count, replicated line (0 - radius + (step : Nat))) := by
    induction count with
    | zero => rfl
    | succ count ih =>
      have sums := sum_range_mem (count + 1) (0 - radius) between
      rw [Finset.sum_range_succ] at sums ⊢
      rw [List.range_succ, List.foldlM_append, ih (by omega)]
      simp only [bind, Except.bind, List.foldlM_cons, List.foldlM_nil]
      rw [checkSum_eq (by omega) sums.1 sums.2]
      rfl
  exact prefixes _ (Nat.le_refl _)

theorem slideWords_eq (nonempty : 0 < line.size) (samples : ∀ height ∈ line, IsSample height)
    (inRange : radius ≤ extentMax) (count position : Nat) (done : Array Height) :
    slideWords radius line count position (windowSum radius (replicated line) position) done =
      .ok (slideWindow line radius count position (windowSum radius (replicated line) position) done) := by
  have between (at' : Int) := samples _ (replicated_mem nonempty at')
  -- wherever the window is, its mean, the change to the next sum and that sum itself fit
  induction count generalizing position done with
  | zero => rfl
  | succ count ih =>
    have mean : checkSample ((windowSum radius (replicated line) position).tdiv (2 * radius + 1)) =
        .ok (windowMean radius (replicated line) position) :=
      if_pos (windowMean_mem position between)
    have entering := between ((position : Int) + radius + 1)
    have leaving := between ((position : Int) - radius)
    have change := @checkSum_eq 3
      (replicated line ((position : Int) + radius + 1) - replicated line ((position : Int) - radius))
      (by decide) (by unfold IsSample at *; omega) (by unfold IsSample at *; omega)
    have moved := windowSum_succ radius (replicated line) position
    have sums := sum_range_mem (2 * radius + 1) ((position : Int) + 1 - radius) between
    have total := @checkSum_eq (2 * radius + 1) (windowSum radius (replicated line) (position + 1))
      (by omega) sums.1 sums.2
    rw [moved] at total
    simp only [slideWords, slideWindow, bind, Except.bind, mean, change, total]
    rw [← moved]
    exact ih (position + 1) _

/-- The blur of a line in machine words goes through and gives what it gives without them. -/
theorem blurWords_eq (samples : ∀ height ∈ line, IsSample height) (inRange : radius ≤ extentMax) :
    blurWords radius line = .ok (blurLine radius line) := by
  by_cases empty : line.size = 0
  · have none : line = #[] := Array.eq_empty_of_size_eq_zero empty
    subst none
    rfl
  · have nonempty : 0 < line.size := Nat.pos_of_ne_zero empty
    have some : line.isEmpty = false := by simpa using empty
    rw [blurWords, some, sumWords_eq nonempty samples inRange, blurLine, firstWindow_eq nonempty]
    exact slideWords_eq nonempty samples inRange _ _ _

end Terrain.Line
