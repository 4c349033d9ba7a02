import Mathlib.Algebra.BigOperators.Intervals
import Mathlib.Algebra.BigOperators.Ring.Finset
import Mathlib.Algebra.Order.BigOperators.Group.Finset
import Terrain.Line.Blur
import Terrain.Line.Grid

/-!
# The carried window is the window

The blur of a line carries the sum of a window along. Every sample it emits is the mean of its own
window all the same, and away from the ends of the line the window has samples of the line only.

* `Line.windowMean` — the mean of a window, truncated.
* `Line.getD_blurLine` — the blur of a line, sample by sample.
* `Grid.getElem?_mapRows`, `Grid.getD_mapColumns` — kernels along rows and columns.
-/

namespace Terrain

namespace Line

/-- Sum of the window of `2 * radius + 1` heights around a place. -/
def windowSum (radius : Nat) (heights : Int → Height) (place : Int) : Int :=
  ∑ step ∈ Finset.range (2 * radius + 1), heights (place - radius + step)

/-- Mean of the window around a place, truncated toward zero. -/
def windowMean (radius : Nat) (heights : Int → Height) (place : Int) : Height :=
  (windowSum radius heights place).tdiv (2 * radius + 1)

theorem windowMean_congr {radius : Nat} {heights heights' : Int → Height} {place : Int}
    (same : ∀ at', place - radius ≤ at' → at' ≤ place + radius → heights at' = heights' at') :
    windowMean radius heights place = windowMean radius heights' place := by
  unfold windowMean windowSum
  congr 1
  refine Finset.sum_congr rfl fun step member => same _ ?_ ?_
  all_goals
    rw [Finset.mem_range] at member
    omega

variable {line : Array Height} {radius : Nat}

/-- Moving on by one place, one sample enters the window and one leaves it. -/
theorem windowSum_succ (radius : Nat) (heights : Int → Height) (place : Int) :
    windowSum radius heights (place + 1) =
      windowSum radius heights place +
        (heights (place + radius + 1) - heights (place - radius)) := by
  have head := Finset.sum_range_succ' (fun step : Nat => heights (place - radius + step))
    (2 * radius + 1)
  rw [Finset.sum_range_succ] at head
  have entering : place - radius + ((2 * radius + 1 : Nat) : Int) = place + radius + 1 := by
    push_cast
    omega
  have leaving : place - radius + ((0 : Nat) : Int) = place - radius := by simp
  have shifted : windowSum radius heights (place + 1) =
      ∑ step ∈ Finset.range (2 * radius + 1), heights (place - radius + ((step + 1 : Nat) : Int)) := by
    refine Finset.sum_congr rfl fun step _ => congrArg heights ?_
    push_cast
    omega
  rw [entering, leaving, ← shifted] at head
  unfold windowSum at head ⊢
  dsimp only [Height] at head
  omega

theorem toList_slideWindow (line : Array Height) (radius count position : Nat)
    (done : Array Height) :
    (slideWindow line radius count position (windowSum radius (replicated line) position) done).toList =
      done.toList ++ (List.range count).map fun step =>
        windowMean radius (replicated line) ((position + step : Nat) : Int) := by
  induction count generalizing position done with
  | zero => simp [slideWindow]
  | succ count ih =>
    have next := ih (position + 1) (done.push (windowMean radius (replicated line) position))
    rw [Int.natCast_succ, windowSum_succ] at next
    rw [List.range_succ_eq_map, List.map_cons, List.map_map]
    refine next.trans ?_
    simp only [Array.toList_push, List.append_assoc, List.singleton_append, Nat.add_zero]
    congr 2
    refine List.map_congr_left fun step _ => ?_
    simp only [Function.comp_apply, Nat.succ_eq_add_one]
    congr 2
    omega

theorem replicated_eq {place : Nat} (inside : place < line.size) :
    replicated line place = line.getD place 0 := by
  rw [replicated, Int.toNat_natCast, Nat.min_eq_left (by omega)]

theorem replicated_of_neg {place : Int} (before : place ≤ 0) : replicated line place = line.getD 0 0 := by
  rw [replicated, Int.toNat_of_nonpos before, Nat.zero_min]

theorem replicated_of_ge {place : Nat} (behind : line.size - 1 ≤ place) :
    replicated line place = line.getD (line.size - 1) 0 := by
  rw [replicated, Int.toNat_natCast, Nat.min_eq_right behind]

theorem foldl_extract {count : Nat} (inside : count ≤ line.size) :
    (line.extract 0 count).foldl (· + ·) 0 = ∑ place ∈ Finset.range count, line.getD place 0 := by
  induction count with
  | zero => simp
  | succ count ih =>
    have less : count < line.size := inside
    rw [Finset.sum_range_succ, ← ih (Nat.le_of_lt less), Array.extract_succ_right (by omega) less,
      Array.foldl_push]
    simp [less]

/-- The first window, in which the first sample stands for all before it and the last one for all
behind it. -/
theorem firstWindow_eq (nonempty : 0 < line.size) :
    firstWindow line radius = windowSum radius (replicated line) 0 := by
  have first : replicated line 0 = line.getD 0 0 := replicated_of_neg (Int.le_refl 0)
  have before : ∑ step ∈ Finset.range radius, replicated line (0 - radius + step) =
      (radius : Int) * line.getD 0 0 := by
    rw [Finset.sum_congr rfl fun step member => replicated_of_neg ?_, Finset.sum_const,
      Finset.card_range, nsmul_eq_mul]
    rw [Finset.mem_range] at member
    omega
  have inside : ∑ step ∈ Finset.range (min radius (line.size - 1) + 1), replicated line (step : Int) =
      (line.extract 0 (min radius (line.size - 1) + 1)).foldl (· + ·) 0 := by
    rw [foldl_extract (by omega)]
    refine Finset.sum_congr rfl fun step member => replicated_eq ?_
    rw [Finset.mem_range] at member
    omega
  have behind : ∑ step ∈ Finset.range (radius - (line.size - 1)),
      replicated line ((min radius (line.size - 1) + 1 + step : Nat) : Int) =
      ((radius - (line.size - 1) : Nat) : Int) * line.getD (line.size - 1) 0 := by
    rw [Finset.sum_congr rfl fun step member => replicated_of_ge ?_, Finset.sum_const,
      Finset.card_range, nsmul_eq_mul]
    rw [Finset.mem_range] at member
    omega
  have split : 2 * radius + 1 =
      radius + (min radius (line.size - 1) + 1 + (radius - (line.size - 1))) := by omega
  have middle (step : Nat) : (0 : Int) - radius + ((radius + step : Nat) : Int) = step := by
    push_cast
    omega
  unfold windowSum firstWindow
  rw [split, Finset.sum_range_add, before]
  simp only [middle]
  rw [Finset.sum_range_add, inside, behind, first, replicated_of_ge (Nat.le_refl _), Int.add_assoc]

/-- The blur of a line, sample by sample. -/
theorem toList_blurLine (radius : Nat) (line : Array Height) :
    (blurLine radius line).toList =
      (List.range line.size).map fun place : Nat => windowMean radius (replicated line) place := by
  rcases Nat.eq_zero_or_pos line.size with empty | nonempty
  · rw [blurLine, empty]
    rfl
  · rw [blurLine, firstWindow_eq nonempty]
    have slid := toList_slideWindow line radius line.size 0 (Array.mkEmpty line.size)
    simpa using slid

theorem size_blurLine (radius : Nat) (line : Array Height) : (blurLine radius line).size = line.size := by
  rw [← Array.length_toList, toList_blurLine, List.length_map, List.length_range]

theorem getD_blurLine {place : Nat} (inside : place < line.size) :
    (blurLine radius line).getD place 0 = windowMean radius (replicated line) (place : Int) := by
  rw [Array.getD_eq_getD_getElem?, ← Array.getElem?_toList, toList_blurLine]
  simp [inside]

/-- Away from the ends of the line its window has samples of the line only. -/
theorem getD_blurLine_of_inside {place : Nat} (left : radius ≤ place)
    (right : place + radius < line.size) :
    (blurLine radius line).getD place 0 =
      windowMean radius (fun at' => line.getD at'.toNat 0) (place : Int) := by
  rw [getD_blurLine (by omega)]
  refine windowMean_congr fun at' above below => ?_
  obtain ⟨at', rfl⟩ := Int.eq_ofNat_of_zero_le (show 0 ≤ at' by omega)
  rw [replicated_eq (by omega), Int.toNat_natCast]

end Line

namespace Grid

variable {α : Type} {width height : Nat} {kernel : Array α → Array α} {cells : Array α} {x y : Nat}
  {Holds : α → Prop}

theorem place_lt (inColumn : x < width) (inside : y < height) : x + width * y < width * height := by
  have rows : width * (y + 1) ≤ width * height := Nat.mul_le_mul_left _ inside
  rw [Nat.mul_succ] at rows
  omega

theorem size_flatMap_range {rows : Nat → Array α} (same : ∀ y < height, (rows y).size = width) :
    ((Array.range height).flatMap rows).size = width * height := by
  induction height with
  | zero => rfl
  | succ height ih =>
    rw [Array.range_succ, Array.flatMap_append, Array.size_append,
      ih fun y less => same y (Nat.lt_succ_of_lt less), Array.flatMap_singleton, same height (by omega),
      Nat.mul_succ]

/-- Rows of one length laid end to end. -/
theorem getElem?_flatMap_range {rows : Nat → Array α} (same : ∀ y < height, (rows y).size = width)
    (column : x < width) (row : y < height) :
    ((Array.range height).flatMap rows)[x + width * y]? = (rows y)[x]? := by
  induction height with
  | zero => omega
  | succ height ih =>
    have shorter (y : Nat) (less : y < height) := same y (Nat.lt_succ_of_lt less)
    have before := size_flatMap_range shorter
    rw [Array.range_succ, Array.flatMap_append, Array.flatMap_singleton, Array.getElem?_append, before]
    by_cases last : y = height
    · subst last
      rw [if_neg (by omega)]
      congr 1
      omega
    · have less : y < height := by omega
      rw [if_pos (place_lt column less), ih shorter less]

theorem size_row (full : cells.size = width * height) (inside : y < height) :
    (row width cells y).size = width := by
  have rows : (y + 1) * width ≤ width * height := by
    rw [Nat.mul_comm]
    exact Nat.mul_le_mul_left _ inside
  rw [row, Array.size_extract, full, Nat.min_eq_left rows, Nat.succ_mul]
  omega

theorem size_mapRows (keeps : ∀ line, (kernel line).size = line.size)
    (full : cells.size = width * height) :
    (mapRows width height kernel cells).size = width * height :=
  size_flatMap_range fun y inside => by rw [keeps, size_row full inside]

/-- A kernel along rows, cell by cell. -/
theorem getElem?_mapRows (keeps : ∀ line, (kernel line).size = line.size)
    (full : cells.size = width * height) (column : x < width) (inside : y < height) :
    (mapRows width height kernel cells)[x + width * y]? = (kernel (row width cells y))[x]? :=
  getElem?_flatMap_range (fun y inside => by rw [keeps, size_row full inside]) column inside

theorem getElem?_row (full : cells.size = width * height) (column : x < width) (inside : y < height) :
    (row width cells y)[x]? = cells[x + width * y]? := by
  have size := size_row full inside
  rw [row, Array.size_extract] at size
  rw [row, Array.getElem?_extract, if_pos (by omega), Nat.add_comm, Nat.mul_comm]

theorem forall_mem_row (all : ∀ cell ∈ cells, Holds cell) : ∀ cell ∈ row width cells y, Holds cell := by
  intro cell member
  obtain ⟨place, inside, rfl⟩ := Array.getElem_of_mem member
  apply all
  simp [row]

theorem forall_mem_mapRows (all : ∀ cell ∈ cells, Holds cell)
    (keeps : ∀ line, (∀ cell ∈ line, Holds cell) → ∀ cell ∈ kernel line, Holds cell) :
    ∀ cell ∈ mapRows width height kernel cells, Holds cell := by
  intro cell member
  obtain ⟨y, -, inRow⟩ := Array.mem_flatMap.1 member
  exact keeps _ (forall_mem_row all) cell inRow

variable [Inhabited α]

theorem size_mapColumns : (mapColumns width height kernel cells).size = width * height := by
  simp [mapColumns]

theorem size_column : (column width height cells x).size = height := by
  simp [column]

/-- A kernel along columns, cell by cell. -/
theorem getD_mapColumns (inColumn : x < width) (inside : y < height) :
    (mapColumns width height kernel cells).getD (x + width * y) default =
      (kernel (column width height cells x)).getD y default := by
  have positive : 0 < width := by omega
  have place := place_lt inColumn inside
  have remainder : (x + width * y) % width = x := by
    rw [Nat.add_mul_mod_self_left, Nat.mod_eq_of_lt inColumn]
  have quotient : (x + width * y) / width = y := by
    rw [Nat.add_mul_div_left _ _ positive, Nat.div_eq_of_lt inColumn, Nat.zero_add]
  simp [mapColumns, place, remainder, quotient, inColumn]

theorem getD_column (inside : y < height) :
    (column width height cells x).getD y default = cells.getD (x + width * y) default := by
  simp [column, inside, Nat.mul_comm]

end Grid

end Terrain
