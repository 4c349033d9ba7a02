import Mathlib.Algebra.Order.Field.Basic
import Mathlib.Algebra.Order.Ring.Rat
import Mathlib.Data.List.Chain
import Mathlib.Order.Bounds.Basic
import Mathlib.Tactic.Linarith
import Mathlib.Tactic.Ring
import Terrain.Line.Distance

/-!
# The lower envelope is exact

Over exact numbers, the parabola of a later vertex is below that of an earlier one just from their
crossing on. So a parabola that is removed from the envelope is nowhere below both of its neighbours,
the parabolas that stay follow one another at their crossings, and the part that a position falls into
has the lowest of all parabolas there.

* `Line.reach` — a parabola.
* `Line.Above` — how a piece of the envelope stands on the piece before it.
* `Line.IsEnvelope`, `Line.isEnvelope_envelopeOf` — what building the envelope keeps.
* `Line.isLeast_distanceTransform` — the transform takes the minimum at every position.
-/

namespace Terrain.Line

variable {costs : Array ℚ} {pieces rest : List (Piece ℚ)} {piece next : Piece ℚ} {x : ℚ}
  {vertex q p count : Nat}

def reach (costs : Array ℚ) (vertex : Nat) (position : ℚ) : ℚ :=
  (position - vertex) * (position - vertex) + costs.getD vertex default

/-- All squared distances plus costs at a position. -/
def reaches (costs : Array ℚ) (position : ℚ) : Set ℚ :=
  {reached | ∃ vertex < costs.size, reached = reach costs vertex position}

/-! ## Crossings -/

theorem two_mul_sub_pos (before : p < q) : (0 : ℚ) < (2 : Nat) * (q : ℚ) - (2 : Nat) * p := by
  have apart : (p : ℚ) < q := by exact_mod_cast before
  push_cast
  linarith

theorem reach_le_iff (before : p < q) :
    reach costs p x ≤ reach costs q x ↔ x ≤ crossing Nat.cast costs q p := by
  rw [crossing, le_div_iff₀ (two_mul_sub_pos before), reach, reach]
  push_cast
  constructor <;> intro le <;> linarith

theorem le_reach_iff (before : p < q) :
    reach costs q x ≤ reach costs p x ↔ crossing Nat.cast costs q p ≤ x := by
  rw [crossing, div_le_iff₀ (two_mul_sub_pos before), reach, reach]
  push_cast
  constructor <;> intro le <;> linarith

/-! ## Building the envelope -/

/-- A piece begins where its parabola crosses the one before it, which is behind the start of that. -/
structure Above (costs : Array ℚ) (piece next : Piece ℚ) : Prop where
  vertex : next.vertex < piece.vertex
  start : piece.start = some (crossing Nat.cast costs piece.vertex next.vertex)
  later : ∀ start, next.start = some start → start < crossing Nat.cast costs piece.vertex next.vertex

/-- The pieces stand on one another, only the last of them has no start, and at every position one of
them is at most as high as the parabola of any of the vertices so far. -/
structure IsEnvelope (costs : Array ℚ) (count : Nat) (pieces : List (Piece ℚ)) : Prop where
  chain : pieces.IsChain (Above costs)
  bottom : ∃ vertex, pieces.getLast? = some ⟨vertex, none⟩
  below : ∀ piece ∈ pieces, piece.vertex < count
  lowest : ∀ x, ∀ q < count, ∃ piece ∈ pieces, reach costs piece.vertex x ≤ reach costs q x

/-- Where each piece that goes has one that stays below it, nothing is lost. -/
theorem exists_le_of_gone {gone stay : List (Piece ℚ)}
    (lower : ∀ other ∈ gone, ∃ kept ∈ stay, reach costs kept.vertex x ≤ reach costs other.vertex x)
    (stays : rest ⊆ stay)
    (covered : ∃ other ∈ gone ++ rest, reach costs other.vertex x ≤ reach costs q x) :
    ∃ kept ∈ stay, reach costs kept.vertex x ≤ reach costs q x := by
  obtain ⟨other, member, le⟩ := covered
  rcases List.mem_append.1 member with goes | kept
  · obtain ⟨kept, member', lower'⟩ := lower other goes
    exact ⟨kept, member', lower'.trans le⟩
  · exact ⟨other, stays kept, le⟩

/-- A parabola that starts where a later one is below it already is not needed: left of its start the one
before it is not higher, and right of it the later one. -/
theorem Above.hidden {start : ℚ} (above : Above costs piece next) (starts : piece.start = some start)
    (before : piece.vertex < q) (hides : crossing Nat.cast costs q piece.vertex ≤ start) (x : ℚ) :
    reach costs next.vertex x ≤ reach costs piece.vertex x ∨
      reach costs q x ≤ reach costs piece.vertex x := by
  rw [above.start, Option.some.injEq] at starts
  rcases le_total x start with left | right
  · exact .inl ((reach_le_iff above.vertex).2 (starts ▸ left))
  · exact .inr ((le_reach_iff before).2 (hides.trans right))

/-- A push removes some of the pieces and stands on the first that is left. Wherever a removed parabola
is, there is one in the new envelope that is not higher. -/
theorem exists_pushPiece (chain : pieces.IsChain (Above costs))
    (bottom : ∃ vertex, pieces.getLast? = some ⟨vertex, none⟩)
    (below : ∀ piece ∈ pieces, piece.vertex < q) :
    ∃ hidden piece rest, pieces = hidden ++ piece :: rest ∧
      pushPiece Nat.cast costs q pieces =
        ⟨q, some (crossing Nat.cast costs q piece.vertex)⟩ :: piece :: rest ∧
      (∀ start, piece.start = some start → start < crossing Nat.cast costs q piece.vertex) ∧
      ∀ x, ∀ other ∈ hidden, ∃ kept ∈ pushPiece Nat.cast costs q pieces,
        reach costs kept.vertex x ≤ reach costs other.vertex x := by
  induction pieces with
  | nil =>
    obtain ⟨_, last⟩ := bottom
    cases last
  | cons piece rest ih =>
    unfold pushPiece
    dsimp only
    split
    case h_1 none =>
      exact ⟨[], piece, rest, rfl, rfl, fun start some => by simp [none] at some, by simp⟩
    case h_2 start starts =>
      split
      case isFalse after =>
        refine ⟨[], piece, rest, rfl, rfl, fun start' starts' => ?_, by simp⟩
        rw [starts, Option.some.injEq] at starts'
        exact starts' ▸ not_le.1 after
      case isTrue hides =>
        -- the last piece has no start, so there is another one below the piece that goes
        cases rest with
        | nil =>
          obtain ⟨_, last⟩ := bottom
          rw [List.getLast?_singleton, Option.some.injEq] at last
          simp [last] at starts
        | cons next rest =>
          rw [List.isChain_cons_cons] at chain
          rw [List.forall_mem_cons] at below
          rw [List.getLast?_cons_cons] at bottom
          obtain ⟨hidden, kept, rest', split, pushed, later, lower⟩ := ih chain.2 bottom below.2
          refine ⟨piece :: hidden, kept, rest', by rw [split, List.cons_append], pushed, later,
            fun x => List.forall_mem_cons.2 ⟨?_, lower x⟩⟩
          rcases chain.1.hidden starts below.1 hides x with left | right
          · -- the piece before it may be gone as well
            exact exists_le_of_gone (lower x) (pushed ▸ List.subset_cons_self _ _)
              ⟨next, split ▸ List.mem_cons_self, left⟩
          · refine ⟨_, by rw [pushed]; exact List.mem_cons_self, ?_⟩
            exact right

theorem isEnvelope_single (costs : Array ℚ) : IsEnvelope costs 1 [⟨0, none⟩] where
  chain := List.isChain_singleton _
  bottom := ⟨0, rfl⟩
  below := by simp
  lowest x q only := by
    obtain rfl : q = 0 := by omega
    simp

theorem IsEnvelope.pushPiece (envelope : IsEnvelope costs count pieces) :
    IsEnvelope costs (count + 1) (pushPiece Nat.cast costs count pieces) := by
  obtain ⟨hidden, piece, rest, split, pushed, later, lower⟩ :=
    exists_pushPiece envelope.chain envelope.bottom envelope.below
  have below := envelope.below
  have stays : ∀ other ∈ piece :: rest, other ∈ pieces := fun other member =>
    split ▸ List.mem_append_right _ member
  refine ⟨?_, ?_, ?_, ?_⟩
  · rw [pushed, List.isChain_cons_cons]
    refine ⟨⟨below piece (stays piece List.mem_cons_self), rfl, later⟩, ?_⟩
    exact (split ▸ envelope.chain).right_of_append
  · obtain ⟨vertex, last⟩ := envelope.bottom
    refine ⟨vertex, ?_⟩
    rwa [pushed, List.getLast?_cons_cons, ← List.getLast?_append_cons hidden, ← split]
  · rw [pushed, List.forall_mem_cons]
    exact ⟨Nat.lt_succ_self _, fun other member => (below other (stays other member)).trans
      (Nat.lt_succ_self _)⟩
  · intro x q less
    rcases Nat.lt_succ_iff_lt_or_eq.1 less with before | rfl
    · exact exists_le_of_gone (lower x) (pushed ▸ List.subset_cons_self _ _)
        (split ▸ envelope.lowest x q before)
    · exact ⟨_, by rw [pushed]; exact List.mem_cons_self, le_rfl⟩

def envelopeOf (costs : Array ℚ) (count : Nat) : List (Piece ℚ) :=
  (List.range count).foldl (fun pieces q => pushPiece Nat.cast costs q pieces) []

theorem envelopeOf_succ (costs : Array ℚ) (count : Nat) :
    envelopeOf costs (count + 1) = pushPiece Nat.cast costs count (envelopeOf costs count) := by
  rw [envelopeOf, List.range_succ, List.foldl_append]
  rfl

theorem isEnvelope_envelopeOf (costs : Array ℚ) (count : Nat) :
    IsEnvelope costs (count + 1) (envelopeOf costs (count + 1)) := by
  induction count with
  | zero => exact isEnvelope_single costs
  | succ count ih =>
    rw [envelopeOf_succ]
    exact ih.pushPiece

/-! ## Reading the envelope -/

def Rising (costs : Array ℚ) (pieces : List (Piece ℚ)) : Prop :=
  pieces.IsChain fun piece next => Above costs next piece

theorem IsEnvelope.rising (envelope : IsEnvelope costs count pieces) : Rising costs pieces.reverse :=
  List.isChain_reverse.2 envelope.chain

/-- Left of the next part, no part that follows has anything lower. -/
theorem reach_le_of_rising (rising : Rising costs (piece :: rest))
    (left : ∀ next ∈ rest.head?, ∀ start, next.start = some start → x ≤ start) :
    ∀ later ∈ rest, reach costs piece.vertex x ≤ reach costs later.vertex x := by
  induction rest generalizing piece with
  | nil => simp
  | cons next rest ih =>
    rw [Rising, List.isChain_cons_cons] at rising
    have le : x ≤ crossing Nat.cast costs next.vertex piece.vertex :=
      left next rfl _ rising.1.start
    have lower : reach costs piece.vertex x ≤ reach costs next.vertex x :=
      (reach_le_iff rising.1.vertex).2 le
    refine List.forall_mem_cons.2 ⟨lower, fun later member => lower.trans ?_⟩
    refine ih rising.2 (fun next' head start starts => ?_) later member
    cases rest with
    | nil => cases head
    | cons _ _ =>
      obtain rfl := Option.some.inj head
      have above := (List.isChain_cons_cons.1 rising.2).1
      rw [above.start, Option.some.injEq] at starts
      exact starts ▸ le.trans (above.later _ rising.1.start).le

/-- The parts that are dropped are not needed from here on, and the first one that is left is the lowest
of these here. -/
theorem exists_advanceTo (rising : Rising costs pieces) (nonempty : pieces ≠ []) (x : ℚ) :
    ∃ passed piece rest, pieces = passed ++ piece :: rest ∧ advanceTo x pieces = piece :: rest ∧
      (∀ y, x ≤ y → ∀ other ∈ passed, ∃ kept ∈ piece :: rest,
        reach costs kept.vertex y ≤ reach costs other.vertex y) ∧
      ∀ later ∈ rest, reach costs piece.vertex x ≤ reach costs later.vertex x := by
  induction pieces with
  | nil => exact absurd rfl nonempty
  | cons piece rest ih =>
    cases rest with
    | nil => exact ⟨[], piece, [], rfl, rfl, by simp, by simp⟩
    | cons next rest =>
      have above := (List.isChain_cons_cons.1 rising).1
      have rest_rising : Rising costs (next :: rest) := (List.isChain_cons_cons.1 rising).2
      rw [advanceTo, above.start]
      dsimp only
      split
      case isTrue passes =>
        obtain ⟨passed, kept, rest', split, advanced, lower, least⟩ :=
          ih rest_rising (List.cons_ne_nil _ _)
        refine ⟨piece :: passed, kept, rest', by rw [split, List.cons_append], advanced,
          fun y right => List.forall_mem_cons.2 ⟨?_, lower y right⟩, least⟩
        have lower' : reach costs next.vertex y ≤ reach costs piece.vertex y :=
          (le_reach_iff above.vertex).2 (passes.le.trans right)
        exact exists_le_of_gone (lower y right) (List.Subset.refl _)
          ⟨next, split ▸ List.mem_cons_self, lower'⟩
      case isFalse stops =>
        refine ⟨[], piece, next :: rest, rfl, rfl, by simp, reach_le_of_rising rising ?_⟩
        intro next' head start starts
        obtain rfl := Option.some.inj head
        rw [above.start, Option.some.injEq] at starts
        exact starts ▸ not_lt.1 stops

/-- From a position on, one of the parts is as low as any parabola. -/
def LowestFrom (costs : Array ℚ) (position : ℚ) (pieces : List (Piece ℚ)) : Prop :=
  ∀ x, position ≤ x → ∀ q < costs.size, ∃ piece ∈ pieces,
    reach costs piece.vertex x ≤ reach costs q x

/-- Reading takes the minimum at each position. -/
theorem exists_readEnvelope {position : Nat} (rising : Rising costs pieces) (nonempty : pieces ≠ [])
    (below : ∀ piece ∈ pieces, piece.vertex < costs.size)
    (lowest : LowestFrom costs position pieces) (done : Array ℚ) :
    ∃ values, (readEnvelope Nat.cast costs count position pieces done).toList = done.toList ++ values ∧
      List.Forall₂ (fun (place : Nat) value => IsLeast (reaches costs place) value)
        (List.range' position count) values := by
  induction count generalizing position pieces done with
  | zero => exact ⟨[], by simp [readEnvelope], .nil⟩
  | succ count ih =>
    obtain ⟨passed, piece, rest, split, advanced, lower, least⟩ :=
      exists_advanceTo rising nonempty position
    have stays : ∀ other ∈ piece :: rest, other ∈ pieces := fun other member =>
      split ▸ List.mem_append_right _ member
    -- what was dropped is not needed any more, so the rest is still as low as any parabola
    have lowest' : LowestFrom costs position (piece :: rest) := fun x right q inside =>
      exists_le_of_gone (lower x right) (List.Subset.refl _) (split ▸ lowest x right q inside)
    have isLeast : IsLeast (reaches costs position) (reach costs piece.vertex position) := by
      refine ⟨⟨piece.vertex, below piece (stays piece List.mem_cons_self), rfl⟩, ?_⟩
      rintro _ ⟨q, inside, rfl⟩
      obtain ⟨other, member, le⟩ := lowest' position le_rfl q inside
      rcases List.mem_cons.1 member with rfl | later
      · exact le
      · exact (least other later).trans le
    have behind : LowestFrom costs (position + 1 : Nat) (piece :: rest) := fun x right =>
      lowest' x (le_trans (by push_cast; linarith) right)
    obtain ⟨values, read, values_least⟩ := @ih _ (position + 1) (split ▸ rising).right_of_append
      (List.cons_ne_nil _ _) (fun other member => below other (stays other member)) behind
      (done.push (reach costs piece.vertex position))
    refine ⟨reach costs piece.vertex position :: values, ?_, ?_⟩
    · rw [readEnvelope]
      dsimp only
      rw [advanced]
      refine read.trans ?_
      rw [Array.toList_push, List.append_assoc, List.singleton_append]
    · rw [List.range'_succ]
      exact .cons isLeast values_least

/-- The transform, value by value. -/
theorem forall₂_distanceTransform (costs : Array ℚ) :
    List.Forall₂ (fun (place : Nat) value => IsLeast (reaches costs place) value)
      (List.range costs.size) (distanceTransform Nat.cast costs).toList := by
  rcases Nat.eq_zero_or_eq_succ_pred costs.size with empty | size
  · rw [distanceTransform, empty]
    exact .nil
  · have envelope := isEnvelope_envelopeOf costs costs.size.pred
    rw [← Nat.succ_eq_add_one, ← size] at envelope
    have nonempty : envelopeOf costs costs.size ≠ [] := by
      intro empty
      obtain ⟨_, last⟩ := envelope.bottom
      rw [empty] at last
      cases last
    obtain ⟨values, read, least⟩ := @exists_readEnvelope costs _ costs.size 0 envelope.rising
      (by simpa using nonempty) (fun piece member => envelope.below piece (List.mem_reverse.1 member))
      (fun x _ q inside => by
        obtain ⟨piece, member, le⟩ := envelope.lowest x q inside
        exact ⟨piece, List.mem_reverse.2 member, le⟩)
      (Array.mkEmpty costs.size)
    rw [List.range_eq_range']
    have same : (distanceTransform Nat.cast costs).toList = values := by
      rw [distanceTransform]
      exact read.trans (List.nil_append _)
    rwa [same]

theorem size_distanceTransform (costs : Array ℚ) :
    (distanceTransform Nat.cast costs).size = costs.size := by
  rw [← Array.length_toList, ← (forall₂_distanceTransform costs).length_eq, List.length_range]

/-- The transform takes the minimum at every position. -/
theorem isLeast_distanceTransform {place : Nat} (inside : place < costs.size) :
    IsLeast (reaches costs place) ((distanceTransform Nat.cast costs).getD place default) := by
  have least := (forall₂_distanceTransform costs).get (i := place) (by simpa using inside)
    (by simpa [size_distanceTransform] using inside)
  have size := size_distanceTransform costs
  simpa [Array.getD_eq_getD_getElem?, Array.getElem?_eq_getElem (size ▸ inside)] using least

end Terrain.Line
