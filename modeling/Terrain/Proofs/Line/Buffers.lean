import Mathlib.Order.WithBot
import Terrain.Proofs.Line.Envelope

/-!
# The envelope in buffers

The envelope fits into two buffers of fixed length: the vertices of its pieces, and where they start,
with an infinity below the first start and one behind the last. A parabola is pushed at an index that
goes down while pieces are hidden, and the envelope is read at an index that goes up. Here every access
is checked, and so is every step down; no check ever fails.

* `Line.transformBuffers` — the transform with every access checked.
* `Line.Buffers.Lays` — buffers that hold an envelope.
* `Line.transformBuffers_eq` — no check fails, and the result is the transform.
-/

namespace Terrain.Line

/-- A start, or an infinity on either side of all starts. -/
abbrev Mark := WithBot (WithTop ℚ)

/-- The mark of a start; the first piece starts below everything. -/
def Mark.ofStart : Option ℚ → Mark
  | none => ⊥
  | some start => ((start : WithTop ℚ) : Mark)

/-- The pieces of an envelope from left to right. The start behind the last piece is infinite. -/
structure Buffers where
  vertices : Array Nat
  starts : Array Mark

/-! ## Checked accesses -/

/-- Writes to a place that must exist. -/
def write? {α : Type} (cells : Array α) (place : Nat) (value : α) : Option (Array α) :=
  if place < cells.size then some (cells.setIfInBounds place value) else none

/-- Where two parabolas cross, which must not be the same. -/
def crossing? (costs : Array ℚ) (q p : Nat) : Option ℚ := do
  let _ ← costs[q]?
  let _ ← costs[p]?
  if q = p then none else return crossing Nat.cast costs q p

/-- Goes down from the piece at `top` until one is not hidden by the parabola over `q`; there must be
one. -/
def settle? (costs : Array ℚ) (buffers : Buffers) (q top : Nat) : Option (Nat × ℚ) := do
  let vertex ← buffers.vertices[top]?
  let start ← crossing? costs q vertex
  let mark ← buffers.starts[top]?
  if Mark.ofStart (some start) ≤ mark then
    match top with
    | 0 => none
    | top + 1 => settle? costs buffers q top
  else return (top, start)

/-- Adds the parabola over `q` to the pieces up to the one at `top`. -/
def place? (costs : Array ℚ) (q : Nat) (buffers : Buffers) (top : Nat) : Option (Buffers × Nat) := do
  let (top, start) ← settle? costs buffers q top
  let vertices ← write? buffers.vertices (top + 1) q
  let starts ← write? buffers.starts (top + 1) (Mark.ofStart (some start))
  let starts ← write? starts (top + 2) ⊤
  return (⟨vertices, starts⟩, top + 1)

/-- Buffers for an envelope with the first of `count` vertices. -/
def start? (count : Nat) : Option Buffers := do
  let starts ← write? (Array.replicate (count + 1) (Mark.ofStart (some 0))) 0 ⊥
  let starts ← write? starts 1 ⊤
  return ⟨Array.replicate count 0, starts⟩

/-- Goes up from the piece at `top` to the one that a position falls into. -/
def seek? (starts : Array Mark) (position : ℚ) (top : Nat) : Option Nat :=
  match found : starts[top + 1]? with
  | none => none
  | some mark => if mark < Mark.ofStart (some position) then seek? starts position (top + 1) else some top
termination_by starts.size - top
decreasing_by
  have := (Array.getElem?_eq_some_iff.1 found).1
  omega

/-- Reads the envelope at `count` positions from `position` on. -/
def read? (costs : Array ℚ) (buffers : Buffers) :
    (count position top : Nat) → (done : Array ℚ) → Option (Array ℚ)
  | 0, _, _, done => some done
  | count + 1, position, top, done => do
    let top ← seek? buffers.starts position top
    let vertex ← buffers.vertices[top]?
    let cost ← costs[vertex]?
    let delta := (position : ℚ) - vertex
    read? costs buffers count (position + 1) top (done.push (delta * delta + cost))

/-- The transform with every access checked. -/
def transformBuffers (costs : Array ℚ) : Option (Array ℚ) := do
  if costs.isEmpty then return #[]
  let buffers ← start? costs.size
  let (buffers, _) ← (List.range' 1 (costs.size - 1)).foldlM
    (fun (buffers, top) q => place? costs q buffers top) (buffers, 0)
  read? costs buffers costs.size 0 0 #[]

/-! ## Buffers that hold an envelope -/

variable {costs : Array ℚ} {buffers : Buffers} {pieces rest : List (Piece ℚ)} {piece : Piece ℚ}
  {count q p top : Nat} {x : ℚ}

theorem crossing?_eq (inside : q < costs.size) (before : p < q) :
    crossing? costs q p = some (crossing Nat.cast costs q p) := by
  have inside' : p < costs.size := before.trans inside
  simp [crossing?, inside, inside', before.ne']

theorem Mark.ofStart_le {start before : ℚ} :
    Mark.ofStart (some start) ≤ Mark.ofStart (some before) ↔ start ≤ before := by
  rw [ofStart, ofStart, WithBot.coe_le_coe, WithTop.coe_le_coe]

theorem Mark.ofStart_lt {start before : ℚ} :
    Mark.ofStart (some start) < Mark.ofStart (some before) ↔ start < before := by
  rw [ofStart, ofStart, WithBot.coe_lt_coe, WithTop.coe_lt_coe]

theorem Mark.not_ofStart_le_bot (start : ℚ) : ¬Mark.ofStart (some start) ≤ Mark.ofStart none :=
  not_le.2 (WithBot.bot_lt_coe _)

/-- The buffers have the pieces from left to right; what is behind them is not used. -/
structure Buffers.Lays (buffers : Buffers) (pieces : List (Piece ℚ)) : Prop where
  vertex : ∀ (place : Nat) (piece : Piece ℚ), pieces.reverse[place]? = some piece →
    buffers.vertices[place]? = some piece.vertex
  start : ∀ (place : Nat) (piece : Piece ℚ), pieces.reverse[place]? = some piece →
    buffers.starts[place]? = some (Mark.ofStart piece.start)

theorem Buffers.Lays.tail (lays : buffers.Lays (piece :: rest)) : buffers.Lays rest := by
  have deeper {place : Nat} {other : Piece ℚ} (found : rest.reverse[place]? = some other) :
      (piece :: rest).reverse[place]? = some other := by
    rw [List.reverse_cons, List.getElem?_append_left (List.getElem?_eq_some_iff.1 found).1, found]
  exact ⟨fun _ _ found => lays.vertex _ _ (deeper found), fun _ _ found =>
    lays.start _ _ (deeper found)⟩

theorem Buffers.Lays.kept {hidden : List (Piece ℚ)} (lays : buffers.Lays (hidden ++ pieces)) :
    buffers.Lays pieces := by
  induction hidden with
  | nil => exact lays
  | cons piece hidden ih => exact ih lays.tail

/-- A piece is written behind the others, which stay as they are, and an infinity behind it. -/
theorem Buffers.Lays.push (lays : buffers.Lays pieces) (room : pieces.length < buffers.vertices.size)
    (room' : pieces.length < buffers.starts.size) (piece : Piece ℚ) :
    (⟨buffers.vertices.setIfInBounds pieces.length piece.vertex,
      (buffers.starts.setIfInBounds pieces.length (Mark.ofStart piece.start)).setIfInBounds
        (pieces.length + 1) ⊤⟩ : Buffers).Lays (piece :: pieces) := by
  have cases {place : Nat} {other : Piece ℚ} (found : (piece :: pieces).reverse[place]? = some other) :
      (place < pieces.length ∧ pieces.reverse[place]? = some other) ∨
        place = pieces.length ∧ other = piece := by
    rw [List.reverse_cons, List.getElem?_append] at found
    split at found
    case isTrue before => exact .inl ⟨by simpa using before, found⟩
    case isFalse behind =>
      have only := (List.getElem?_eq_some_iff.1 found).1
      simp only [List.length_reverse, List.length_cons, List.length_nil] at only behind
      obtain rfl : place = pieces.length := by omega
      exact .inr ⟨rfl, by simpa using found.symm⟩
  constructor
  case vertex =>
    intro place other found
    rcases cases found with ⟨before, found⟩ | ⟨rfl, rfl⟩
    · rw [Array.getElem?_setIfInBounds_ne (by omega), lays.vertex _ _ found]
    · rw [Array.getElem?_setIfInBounds_self_of_lt room]
  case start =>
    intro place other found
    rw [Array.getElem?_setIfInBounds_ne (by rcases cases found with ⟨_, _⟩ | ⟨_, _⟩ <;> omega)]
    rcases cases found with ⟨before, found⟩ | ⟨rfl, rfl⟩
    · rw [Array.getElem?_setIfInBounds_ne (by omega), lays.start _ _ found]
    · rw [Array.getElem?_setIfInBounds_self_of_lt room']

theorem reverse_getElem?_length (piece : Piece ℚ) (rest : List (Piece ℚ)) :
    (piece :: rest).reverse[rest.length]? = some piece := by
  rw [List.reverse_cons, List.getElem?_append_right (by simp)]
  simp

/-- Going down the buffers removes what a push removes, and ends above the first piece at the latest. -/
theorem exists_settle? (lays : buffers.Lays pieces) (chain : pieces.IsChain (Above costs))
    (bottom : ∃ vertex, pieces.getLast? = some ⟨vertex, none⟩)
    (below : ∀ piece ∈ pieces, piece.vertex < q) (inside : q < costs.size) :
    ∃ start piece rest, (∃ hidden, pieces = hidden ++ piece :: rest) ∧
      pushPiece Nat.cast costs q pieces = ⟨q, some start⟩ :: piece :: rest ∧
      settle? costs buffers q (pieces.length - 1) = some (rest.length, start) := by
  induction pieces with
  | nil =>
    obtain ⟨_, last⟩ := bottom
    cases last
  | cons piece rest ih =>
    have vertex := lays.vertex _ _ (reverse_getElem?_length piece rest)
    have mark := lays.start _ _ (reverse_getElem?_length piece rest)
    have crosses := crossing?_eq inside (below piece List.mem_cons_self)
    have top : (piece :: rest).length - 1 = rest.length := rfl
    rw [top, settle?.eq_def]
    simp only [vertex, crosses, mark, Option.bind_eq_bind, Option.bind_some]
    unfold pushPiece
    dsimp only
    split
    case h_1 none =>
      rw [none, if_neg (Mark.not_ofStart_le_bot _)]
      exact ⟨_, piece, rest, ⟨[], rfl⟩, rfl, rfl⟩
    case h_2 start starts =>
      simp only [starts, Mark.ofStart_le]
      split
      case isFalse after => exact ⟨_, piece, rest, ⟨[], rfl⟩, rfl, rfl⟩
      case isTrue hides =>
        cases rest with
        | nil =>
          obtain ⟨_, last⟩ := bottom
          rw [List.getLast?_singleton, Option.some.injEq] at last
          simp [last] at starts
        | cons next rest =>
          rw [List.getLast?_cons_cons] at bottom
          rw [List.forall_mem_cons] at below
          obtain ⟨start', kept, rest', ⟨hidden, split⟩, pushed, settled⟩ :=
            ih lays.tail (List.isChain_cons_cons.1 chain).2 bottom below.2
          exact ⟨start', kept, rest', ⟨piece :: hidden, by rw [split, List.cons_append]⟩, pushed,
            settled⟩

/-- Vertices fall down the pieces, so there are not more pieces than vertices. -/
theorem length_le_of_chain (chain : pieces.IsChain (Above costs))
    (below : ∀ piece ∈ pieces, piece.vertex < count) : pieces.length ≤ count := by
  induction pieces generalizing count with
  | nil => exact Nat.zero_le _
  | cons piece rest ih =>
    rw [List.forall_mem_cons] at below
    have falls : ∀ other ∈ rest, other.vertex < piece.vertex := by
      have pairwise := (chain.imp fun _ _ above => above.vertex).pairwise
      exact (List.pairwise_cons.1 pairwise).1
    have shorter := ih chain.tail falls
    rw [List.length_cons]
    omega

/-- The envelope of the first `count` vertices in buffers for all vertices. -/
structure Buffers.Holds (buffers : Buffers) (costs : Array ℚ) (count top : Nat) : Prop where
  vertices : buffers.vertices.size = costs.size
  starts : buffers.starts.size = costs.size + 1
  lays : buffers.Lays (envelopeOf costs count)
  length : (envelopeOf costs count).length = top + 1
  stop : buffers.starts[top + 1]? = some ⊤

theorem write?_eq {α : Type} {cells : Array α} {place : Nat} (inside : place < cells.size) (value : α) :
    write? cells place value = some (cells.setIfInBounds place value) := if_pos inside

theorem exists_start? (nonempty : 0 < costs.size) :
    ∃ buffers, start? costs.size = some buffers ∧ buffers.Holds costs 1 0 := by
  have one : 1 < costs.size + 1 := by omega
  refine ⟨⟨Array.replicate costs.size 0,
    ((Array.replicate (costs.size + 1) (Mark.ofStart (some 0))).setIfInBounds 0 ⊥).setIfInBounds 1 ⊤⟩,
    ?_, by simp, ?_, ?_, rfl, ?_⟩
  · rw [start?, write?_eq (by simp)]
    dsimp only [Option.bind_eq_bind, Option.bind_some]
    rw [write?_eq (by simpa using nonempty)]
    rfl
  · simp
  · have first {place : Nat} {piece : Piece ℚ}
        (found : (envelopeOf costs 1).reverse[place]? = some piece) : place = 0 ∧ piece = ⟨0, none⟩ := by
      have inside := (List.getElem?_eq_some_iff.1 found).1
      obtain rfl : place = 0 := by simpa [envelopeOf, pushPiece] using inside
      exact ⟨rfl, by simpa [envelopeOf, pushPiece] using found.symm⟩
    constructor
    all_goals
      intro place piece found
      obtain ⟨rfl, rfl⟩ := first found
      simp [nonempty, Mark.ofStart]
  · simp [nonempty]

theorem Buffers.Holds.exists_place? (holds : buffers.Holds costs (count + 1) top)
    (inside : count + 1 < costs.size) :
    ∃ buffers' top', place? costs (count + 1) buffers top = some (buffers', top') ∧
      buffers'.Holds costs (count + 2) top' := by
  have envelope := isEnvelope_envelopeOf costs count
  obtain ⟨start, piece, rest, ⟨hidden, split⟩, pushed, settled⟩ :=
    exists_settle? holds.lays envelope.chain envelope.bottom envelope.below inside
  have room : rest.length + 1 ≤ count + 1 := by
    have length := length_le_of_chain envelope.chain envelope.below
    rw [split, List.length_append, List.length_cons] at length
    omega
  rw [holds.length, Nat.add_sub_cancel] at settled
  have kept : buffers.Lays (piece :: rest) := (split ▸ holds.lays).kept
  refine ⟨⟨buffers.vertices.setIfInBounds (rest.length + 1) (count + 1),
    (buffers.starts.setIfInBounds (rest.length + 1) (Mark.ofStart (some start))).setIfInBounds
      (rest.length + 2) ⊤⟩, rest.length + 1, ?_, ?_, ?_, ?_, ?_, ?_⟩
  · rw [place?, settled]
    dsimp only [Option.bind_eq_bind, Option.bind_some]
    rw [write?_eq (by rw [holds.vertices]; omega), Option.bind_some,
      write?_eq (by rw [holds.starts]; omega), Option.bind_some,
      write?_eq (by rw [Array.size_setIfInBounds, holds.starts]; omega)]
    rfl
  · rw [Array.size_setIfInBounds, holds.vertices]
  · rw [Array.size_setIfInBounds, Array.size_setIfInBounds, holds.starts]
  · rw [envelopeOf_succ, pushed]
    exact kept.push (by rw [holds.vertices, List.length_cons]; omega)
      (by rw [holds.starts, List.length_cons]; omega) ⟨count + 1, some start⟩
  · rw [envelopeOf_succ, pushed]
    rfl
  · rw [Array.getElem?_setIfInBounds_self_of_lt (by
      rw [Array.size_setIfInBounds, holds.starts]; omega)]

/-- Placing the vertices one after the other builds the envelope. -/
theorem Buffers.Holds.exists_foldlM (holds : buffers.Holds costs (count + 1) top) {more : Nat}
    (inside : count + 1 + more ≤ costs.size) :
    ∃ buffers' top', (List.range' (count + 1) more).foldlM
        (fun (state : Buffers × Nat) q => place? costs q state.1 state.2) (buffers, top) =
          some (buffers', top') ∧
      buffers'.Holds costs (count + 1 + more) top' := by
  induction more generalizing count buffers top with
  | zero => exact ⟨buffers, top, rfl, holds⟩
  | succ more ih =>
    obtain ⟨buffers', top', placed, holds'⟩ := holds.exists_place? (by omega)
    obtain ⟨buffers'', top'', ran, holds''⟩ := ih holds' (by omega)
    refine ⟨buffers'', top'', ?_, by rwa [Nat.add_assoc, Nat.add_comm 1 more, ← Nat.add_assoc] at holds''⟩
    rw [List.range'_succ, List.foldlM_cons, placed]
    exact ran

/-! ## Reading the buffers -/

theorem seek?_eq {starts : Array Mark} {mark : Mark} (found : starts[top + 1]? = some mark) :
    seek? starts x top =
      if mark < Mark.ofStart (some x) then seek? starts x (top + 1) else some top := by
  rw [seek?]
  split
  case h_1 missing => rw [found] at missing; cases missing
  case h_2 found' =>
    rw [found, Option.some.injEq] at found'
    rw [found']

/-- Going up the buffers drops what does not reach a position. -/
theorem exists_seek? {all : List (Piece ℚ)} (lays : buffers.Lays all.reverse)
    (stop : buffers.starts[all.length]? = some ⊤) (rising : Rising costs pieces)
    (nonempty : pieces ≠ []) {passed : List (Piece ℚ)} (split : all = passed ++ pieces) :
    ∃ passed', all = passed' ++ advanceTo x pieces ∧
      seek? buffers.starts x passed.length = some passed'.length := by
  induction pieces generalizing passed with
  | nil => exact absurd rfl nonempty
  | cons piece rest ih =>
    cases rest with
    | nil =>
      refine ⟨passed, split, ?_⟩
      rw [split, List.length_append, List.length_singleton] at stop
      rw [seek?_eq stop, if_neg not_top_lt]
    | cons next rest =>
      have above := (List.isChain_cons_cons.1 rising).1
      have place : all.reverse.reverse[passed.length + 1]? = some next := by
        rw [List.reverse_reverse, split, List.getElem?_append_right (by omega)]
        simp
      have mark := lays.start _ _ place
      rw [above.start] at mark
      rw [seek?_eq mark, advanceTo, above.start]
      simp only [Mark.ofStart_lt]
      split
      case isTrue passes =>
        obtain ⟨passed', split', sought⟩ := @ih (List.isChain_cons_cons.1 rising).2
          (List.cons_ne_nil _ _) (passed ++ [piece]) (by simpa using split)
        exact ⟨passed', split', by simpa using sought⟩
      case isFalse stops => exact ⟨passed, split, rfl⟩

theorem read?_eq {all : List (Piece ℚ)} (lays : buffers.Lays all.reverse)
    (stop : buffers.starts[all.length]? = some ⊤)
    (below : ∀ piece ∈ all, piece.vertex < costs.size) (rising : Rising costs pieces)
    (nonempty : pieces ≠ []) {passed : List (Piece ℚ)} (split : all = passed ++ pieces)
    (position : Nat) (done : Array ℚ) :
    read? costs buffers count position passed.length done =
      some (readEnvelope Nat.cast costs count position pieces done) := by
  induction count generalizing position passed pieces done with
  | zero => rfl
  | succ count ih =>
    obtain ⟨passed', split', sought⟩ := @exists_seek? costs _ _ position _ lays stop rising nonempty _ split
    obtain ⟨dropped, piece, rest, cut, advanced, -⟩ := exists_advanceTo rising nonempty position
    have place : all.reverse.reverse[passed'.length]? = some piece := by
      rw [List.reverse_reverse, split', advanced, List.getElem?_append_right (Nat.le_refl _)]
      simp
    have inside : piece.vertex < costs.size := below piece (by
      rw [split', advanced]
      exact List.mem_append_right _ List.mem_cons_self)
    have cost : costs[piece.vertex]? = some (costs.getD piece.vertex default) := by
      simp [inside]
    rw [read?, readEnvelope, sought]
    dsimp only [Option.bind_eq_bind, Option.bind_some]
    rw [lays.vertex _ _ place, Option.bind_some, cost, Option.bind_some, advanced]
    rw [advanced] at split'
    exact ih (cut ▸ rising).right_of_append (List.cons_ne_nil _ _) split' _ _

/-- No check of the transform fails, and its result is that of the transform without checks. -/
theorem transformBuffers_eq (costs : Array ℚ) :
    transformBuffers costs = some (distanceTransform Nat.cast costs) := by
  rcases Nat.eq_zero_or_pos costs.size with empty | nonempty
  · obtain rfl := Array.eq_empty_of_size_eq_zero empty
    rfl
  · obtain ⟨buffers, started, holds⟩ := exists_start? nonempty
    have all : 0 + 1 + (costs.size - 1) = costs.size - 1 + 1 := by omega
    have size : costs.size - 1 + 1 = costs.size := by omega
    obtain ⟨buffers', top, built, holds'⟩ := 
      @Buffers.Holds.exists_foldlM costs buffers 0 0 holds (costs.size - 1) (by omega)
    have envelope := isEnvelope_envelopeOf costs (costs.size - 1)
    rw [all, size] at holds'
    rw [size] at envelope
    have nonempty' : (envelopeOf costs costs.size).reverse ≠ [] := by
      rw [Ne, List.reverse_eq_nil_iff, ← List.length_eq_zero_iff, holds'.length]
      omega
    have read := @read?_eq costs buffers' _ costs.size (envelopeOf costs costs.size).reverse
      (by rw [List.reverse_reverse]; exact holds'.lays)
      (by rw [List.length_reverse, holds'.length]; exact holds'.stop)
      (fun piece member => envelope.below piece (List.mem_reverse.1 member)) envelope.rising nonempty'
      [] rfl 0 #[]
    have some : costs.isEmpty = false := by
      rw [Array.isEmpty_eq_false_iff]
      rintro rfl
      exact absurd nonempty (by decide)
    rw [transformBuffers, some, started]
    dsimp only [Option.bind_eq_bind, Option.bind_some, Bool.false_eq_true, if_false]
    rw [built]
    exact read

end Terrain.Line
