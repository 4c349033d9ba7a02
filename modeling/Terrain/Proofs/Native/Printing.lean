import Std.Data.String.ToNat
import Terrain.Native.Dispatch
import Terrain.Proofs.Machine.References
import Terrain.Proofs.Outcome
import Terrain.Proofs.Text.Replacement

/-!
# Printed messages

A format is a row of letters and placeholders. Printing replaces the placeholders one index after the
other, each in the whole message so far. As long as the texts that are inserted make no placeholder that
the format does not have, this fills all placeholders at once, in whatever order they come. A text that
does is read as a part of the format.

* `Native.Part`, `Native.partsOf` — the letters and placeholders of a format.
* `Native.filled` — a format with texts for some of its placeholders.
* `Native.Unforged` — no insertion makes a placeholder.
* `Native.print_fills` — the message of a call.
-/

namespace Terrain.Native

open Machine Text

/-! ## Placeholders -/

def marker (index : Nat) : List Char := (placeholder index).toList

def markerBody (index : Nat) : List Char := (toString index).toList ++ ['\x7d']

theorem marker_eq (index : Nat) : marker index = '\x7b' :: markerBody index := by
  simp [marker, markerBody, placeholder]

theorem isDigit_of_mem_toString {index : Nat} {letter : Char}
    (member : letter ∈ (toString index).toList) : letter.isDigit := by
  have digits : (toString index).toList = Nat.toDigits 10 index := Nat.toList_repr
  rw [digits] at member
  exact Nat.isDigit_of_mem_toDigits (by decide) (by decide) member

theorem not_mem_toString {index : Nat} {letter : Char} (other : letter.isDigit = false) :
    letter ∉ (toString index).toList := fun member => by
  rw [isDigit_of_mem_toString member] at other
  cases other

/-- A placeholder does not begin inside of another one. -/
theorem not_mem_markerBody (index : Nat) : '\x7b' ∉ markerBody index := by
  rw [markerBody, List.mem_append, not_or]
  exact ⟨not_mem_toString (by decide), by decide⟩

/-- At one place begins one placeholder at most. -/
theorem marker_prefix_inj {text : List Char} {index index' : Nat} (begins : marker index <+: text)
    (begins' : marker index' <+: text) : index = index' := by
  rw [marker_eq] at begins begins'
  cases text with
  | nil => exact absurd begins.length_le (by simp)
  | cons letter rest =>
    have same := eq_of_begins (not_mem_toString (by decide)) (not_mem_toString (by decide))
      (List.cons_prefix_cons.1 begins).2 (List.cons_prefix_cons.1 begins').2
    exact Nat.repr_inj.1 (String.toList_inj.1 same)

theorem occurrences_marker_append {index index' : Nat} (rest : List Char) :
    occurrences (marker index) (marker index' ++ rest) =
      (if index' = index then 1 else 0) + occurrences (marker index) rest := by
  split
  case isTrue same =>
    subst same
    rw [marker_eq, occurrences_self_append (not_mem_markerBody _), Nat.add_comm]
  case isFalse different =>
    have absent : ¬marker index <+: marker index' ++ rest := fun begins =>
      different (marker_prefix_inj (List.prefix_append _ _) begins)
    rw [marker_eq index', List.cons_append] at absent ⊢
    rw [occurrences_cons_of_absent absent, marker_eq index,
      occurrences_append_of_not_mem (not_mem_markerBody _), Nat.zero_add]

/-! ## Formats -/

inductive Part where
  | plain (letter : Char)
  | hole (index : Nat)
  deriving DecidableEq

def Part.spelling : Part → List Char
  | .plain letter => [letter]
  | .hole index => marker index

/-- A part after the insertion of the texts that are given. -/
def Part.insert (text? : Nat → Option String) : Part → List Part
  | .plain letter => [.plain letter]
  | .hole index =>
    match text? index with
    | some text => text.toList.map .plain
    | none => [.hole index]

/-- The placeholder of one of the first `count` arguments that a text begins with. -/
def holeAt? (count : Nat) (text : List Char) : Option Nat :=
  (List.range count).find? fun index => (marker index).isPrefixOf text

theorem holeAt?_eq_some {count index : Nat} {text : List Char} (found : holeAt? count text = some index) :
    index < count ∧ marker index <+: text := by
  rw [holeAt?, List.find?_range_eq_some, List.isPrefixOf_iff_prefix, List.mem_range] at found
  exact ⟨found.2.1, found.1⟩

def partsFrom (count : Nat) : Nat → List Char → List Part
  | _, [] => []
  | skip + 1, _ :: rest => partsFrom count skip rest
  | 0, letter :: rest =>
    match holeAt? count (letter :: rest) with
    | some index => .hole index :: partsFrom count (markerBody index).length rest
    | none => .plain letter :: partsFrom count 0 rest

def partsOf (count : Nat) (format : String) : List Part := partsFrom count 0 format.toList

def spellings (parts : List Part) : List Char := parts.flatMap Part.spelling

/-- A format with the texts that are given in the place of their placeholders, all at once. -/
def filled (count : Nat) (format : String) (text? : Nat → Option String) : String :=
  String.ofList (spellings ((partsOf count format).flatMap (Part.insert text?)))

theorem flatMap_insert_plain (text? : Nat → Option String) (letter : Char) (parts : List Part) :
    (Part.plain letter :: parts).flatMap (Part.insert text?) =
      .plain letter :: parts.flatMap (Part.insert text?) := rfl

/-- How a text is split into parts: wherever a placeholder begins, it is a part. -/
inductive Splits (count : Nat) : List Char → List Part → Prop where
  | nil : Splits count [] []
  | hole {index : Nat} {rest : List Char} {parts : List Part} (inside : index < count)
      (splits : Splits count rest parts) : Splits count (marker index ++ rest) (.hole index :: parts)
  | plain {letter : Char} {rest : List Char} {parts : List Part}
      (absent : ∀ index < count, ¬marker index <+: letter :: rest) (splits : Splits count rest parts) :
      Splits count (letter :: rest) (.plain letter :: parts)

variable {count : Nat} {text rest : List Char} {parts : List Part}

theorem partsFrom_skip (count : Nat) (skipped rest : List Char) :
    partsFrom count skipped.length (skipped ++ rest) = partsFrom count 0 rest := by
  induction skipped with
  | nil => rfl
  | cons _ skipped ih => exact ih

theorem splits_partsFrom (count : Nat) (text : List Char) : Splits count text (partsFrom count 0 text) := by
  induction size : text.length using Nat.strong_induction_on generalizing text with
  | _ size ih =>
    cases text with
    | nil => exact .nil
    | cons letter rest =>
      rw [partsFrom]
      split
      case h_1 index found =>
        obtain ⟨inside, begins⟩ := holeAt?_eq_some found
        obtain ⟨behind, split⟩ := begins
        rw [marker_eq, List.cons_append, List.cons.injEq] at split
        obtain ⟨rfl, rfl⟩ := split
        rw [partsFrom_skip, ← List.cons_append, ← marker_eq]
        refine .hole inside (ih behind.length ?_ behind rfl)
        rw [← size, List.length_cons, List.length_append]
        omega
      case h_2 missing =>
        refine .plain (fun index inside begins => ?_) (ih rest.length (by simp [← size]) rest rfl)
        exact List.find?_eq_none.1 missing index (List.mem_range.2 inside)
          (List.isPrefixOf_iff_prefix.2 begins)

theorem spellings_append (parts parts' : List Part) :
    spellings (parts ++ parts') = spellings parts ++ spellings parts' := List.flatMap_append

@[simp]
theorem spellings_nil : spellings [] = [] := rfl

@[simp]
theorem spellings_plain (letter : Char) (parts : List Part) :
    spellings (.plain letter :: parts) = letter :: spellings parts := rfl

@[simp]
theorem spellings_hole (index : Nat) (parts : List Part) :
    spellings (.hole index :: parts) = marker index ++ spellings parts := rfl

theorem spellings_letters (letters : List Char) : spellings (letters.map .plain) = letters := by
  induction letters with
  | nil => rfl
  | cons letter letters ih => rw [List.map_cons, spellings_plain, ih]

namespace Splits

theorem spellings_eq (splits : Splits count text parts) : spellings parts = text := by
  induction splits with
  | nil => rfl
  | hole _ _ ih => rw [spellings_hole, ih]
  | plain _ _ ih => rw [spellings_plain, ih]

/-- All places where a placeholder begins are parts. -/
theorem count_hole (splits : Splits count text parts) {index : Nat} (inside : index < count) :
    parts.count (.hole index) = occurrences (marker index) text := by
  induction splits with
  | nil => rfl
  | hole _ _ ih =>
    rw [List.count_cons, ih, occurrences_marker_append, Nat.add_comm]
    congr 1
    simp
  | plain absent _ ih =>
    rw [List.count_cons_of_ne (by simp), ih, occurrences_cons_of_absent (absent index inside)]

end Splits

/-! ## One placeholder -/

def only (index : Nat) (text : String) : Nat → Option String := fun index' =>
  if index' = index then some text else none

theorem count_hole_le (parts : List Part) (index : Nat) :
    parts.count (.hole index) ≤ occurrences (marker index) (spellings parts) := by
  induction parts with
  | nil => exact Nat.le_refl _
  | cons part parts ih =>
    cases part with
    | plain letter =>
      rw [List.count_cons_of_ne (by simp), spellings_plain]
      exact ih.trans (occurrences_le_cons _ _ _)
    | hole index' =>
      rw [List.count_cons, spellings_hole, occurrences_marker_append]
      simp only [beq_iff_eq, Part.hole.injEq]
      omega

/-- A placeholder that begins nowhere but at its holes does not begin at a letter. -/
theorem not_prefix_of_genuine {letter : Char} {index : Nat}
    (genuine : occurrences (marker index) (letter :: spellings parts) = parts.count (.hole index)) :
    ¬marker index <+: letter :: spellings parts := by
  intro begins
  have least := count_hole_le parts index
  rw [occurrences_cons_of_begins begins] at genuine
  omega

/-- Replacing a placeholder fills its holes, if it does not begin anywhere else. -/
theorem replaceFrom_spellings {index : Nat}
    (genuine : occurrences (marker index) (spellings parts) = parts.count (.hole index)) (text : String) :
    replaceFrom (marker index) text.toList 0 (spellings parts) =
      spellings (parts.flatMap (Part.insert (only index text))) := by
  induction parts with
  | nil => rfl
  | cons part parts ih =>
    rw [List.flatMap_cons, spellings_append]
    cases part with
    | plain letter =>
      rw [List.count_cons_of_ne (by simp), spellings_plain] at genuine
      have absent := not_prefix_of_genuine genuine
      rw [occurrences_cons_of_absent absent] at genuine
      rw [spellings_plain, replaceFrom_cons_of_absent absent, ih genuine]
      rfl
    | hole index' =>
      rw [List.count_cons, spellings_hole, occurrences_marker_append] at genuine
      simp only [beq_iff_eq, Part.hole.injEq] at genuine
      rw [spellings_hole, Part.insert, only]
      split
      case h_1 text' given =>
        obtain ⟨rfl, rfl⟩ : index' = index ∧ text = text' := by simpa using given
        rw [spellings_letters, marker_eq, replaceFrom_self_append, ← marker_eq, ih (by omega)]
      case h_2 missing =>
        have different : index' ≠ index := by simpa using missing
        have absent : ¬marker index <+: marker index' ++ spellings parts := fun begins =>
          different (marker_prefix_inj (List.prefix_append _ _) begins)
        have kept := ih (by simpa [different] using genuine)
        rw [marker_eq index', List.cons_append] at absent
        rw [marker_eq index', List.cons_append, replaceFrom_cons_of_absent absent, marker_eq index,
          replaceFrom_append_of_not_mem (not_mem_markerBody _), ← marker_eq index, kept, spellings_hole,
          marker_eq index', spellings_nil, List.append_nil, List.cons_append]

/-! ## One placeholder after the other -/

def formatInOrder (format : String) (order : List (String × Nat)) : String :=
  order.foldl (fun message (text, index) => Text.replace message (placeholder index) text) format

theorem formatMessage_eq (format : String) (texts : List String) :
    formatMessage format texts = formatInOrder format texts.zipIdx := rfl

/-- Every placeholder that is replaced is one of the format: none comes about where a text is inserted. -/
def Unforged : List Part → List (String × Nat) → Prop
  | _, [] => True
  | parts, (text, index) :: order =>
    occurrences (marker index) (spellings parts) = parts.count (.hole index) ∧
      Unforged (parts.flatMap (Part.insert (only index text))) order

/-- The text of an argument, by its index. -/
def assigned : List (String × Nat) → Nat → Option String
  | [], _ => none
  | (text, index) :: order, index' => if index' = index then some text else assigned order index'

theorem flatMap_insert_none (parts : List Part) : parts.flatMap (Part.insert (assigned [])) = parts := by
  induction parts with
  | nil => rfl
  | cons part parts ih =>
    rw [List.flatMap_cons, ih]
    cases part <;> rfl

theorem flatMap_insert_letters (text? : Nat → Option String) (letters : List Char) :
    (letters.map Part.plain).flatMap (Part.insert text?) = letters.map .plain := by
  induction letters with
  | nil => rfl
  | cons letter letters ih =>
    rw [List.map_cons, List.flatMap_cons, ih]
    rfl

theorem flatMap_insert_only (parts : List Part) (text : String) (index : Nat)
    (order : List (String × Nat)) :
    (parts.flatMap (Part.insert (only index text))).flatMap (Part.insert (assigned order)) =
      parts.flatMap (Part.insert (assigned ((text, index) :: order))) := by
  rw [List.flatMap_assoc]
  congr 1
  funext part
  cases part with
  | plain letter => rfl
  | hole index' =>
    rcases eq_or_ne index' index with rfl | different
    · rw [Part.insert, Part.insert, only, assigned, if_pos rfl, if_pos rfl]
      exact flatMap_insert_letters _ _
    · rw [Part.insert, Part.insert, only, assigned, if_neg different, if_neg different]
      exact List.flatMap_singleton _ _

theorem formatInOrder_spellings {order : List (String × Nat)} (unforged : Unforged parts order) :
    formatInOrder (String.ofList (spellings parts)) order =
      String.ofList (spellings (parts.flatMap (Part.insert (assigned order)))) := by
  induction order generalizing parts with
  | nil =>
    rw [flatMap_insert_none]
    rfl
  | cons entry order ih =>
    obtain ⟨text, index⟩ := entry
    have replaced : Text.replace (String.ofList (spellings parts)) (placeholder index) text =
        String.ofList (spellings (parts.flatMap (Part.insert (only index text)))) := by
      rw [Text.replace, String.toList_ofList]
      exact congrArg String.ofList (replaceFrom_spellings unforged.1 text)
    rw [← flatMap_insert_only, ← ih unforged.2, ← replaced]
    rfl

theorem assigned_eq_some {order : List (String × Nat)} (distinct : (order.map (·.2)).Nodup)
    {text : String} {index : Nat} : assigned order index = some text ↔ (text, index) ∈ order := by
  induction order with
  | nil => simp [assigned]
  | cons entry order ih =>
    obtain ⟨fresh, distinct⟩ := List.nodup_cons.1 distinct
    rw [assigned, List.mem_cons, Prod.ext_iff]
    split
    case isTrue same =>
      subst same
      have absent : (text, entry.2) ∉ order := fun member =>
        fresh (List.mem_map.2 ⟨_, member, rfl⟩)
      simp [absent, eq_comm]
    case isFalse different => simp [ih distinct, different]

/-- In any order, every index gets its own text. -/
theorem assigned_eq {texts : List String} {order : List (String × Nat)} (all : order.Perm texts.zipIdx) :
    assigned order = fun index => texts[index]? := by
  have distinct : (order.map (·.2)).Nodup := by
    refine (all.map _).nodup_iff.2 ?_
    rw [List.zipIdx_map_snd]
    exact List.nodup_range'
  funext index
  refine Option.ext fun text => ?_
  rw [assigned_eq_some distinct, all.mem_iff, List.mk_mem_zipIdx_iff_getElem?]

/-- Without forged placeholders, the order does not matter. -/
theorem formatInOrder_eq_filled {format : String} {texts : List String} {order : List (String × Nat)}
    (all : order.Perm texts.zipIdx) (unforged : Unforged (partsOf texts.length format) order) :
    formatInOrder format order = filled texts.length format fun index => texts[index]? := by
  have split := (splits_partsFrom texts.length format.toList).spellings_eq
  have run := formatInOrder_spellings unforged
  rw [assigned_eq all] at run
  rw [filled, ← run, partsOf, split, String.ofList_toList]

/-! ## Texts without braces -/

/-- Whether a placeholder comes after digits only. -/
def digitsThenHole : List Part → Bool
  | [] => false
  | .hole _ :: _ => true
  | .plain letter :: parts => letter.isDigit && digitsThenHole parts

/-- No brace begins a placeholder that an inserted text completes. -/
def Clear : List Part → Bool
  | [] => true
  | .hole _ :: parts => Clear parts
  | .plain letter :: parts => !(letter == '\x7b' && digitsThenHole parts) && Clear parts

theorem digitsThenHole_insert {text? : Nat → Option String} (apart : digitsThenHole parts = false) :
    digitsThenHole (parts.flatMap (Part.insert text?)) = false := by
  induction parts with
  | nil => rfl
  | cons part parts ih =>
    cases part with
    | hole index => cases apart
    | plain letter =>
      rw [flatMap_insert_plain, digitsThenHole]
      rcases Bool.and_eq_false_iff.1 apart with other | apart
      · rw [other, Bool.false_and]
      · rw [ih apart, Bool.and_false]

/-- An insertion behind a letter that is no digit does not complete a placeholder. -/
theorem prefix_of_prefix_insert {text? : Nat → Option String} {word : List Char}
    (digits : ∀ letter ∈ word, letter.isDigit) (apart : digitsThenHole parts = false)
    (begins : word ++ ['\x7d'] <+: spellings (parts.flatMap (Part.insert text?))) :
    word ++ ['\x7d'] <+: spellings parts := by
  induction parts generalizing word with
  | nil => exact begins
  | cons part parts ih =>
    cases part with
    | hole index => cases apart
    | plain letter =>
      rw [flatMap_insert_plain, spellings_plain] at begins
      rw [spellings_plain]
      cases word with
      | nil =>
        obtain ⟨rfl, -⟩ := List.cons_prefix_cons.1 begins
        exact List.cons_prefix_cons.2 ⟨rfl, List.nil_prefix⟩
      | cons head word =>
        rw [List.cons_append, List.cons_prefix_cons] at begins
        obtain ⟨rfl, begins⟩ := begins
        have digit := digits head List.mem_cons_self
        rw [digitsThenHole, digit, Bool.true_and] at apart
        have later := ih (fun letter member => digits letter (List.mem_cons_of_mem _ member)) apart begins
        exact List.cons_prefix_cons.2 ⟨rfl, later⟩

theorem clear_letters_append {letters : List Char} (braceless : '\x7b' ∉ letters) :
    Clear (letters.map .plain ++ parts) = Clear parts := by
  induction letters with
  | nil => rfl
  | cons letter letters ih =>
    rw [List.mem_cons, not_or] at braceless
    rw [List.map_cons, List.cons_append, Clear, ih braceless.2, beq_false_of_ne (Ne.symm braceless.1),
      Bool.false_and, Bool.not_false, Bool.true_and]

theorem count_hole_letters (letters : List Char) (index : Nat) :
    (letters.map Part.plain).count (.hole index) = 0 := by
  simp [List.count_eq_zero]

/-- The placeholders of a format whose braces are all settled begin nowhere else. -/
structure Settled (count : Nat) (parts : List Part) : Prop where
  clear : Clear parts
  genuine : ∀ index < count, occurrences (marker index) (spellings parts) = parts.count (.hole index)

theorem Settled.tail {part : Part} (settled : Settled count (part :: parts)) : Settled count parts where
  clear := by
    cases part with
    | hole index => exact settled.clear
    | plain letter => exact (Bool.and_eq_true_iff.1 settled.clear).2
  genuine index inside := by
    have least := count_hole_le parts index
    have total := settled.genuine index inside
    cases part with
    | hole index' =>
      rw [List.count_cons, spellings_hole, occurrences_marker_append] at total
      simp only [beq_iff_eq, Part.hole.injEq] at total
      omega
    | plain letter =>
      have more := occurrences_le_cons (marker index) letter (spellings parts)
      rw [List.count_cons_of_ne (by simp), spellings_plain] at total
      omega

/-- Before a letter, no insertion completes a placeholder. -/
theorem Settled.not_prefix_insert {letter : Char} {index : Nat}
    (settled : Settled count (.plain letter :: parts)) (inside : index < count)
    (text? : Nat → Option String) :
    ¬marker index <+: letter :: spellings (parts.flatMap (Part.insert text?)) := by
  obtain ⟨apart, -⟩ := Bool.and_eq_true_iff.1 settled.clear
  rw [Bool.not_eq_true', Bool.and_eq_false_iff] at apart
  have genuine := settled.genuine index inside
  rw [List.count_cons_of_ne (by simp), spellings_plain] at genuine
  have absent := not_prefix_of_genuine genuine
  intro begins
  rw [marker_eq, List.cons_prefix_cons] at begins absent
  obtain ⟨brace, begins⟩ := begins
  have apart := apart.resolve_left (by simp [← brace])
  exact absent ⟨brace, prefix_of_prefix_insert (fun _ => isDigit_of_mem_toString) apart begins⟩

/-- Texts without braces keep it so. -/
theorem Settled.insert {text? : Nat → Option String}
    (braceless : ∀ index text, text? index = some text → '\x7b' ∉ text.toList)
    (settled : Settled count parts) : Settled count (parts.flatMap (Part.insert text?)) := by
  induction parts with
  | nil => exact settled
  | cons part parts ih =>
    obtain ⟨clear, genuine⟩ := ih settled.tail
    cases part with
    | plain letter =>
      rw [flatMap_insert_plain]
      obtain ⟨apart, -⟩ := Bool.and_eq_true_iff.1 settled.clear
      rw [Bool.not_eq_true', Bool.and_eq_false_iff] at apart
      refine ⟨Bool.and_eq_true_iff.2 ⟨?_, clear⟩, fun index inside => ?_⟩
      · rw [Bool.not_eq_true', Bool.and_eq_false_iff]
        exact apart.imp_right digitsThenHole_insert
      · rw [spellings_plain, occurrences_cons_of_absent (settled.not_prefix_insert inside text?),
          genuine index inside, List.count_cons_of_ne (by simp)]
    | hole index' =>
      rw [List.flatMap_cons, Part.insert]
      split
      case h_1 text given =>
        have braceless := braceless _ _ given
        refine ⟨(clear_letters_append braceless).trans clear, fun index inside => ?_⟩
        rw [spellings_append, spellings_letters, List.count_append, count_hole_letters, Nat.zero_add,
          ← genuine index inside, marker_eq, occurrences_append_of_not_mem braceless]
      case h_2 =>
        refine ⟨clear, fun index inside => ?_⟩
        rw [List.singleton_append, spellings_hole, occurrences_marker_append, genuine index inside,
          List.count_cons, Nat.add_comm]
        simp only [beq_iff_eq, Part.hole.injEq]

theorem Settled.unforged {order : List (String × Nat)} (settled : Settled count parts)
    (inside : ∀ entry ∈ order, entry.2 < count)
    (braceless : ∀ entry ∈ order, '\x7b' ∉ entry.1.toList) : Unforged parts order := by
  induction order generalizing parts with
  | nil => trivial
  | cons entry order ih =>
    refine ⟨settled.genuine _ (inside _ List.mem_cons_self), ?_⟩
    refine ih (settled.insert fun index text given => ?_)
      (fun other member => inside other (List.mem_cons_of_mem _ member))
      (fun other member => braceless other (List.mem_cons_of_mem _ member))
    obtain ⟨-, rfl⟩ : index = entry.2 ∧ entry.1 = text := by simpa [only] using given
    exact braceless _ List.mem_cons_self

/-- No text with a brace and no brace in the format before a placeholder: nothing can be forged. -/
theorem unforged_of_clear {format : String} {texts : List String} {order : List (String × Nat)}
    (clear : Clear (partsOf texts.length format)) (braceless : ∀ text ∈ texts, '\x7b' ∉ text.toList)
    (all : order.Perm texts.zipIdx) : Unforged (partsOf texts.length format) order := by
  have splits := splits_partsFrom texts.length format.toList
  have settled : Settled texts.length (partsOf texts.length format) := by
    refine ⟨clear, fun index inside => ?_⟩
    rw [partsOf, splits.count_hole inside, splits.spellings_eq]
  have found {entry : String × Nat} (member : entry ∈ order) : texts[entry.2]? = some entry.1 :=
    List.mk_mem_zipIdx_iff_getElem?.1 (all.mem_iff.1 member)
  exact settled.unforged (fun _ member => (List.getElem?_eq_some_iff.1 (found member)).1)
    fun _ member => braceless _ (List.mem_of_getElem? (found member))

/-! ## Calls -/

variable {program : Program} {machine : Machine} {location : Location} {first : ObjectId}
  {others : List ObjectId} {format : String} {values : List Value}

theorem mapM_eq_ok {α β : Type} {f : α → Query β} {g : α → β} {list : List α}
    (answers : ∀ item ∈ list, f item program machine = .ok (g item)) :
    list.mapM f program machine = .ok (list.map g) := by
  induction list with
  | nil =>
    rw [List.mapM_nil]
    rfl
  | cons item list ih =>
    rw [List.mapM_cons, Query.bind_of_eq_ok (answers item List.mem_cons_self),
      Query.bind_of_eq_ok (ih fun other member => answers other (List.mem_cons_of_mem _ member))]
    rfl

def Prints (program : Program) (machine : Machine) (location : Location) (arguments : List ObjectId)
    (message : String) : Prop :=
  callGlobal ⟨location, "Print", arguments⟩ program machine =
    .ok machine.null { machine with messages := machine.messages.push message }

theorem value_eq_ok {call : NativeCall} {index : Nat} {id : ObjectId} {value : Value}
    (argument : call.arguments[index]? = some id) (found : machine.heap.value? id = some value) :
    call.value index program machine = .ok value := by
  have object : call.object index program machine = .ok id := by
    rw [NativeCall.object, argument]
    rfl
  rw [NativeCall.value, Query.bind_of_eq_ok object, Query.value_eq_ok found]

/-- The message of a call is made of the descriptions of its arguments. -/
theorem message_eq_ok (found : machine.heap.value? first = some (.text format))
    (given : others.map machine.heap.value? = values.map some) (room : others.length < argumentMax) :
    message ⟨location, "Print", first :: others⟩ program machine =
      .ok (formatMessage format (values.map Value.describe)) := by
  set call : NativeCall := ⟨location, "Print", first :: others⟩
  have size : others.length = values.length := by simpa using congrArg List.length given
  have expected : call.expect 1 argumentMax program machine = .ok () := by
    have inside : 1 ≤ call.count ∧ call.count ≤ argumentMax := ⟨Nat.succ_pos _, room⟩
    rw [NativeCall.expect, if_pos inside]
    rfl
  have head : call.text 0 program machine = .ok format := by
    rw [NativeCall.text, Query.bind_of_eq_ok (value_eq_ok rfl found)]
    rfl
  have described : ∀ index ∈ List.range (call.count - 1),
      (do return (← call.value (index + 1)).describe : Query String) program machine =
        .ok (((values.map Value.describe)[index]?).getD "") := by
    intro index member
    have inside : index < others.length := List.mem_range.1 member
    have inside' : index < (values.map Value.describe).length := by
      rw [List.length_map]
      exact size ▸ inside
    have stored : machine.heap.value? others[index] = some values[index] := by
      simpa [inside, size ▸ inside] using congrArg (·[index]?) given
    rw [Query.bind_of_eq_ok (value_eq_ok (List.getElem?_eq_getElem inside) stored),
      List.getElem?_eq_getElem inside', List.getElem_map]
    rfl
  have texts : (List.range (call.count - 1)).map (fun index =>
      ((values.map Value.describe)[index]?).getD "") = values.map Value.describe := by
    refine List.ext_getElem (by simp [call, size, NativeCall.count]) fun index _ inside => ?_
    rw [List.getElem_map, List.getElem_range, List.getElem?_eq_getElem inside, Option.getD_some]
  rw [message, Query.bind_of_eq_ok expected, Query.bind_of_eq_ok head,
    Query.bind_of_eq_ok (mapM_eq_ok described), texts]
  rfl

theorem prints_formatInOrder (found : machine.heap.value? first = some (.text format))
    (given : others.map machine.heap.value? = values.map some) (room : others.length < argumentMax) :
    Prints program machine location (first :: others)
      (formatInOrder format (values.map Value.describe).zipIdx) := by
  change (inspect (message ⟨location, "Print", first :: others⟩) >>= _) program machine = _
  rw [run_inspect_bind (message_eq_ok found given room), formatMessage_eq]
  rfl

/-- A call prints the message that its format makes with the placeholders in the order of their indices.
Whatever the order, that fills all placeholders of the format at once and keeps the rest of it, as long
as no placeholder comes about where a text is inserted. -/
theorem print_fills (found : machine.heap.value? first = some (.text format))
    (given : others.map machine.heap.value? = values.map some) (room : others.length < argumentMax)
    (program : Program) (location : Location) :
    Prints program machine location (first :: others)
        (formatInOrder format (values.map Value.describe).zipIdx) ∧
      ∀ order : List (String × Nat), order.Perm (values.map Value.describe).zipIdx →
        Unforged (partsOf values.length format) order →
        formatInOrder format order =
          filled values.length format fun index => (values[index]?).map Value.describe := by
  refine ⟨prints_formatInOrder found given room, fun order all unforged => ?_⟩
  have size : (values.map Value.describe).length = values.length := List.length_map _
  rw [← size] at unforged ⊢
  simpa using formatInOrder_eq_filled all unforged

/-! ## Messages on a heap -/

def withTexts (texts : List String) : Machine :=
  { Machine.blank Machine.idle with
    heap := ⟨(texts.map fun text => some ⟨0, .text text⟩).toArray, 0, false⟩ }

def share : String := placeholder 1 ++ " of " ++ placeholder 0

theorem print_share :
    Prints Machine.idle (withTexts [share, "9", "5"]) default [0, 1, 2] "5 of 9" ∧
      ∀ order : List (String × Nat), order.Perm [("9", 0), ("5", 1)] →
        formatInOrder share order = "5 of 9" := by
  obtain ⟨printed, fills⟩ := @print_fills (withTexts [share, "9", "5"]) 0 [1, 2] share
    [.text "9", .text "5"] rfl rfl (by decide) Machine.idle default
  have inserted : filled 2 share (fun index => ([.text "9", .text "5"] : List Value)[index]?.map
      Value.describe) = "5 of 9" := by decide +kernel
  have same (order : List (String × Nat)) (all : order.Perm [("9", 0), ("5", 1)]) :
      formatInOrder share order = "5 of 9" :=
    (fills order all (@unforged_of_clear share ["9", "5"] _ (by decide +kernel) (by decide) all)).trans
      inserted
  exact ⟨same _ (.refl _) ▸ printed, same⟩

/-- A text that reads like a placeholder is one for the arguments behind it, and stays as it is if they
come first. -/
theorem print_reads_argument :
    Prints Machine.idle (withTexts [placeholder 0, placeholder 1, "x"]) default [0, 1, 2] "x" ∧
      filled 2 (placeholder 0) (fun index => [placeholder 1, "x"][index]?) = placeholder 1 ∧
      formatInOrder (placeholder 0) [("x", 1), (placeholder 1, 0)] = placeholder 1 := by
  refine ⟨?_, by decide +kernel, by decide +kernel⟩
  have forged : formatInOrder (placeholder 0) [(placeholder 1, 0), ("x", 1)] = "x" := by decide +kernel
  have printed := @prints_formatInOrder Machine.idle (withTexts [placeholder 0, placeholder 1, "x"])
    default 0 [1, 2] (placeholder 0) [.text (placeholder 1), .text "x"] rfl rfl (by decide)
  exact forged ▸ printed

end Terrain.Native
