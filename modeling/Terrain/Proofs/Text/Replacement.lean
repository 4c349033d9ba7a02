import Mathlib.Data.List.Infix
import Terrain.Text.Replace

/-!
# Occurrences and replacements

How replacing walks over a text, part by part. A pattern whose first letter does not come again in it
never overlaps itself, so it begins nowhere inside one of its occurrences.

* `Text.occurrences` — the number of places at which a pattern begins.
* `Text.replaceFrom_append_of_not_mem`, `Text.replaceFrom_self_append`,
  `Text.replaceFrom_cons_of_absent` — replacing behind a part of the text.
-/

namespace Terrain.Text

variable {pattern replacement text rest body : List Char} {head letter : Char}

/-- Number of places at which a pattern begins. -/
def occurrences (pattern : List Char) : List Char → Nat
  | [] => 0
  | letter :: rest =>
    (if pattern.isPrefixOf (letter :: rest) then 1 else 0) + occurrences pattern rest

theorem replaceFrom_skip (skipped rest : List Char) :
    replaceFrom pattern replacement skipped.length (skipped ++ rest) =
      replaceFrom pattern replacement 0 rest := by
  induction skipped with
  | nil => rfl
  | cons _ skipped ih => exact ih

theorem occurrences_le_cons (pattern : List Char) (letter : Char) (rest : List Char) :
    occurrences pattern rest ≤ occurrences pattern (letter :: rest) := Nat.le_add_left _ _

theorem occurrences_cons_of_begins (begins : pattern <+: letter :: rest) :
    occurrences pattern (letter :: rest) = occurrences pattern rest + 1 := by
  rw [occurrences, if_pos (List.isPrefixOf_iff_prefix.2 begins), Nat.add_comm]

/-! ## Where no pattern begins -/

theorem occurrences_cons_of_absent (absent : ¬pattern <+: letter :: rest) :
    occurrences pattern (letter :: rest) = occurrences pattern rest := by
  rw [occurrences, if_neg (by rwa [List.isPrefixOf_iff_prefix]), Nat.zero_add]

theorem replaceFrom_cons_of_absent (absent : ¬pattern <+: letter :: rest) :
    replaceFrom pattern replacement 0 (letter :: rest) =
      letter :: replaceFrom pattern replacement 0 rest := by
  rw [replaceFrom, if_neg (by rwa [List.isPrefixOf_iff_prefix])]

theorem not_prefix_of_ne (different : letter ≠ head) : ¬head :: body <+: letter :: rest := fun begins =>
  different (List.cons_prefix_cons.1 begins).1.symm

theorem occurrences_append_of_not_mem (absent : head ∉ text) :
    occurrences (head :: body) (text ++ rest) = occurrences (head :: body) rest := by
  induction text with
  | nil => rfl
  | cons letter text ih =>
    rw [List.mem_cons, not_or] at absent
    rw [List.cons_append, occurrences_cons_of_absent (not_prefix_of_ne (Ne.symm absent.1)),
      ih absent.2]

theorem replaceFrom_append_of_not_mem (absent : head ∉ text) :
    replaceFrom (head :: body) replacement 0 (text ++ rest) =
      text ++ replaceFrom (head :: body) replacement 0 rest := by
  induction text with
  | nil => rfl
  | cons letter text ih =>
    rw [List.mem_cons, not_or] at absent
    rw [List.cons_append, replaceFrom_cons_of_absent (not_prefix_of_ne (Ne.symm absent.1)),
      ih absent.2, List.cons_append]

/-! ## Where the pattern begins -/

theorem occurrences_self_append (apart : head ∉ body) :
    occurrences (head :: body) (head :: body ++ rest) = occurrences (head :: body) rest + 1 := by
  have begins : head :: body <+: head :: (body ++ rest) := List.prefix_append _ _
  rw [List.cons_append, occurrences_cons_of_begins begins, occurrences_append_of_not_mem apart]

theorem replaceFrom_self_append :
    replaceFrom (head :: body) replacement 0 (head :: body ++ rest) =
      replacement ++ replaceFrom (head :: body) replacement 0 rest := by
  have begins : (head :: body).isPrefixOf (head :: (body ++ rest)) :=
    List.isPrefixOf_iff_prefix.2 (List.prefix_append _ _)
  rw [List.cons_append, replaceFrom, if_pos begins, List.length_cons, Nat.add_sub_cancel,
    replaceFrom_skip]

/-! ## Markers -/

/-- A word that ends at the first of a letter is the part of the text before it. -/
theorem eq_of_begins {word word' : List Char} (absent : letter ∉ word) (absent' : letter ∉ word')
    (begins : word ++ [letter] <+: text) (begins' : word' ++ [letter] <+: text) : word = word' := by
  have taken {word : List Char} (absent : letter ∉ word) (begins : word ++ [letter] <+: text) :
      text.takeWhile (· ≠ letter) = word := by
    obtain ⟨rest, rfl⟩ := begins
    rw [List.append_assoc, List.takeWhile_append_of_pos]
    · simp
    · intro c member
      simpa using fun same : c = letter => absent (same ▸ member)
  rw [← taken absent begins, taken absent' begins']

end Terrain.Text
