import Terrain.Plan.Lifetimes
import Terrain.Proofs.Plan.WellFormed

/-!
# Slots are freed after their last use

Walking backwards, a slot is freed at the first step met that names it, so that no later step does.

* `LastMention` — the last of some steps that name a slot.
* `Lifetimes.mem_iff_lastMention` — a slot is freed after its last mention.
* `Lifetimes.count_flatten_ofSteps` — every slot that is named is freed once.
-/

namespace Terrain

/-- The last of the steps that name a slot has this number. -/
def LastMention (steps : List Step) (slot : Slot) (index : Nat) : Prop :=
  (∃ step, steps[index]? = some step ∧ slot ∈ step.mentions) ∧
    ∀ later step, index < later → steps[later]? = some step → slot ∉ step.mentions

theorem lastMention_cons_zero {steps : List Step} {step : Step} {slot : Slot} :
    LastMention (step :: steps) slot 0 ↔
      slot ∈ step.mentions ∧ ¬∃ later ∈ steps, slot ∈ later.mentions := by
  simp only [LastMention, List.getElem?_cons_zero, Option.some_inj, exists_eq_left']
  refine and_congr_right fun _ => ⟨fun none => ?_, fun none later step behind found named => ?_⟩
  · rintro ⟨later, member, named⟩
    obtain ⟨index, found⟩ := List.mem_iff_getElem?.1 member
    exact none (index + 1) later (Nat.succ_pos _) found named
  · obtain ⟨index, rfl⟩ := Nat.exists_eq_succ_of_ne_zero (Nat.ne_of_gt behind)
    exact none ⟨step, List.mem_of_getElem? found, named⟩

theorem lastMention_cons_succ {steps : List Step} {step : Step} {slot : Slot} {index : Nat} :
    LastMention (step :: steps) slot (index + 1) ↔ LastMention steps slot index := by
  simp only [LastMention, List.getElem?_cons_succ]
  refine and_congr_right fun _ => ⟨fun none later other behind found => ?_,
    fun none later other behind found => ?_⟩
  · exact none (later + 1) other (by omega) found
  · obtain ⟨later, rfl⟩ := Nat.exists_eq_succ_of_ne_zero (by omega : later ≠ 0)
    exact none later other (by omega) found

namespace Lifetimes

theorem mem_slotsOf {step : Step} {slot : Slot} : slot ∈ slotsOf step ↔ slot ∈ step.mentions := by
  simp [slotsOf, Step.mentions, or_comm]

theorem mem_foldl_note (slots : List Slot) (seen : Seen) (freed : List Slot) (slot : Slot) :
    slot ∈ (slots.foldl note (seen, freed)).1 ↔ slot ∈ seen ∨ slot ∈ slots := by
  induction slots generalizing seen freed with
  | nil => simp
  | cons first slots ih =>
    rw [List.foldl_cons, List.mem_cons]
    by_cases known : first ∈ seen
    · have same : note (seen, freed) first = (seen, freed) := by
        simp [note, Std.TreeSet.contains_iff_mem, known]
      rw [same, ih]
      constructor
      · rintro (seen | later)
        · exact .inl seen
        · exact .inr (.inr later)
      · rintro (seen | rfl | later)
        · exact .inl seen
        · exact .inl known
        · exact .inr later
    · have added : note (seen, freed) first = (seen.insert first, freed ++ [first]) := by
        simp [note, Std.TreeSet.contains_iff_mem, known]
      rw [added, ih, Std.TreeSet.mem_insert, Nat.compare_eq_eq, eq_comm, or_assoc, or_left_comm]

/-- Noting the slots of a step frees each of them once that no later step names. -/
theorem exists_freed (slots : List Slot) (seen : Seen) (freed : List Slot) :
    ∃ new, (slots.foldl note (seen, freed)).2 = freed ++ new ∧ new.Nodup ∧
      ∀ slot, slot ∈ new ↔ slot ∈ slots ∧ slot ∉ seen := by
  induction slots generalizing seen freed with
  | nil => exact ⟨[], by simp, List.nodup_nil, by simp⟩
  | cons first slots ih =>
    rw [List.foldl_cons]
    by_cases known : first ∈ seen
    · have same : note (seen, freed) first = (seen, freed) := by
        simp [note, Std.TreeSet.contains_iff_mem, known]
      obtain ⟨new, listed, once, members⟩ := ih seen freed
      refine ⟨new, by rw [same, listed], once, fun slot => ?_⟩
      rw [members, List.mem_cons]
      refine and_congr_left fun unseen => ⟨.inr, fun named => named.resolve_left ?_⟩
      rintro rfl
      exact unseen known
    · have added : note (seen, freed) first = (seen.insert first, freed ++ [first]) := by
        simp [note, Std.TreeSet.contains_iff_mem, known]
      obtain ⟨new, listed, once, members⟩ := ih (seen.insert first) (freed ++ [first])
      simp only [Std.TreeSet.mem_insert, Nat.compare_eq_eq, not_or] at members
      refine ⟨first :: new, by rw [added, listed, List.append_assoc, List.singleton_append], ?_, ?_⟩
      · exact List.nodup_cons.2 ⟨fun again => ((members first).1 again).2.1 rfl, once⟩
      · intro slot
        rw [List.mem_cons, List.mem_cons, members]
        by_cases same : slot = first
        · simp [same, known]
        · simp [same, Ne.symm same]

/-- The state of the walk before some steps: they name what has been seen, and each of these slots has
been freed once, after the last step that names it. -/
structure Tracks (state : Seen × List (List Slot)) (steps : List Step) : Prop where
  seen : ∀ slot, slot ∈ state.1 ↔ ∃ step ∈ steps, slot ∈ step.mentions
  length : state.2.length = steps.length
  once : state.2.flatten.Nodup
  all : ∀ slot, slot ∈ state.2.flatten ↔ slot ∈ state.1
  last : ∀ index slots, state.2[index]? = some slots → ∀ slot,
    slot ∈ slots ↔ LastMention steps slot index

theorem Tracks.visit {state : Seen × List (List Slot)} {steps : List Step}
    (tracks : Tracks state steps) (step : Step) :
    Tracks (Lifetimes.visit step state) (step :: steps) := by
  obtain ⟨new, listed, once, members⟩ := exists_freed (slotsOf step) state.1 []
  have seen := mem_foldl_note (slotsOf step) state.1 []
  rw [List.nil_append] at listed
  have visited : Lifetimes.visit step state =
      (((slotsOf step).foldl note (state.1, [])).1, new :: state.2) := by
    rw [← listed]
    rfl
  rw [visited]
  constructor
  case seen =>
    intro slot
    simp only [seen, tracks.seen, mem_slotsOf, List.mem_cons, exists_eq_or_imp, or_comm]
  case length => simp [tracks.length]
  case once =>
    rw [List.flatten_cons]
    -- what is new has not been seen, and all that was freed has
    refine List.nodup_append.2 ⟨once, tracks.once, ?_⟩
    rintro slot isNew _ freed rfl
    exact ((members slot).1 isNew).2 ((tracks.all slot).1 freed)
  case all =>
    intro slot
    rw [List.flatten_cons, List.mem_append, members, tracks.all, seen]
    by_cases known : slot ∈ state.1 <;> simp [known]
  case last =>
    intro index slots found slot
    cases index with
    | zero =>
      cases found
      rw [members, lastMention_cons_zero, mem_slotsOf, tracks.seen]
    | succ index =>
      rw [lastMention_cons_succ]
      exact tracks.last index slots found slot

theorem tracks_ofSteps (steps : Array Step) :
    Tracks (steps.foldr Lifetimes.visit (∅, [])) steps.toList := by
  rw [← Array.foldr_toList]
  induction steps.toList with
  | nil => exact ⟨by simp, rfl, by simp, by simp, by simp⟩
  | cons step steps ih => exact ih.visit step

theorem length_ofSteps (steps : Array Step) : (ofSteps steps).length = steps.size :=
  (tracks_ofSteps steps).length

/-- A slot is freed after the last step that names it. -/
theorem mem_iff_lastMention {steps : Array Step} {index : Nat} {slots : List Slot} {slot : Slot}
    (freed : (ofSteps steps)[index]? = some slots) :
    slot ∈ slots ↔ LastMention steps.toList slot index :=
  (tracks_ofSteps steps).last index slots freed slot

/-- No step behind the one after which a slot is freed names it. -/
theorem not_mentioned_of_freed {steps : Array Step} {index : Nat} {slots : List Slot} {slot : Slot}
    {later : Step} (freed : (ofSteps steps)[index]? = some slots) (member : slot ∈ slots)
    (behind : later ∈ steps.toList.drop (index + 1)) : slot ∉ later.mentions := by
  obtain ⟨place, found⟩ := List.mem_iff_getElem?.1 behind
  rw [List.getElem?_drop] at found
  exact ((mem_iff_lastMention freed).1 member).2 _ later (by omega) found

/-- Every slot that is named is freed once, and no other slot is. -/
theorem count_flatten_ofSteps (steps : Array Step) (slot : Slot) :
    (ofSteps steps).flatten.count slot =
      if ∃ step ∈ steps.toList, slot ∈ step.mentions then 1 else 0 := by
  have tracks := tracks_ofSteps steps
  rw [ofSteps, tracks.once.count]
  simp only [tracks.all, tracks.seen]

end Lifetimes

end Terrain
