import Mathlib.Data.List.Induction
import Terrain.Plan.Producers
import Terrain.Proofs.Plan.WellFormed

/-!
# Producers are the last writers

The edges of a step lead to the steps that wrote the slots it reads last before it.

* `LastWrite` — the last of some steps that have a slot as their target.
* `Producers.mem_edges` — the edges of a step.
-/

namespace Terrain

/-- The last of the steps with a slot as target has this number. -/
def LastWrite (steps : List Step) (slot : Slot) (index : Nat) : Prop :=
  (∃ step, steps[index]? = some step ∧ step.target = slot) ∧
    ∀ later step, index < later → steps[later]? = some step → step.target ≠ slot

theorem LastWrite.lt_length {steps : List Step} {slot : Slot} {index : Nat}
    (last : LastWrite steps slot index) : index < steps.length := by
  obtain ⟨⟨step, found, -⟩, -⟩ := last
  exact (List.getElem?_eq_some_iff.1 found).1

/-- A last writer among the first steps is one of the steps. -/
theorem LastWrite.of_take {steps : List Step} {slot : Slot} {count index : Nat}
    (last : LastWrite (steps.take count) slot index) :
    index < count ∧ ∃ step, steps[index]? = some step ∧ step.target = slot := by
  obtain ⟨⟨step, found, target⟩, -⟩ := last
  rw [List.getElem?_take] at found
  split at found
  case isTrue less => exact ⟨less, step, found, target⟩
  case isFalse => cases found

theorem not_lastWrite_nil (slot : Slot) (index : Nat) : ¬ LastWrite [] slot index := fun last =>
  Nat.not_lt_zero _ last.lt_length

theorem lastWrite_snoc_iff {steps : List Step} {step : Step} {slot : Slot} {index : Nat} :
    LastWrite (steps ++ [step]) slot index ↔
      if step.target = slot then index = steps.length else LastWrite steps slot index := by
  have atEnd (number : Nat) (found : Step) : (steps ++ [step])[number]? = some found ↔
      steps[number]? = some found ∨ (number = steps.length ∧ found = step) := by
    rw [List.getElem?_append]
    by_cases less : number < steps.length
    · simp [less, Nat.ne_of_lt less]
    · have outside : steps[number]? = none := List.getElem?_eq_none (Nat.le_of_not_lt less)
      rw [if_neg less, List.getElem?_singleton, outside]
      by_cases equal : number = steps.length
      · simp [equal, eq_comm]
      · have behind : number - steps.length ≠ 0 := by omega
        simp [equal, behind]
  split
  case isTrue same =>
    constructor
    · rintro ⟨⟨other, found, -⟩, none⟩
      rcases (atEnd index other).1 found with inside | ⟨rfl, -⟩
      · exact absurd same (none steps.length step (List.getElem?_eq_some_iff.1 inside).1
          ((atEnd _ _).2 (.inr ⟨rfl, rfl⟩)))
      · rfl
    · rintro rfl
      refine ⟨⟨step, (atEnd _ _).2 (.inr ⟨rfl, rfl⟩), same⟩, fun later other less found => ?_⟩
      have bound := (List.getElem?_eq_some_iff.1 found).1
      rw [List.length_append, List.length_singleton] at bound
      omega
  case isFalse different =>
    constructor
    · rintro ⟨⟨other, found, target⟩, none⟩
      rcases (atEnd index other).1 found with inside | ⟨-, rfl⟩
      · exact ⟨⟨other, inside, target⟩, fun later found' less at' =>
          none later found' less ((atEnd _ _).2 (.inl at'))⟩
      · exact absurd target different
    · rintro ⟨⟨other, found, target⟩, none⟩
      refine ⟨⟨other, (atEnd _ _).2 (.inl found), target⟩, fun later found' less at' => ?_⟩
      rcases (atEnd later found').1 at' with inside | ⟨-, rfl⟩
      · exact none later found' less inside
      · exact different

/-- A slot that was filled has a last writer. -/
theorem Makes.exists_lastWrite {steps : List Step} {slot : Slot} {kind : RasterKind}
    (made : Makes steps slot kind) : ∃ index, LastWrite steps slot index := by
  induction steps using List.reverseRecOn with
  | nil =>
    obtain ⟨_, none, -⟩ := made
    cases none
  | append_singleton steps last ih =>
    simp only [lastWrite_snoc_iff]
    by_cases same : last.target = slot
    · exact ⟨steps.length, by rw [if_pos same]⟩
    · obtain ⟨maker, member, fills, target, makes⟩ := made
      rcases List.mem_append.1 member with member | isLast
      · obtain ⟨index, written⟩ := ih ⟨maker, member, fills, target, makes⟩
        exact ⟨index, by rwa [if_neg same]⟩
      · rw [List.mem_singleton.1 isLast] at target
        exact absurd target same

namespace Producers

/-- The state of the walk after some steps. -/
structure Tracks (state : Writers × Producers) (steps : List Step) : Prop where
  size : state.2.size = steps.length
  writers : ∀ slot index, state.1[slot]? = some index ↔ LastWrite steps slot index
  edges : ∀ index step, steps[index]? = some step → ∀ edge, edge ∈ edges state.2 index ↔
    edge.slot ∈ step.readSlots ∧ LastWrite (steps.take index) edge.slot edge.producer

theorem mem_edgesOf {writers : Writers} {steps : List Step} {step : Step} {edge : Edge}
    (tracked : ∀ slot index, writers[slot]? = some index ↔ LastWrite steps slot index) :
    edge ∈ edgesOf writers step ↔
      edge.slot ∈ step.readSlots ∧ LastWrite steps edge.slot edge.producer := by
  unfold edgesOf
  rw [List.mem_filterMap]
  constructor
  · rintro ⟨slot, read, found⟩
    obtain ⟨producer, written, rfl⟩ := Option.map_eq_some_iff.1 found
    exact ⟨read, (tracked _ _).1 written⟩
  · rintro ⟨read, last⟩
    exact ⟨edge.slot, read, by rw [(tracked _ _).2 last]; rfl⟩

theorem Tracks.advance {state : Writers × Producers} {steps : List Step}
    (tracks : Tracks state steps) (step : Step) :
    Tracks (Producers.advance state step) (steps ++ [step]) where
  size := by simp [Producers.advance, tracks.size]
  writers slot index := by
    rw [lastWrite_snoc_iff, ← tracks.writers, ← tracks.size]
    simp only [Producers.advance, Std.TreeMap.getElem?_insert, Nat.compare_eq_eq]
    split
    · rw [Option.some_inj, eq_comm]
    · rfl
  edges index other found edge := by
    unfold Producers.edges Producers.advance
    have bound := (List.getElem?_eq_some_iff.1 found).1
    rw [List.length_append, List.length_singleton] at bound
    by_cases last : index = steps.length
    case pos =>
      subst last
      obtain rfl : step = other := by simpa using found
      rw [List.take_left]
      simp only [Array.getD_eq_getD_getElem?, ← tracks.size, Array.getElem?_push_size,
        Option.getD_some]
      exact mem_edgesOf tracks.writers
    case neg =>
      have less : index < steps.length := by omega
      rw [List.getElem?_append_left less] at found
      rw [List.take_append_of_le_length (Nat.le_of_lt less)]
      have inside : index < state.2.size := tracks.size ▸ less
      simp only [Array.getD_eq_getD_getElem?, Array.getElem?_push_lt inside]
      have kept := tracks.edges index other found edge
      simpa [Producers.edges, Array.getD_eq_getD_getElem?, inside] using kept

theorem tracks_ofSteps (steps : Array Step) :
    Tracks (steps.foldl Producers.advance (∅, #[])) steps.toList := by
  rw [← Array.foldl_toList]
  induction steps.toList using List.reverseRecOn with
  | nil => exact ⟨rfl, fun slot index => by simpa using not_lastWrite_nil slot index, by simp⟩
  | append_singleton steps step ih =>
    rw [List.foldl_append]
    exact ih.advance step

/-- The edges of a step lead to the last writers of the slots it reads. -/
theorem mem_edges {steps : Array Step} {index : Nat} {step : Step} {edge : Edge}
    (found : steps[index]? = some step) :
    edge ∈ (ofSteps steps).edges index ↔
      edge.slot ∈ step.readSlots ∧ LastWrite (steps.toList.take index) edge.slot edge.producer :=
  (tracks_ofSteps steps).edges index step (by simpa using found) edge

end Producers

end Terrain
