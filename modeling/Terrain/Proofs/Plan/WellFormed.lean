import Terrain.Plan.Sequence

/-!
# Well-formed sequences

A slot comes into being with the step that fills it: no step before that one mentions the slot, and
every step that reads or changes the slot stands behind it and expects the kind of raster it made.

* `Action.arity`, `Action.argumentKind` — how many slots an action reads, and the kind it expects there.
* `Step.Follows` — a step fits the steps before it.
* `Sequence.WellFormed` — every step fits the steps before it, and its slots are reserved.
-/

namespace Terrain

def Action.arity : Action → Nat
  | .makeMap (.projection _) | .makeMap .clone | .makeProfile (.slice ..) | .makeProfile .clone => 1
  | .editMap .addMapMasked | .editMap .combine | .editMap (.distort _)
  | .editProfile .addProfileMasked | .editProfile .combine => 2
  | .editMap .addMap | .editMap (.addMasked _) | .editMap .intersect | .editMap .multiplyMap
  | .editMap (.pattern _) | .editMap (.shift ..) | .editMap (.transformHeights ..) | .editMap .unify
  | .editProfile .addProfile | .editProfile (.addMasked _) | .editProfile .intersect
  | .editProfile .multiplyProfile | .editProfile (.pattern _) | .editProfile .unify => 1
  | _ => 0

def Action.argumentKind : Action → RasterKind
  | .makeMap (.projection ..) | .editMap (.shift ..) | .editMap (.transformHeights ..) => .profile
  | .makeProfile (.slice ..) => .map
  | action => action.kind

def Action.isYield : Action → Bool
  | yield .. => true
  | _ => false

theorem Action.exists_of_isYield {action : Action} (draws : action.isYield = true) :
    ∃ name rectangle, action = .yield name rectangle := by
  cases action with
  | yield name rectangle => exact ⟨name, rectangle, rfl⟩
  | _ => cases draws

def Step.mentions (step : Step) : List Slot := step.target :: step.arguments

def Makes (steps : List Step) (slot : Slot) (kind : RasterKind) : Prop :=
  ∃ step ∈ steps, step.isMaker = true ∧ step.target = slot ∧ step.action.kind = kind

instance (steps : List Step) (slot : Slot) (kind : RasterKind) : Decidable (Makes steps slot kind) :=
  inferInstanceAs (Decidable (∃ _, _ ∧ _))

theorem Makes.mono {steps more : List Step} {slot : Slot} {kind : RasterKind}
    (made : Makes steps slot kind) (subset : steps ⊆ more) : Makes more slot kind := by
  obtain ⟨step, member, fills⟩ := made
  exact ⟨step, subset member, fills⟩

/-- A step fits the steps before it: it names as many slots as its action reads, what it fills is new,
and what it reads or changes was filled with a raster of the kind it expects. -/
structure Step.Follows (step : Step) (before : List Step) : Prop where
  arity : step.arguments.length = step.action.arity
  new : step.isMaker = true → ∀ earlier ∈ before, step.target ∉ earlier.mentions
  filled : step.isMaker = false → Makes before step.target step.action.kind
  arguments : ∀ slot ∈ step.arguments, Makes before slot step.action.argumentKind

instance (step : Step) (before : List Step) : Decidable (step.Follows before) :=
  decidable_of_iff (step.arguments.length = step.action.arity ∧
      (step.isMaker = true → ∀ earlier ∈ before, step.target ∉ earlier.mentions) ∧
      (step.isMaker = false → Makes before step.target step.action.kind) ∧
      ∀ slot ∈ step.arguments, Makes before slot step.action.argumentKind)
    ⟨fun ⟨arity, new, filled, arguments⟩ => ⟨arity, new, filled, arguments⟩,
      fun ⟨arity, new, filled, arguments⟩ => ⟨arity, new, filled, arguments⟩⟩

def Consistent (steps : List Step) : Prop :=
  ∀ before step after, steps = before ++ step :: after → step.Follows before

theorem consistent_nil : Consistent [] := by
  intro before step after split
  cases before <;> cases split

theorem Consistent.snoc {steps : List Step} {step : Step} (consistent : Consistent steps)
    (follows : step.Follows steps) : Consistent (steps ++ [step]) := by
  intro before other after split
  rcases List.eq_nil_or_concat after with rfl | ⟨after, last, rfl⟩
  · obtain ⟨rfl, same⟩ := List.append_inj' split rfl
    cases same
    exact follows
  · have shifted : steps ++ [step] = (before ++ other :: after) ++ [last] := by simpa using split
    exact consistent before other after (List.append_inj' shifted rfl).1

/-- No slot is filled twice, so that its kind is fixed. -/
theorem Consistent.kind_unique {steps : List Step} {slot : Slot} {kind kind' : RasterKind}
    (consistent : Consistent steps) (made : Makes steps slot kind) (made' : Makes steps slot kind') :
    kind = kind' := by
  obtain ⟨step, member, maker, target, rfl⟩ := made
  obtain ⟨step', member', maker', target', rfl⟩ := made'
  obtain ⟨before, after, split⟩ := List.append_of_mem member
  rw [split, List.mem_append, List.mem_cons] at member'
  rcases member' with earlier | rfl | later
  · refine absurd ?_ ((consistent _ _ _ split).new maker step' earlier)
    rw [target, ← target']
    exact List.mem_cons_self
  · rfl
  · obtain ⟨between, rest, rfl⟩ := List.append_of_mem later
    have split' : steps = (before ++ step :: between) ++ step' :: rest := by simpa using split
    refine absurd ?_ ((consistent _ _ _ split').new maker' step (by simp))
    rw [target', ← target]
    exact List.mem_cons_self

theorem Consistent.follows_at {steps : List Step} {index : Nat} {step : Step}
    (consistent : Consistent steps) (found : steps[index]? = some step) :
    step.Follows (steps.take index) := by
  obtain ⟨less, rfl⟩ := List.getElem?_eq_some_iff.1 found
  refine consistent (steps.take index) steps[index] (steps.drop (index + 1)) ?_
  rw [List.getElem_cons_drop, List.take_append_drop]

/-- The target of a step is of the kind of its action. -/
theorem Consistent.makes_target {steps : List Step} {index : Nat} {step : Step}
    (consistent : Consistent steps) (found : steps[index]? = some step) :
    Makes steps step.target step.action.kind := by
  cases maker : step.isMaker with
  | true => exact ⟨step, List.mem_of_getElem? found, maker, rfl, rfl⟩
  | false =>
    exact ((consistent.follows_at found).filled maker).mono (List.take_subset index steps)

namespace Sequence

structure WellFormed (sequence : Sequence) : Prop where
  consistent : Consistent sequence.steps.toList
  reserved : ∀ step ∈ sequence.steps.toList, ∀ slot ∈ step.mentions, slot < sequence.slotCount

variable {sequence : Sequence}

theorem wellFormed_empty (scale : Scale) (limit : Nat) : (empty scale limit).WellFormed where
  consistent := consistent_nil
  reserved := by simp [empty]

theorem WellFormed.reserve (wellFormed : sequence.WellFormed) : sequence.reserve.2.WellFormed where
  consistent := wellFormed.consistent
  reserved step member slot mentioned :=
    Nat.lt_succ_of_lt (wellFormed.reserved step member slot mentioned)

/-- Slots that were filled are reserved. -/
theorem WellFormed.lt_slotCount (wellFormed : sequence.WellFormed) {slot : Slot} {kind : RasterKind}
    (made : Makes sequence.steps.toList slot kind) : slot < sequence.slotCount := by
  obtain ⟨step, member, -, rfl, -⟩ := made
  exact wellFormed.reserved step member _ List.mem_cons_self

theorem WellFormed.push (wellFormed : sequence.WellFormed) {step : Step}
    (follows : step.Follows sequence.steps.toList) (targetReserved : step.target < sequence.slotCount) :
    (sequence.push step).WellFormed where
  consistent := by simpa [Sequence.push] using wellFormed.consistent.snoc follows
  reserved other member slot mentioned := by
    simp only [Sequence.push, Array.toList_push, List.mem_append, List.mem_singleton] at member
    rcases member with member | rfl
    · exact wellFormed.reserved other member slot mentioned
    · rcases List.mem_cons.1 mentioned with rfl | argument
      · exact targetReserved
      · exact wellFormed.lt_slotCount (follows.arguments slot argument)

/-- A slot that is reserved last is mentioned nowhere. -/
theorem WellFormed.not_mem_mentions (wellFormed : sequence.WellFormed) {step : Step}
    (member : step ∈ sequence.steps.toList) : sequence.slotCount ∉ step.mentions := fun mentioned =>
  Nat.lt_irrefl _ (wellFormed.reserved step member _ mentioned)

end Sequence

end Terrain
