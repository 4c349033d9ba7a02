import Terrain.Proofs.Plan.Budget

/-!
# Copies of a target

An edit may name its own target among its arguments. It then reads a copy of the raster as it was
before the step, and that copy takes as much memory as the raster itself. What a step takes beside all
that is resident follows from its kind alone, so most edits do not have the copy on the books.

* `Action.isDistortion` — the only action whose figure has room for the copy.
* `Step.extraMemory_of_self_argument` — what such an edit takes, by its kind.
* `Schedule.memory_of_self_argument` — the requirement of every step that reads its own target.
-/

namespace Terrain

def Action.isDistortion : Action → Bool
  | .editMap (.distort ..) => true
  | _ => false

/-! ## Edits with arguments -/

/-- Of the map edits that read maps only a distortion works on a copy. -/
theorem MapEdit.workspace_of_arity_pos {edit : MapEdit} (reads : 0 < (Action.editMap edit).arity)
    (maps : (Action.editMap edit).argumentKind = .map) :
    edit.workspace = .copies (if (Action.editMap edit).isDistortion then 1 else 0) := by
  cases edit with
  | shift maxDistance direction => cases maps
  | transformHeights interval low high => cases maps
  | _ => first | rfl | cases reads

/-- Profile edits that read profiles work in place. -/
theorem ProfileEdit.workspace_of_arity_pos {edit : ProfileEdit}
    (reads : 0 < (Action.editProfile edit).arity) : edit.workspace = .copies 0 := by
  cases edit <;> first | rfl | cases reads

/-! ## Steps that read their target -/

namespace Step

variable {step : Step} {before : List Step}

/-- A step that reads its own target changes it: a maker fills a slot nobody knows yet. -/
theorem Follows.not_isMaker (follows : step.Follows before) (reads : step.target ∈ step.arguments) :
    step.isMaker = false := by
  cases maker : step.isMaker with
  | false => rfl
  | true =>
    obtain ⟨earlier, member, -, target, -⟩ := follows.arguments _ reads
    refine absurd ?_ (follows.new maker earlier member)
    rw [← target]
    exact List.mem_cons_self

/-- The action of a step that reads a slot beside its target counts arguments. -/
theorem Follows.arity_pos (follows : step.Follows before) {slot : Slot}
    (reads : slot ∈ step.arguments) : 0 < step.action.arity :=
  follows.arity ▸ List.length_pos_of_mem reads

/-- A step that reads its own target reads rasters of the kind it changes. -/
theorem Follows.argumentKind_eq (consistent : Consistent before) (follows : step.Follows before)
    (reads : step.target ∈ step.arguments) : step.action.argumentKind = step.action.kind :=
  consistent.kind_unique (follows.arguments _ reads)
    (follows.filled (follows.not_isMaker reads))

/-- What a step that reads its own target takes beside all that is resident: a distortion one more
target, any other edit nothing. -/
theorem extraMemory_of_self_argument {own footprint : Bounds} {scale : Scale} {extra : Nat}
    (consistent : Consistent before) (follows : step.Follows before)
    (reads : step.target ∈ step.arguments)
    (taken : step.extraMemory own footprint scale = .ok extra) :
    extra = if step.action.isDistortion then footprint.bytes scale else 0 := by
  have edits := follows.not_isMaker reads
  have kinds := follows.argumentKind_eq consistent reads
  have ofCopies {count : Nat}
      (taken : extraMemory.ofWorkspace step own footprint scale (.copies count) = .ok extra) :
      extra = count * footprint.bytes scale := by
    obtain ⟨current, sized, rest⟩ := checked_bind_eq_ok taken
    rw [← Bounds.memorySize_eq_ok sized]
    exact (checkFigure_eq_ok rest).1
  have counted := follows.arity_pos reads
  rw [isMaker] at edits
  unfold extraMemory at taken
  cases action : step.action with
  | makeMap maker =>
    rw [action] at edits
    cases edits
  | makeProfile maker =>
    rw [action] at edits
    cases edits
  | yield name rectangle =>
    rw [action] at counted
    cases counted
  | editMap edit =>
    rw [action] at counted kinds taken
    dsimp only at taken
    rw [MapEdit.workspace_of_arity_pos counted kinds] at taken
    rw [ofCopies taken]
    split <;> simp
  | editProfile edit =>
    rw [action] at counted taken
    dsimp only at taken
    rw [ProfileEdit.workspace_of_arity_pos counted] at taken
    rw [ofCopies taken]
    simp [Action.isDistortion]

end Step

/-! ## Requirements -/

namespace Schedule

variable {sequence : Sequence}

/-- In a well-formed sequence, a step that reads its own target is an edit, and its target has the bytes
of its footprint before the step. With the copy that is read these stand twice beside all others, but
the step is planned with them twice only if it is a distortion. Any other edit is planned with what is
resident before it, and so with the copy only where the footprint is empty. -/
theorem memory_of_self_argument (wellFormed : sequence.WellFormed) {schedule : Schedule}
    (made : ofSequence sequence (.ofSteps sequence.steps) = .ok schedule) {index : Nat} {step : Step}
    {facts : StepFacts} (found : sequence.steps[index]? = some step)
    (foundFacts : schedule[index]? = some facts) (reads : step.target ∈ step.arguments) :
    ∃ items budget, itemsOf sequence = .ok items ∧
      before sequence.scale items index = .ok budget ∧
      budget.Balanced sequence.scale (sequence.steps.toList.take index) ∧
      step.isMaker = false ∧
      facts.memory = budget.resident +
        (if step.action.isDistortion then (budget.footprint step).bytes sequence.scale else 0) ∧
      (budget.resident + (budget.footprint step).bytes sequence.scale ≤ facts.memory ↔
        step.action.isDistortion = true ∨ (budget.footprint step).bytes sequence.scale = 0) := by
  have consistent := wellFormed.consistent
  obtain ⟨items, listed, known⟩ := exists_advance_of_ofSequence made
  obtain ⟨other, budget, after, item, played, advanced⟩ := known index facts foundFacts
  -- the step of the item is the one of the sequence
  have steps := map_fst_itemsOf consistent listed
  have foundList : sequence.steps.toList[index]? = some step := by simpa using found
  obtain rfl : other = step := by simpa [← steps, item] using foundList
  have follows := consistent.follows_at foundList
  have consistentBefore : Consistent (sequence.steps.toList.take index) := by
    intro earlier next later split
    refine consistent earlier next (later ++ sequence.steps.toList.drop index) ?_
    rw [← List.cons_append, ← List.append_assoc, ← split, List.take_append_drop]
  have balanced := balanced_before played
  rw [List.map_take, steps] at balanced
  obtain ⟨extra, -, taken, memory, -⟩ := Budget.advance_eq_ok advanced
  rw [Step.extraMemory_of_self_argument consistentBefore follows reads taken] at memory
  refine ⟨items, budget, listed, played, balanced, follows.not_isMaker reads, memory, ?_⟩
  rw [memory]
  split
  case isTrue distorts => simp [distorts]
  case isFalse others =>
    rw [Nat.add_zero, or_iff_right others]
    omega

def doubled : Sequence where
  steps := #[⟨⟨1, 1⟩, .makeMap (.flat 16384), [], 0⟩, ⟨⟨2, 1⟩, .editMap .addMap, [0], 0⟩,
    ⟨⟨3, 1⟩, .yield "twice" ⟨⟨0, 0⟩, ⟨1, 1⟩⟩, [], 0⟩]
  scale := 1.0
  limit := 3
  slotCount := 1

def doubledFacts : Schedule :=
  #[⟨.rectangle ⟨⟨0, 0⟩, ⟨1, 1⟩⟩, 66, []⟩, ⟨.rectangle ⟨⟨0, 0⟩, ⟨1, 1⟩⟩, 66, []⟩,
    ⟨.rectangle .empty, 132, [0]⟩]

theorem doubled_wellFormed : doubled.WellFormed := by
  refine ⟨Consistent.snoc (.snoc (.snoc consistent_nil ?_) ?_) ?_, by decide⟩
  all_goals decide

theorem ofSequence_doubled : ofSequence doubled (.ofSteps doubled.steps) = .ok doubledFacts := by
  have same : (ofSequence doubled (.ofSteps doubled.steps)).toOption = some doubledFacts := by
    decide +kernel
  cases made : ofSequence doubled (.ofSteps doubled.steps) with
  | error breach =>
    rw [made] at same
    cases same
  | ok schedule =>
    rw [made] at same
    rw [Option.some_inj.1 same]

/-- The addition reads its own target and is planned with the map alone. -/
theorem doubled_memory : ∃ step facts items budget, doubled.steps[1]? = some step ∧
    step.target ∈ step.arguments ∧ doubledFacts[1]? = some facts ∧ itemsOf doubled = .ok items ∧
    before doubled.scale items 1 = .ok budget ∧ facts.memory = 66 ∧ facts.memory = budget.resident := by
  have reads : 0 ∈ [0] := List.mem_cons_self
  obtain ⟨items, budget, listed, played, -, -, memory, -⟩ :=
    @memory_of_self_argument _ doubled_wellFormed _ ofSequence_doubled 1 _ _ rfl rfl reads
  exact ⟨_, _, items, budget, rfl, reads, rfl, listed, played, rfl, memory⟩

/-- The addition reads a copy of 66 bytes beside the map of 66 bytes, and is planned with 66 bytes. -/
theorem doubled_copy_missing : ∃ step facts items budget, doubled.WellFormed ∧
    ofSequence doubled (.ofSteps doubled.steps) = .ok doubledFacts ∧ doubled.steps[1]? = some step ∧
    step.target ∈ step.arguments ∧ doubledFacts[1]? = some facts ∧ itemsOf doubled = .ok items ∧
    before doubled.scale items 1 = .ok budget ∧
    facts.memory < budget.resident + (budget.footprint step).bytes doubled.scale := by
  have books : (itemsOf doubled).toOption.any (fun items =>
      (before doubled.scale items 1).toOption.any fun budget => decide <|
        66 < budget.resident +
          (budget.footprint ⟨⟨2, 1⟩, .editMap .addMap, [0], 0⟩).bytes doubled.scale) = true := by
    decide +kernel
  cases listed : itemsOf doubled with
  | error breach =>
    rw [listed] at books
    cases books
  | ok items =>
    rw [listed] at books
    cases played : before doubled.scale items 1 with
    | error breach => simp [Except.toOption, played] at books
    | ok budget =>
      simp only [Except.toOption, Option.any_some, played, decide_eq_true_eq] at books
      exact ⟨_, _, items, budget, doubled_wellFormed, ofSequence_doubled, rfl, List.mem_cons_self, rfl,
        rfl, played, books⟩

end Schedule

end Terrain
