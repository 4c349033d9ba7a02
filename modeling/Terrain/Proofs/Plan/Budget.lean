import Mathlib.Algebra.GroupWithZero.Nat
import Mathlib.Algebra.Order.BigOperators.Group.List
import Terrain.Proofs.Plan.Kinds
import Terrain.Proofs.Plan.Lifetimes

/-!
# The books of a budget

Playing the steps of a sequence through, the bytes that are resident are always those of the recorded
footprints and of all yields so far. So what is taken off was counted before, and no subtraction goes
below zero.

* `Bounds.bytes` — the bytes of a raster over bounds, before they are held against 64 bits.
* `Budget.State.Balanced` — the books are balanced.
* `Budget.balanced_perform`, `Budget.exists_free`, `Schedule.balanced_before` — they stay so.
* `Budget.resident_le` — what a step leaves resident was required for it.
-/

namespace Terrain

/-! ## Sums over dictionaries -/

section Total

variable {κ β : Type} [Ord κ] [Std.TransOrd κ] [Std.LawfulEqOrd κ]

def total (entries : Std.TreeMap κ β) (figure : β → Nat) : Nat :=
  (entries.toList.map fun entry => figure entry.2).sum

variable {entries : Std.TreeMap κ β} {key : κ} {value : β} (figure : β → Nat)

theorem nodup_toList (entries : Std.TreeMap κ β) : entries.toList.Nodup := by
  refine Std.TreeMap.distinct_keys_toList.imp fun {a b} different same => different ?_
  rw [same]
  exact Std.ReflCmp.compare_self

theorem toList_perm_of_nodup {list : List (κ × β)} (once : list.Nodup)
    (same : ∀ key value, entries[key]? = some value ↔ (key, value) ∈ list) :
    entries.toList.Perm list := by
  rw [List.perm_ext_iff_of_nodup (nodup_toList entries) once]
  rintro ⟨key, value⟩
  rw [Std.TreeMap.mem_toList_iff_getElem?_eq_some, same]

theorem total_eq_sum {list : List (κ × β)} (once : list.Nodup)
    (same : ∀ key value, entries[key]? = some value ↔ (key, value) ∈ list) :
    total entries figure = (list.map fun entry => figure entry.2).sum :=
  ((toList_perm_of_nodup once same).map _).sum_eq

/-- The sum depends on what is found under the keys only. -/
theorem total_congr {others : Std.TreeMap κ β} (same : ∀ key : κ, entries[key]? = others[key]?) :
    total entries figure = total others figure :=
  total_eq_sum figure (nodup_toList others) fun key value => by
    rw [same, Std.TreeMap.mem_toList_iff_getElem?_eq_some]

/-- One entry apart from the others. -/
theorem total_eq_add_erase (found : entries[key]? = some value) :
    total entries figure = figure value + total (entries.erase key) figure := by
  have apart := @total_eq_sum _ _ _ _ _ entries figure ((key, value) :: (entries.erase key).toList)
  rw [List.map_cons, List.sum_cons] at apart
  refine apart (List.nodup_cons.2 ⟨fun member => ?_, nodup_toList _⟩) ?_
  · rw [Std.TreeMap.mem_toList_iff_getElem?_eq_some, Std.TreeMap.getElem?_erase_self] at member
    cases member
  · intro other content
    rw [List.mem_cons, Std.TreeMap.mem_toList_iff_getElem?_eq_some, Std.TreeMap.getElem?_erase,
      Prod.mk.injEq]
    by_cases same : key = other
    case pos =>
      subst same
      simp [found, eq_comm]
    case neg => simp [Ne.symm same, same]

theorem total_insert (entries : Std.TreeMap κ β) (key : κ) (value : β) :
    total (entries.insert key value) figure = figure value + total (entries.erase key) figure := by
  rw [total_eq_add_erase figure (Std.TreeMap.getElem?_insert_self : (entries.insert key value)[key]? = _)]
  refine congrArg _ (total_congr figure fun other => ?_)
  rw [Std.TreeMap.getElem?_erase, Std.TreeMap.getElem?_erase, Std.TreeMap.getElem?_insert]
  split <;> rfl

theorem total_erase_of_none (missing : entries[key]? = none) :
    total (entries.erase key) figure = total entries figure := by
  refine total_congr figure fun other => ?_
  rw [Std.TreeMap.getElem?_erase]
  split
  case isTrue same =>
    cases Std.LawfulEqCmp.eq_of_compare same
    exact missing.symm
  case isFalse => rfl

theorem total_erase_le : total (entries.erase key) figure ≤ total entries figure := by
  cases found : entries[key]? with
  | none => exact (total_erase_of_none figure found).le
  | some value =>
    rw [total_eq_add_erase figure found]
    exact Nat.le_add_left _ _

end Total

/-! ## Figures -/

/-- Bytes of a raster over bounds; nothing for empty bounds. -/
def Bounds.bytes (bounds : Bounds) (scale : Scale) : Nat :=
  if bounds.isEmpty then 0
  else
    match bounds with
    | .rectangle extent => HeightMap.headerSize + 2 * (extent.scaled scale).size.area
    | .interval extent => HeightProfile.headerSize + 2 * (extent.scaled scale).length

theorem Bounds.memorySize_eq (bounds : Bounds) (scale : Scale) :
    bounds.memorySize scale = checkFigure (bounds.bytes scale) := by
  unfold memorySize bytes
  split
  · rfl
  · cases bounds <;> rfl

theorem Bounds.bytes_empty (kind : RasterKind) (scale : Scale) : (empty kind).bytes scale = 0 := by
  cases kind <;> rfl

theorem checkFigure_eq_ok {figure value : Nat} (run : checkFigure figure = .ok value) :
    value = figure ∧ figure ≤ memoryMax := by
  unfold checkFigure at run
  split at run
  case isTrue fits =>
    cases run
    exact ⟨rfl, fits⟩
  case isFalse => cases run

theorem Bounds.memorySize_eq_ok {bounds : Bounds} {scale : Scale} {size : Nat}
    (run : bounds.memorySize scale = .ok size) : size = bounds.bytes scale :=
  (checkFigure_eq_ok (bounds.memorySize_eq scale ▸ run)).1

def Step.yielded (step : Step) (scale : Scale) : Nat :=
  match step.action with
  | .yield _ rectangle => (Bounds.rectangle rectangle).bytes scale
  | _ => 0

def yielded (steps : List Step) (scale : Scale) : Nat := (steps.map (·.yielded scale)).sum

namespace Budget

variable {scale : Scale} {state after : State} {steps : List Step} {slot : Slot} {bounds : Bounds}

/-- The books are balanced after some steps: the bytes of the footprints and of the yields add up to
what is resident, which fits 64 bits, and so no footprint is larger than what is resident. -/
structure State.Balanced (state : State) (scale : Scale) (steps : List Step) : Prop where
  resident : state.resident = total state.footprints (·.bytes scale) + yielded steps scale
  fits : state.resident ≤ memoryMax
  counted : ∀ (slot : Slot) (bounds : Bounds), state.footprints[slot]? = some bounds →
    bounds.memorySize scale = .ok (bounds.bytes scale) ∧ bounds.bytes scale ≤ state.resident

theorem State.Balanced.of_resident
    (resident : state.resident = total state.footprints (·.bytes scale) + yielded steps scale)
    (fits : state.resident ≤ memoryMax) : state.Balanced scale steps := by
  refine ⟨resident, fits, fun slot bounds found => ?_⟩
  have counted : bounds.bytes scale ≤ state.resident := by
    rw [resident, total_eq_add_erase _ found]
    omega
  rw [Bounds.memorySize_eq, checkFigure, if_pos (counted.trans fits)]
  exact ⟨rfl, counted⟩

theorem balanced_empty (scale : Scale) : State.Balanced ⟨∅, 0⟩ scale [] :=
  .of_resident rfl (Nat.zero_le _)

/-- A footprint that was counted is taken off without going below zero. -/
theorem State.Balanced.vacate (balanced : state.Balanced scale steps)
    (found : state.footprints[slot]? = some bounds) (footprints : Std.TreeMap Slot Bounds) :
    State.vacate ⟨footprints, state.resident⟩ bounds scale =
      .ok ⟨footprints, state.resident - bounds.bytes scale⟩ := by
  obtain ⟨size, counted⟩ := balanced.counted slot bounds found
  unfold State.vacate
  rw [size]
  exact if_pos counted

theorem occupy_eq_ok (run : state.occupy bounds scale = .ok after) :
    after = { state with resident := state.resident + bounds.bytes scale } ∧
      after.resident ≤ memoryMax := by
  obtain ⟨size, sized, rest⟩ := checked_bind_eq_ok run
  obtain ⟨figure, checked, ended⟩ := checked_bind_eq_ok rest
  obtain ⟨rfl, fits⟩ := checkFigure_eq_ok checked
  cases Bounds.memorySize_eq_ok sized
  cases ended
  exact ⟨rfl, fits⟩

/-- The footprint of a slot is replaced; what is added comes on top of at most what was resident. -/
theorem balanced_replace (balanced : state.Balanced scale steps)
    (run : state.replace slot bounds scale = .ok after) :
    after.Balanced scale steps ∧ after.footprints = state.footprints.insert slot bounds ∧
      after.resident + ((state.footprints[slot]?).elim 0 fun old => old.bytes scale) =
        state.resident + bounds.bytes scale := by
  have resident := balanced.resident
  unfold State.replace at run
  dsimp only at run
  cases found : state.footprints[slot]? with
  | none =>
    rw [found] at run
    obtain ⟨rfl, fits⟩ := occupy_eq_ok run
    refine ⟨.of_resident ?_ fits, rfl, rfl⟩
    rw [total_insert, total_erase_of_none _ found]
    dsimp only
    omega
  | some old =>
    rw [found] at run
    obtain ⟨vacated, took, rest⟩ := checked_bind_eq_ok run
    cases (balanced.vacate found _).symm.trans took
    obtain ⟨rfl, fits⟩ := occupy_eq_ok rest
    rw [total_eq_add_erase _ found] at resident
    refine ⟨.of_resident ?_ fits, rfl, ?_⟩
    · rw [total_insert]
      dsimp only
      omega
    · dsimp only [Option.elim]
      omega

/-- A slot can always be freed. -/
theorem exists_free (balanced : state.Balanced scale steps) (slot : Slot) :
    ∃ after, state.free scale slot = .ok after ∧ after.Balanced scale steps ∧
      ∀ other : Slot,
        after.footprints[other]? = if other = slot then none else state.footprints[other]? := by
  have resident := balanced.resident
  have fits := balanced.fits
  unfold State.free
  cases found : state.footprints[slot]? with
  | none =>
    refine ⟨state, rfl, balanced, fun other => ?_⟩
    split
    case isTrue same => rw [same, found]
    case isFalse => rfl
  | some old =>
    rw [total_eq_add_erase _ found] at resident
    refine ⟨⟨state.footprints.erase slot, state.resident - old.bytes scale⟩, ?_, ?_, fun other => ?_⟩
    · exact balanced.vacate found _
    · refine .of_resident ?_ ?_
      all_goals
        dsimp only
        omega
    · simp only [Std.TreeMap.getElem?_erase, Nat.compare_eq_eq, @eq_comm Slot slot other]

/-- Freeing slots one after the other. -/
theorem balanced_foldlM_free {slots : List Slot} (balanced : state.Balanced scale steps)
    (run : slots.foldlM (State.free scale) state = .ok after) : after.Balanced scale steps := by
  induction slots generalizing state with
  | nil =>
    cases run
    exact balanced
  | cons slot slots ih =>
    rw [List.foldlM_cons] at run
    obtain ⟨freed, freeing, rest⟩ := checked_bind_eq_ok run
    obtain ⟨_, freeing', balanced, -⟩ := exists_free balanced slot
    cases freeing.symm.trans freeing'
    exact ih balanced rest

theorem yielded_snoc (steps : List Step) (step : Step) (scale : Scale) :
    yielded (steps ++ [step]) scale = yielded steps scale + step.yielded scale := by
  simp [yielded]

/-- A step that yields nothing leaves the sum of the yields. -/
theorem State.Balanced.snoc {step : Step} (balanced : state.Balanced scale steps)
    (none : step.yielded scale = 0) : state.Balanced scale (steps ++ [step]) :=
  .of_resident (by rw [yielded_snoc, none, Nat.add_zero, balanced.resident]) balanced.fits

/-- The work of a step, before its releases. -/
theorem balanced_perform {step : Step} {own : Bounds} (balanced : state.Balanced scale steps)
    (run : state.perform step own scale = .ok after) : after.Balanced scale (steps ++ [step]) := by
  unfold State.perform at run
  split at run
  case h_1 name rectangle action =>
    obtain ⟨rfl, fits⟩ := occupy_eq_ok run
    refine .of_resident ?_ fits
    rw [yielded_snoc, Step.yielded, action]
    dsimp only
    rw [balanced.resident, Nat.add_assoc]
  case h_2 maker action =>
    exact (balanced_replace balanced run).1.snoc (by rw [Step.yielded, action])
  case h_3 maker action =>
    exact (balanced_replace balanced run).1.snoc (by rw [Step.yielded, action])
  case h_4 edit action =>
    obtain ⟨_, -, rest⟩ := checked_bind_eq_ok run
    exact (balanced_replace balanced rest).1.snoc (by rw [Step.yielded, action])
  case h_5 edit action =>
    obtain ⟨_, -, rest⟩ := checked_bind_eq_ok run
    exact (balanced_replace balanced rest).1.snoc (by rw [Step.yielded, action])

/-- What a step takes: a figure for its work, the work and the releases. -/
theorem advance_eq_ok {step : Step} {own : Bounds} {releases : List Slot} {memory : Nat}
    (run : Budget.advance scale state step own releases = .ok (memory, after)) :
    ∃ extra performed, step.extraMemory own (state.footprint step) scale = .ok extra ∧
      memory = state.resident + extra ∧ state.perform step own scale = .ok performed ∧
        releases.foldlM (State.free scale) performed = .ok after := by
  obtain ⟨extra, taken, rest⟩ := checked_bind_eq_ok run
  obtain ⟨requirement, checked, rest⟩ := checked_bind_eq_ok rest
  obtain ⟨performed, performing, rest⟩ := checked_bind_eq_ok rest
  obtain ⟨last, freed, ended⟩ := checked_bind_eq_ok rest
  cases (checkFigure_eq_ok checked).1
  cases ended
  exact ⟨extra, performed, taken, rfl, performing, freed⟩

theorem balanced_advance {step : Step} {own : Bounds} {releases : List Slot} {memory : Nat}
    (balanced : state.Balanced scale steps)
    (run : Budget.advance scale state step own releases = .ok (memory, after)) :
    after.Balanced scale (steps ++ [step]) := by
  obtain ⟨_, performed, -, -, performing, freed⟩ := advance_eq_ok run
  exact balanced_foldlM_free (balanced_perform balanced performing) freed

end Budget

/-! ## What a step requires -/

/-- Whether an action leaves a raster where it is, or draws it anew over given bounds. -/
def Action.isStill : Action → Bool
  | .editMap (.move _) | .editMap (.rescale ..) | .editProfile (.move _) | .editProfile (.rescale _)
  | .editProfile .flip => false
  | _ => true

/-- Whether an action lays its raster somewhere else without making a new one. -/
def Action.shifts : Action → Bool
  | .editMap (.move _) | .editProfile (.move _) | .editProfile .flip => true
  | _ => false

theorem Action.shifts_of_isStill {action : Action} (still : action.isStill = true) :
    action.shifts = false := by
  cases action with
  | editMap edit => cases edit <;> first | rfl | cases still
  | editProfile edit => cases edit <;> first | rfl | cases still
  | _ => rfl

namespace Step

variable {step : Step} {own footprint : Bounds} {count : Nat}

/-- Edits that work on copies leave the footprint. -/
theorem footprintAfter_of_editMap {edit : MapEdit} (action : step.action = .editMap edit)
    (stays : step.action.shifts = false) (copies : edit.workspace = .copies count) :
    step.footprintAfter own footprint = .ok footprint := by
  rw [action] at stays
  unfold footprintAfter
  rw [action]
  cases edit <;> first | rfl | (cases stays; done) | cases copies

theorem footprintAfter_of_editProfile {edit : ProfileEdit} (action : step.action = .editProfile edit)
    (stays : step.action.shifts = false) (copies : edit.workspace = .copies count) :
    step.footprintAfter own footprint = .ok footprint := by
  rw [action] at stays
  unfold footprintAfter
  rw [action]
  cases edit <;> first | rfl | (cases stays; done) | cases copies

end Step

namespace Budget

variable {scale : Scale} {state after : State} {steps : List Step} {step : Step} {own : Bounds}

theorem footprint_eq {bounds : Bounds} (edits : step.isMaker = false)
    (found : state.footprints[step.target]? = some bounds) : state.footprint step = bounds := by
  rw [State.footprint, edits, if_neg (by simp), Std.TreeMap.getD_eq_getD_getElem?, found]
  rfl

theorem bytes_footprint (edits : step.isMaker = false) : (state.footprint step).bytes scale =
    (state.footprints[step.target]?).elim 0 fun old => old.bytes scale := by
  rw [State.footprint, edits, if_neg (by simp), Std.TreeMap.getD_eq_getD_getElem?]
  cases state.footprints[step.target]? with
  | none => exact Bounds.bytes_empty _ scale
  | some old => rfl

/-- An edit that works on copies leaves as much resident as before, one that builds a new raster at most
the new one more. -/
theorem resident_le_of_edit {workspace : Workspace} {extra : Nat} (balanced : state.Balanced scale steps)
    (edits : step.isMaker = false)
    (keeps : ∀ count, workspace = .copies count →
      step.footprintAfter own (state.footprint step) = .ok (state.footprint step))
    (taken : Step.extraMemory.ofWorkspace step own (state.footprint step) scale workspace = .ok extra)
    (run : (do state.replace step.target (← step.footprintAfter own (state.footprint step)) scale) =
      .ok after) :
    after.resident ≤ state.resident + extra := by
  obtain ⟨bounds, footprint, replaced⟩ := checked_bind_eq_ok run
  obtain ⟨-, -, resident⟩ := balanced_replace balanced replaced
  rw [← bytes_footprint edits] at resident
  obtain ⟨current, -, rest⟩ := checked_bind_eq_ok taken
  cases workspace with
  | copies count =>
    cases (keeps count rfl).symm.trans footprint
    omega
  | replacement =>
    obtain ⟨_, footprint', size⟩ := checked_bind_eq_ok rest
    cases footprint.symm.trans footprint'
    rw [Bounds.memorySize_eq_ok size]
    omega

/-- What is resident after the work of a step was required for it. -/
theorem resident_le {extra : Nat} (balanced : state.Balanced scale steps)
    (stays : step.action.shifts = false)
    (taken : step.extraMemory own (state.footprint step) scale = .ok extra)
    (run : state.perform step own scale = .ok after) : after.resident ≤ state.resident + extra := by
  unfold State.perform at run
  unfold Step.extraMemory at taken
  have makes {slot : Slot} (size : own.memorySize scale = .ok extra)
      (run : state.replace slot own scale = .ok after) : after.resident ≤ state.resident + extra := by
    rw [Bounds.memorySize_eq_ok size]
    obtain ⟨-, -, resident⟩ := balanced_replace balanced run
    omega
  cases action : step.action with
  | makeMap maker =>
    rw [action] at taken run
    exact makes taken run
  | makeProfile maker =>
    rw [action] at taken run
    exact makes taken run
  | yield name rectangle =>
    rw [action] at taken run
    obtain ⟨_, -, size⟩ := checked_bind_eq_ok taken
    rw [Bounds.memorySize_eq_ok size, (occupy_eq_ok run).1]
  | editMap edit =>
    have edits : step.isMaker = false := by rw [Step.isMaker, action, Action.isMaker]
    have keeps (count : Nat) (copies : edit.workspace = .copies count) :=
      @Step.footprintAfter_of_editMap step own (state.footprint step) count edit action stays copies
    rw [action] at taken run
    exact resident_le_of_edit balanced edits keeps taken run
  | editProfile edit =>
    have edits : step.isMaker = false := by rw [Step.isMaker, action, Action.isMaker]
    have keeps (count : Nat) (copies : edit.workspace = .copies count) :=
      @Step.footprintAfter_of_editProfile step own (state.footprint step) count edit action stays copies
    rw [action] at taken run
    exact resident_le_of_edit balanced edits keeps taken run

end Budget

/-! ## Schedules -/

namespace Schedule

def itemsOf (sequence : Sequence) : Except Breach (List (Step × Bounds × List Slot)) := do
  let extents ← Extents.ofSteps sequence.steps (.ofSteps sequence.steps)
  return sequence.steps.toList.zip (extents.toList.zip (Lifetimes.ofSteps sequence.steps))

/-- The books before an item, when all items before it have been played through. -/
def before (scale : Scale) (items : List (Step × Bounds × List Slot)) (index : Nat) :
    Except Breach Budget.State := do
  return (← (items.take index).foldlM (advance scale) (⟨∅, 0⟩, #[])).1

variable {scale : Scale} {items : List (Step × Bounds × List Slot)} {index memory : Nat} {step : Step}
  {own : Bounds} {releases : List Slot} {budget after : Budget.State}

/-- One more item is played through. -/
theorem before_succ (found : items[index]? = some (step, own, releases)) :
    before scale items (index + 1) = (do
      let budget ← before scale items index
      return (← Budget.advance scale budget step own releases).2) := by
  unfold before
  rw [List.take_add_one, found, Option.toList_some, List.foldlM_append]
  cases (items.take index).foldlM (advance scale) (⟨∅, 0⟩, #[]) with
  | error breach => rfl
  | ok state =>
    change (do return (← List.foldlM (advance scale) state [(step, own, releases)]).1) =
      (do return (← Budget.advance scale state.1 step own releases).2)
    rw [List.foldlM_cons]
    cases advanced : Budget.advance scale state.1 step own releases with
    | error breach => simp [advance, advanced]
    | ok next => simp [advance, advanced]

theorem balanced_foldlM {state next : Budget.State × Schedule} {steps : List Step}
    (balanced : state.1.Balanced scale steps) (run : items.foldlM (advance scale) state = .ok next) :
    next.1.Balanced scale (steps ++ items.map Prod.fst) := by
  induction items generalizing state steps with
  | nil =>
    cases run
    simpa using balanced
  | cons item items ih =>
    obtain ⟨step, own, releases⟩ := item
    rw [List.foldlM_cons] at run
    obtain ⟨_, taken, rest⟩ := checked_bind_eq_ok run
    obtain ⟨⟨memory, after⟩, advanced, pushed⟩ := checked_bind_eq_ok taken
    cases pushed
    simpa using ih (Budget.balanced_advance balanced advanced) rest

/-- The books are balanced before every item. -/
theorem balanced_before (run : before scale items index = .ok budget) :
    budget.Balanced scale ((items.take index).map Prod.fst) := by
  obtain ⟨state, played, ended⟩ := checked_bind_eq_ok run
  cases ended
  exact balanced_foldlM (Budget.balanced_empty scale) played

/-- A schedule says of every step what the books say when the step is taken. -/
theorem exists_advance_of_foldlM {state : Budget.State} {schedule : Schedule} {facts : StepFacts}
    (run : items.foldlM (advance scale) (⟨∅, 0⟩, #[]) = .ok (state, schedule))
    (found : schedule[index]? = some facts) :
    ∃ step budget after, items[index]? = some (step, facts.bounds, facts.releases) ∧
      before scale items index = .ok budget ∧
      Budget.advance scale budget step facts.bounds facts.releases = .ok (facts.memory, after) := by
  induction items using List.reverseRecOn generalizing state schedule with
  | nil =>
    cases run
    simp at found
  | append_singleton items item ih =>
    obtain ⟨step, own, releases⟩ := item
    rw [List.foldlM_append] at run
    obtain ⟨⟨budget, done⟩, played, rest⟩ := checked_bind_eq_ok run
    rw [List.foldlM_cons] at rest
    obtain ⟨next, taken, ended⟩ := checked_bind_eq_ok rest
    obtain ⟨⟨memory, after⟩, advanced, pushed⟩ := checked_bind_eq_ok taken
    cases pushed
    cases ended
    have size : done.size = items.length := by
      simpa [places] using congrArg List.length (places_of_foldlM played)
    rw [Array.getElem?_push, size] at found
    unfold before
    split at found
    case isTrue last =>
      cases found
      refine ⟨step, budget, _, by simp [last], ?_, advanced⟩
      rw [last, List.take_left, played]
      rfl
    case isFalse =>
      obtain ⟨other, budget, after, foundItem, played, advanced⟩ := ih played found
      have less := (List.getElem?_eq_some_iff.1 foundItem).1
      refine ⟨other, budget, after, ?_, ?_, advanced⟩
      · rwa [List.getElem?_append_left less]
      · rwa [List.take_append_of_le_length less.le]

theorem exists_advance_of_ofSequence {sequence : Sequence} {schedule : Schedule}
    (made : ofSequence sequence (.ofSteps sequence.steps) = .ok schedule) :
    ∃ items, itemsOf sequence = .ok items ∧ ∀ index facts, schedule[index]? = some facts →
      ∃ step budget after, items[index]? = some (step, facts.bounds, facts.releases) ∧
        before sequence.scale items index = .ok budget ∧
        Budget.advance sequence.scale budget step facts.bounds facts.releases =
          .ok (facts.memory, after) := by
  obtain ⟨extents, bounded, rest⟩ := checked_bind_eq_ok made
  obtain ⟨state, run, ended⟩ := checked_bind_eq_ok rest
  cases ended
  refine ⟨_, ?_, fun index facts found => exists_advance_of_foldlM run found⟩
  rw [itemsOf, bounded]
  rfl

/-- The items are about all steps. -/
theorem map_fst_itemsOf {sequence : Sequence} (consistent : Consistent sequence.steps.toList)
    (made : itemsOf sequence = .ok items) : items.map Prod.fst = sequence.steps.toList := by
  obtain ⟨extents, bounded, ended⟩ := checked_bind_eq_ok made
  cases ended
  have size := ((Extents.fits_ofSteps consistent).ok bounded).size
  refine List.map_fst_zip ?_
  simp [List.length_zip, Lifetimes.length_ofSteps, size]

end Schedule

end Terrain
