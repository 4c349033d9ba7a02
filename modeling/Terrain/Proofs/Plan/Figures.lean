import Terrain.Proofs.Plan.Budget
import Terrain.Proofs.Plan.Demands

/-!
# Exact figures of a budget

Played through without a limit of 64 bits, the books of a sequence have an exact figure for what each
step requires and one for what is resident when its work is done. The schedule of the sequence has these
figures if all of them fit 64 bits. If one does not, there is no schedule at all.

* `HeightMap.memorySize_eq`, `HeightProfile.memorySize_eq` — the figure of one raster.
* `Footprints.perform`, `Footprints.figures` — the books without a limit.
* `Budget.advance_eq`, `Schedule.ofSequence_eq` — the checked books against them.
-/

namespace Terrain

/-! ## One raster -/

theorem Interval.length_scaled_le (interval : Interval) (scale : Scale) :
    (interval.scaled scale).length ≤ extentMax :=
  Nat.min_le_right _ _

/-- The figure of a profile always fits, for it has less samples than there are extents. -/
theorem HeightProfile.memorySize_eq (interval : Interval) (scale : Scale) :
    memorySize interval scale = .ok (headerSize + 2 * (interval.scaled scale).length) := by
  have short : @LE.le Nat _ (interval.scaled scale).length 4294967295 := interval.length_scaled_le scale
  rw [memorySize, checkMemory, if_pos]
  unfold headerSize memoryMax
  omega

def samplesMax : Nat := 9223372036854775775

theorem HeightMap.memorySize_eq (rectangle : Rectangle) (scale : Scale) :
    memorySize rectangle scale =
      if (rectangle.scaled scale).size.area ≤ samplesMax then
        .ok (headerSize + 2 * (rectangle.scaled scale).size.area)
      else .error .overflow := by
  rw [memorySize, checkMemory]
  congr 1
  rw [eq_iff_iff]
  unfold headerSize memoryMax samplesMax
  omega

/-! ## Edits -/

namespace Step

variable {step : Step} {own footprint : Bounds}

/-- Footprint of the target after an edit. An edit of the wrong kind would leave it. -/
def footprintLeft (step : Step) (own footprint : Bounds) : Bounds :=
  match step.footprintAfter own footprint with
  | .ok bounds => bounds
  | .error _ => footprint

/-- A footprint of the right kind is all that an edit asks for. -/
theorem footprintAfter_eq (footprintKind : footprint.kind = step.action.kind) :
    step.footprintAfter own footprint = .ok (step.footprintLeft own footprint) := by
  have formed : ∃ bounds, step.footprintAfter own footprint = .ok bounds := by
    have map {next : Rectangle → Rectangle} (map : footprint.kind = .map) :
        ∃ bounds, (do return Bounds.rectangle (next (← footprint.asRectangle))) = Except.ok bounds := by
      obtain ⟨extent, -, same⟩ := Bounds.exists_asRectangle map
      rw [same]
      exact ⟨_, rfl⟩
    have profile {next : Interval → Interval} (profile : footprint.kind = .profile) :
        ∃ bounds, (do return Bounds.interval (next (← footprint.asInterval))) = Except.ok bounds := by
      obtain ⟨extent, -, same⟩ := Bounds.exists_asInterval profile
      rw [same]
      exact ⟨_, rfl⟩
    unfold footprintAfter
    split
    case h_1 action => exact map (by rw [footprintKind, action]; rfl)
    case h_2 action => exact map (by rw [footprintKind, action]; rfl)
    case h_3 => exact ⟨_, rfl⟩
    case h_4 => exact ⟨_, rfl⟩
    case h_5 action => exact profile (by rw [footprintKind, action]; rfl)
    case h_6 action => exact profile (by rw [footprintKind, action]; rfl)
    case h_7 => exact ⟨_, rfl⟩
    case h_8 action => exact profile (by rw [footprintKind, action]; rfl)
    case h_9 => exact ⟨_, rfl⟩
  obtain ⟨bounds, formed⟩ := formed
  rw [footprintLeft, formed]

/-- Bytes a step takes beside all that is resident. -/
def extraBytes (step : Step) (own footprint : Bounds) (scale : Scale) : Nat :=
  match step.action with
  | .makeMap _ | .makeProfile _ => own.bytes scale
  | .yield _ rectangle => (Bounds.rectangle rectangle).bytes scale
  | .editMap edit => ofWorkspace edit.workspace
  | .editProfile edit => ofWorkspace edit.workspace
where
  ofWorkspace : Workspace → Nat
    | .copies count => count * footprint.bytes scale
    | .replacement => (step.footprintLeft own footprint).bytes scale

end Step

/-! ## Books without a limit -/

abbrev Footprints := Std.TreeMap Slot Bounds

namespace Footprints

def before (footprints : Footprints) (step : Step) : Bounds := Budget.State.footprint ⟨footprints, 0⟩ step

def perform (footprints : Footprints) (step : Step) (own : Bounds) : Footprints :=
  match step.action with
  | .yield .. => footprints
  | .makeMap _ | .makeProfile _ => footprints.insert step.target own
  | .editMap _ | .editProfile _ =>
    footprints.insert step.target (step.footprintLeft own (footprints.before step))

def free (footprints : Footprints) (slot : Slot) : Footprints :=
  match footprints[slot]? with
  | some _ => footprints.erase slot
  | none => footprints

/-- Bytes of all footprints and of all that some steps have yielded. -/
def resident (footprints : Footprints) (played : List Step) (scale : Scale) : Nat :=
  total footprints (·.bytes scale) + yielded played scale

end Footprints

structure StepFigures where
  /-- Bytes while it runs. -/
  required : Nat
  /-- Bytes once its work is done, before any slot is freed. -/
  left : Nat
  deriving DecidableEq

def StepFigures.Fit (figures : StepFigures) : Prop :=
  figures.required ≤ memoryMax ∧ figures.left ≤ memoryMax

instance (figures : StepFigures) : Decidable figures.Fit := inferInstanceAs (Decidable (_ ∧ _))

namespace Footprints

def next (footprints : Footprints) (played : List Step) (scale : Scale) (step : Step) (own : Bounds) :
    StepFigures where
  required := footprints.resident played scale + step.extraBytes own (footprints.before step) scale
  left := (footprints.perform step own).resident (played ++ [step]) scale

def figures (scale : Scale) :
    Footprints → List Step → List (Step × Bounds × List Slot) → List StepFigures
  | _, _, [] => []
  | footprints, played, (step, own, releases) :: items =>
    footprints.next played scale step own ::
      figures scale (releases.foldl free (footprints.perform step own)) (played ++ [step]) items

theorem length_figures (scale : Scale) (footprints : Footprints) (played : List Step)
    (items : List (Step × Bounds × List Slot)) :
    (figures scale footprints played items).length = items.length := by
  induction items generalizing footprints played with
  | nil => rfl
  | cons item items ih => simp [figures, ih]

end Footprints

/-! ## Checked books -/

namespace Budget

variable {scale : Scale} {state : State} {footprints : Footprints} {played : List Step} {step : Step}
  {own bounds : Bounds} {slot : Slot}

def State.exact (footprints : Footprints) (played : List Step) (scale : Scale) : State :=
  ⟨footprints, footprints.resident played scale⟩

theorem balanced_exact (fits : footprints.resident played scale ≤ memoryMax) :
    (State.exact footprints played scale).Balanced scale played :=
  .of_resident rfl fits

theorem memorySize_of_le {whole : Nat} (within : bounds.bytes scale ≤ whole) (fits : whole ≤ memoryMax) :
    bounds.memorySize scale = .ok (bounds.bytes scale) := by
  rw [Bounds.memorySize_eq, checkFigure, if_pos (within.trans fits)]

theorem occupy_eq (state : State) (bounds : Bounds) (scale : Scale) :
    state.occupy bounds scale =
      if state.resident + bounds.bytes scale ≤ memoryMax then
        .ok { state with resident := state.resident + bounds.bytes scale }
      else .error .overflow := by
  unfold State.occupy
  by_cases fits : state.resident + bounds.bytes scale ≤ memoryMax
  · rw [memorySize_of_le (Nat.le_add_left _ _) fits, if_pos fits]
    change (do return { state with resident := ← checkFigure _ }) = _
    rw [checkFigure, if_pos fits]
    rfl
  · rw [if_neg fits, Bounds.memorySize_eq, checkFigure]
    split
    · change (do return { state with resident := ← checkFigure _ }) = _
      rw [checkFigure, if_neg fits]
      rfl
    · rfl

/-- A footprint takes the place of the one that is there. -/
theorem resident_insert (footprints : Footprints) (played : List Step) (slot : Slot) (bounds : Bounds) :
    Footprints.resident (footprints.insert slot bounds) played scale +
        ((footprints[slot]?).elim 0 fun old => old.bytes scale) =
      footprints.resident played scale + bounds.bytes scale := by
  unfold Footprints.resident
  rw [total_insert]
  cases found : footprints[slot]? with
  | none =>
    rw [total_erase_of_none _ found]
    dsimp only [Option.elim]
    omega
  | some old =>
    rw [total_eq_add_erase _ found]
    dsimp only [Option.elim]
    omega

theorem replace_eq (fits : footprints.resident played scale ≤ memoryMax) (slot : Slot) (bounds : Bounds) :
    (State.exact footprints played scale).replace slot bounds scale =
      if Footprints.resident (footprints.insert slot bounds) played scale ≤ memoryMax then
        .ok (.exact (footprints.insert slot bounds) played scale)
      else .error .overflow := by
  have resident := @resident_insert scale footprints played slot bounds
  unfold State.replace
  change (do
    let vacated ← match footprints[slot]? with
      | some old => (State.exact footprints played scale).vacate old scale
      | none => pure (State.exact footprints played scale)
    State.occupy { vacated with footprints := vacated.footprints.insert slot bounds } bounds scale) = _
  cases found : footprints[slot]? with
  | none =>
    rw [found] at resident
    change State.occupy ⟨footprints.insert slot bounds, _⟩ bounds scale = _
    rw [occupy_eq]
    simp only [State.exact, ← resident, Option.elim, Nat.add_zero]
  | some old =>
    rw [found] at resident
    have counted := ((balanced_exact fits).counted slot old found).2
    dsimp only
    rw [(balanced_exact fits).vacate found]
    have same : footprints.resident played scale - old.bytes scale + bounds.bytes scale =
        Footprints.resident (footprints.insert slot bounds) played scale := by
      change old.bytes scale ≤ footprints.resident played scale at counted
      change _ + old.bytes scale = _ at resident
      omega
    change State.occupy ⟨footprints.insert slot bounds,
      footprints.resident played scale - old.bytes scale⟩ bounds scale = _
    rw [occupy_eq]
    simp only [same, State.exact]

/-- Slots are freed without a check. -/
theorem free_eq (fits : footprints.resident played scale ≤ memoryMax) (slot : Slot) :
    State.free scale (State.exact footprints played scale) slot =
        .ok (.exact (footprints.free slot) played scale) ∧
      (footprints.free slot).resident played scale ≤ memoryMax := by
  unfold State.free Footprints.free
  change (match footprints[slot]? with
    | some old => State.vacate ⟨footprints.erase slot, _⟩ old scale
    | none => .ok (State.exact footprints played scale)) = _ ∧ _
  cases found : footprints[slot]? with
  | none => exact ⟨rfl, fits⟩
  | some old =>
    have apart : footprints.resident played scale =
        old.bytes scale + Footprints.resident (footprints.erase slot) played scale := by
      unfold Footprints.resident
      rw [total_eq_add_erase _ found, Nat.add_assoc]
    refine ⟨?_, by dsimp only; omega⟩
    refine ((balanced_exact fits).vacate found _).trans ?_
    change Except.ok (State.mk _ (footprints.resident played scale - old.bytes scale)) = _
    rw [apart, Nat.add_sub_cancel_left]
    rfl

theorem foldlM_free_eq (fits : footprints.resident played scale ≤ memoryMax) (slots : List Slot) :
    slots.foldlM (State.free scale) (State.exact footprints played scale) =
        .ok (.exact (slots.foldl Footprints.free footprints) played scale) ∧
      Footprints.resident (slots.foldl Footprints.free footprints) played scale ≤ memoryMax := by
  induction slots generalizing footprints with
  | nil => exact ⟨rfl, fits⟩
  | cons slot slots ih =>
    obtain ⟨freed, stays⟩ := free_eq fits slot
    rw [List.foldlM_cons, freed, List.foldl_cons]
    exact ih stays

/-- The footprint of the target is part of what is resident. -/
theorem bytes_before_le (footprints : Footprints) (played : List Step) (step : Step) :
    (footprints.before step).bytes scale ≤ footprints.resident played scale := by
  unfold Footprints.before State.footprint
  split
  case isTrue =>
    rw [Bounds.bytes_empty]
    exact Nat.zero_le _
  case isFalse =>
    dsimp only
    rw [Std.TreeMap.getD_eq_getD_getElem?]
    cases found : footprints[step.target]? with
    | none =>
      change (Bounds.empty _).bytes scale ≤ _
      rw [Bounds.bytes_empty]
      exact Nat.zero_le _
    | some bounds =>
      unfold Footprints.resident
      rw [total_eq_add_erase _ found, Nat.add_assoc]
      exact Nat.le_add_right _ _

/-- Parts of a figure are checked for nothing when the whole is checked. -/
theorem checkFigure_bind {part whole : Nat} (within : part ≤ whole) (next : Nat → Except Breach Nat)
    (ends : next part = checkFigure whole) : (checkFigure part >>= next) = checkFigure whole := by
  rw [checkFigure]
  split
  case isTrue => exact ends
  case isFalse exceeds =>
    rw [checkFigure, if_neg (by omega)]
    rfl

/-- The figure of a step, checked. -/
theorem requirement_eq (fits : footprints.resident played scale ≤ memoryMax)
    (settled : step.footprintAfter own (footprints.before step) =
      .ok (step.footprintLeft own (footprints.before step))) :
    (step.extraMemory own (footprints.before step) scale >>= fun extra =>
      checkFigure (footprints.resident played scale + extra)) =
      checkFigure (footprints.next played scale step own).required := by
  have current : (footprints.before step).memorySize scale = .ok ((footprints.before step).bytes scale) :=
    memorySize_of_le (bytes_before_le footprints played step) fits
  have size (bounds : Bounds) : (bounds.memorySize scale >>= fun extra =>
      checkFigure (footprints.resident played scale + extra)) =
        checkFigure (footprints.resident played scale + bounds.bytes scale) := by
    rw [Bounds.memorySize_eq]
    exact checkFigure_bind (Nat.le_add_left _ _) _ rfl
  have workspace (workspace : Workspace) :
      (Step.extraMemory.ofWorkspace step own (footprints.before step) scale workspace >>= fun extra =>
        checkFigure (footprints.resident played scale + extra)) =
      checkFigure (footprints.resident played scale +
        Step.extraBytes.ofWorkspace step own (footprints.before step) scale workspace) := by
    unfold Step.extraMemory.ofWorkspace
    rw [current]
    cases workspace with
    | copies count => exact checkFigure_bind (Nat.le_add_left _ _) _ rfl
    | replacement =>
      change (step.footprintAfter own (footprints.before step) >>= fun bounds =>
        bounds.memorySize scale) >>= _ = _
      rw [settled]
      exact size _
  unfold Footprints.next Step.extraMemory Step.extraBytes
  cases step.action with
  | makeMap maker => exact size own
  | makeProfile maker => exact size own
  | yield name rectangle =>
    dsimp only
    rw [current]
    exact size _
  | editMap edit => exact workspace _
  | editProfile edit => exact workspace _

/-- The work of a step, checked. -/
theorem perform_eq (fits : footprints.resident played scale ≤ memoryMax)
    (settled : step.footprintAfter own (footprints.before step) =
      .ok (step.footprintLeft own (footprints.before step))) :
    (State.exact footprints played scale).perform step own scale =
      if (footprints.next played scale step own).left ≤ memoryMax then
        .ok (.exact (footprints.perform step own) (played ++ [step]) scale)
      else .error .overflow := by
  have quiet (silent : step.yielded scale = 0) (footprints : Footprints) :
      footprints.resident (played ++ [step]) scale = footprints.resident played scale := by
    unfold Footprints.resident
    rw [yielded_snoc, silent, Nat.add_zero]
  have replaces (silent : step.yielded scale = 0) (bounds : Bounds) :
      (State.exact footprints played scale).replace step.target bounds scale =
        if Footprints.resident (footprints.insert step.target bounds) (played ++ [step]) scale ≤ memoryMax
        then .ok (.exact (footprints.insert step.target bounds) (played ++ [step]) scale)
        else .error .overflow := by
    unfold State.exact
    rw [quiet silent]
    exact replace_eq fits _ _
  unfold State.perform Footprints.next Footprints.perform
  change (match step.action with
    | .yield _ rectangle => (State.exact footprints played scale).occupy (.rectangle rectangle) scale
    | .makeMap _ | .makeProfile _ => (State.exact footprints played scale).replace step.target own scale
    | .editMap _ | .editProfile _ => step.footprintAfter own (footprints.before step) >>= fun bounds =>
      (State.exact footprints played scale).replace step.target bounds scale) = _
  rw [settled]
  cases action : step.action with
  | makeMap maker => exact replaces (by rw [Step.yielded, action]) own
  | makeProfile maker => exact replaces (by rw [Step.yielded, action]) own
  | editMap edit => exact replaces (by rw [Step.yielded, action]) _
  | editProfile edit => exact replaces (by rw [Step.yielded, action]) _
  | yield name rectangle =>
    have more : footprints.resident (played ++ [step]) scale =
        footprints.resident played scale + (Bounds.rectangle rectangle).bytes scale := by
      unfold Footprints.resident
      rw [yielded_snoc, Step.yielded, action, Nat.add_assoc]
    dsimp only
    rw [occupy_eq]
    unfold State.exact
    rw [more]

/-- One step of the checked books: both figures of the step are checked, and nothing else can go wrong. -/
theorem advance_eq (fits : footprints.resident played scale ≤ memoryMax)
    (settled : step.footprintAfter own (footprints.before step) =
      .ok (step.footprintLeft own (footprints.before step))) (releases : List Slot) :
    Budget.advance scale (.exact footprints played scale) step own releases =
      if (footprints.next played scale step own).Fit then
        .ok ((footprints.next played scale step own).required,
          .exact (releases.foldl Footprints.free (footprints.perform step own)) (played ++ [step]) scale)
      else .error .overflow := by
  have apart : Budget.advance scale (.exact footprints played scale) step own releases =
      (step.extraMemory own (footprints.before step) scale >>= fun extra =>
        checkFigure (footprints.resident played scale + extra)) >>= fun requirement =>
      (State.exact footprints played scale).perform step own scale >>= fun performed =>
      releases.foldlM (State.free scale) performed >>= fun freed => pure (requirement, freed) := by
    rw [bind_assoc]
    rfl
  rw [apart, requirement_eq fits settled, perform_eq fits settled, checkFigure]
  by_cases required : (footprints.next played scale step own).required ≤ memoryMax
  case neg =>
    have exceeds : ¬ (footprints.next played scale step own).Fit := fun both => required both.1
    rw [if_neg required, if_neg exceeds]
    rfl
  case pos =>
    by_cases left : (footprints.next played scale step own).left ≤ memoryMax
    case neg =>
      have exceeds : ¬ (footprints.next played scale step own).Fit := fun both => left both.2
      rw [if_pos required, if_neg left, if_neg exceeds]
      rfl
    case pos =>
      have both : (footprints.next played scale step own).Fit := ⟨required, left⟩
      rw [if_pos required, if_pos left, if_pos both]
      change (releases.foldlM (State.free scale) (State.exact (footprints.perform step own)
        (played ++ [step]) scale) >>= fun freed => pure (_, freed)) = _
      rw [(foldlM_free_eq left releases).1]
      rfl

end Budget

/-! ## Schedules -/

def Sequence.items (sequence : Sequence) (extents : Extents) : List (Step × Bounds × List Slot) :=
  sequence.steps.toList.zip (extents.toList.zip (Lifetimes.ofSteps sequence.steps))

def Sequence.figures (sequence : Sequence) (extents : Extents) : List StepFigures :=
  Footprints.figures sequence.scale ∅ [] (sequence.items extents)

namespace Schedule

variable {scale : Scale} {steps : Array Step} {items : List (Step × Bounds × List Slot)}
  {footprints : Footprints} {played : List Step} {sequence : Sequence}

def factsOf (item : Step × Bounds × List Slot) (figures : StepFigures) : StepFacts :=
  ⟨item.2.1, figures.required, item.2.2⟩

theorem map_memory_factsOf {figures : List StepFigures} (length : figures.length = items.length) :
    (items.zipWith factsOf figures).map (·.memory) = figures.map (·.required) := by
  induction items generalizing figures with
  | nil =>
    cases List.length_eq_zero_iff.1 length
    rfl
  | cons item items ih =>
    obtain ⟨first, figures, rfl⟩ := List.exists_cons_of_length_eq_add_one length
    simp only [List.zipWith_cons_cons, List.map_cons, factsOf]
    rw [← ih (Nat.succ.inj length)]

/-- One step of a sequence, played through with all slots of the right kinds. -/
theorem advance_eq {index : Nat} {step : Step} {own : Bounds} (consistent : Consistent steps.toList)
    (found : steps[index]? = some step)
    (kinded : (Budget.State.exact footprints played scale).Kinded steps)
    (fits : footprints.resident played scale ≤ memoryMax) (releases : List Slot) (done : Schedule) :
    advance scale (.exact footprints played scale, done) (step, own, releases) =
      if (footprints.next played scale step own).Fit then
        .ok (.exact (releases.foldl Footprints.free (footprints.perform step own)) (played ++ [step]) scale,
          done.push (factsOf (step, own, releases) (footprints.next played scale step own)))
      else .error .overflow := by
  have settled := @Step.footprintAfter_eq step own _ (Budget.kind_footprint consistent found kinded)
  unfold advance
  dsimp only
  rw [Budget.advance_eq fits settled releases]
  split
  case isTrue => rfl
  case isFalse => rfl

/-- All steps of a list, played through: the checked books come to an end exactly if all figures fit. -/
theorem foldlM_advance_eq (consistent : Consistent steps.toList)
    (members : ∀ item ∈ items,
      ∃ index : Nat, steps[index]? = some item.1 ∧ item.2.1.kind = item.1.action.kind)
    (kinded : (Budget.State.exact footprints played scale).Kinded steps)
    (fits : footprints.resident played scale ≤ memoryMax) (done : Schedule) :
    ∃ budget, items.foldlM (advance scale) (.exact footprints played scale, done) =
      if ∀ figures ∈ Footprints.figures scale footprints played items, figures.Fit then
        .ok (budget, done ++
          (items.zipWith factsOf (Footprints.figures scale footprints played items)).toArray)
      else .error .overflow := by
  -- on the steps, for any books that keep to the kinds and whose figure fits
  induction items generalizing footprints played done with
  | nil => exact ⟨.exact footprints played scale, by simp [Footprints.figures, pure, Except.pure]⟩
  | cons item items ih =>
    obtain ⟨step, own, releases⟩ := item
    rw [List.forall_mem_cons] at members
    obtain ⟨⟨index, found, kind⟩, members⟩ := members
    have advanced := @advance_eq scale steps footprints played index step own consistent found kinded fits
      releases
    rw [Footprints.figures, List.foldlM_cons, advanced]
    simp only [List.forall_mem_cons]
    by_cases fit : (footprints.next played scale step own).Fit
    case neg =>
      refine ⟨⟨∅, 0⟩, ?_⟩
      rw [if_neg fit, if_neg fun both => fit both.1]
      rfl
    case pos =>
      have settled := @Step.footprintAfter_eq step own _ (Budget.kind_footprint consistent found kinded)
      have taken := Budget.advance_eq fits settled releases
      rw [if_pos fit] at taken
      have kindedAfter := (Budget.fits_advance consistent found kind kinded).ok taken
      have fitsAfter := (Budget.foldlM_free_eq fit.2 releases).2
      obtain ⟨budget, played⟩ := ih members kindedAfter fitsAfter
        (done.push (factsOf (step, own, releases) (footprints.next played scale step own)))
      refine ⟨budget, ?_⟩
      rw [if_pos fit]
      refine played.trans ?_
      simp [fit]

/-- A sequence of consistent steps has a schedule exactly if all its figures fit, and then its schedule
has these figures. -/
theorem ofSequence_eq (consistent : Consistent sequence.steps.toList)
    (representable : ∀ step ∈ sequence.steps.toList, step.action.Representable) :
    ∃ extents, Extents.ofSteps sequence.steps (.ofSteps sequence.steps) = .ok extents ∧
      extents.Suit sequence.steps ∧
      ofSequence sequence (.ofSteps sequence.steps) =
        if ∀ figures ∈ sequence.figures extents, figures.Fit then
          .ok ((sequence.items extents).zipWith factsOf (sequence.figures extents)).toArray
        else .error .overflow := by
  obtain ⟨extents, ran, suit, -⟩ := @Extents.exists_propagate_demands _ sequence.steps.size _
    consistent.kindConsistent representable (Extents.suit_initial sequence.steps)
  refine ⟨extents, ran, suit, ?_⟩
  have members : ∀ item ∈ sequence.items extents,
      ∃ index : Nat, sequence.steps[index]? = some item.1 ∧ item.2.1.kind = item.1.action.kind := by
    intro item member
    obtain ⟨index, found⟩ := List.mem_iff_getElem?.1 member
    rw [Sequence.items, List.getElem?_zip_eq_some, List.getElem?_zip_eq_some] at found
    obtain ⟨foundStep, foundBounds, -⟩ := found
    have foundStep : sequence.steps[index]? = some item.1 := by simpa using foundStep
    exact ⟨index, foundStep, (suit.suits foundStep (by simpa using foundBounds)).kind⟩
  have kinded : (Budget.State.exact ∅ [] sequence.scale).Kinded sequence.steps := by
    intro slot bounds present
    simp [Budget.State.exact] at present
  obtain ⟨budget, played⟩ := foldlM_advance_eq consistent members kinded (Nat.zero_le _) #[]
  change (Extents.ofSteps _ _ >>= fun extents =>
    (sequence.items extents).foldlM (advance sequence.scale) (.exact ∅ [] sequence.scale, #[]) >>=
      fun state => pure state.2) = _
  have ran : Extents.ofSteps sequence.steps (.ofSteps sequence.steps) = .ok extents := ran
  rw [ran]
  change ((sequence.items extents).foldlM (advance sequence.scale) (.exact ∅ [] sequence.scale, #[]) >>=
    fun state => pure state.2) = _
  rw [played]
  unfold Sequence.figures
  split
  case isTrue =>
    rw [Array.empty_append]
    rfl
  case isFalse => rfl

end Schedule

end Terrain
