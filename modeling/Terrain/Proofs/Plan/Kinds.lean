import Terrain.Plan.Schedule
import Terrain.Proofs.Breaches
import Terrain.Proofs.Plan.Producers

/-!
# Kinds of bounds

In a consistent sequence a slot has one kind from beginning to end, and the bounds that are handed
from step to step are of the kind of the slot they are about. So bounds are never mixed, and a
schedule can fail only for its figures.

* `Extents.Kinded` — the bounds of every step are of the kind of its target.
* `Extents.fits_ofSteps`, `Schedule.fits_ofSequence` — schedules keep to the kinds.
-/

namespace Terrain

/-! ## Steps -/

namespace Bounds

variable {bounds other : Bounds} {kind : RasterKind}

theorem kind_empty (kind : RasterKind) : (empty kind).kind = kind := by cases kind <;> rfl

theorem fits_combine (left : bounds.kind = kind) (right : other.kind = kind) :
    Fits (bounds.combine other) (·.kind = kind) := by
  subst left
  cases bounds <;> cases other <;> first | rfl | cases right

theorem fits_asRectangle (map : bounds.kind = .map) : Fits bounds.asRectangle fun _ => True := by
  cases bounds with
  | rectangle extent => trivial
  | interval extent => cases map

theorem fits_asInterval (profile : bounds.kind = .profile) : Fits bounds.asInterval fun _ => True := by
  cases bounds with
  | rectangle extent => cases profile
  | interval extent => trivial

theorem fits_memorySize (scale : Scale) : Fits (bounds.memorySize scale) fun _ => True := by
  have fits (header samples : Nat) : Fits (checkMemory header samples) fun _ => True :=
    .ite (fun _ => trivial) fun _ => rfl
  refine .ite (fun _ => trivial) fun _ => ?_
  cases bounds <;> exact fits _ _

end Bounds

namespace Step

variable {step : Step} {own : Bounds}

theorem fits_priorBounds (kind : own.kind = step.action.kind) :
    Fits (step.priorBounds own) (·.kind = step.action.kind) := by
  unfold priorBounds
  cases action : step.action with
  | makeMap maker => rwa [action] at kind
  | makeProfile maker => rwa [action] at kind
  | yield name rectangle =>
    rw [action] at kind
    exact Bounds.fits_combine kind rfl
  | editMap edit =>
    rw [action] at kind
    exact .ite (fun _ => .pure kind) fun _ => (Bounds.fits_asRectangle kind).seq fun _ => .pure rfl
  | editProfile edit =>
    rw [action] at kind
    exact .ite (fun _ => .pure kind) fun _ => (Bounds.fits_asInterval kind).seq fun _ => .pure rfl

theorem fits_argumentBounds (kind : own.kind = step.action.kind) :
    Fits (step.argumentBounds own) (·.kind = step.action.argumentKind) := by
  unfold argumentBounds
  split
  case h_1 action =>
    rw [action] at kind ⊢
    exact (Bounds.fits_asRectangle kind).seq fun _ => .pure rfl
  case h_2 action =>
    rw [action] at kind ⊢
    exact (Bounds.fits_asRectangle kind).seq fun _ => .pure rfl
  case h_3 action =>
    rw [action] at kind ⊢
    refine (Bounds.fits_asInterval kind).seq fun side => ?_
    exact .ite (fun _ => .pure (Bounds.kind_empty _)) fun _ => .pure rfl
  case h_4 action => rw [action]; rfl
  case h_5 action => rw [action]; rfl
  case h_6 action => rw [action]; rfl
  case h_7 notProjection notShift notSlice _ _ notTransform =>
    have same : step.action.argumentKind = step.action.kind := by
      unfold Action.argumentKind
      split
      case h_1 action => exact absurd action (notProjection _)
      case h_2 action => exact absurd action (notShift _ _)
      case h_3 action => exact absurd action (notTransform _ _ _)
      case h_4 action => exact absurd action (notSlice _ _)
      case h_5 => rfl
    exact kind.trans same.symm

theorem fits_footprintAfter {footprint : Bounds} (kind : own.kind = step.action.kind)
    (footprintKind : footprint.kind = step.action.kind) :
    Fits (step.footprintAfter own footprint) (·.kind = step.action.kind) := by
  unfold footprintAfter
  split
  case h_1 action =>
    rw [action] at footprintKind ⊢
    exact (Bounds.fits_asRectangle footprintKind).seq fun _ => .pure rfl
  case h_2 action =>
    rw [action] at footprintKind ⊢
    exact (Bounds.fits_asRectangle footprintKind).seq fun _ => .pure rfl
  case h_3 action => rw [action]; rfl
  case h_4 action => exact kind
  case h_5 action =>
    rw [action] at footprintKind ⊢
    exact (Bounds.fits_asInterval footprintKind).seq fun _ => .pure rfl
  case h_6 action =>
    rw [action] at footprintKind ⊢
    exact (Bounds.fits_asInterval footprintKind).seq fun _ => .pure rfl
  case h_7 action => rw [action]; rfl
  case h_8 action =>
    rw [action] at footprintKind ⊢
    exact (Bounds.fits_asInterval footprintKind).seq fun _ => .pure rfl
  case h_9 => exact footprintKind

theorem fits_extraMemory {footprint : Bounds} (kind : own.kind = step.action.kind)
    (footprintKind : footprint.kind = step.action.kind) (scale : Scale) :
    Fits (step.extraMemory own footprint scale) fun _ => True := by
  have ofWorkspace (workspace : Workspace) :
      Fits (extraMemory.ofWorkspace step own footprint scale workspace) fun _ => True := by
    refine (Bounds.fits_memorySize scale).seq fun current => ?_
    cases workspace with
    | copies count => exact .ite (fun _ => trivial) fun _ => rfl
    | replacement =>
      exact (fits_footprintAfter kind footprintKind).bind fun _ _ => Bounds.fits_memorySize scale
  unfold extraMemory
  cases step.action with
  | makeMap maker => exact Bounds.fits_memorySize scale
  | makeProfile maker => exact Bounds.fits_memorySize scale
  | yield name rectangle =>
    exact Fits.seq (Bounds.fits_memorySize scale).discard fun _ => Bounds.fits_memorySize scale
  | editMap edit => exact ofWorkspace _
  | editProfile edit => exact ofWorkspace _

end Step

/-! ## Extents -/

namespace Extents

variable {steps : Array Step}

/-- The bounds of every step are of the kind of its target. -/
structure Kinded (extents : Extents) (steps : Array Step) : Prop where
  size : extents.size = steps.size
  kind : ∀ {index : Nat} {step : Step} {own : Bounds}, steps[index]? = some step →
    extents[index]? = some own → own.kind = step.action.kind

theorem kinded_initial (steps : Array Step) : (initial steps).Kinded steps where
  size := Array.size_map
  kind found foundOwn := by
    simp only [initial, Array.getElem?_map, found, Option.map_some, Option.some_inj] at foundOwn
    rw [← foundOwn, Bounds.kind_empty]

theorem Kinded.set {extents : Extents} {index : Nat} {step : Step} {bounds : Bounds}
    (kinded : extents.Kinded steps) (found : steps[index]? = some step)
    (kind : bounds.kind = step.action.kind) :
    Kinded (extents.setIfInBounds index bounds) steps where
  size := by rw [Array.size_setIfInBounds, kinded.size]
  kind {other _ _} foundOther foundOwn := by
    rw [Array.getElem?_setIfInBounds] at foundOwn
    split at foundOwn
    case isTrue same =>
      subst same
      split at foundOwn
      · cases found.symm.trans foundOther
        cases foundOwn
        exact kind
      · cases foundOwn
    case isFalse => exact kinded.kind foundOther foundOwn

/-- All that a step needs of a slot is of the kind of the slot. -/
theorem fits_need? {index : Nat} {step : Step} {own : Bounds} {slot : Slot} {kind : RasterKind}
    (consistent : Consistent steps.toList) (found : steps[index]? = some step)
    (ownKind : own.kind = step.action.kind) (made : Makes steps.toList slot kind) :
    Fits (need? step own slot) fun need => ∀ bounds ∈ need, bounds.kind = kind := by
  have follows := consistent.follows_at (by simpa using found)
  have arguments : Fits ((step.arguments.filter (· == slot)).mapM fun _ => step.argumentBounds own)
      fun needs => ∀ bounds ∈ needs, bounds.kind = kind := by
    refine .mapM fun other member => ?_
    obtain ⟨argument, same⟩ := List.mem_filter.1 member
    rw [eq_of_beq same] at argument
    have made' := (follows.arguments slot argument).mono (List.take_subset index _)
    rw [consistent.kind_unique made made']
    exact Step.fits_argumentBounds ownKind
  have needed : Fits (needs step own slot) fun needs => ∀ bounds ∈ needs, bounds.kind = kind := by
    refine arguments.bind fun needs all => .ite (fun changes => ?_) fun _ => .pure all
    rw [Bool.and_eq_true, Bool.not_eq_true', beq_iff_eq] at changes
    have made' := (follows.filled changes.1).mono (List.take_subset index _)
    rw [← changes.2] at made'
    rw [consistent.kind_unique made made'] at all ⊢
    refine (Step.fits_priorBounds ownKind).bind fun prior priorKind => .pure ?_
    simpa [or_imp, forall_and] using ⟨all, priorKind⟩
  refine needed.bind fun needs all => ?_
  cases needs with
  | nil => exact .pure (by simp)
  | cons first rest =>
    rw [List.forall_mem_cons] at all
    refine Fits.bind (.foldlM all.1 fun total bounds member totalKind =>
      Bounds.fits_combine totalKind (all.2 bounds member)) fun total totalKind => .pure ?_
    simpa using totalKind

/-- A step hands bounds of the right kind to the producer of a slot. -/
theorem fits_demand {extents : Extents} {index : Nat} {step : Step} {own : Bounds} {edge : Edge}
    (consistent : Consistent steps.toList) (found : steps[index]? = some step)
    (ownKind : own.kind = step.action.kind) (kinded : extents.Kinded steps)
    (member : edge ∈ (Producers.ofSteps steps).edges index) :
    Fits (demand step own extents edge) (Kinded · steps) := by
  obtain ⟨-, last⟩ := (Producers.mem_edges found).1 member
  obtain ⟨-, producer, foundProducer, target⟩ := last.of_take
  have made := consistent.makes_target foundProducer
  rw [target] at made
  refine (fits_need? consistent found ownKind made).bind fun need needKind => ?_
  cases need with
  | none => exact .pure kinded
  | some need =>
    cases present : extents[edge.producer]? with
    | none => exact .pure kinded
    | some bounds =>
      have foundProducer : steps[edge.producer]? = some producer := by simpa using foundProducer
      refine (Bounds.fits_combine (kinded.kind foundProducer present) (needKind need rfl)).bind ?_
      exact fun total totalKind => .pure (kinded.set foundProducer totalKind)

theorem fits_propagate (consistent : Consistent steps.toList) :
    ∀ (index : Nat) {extents : Extents}, extents.Kinded steps →
      Fits (propagate steps (Producers.ofSteps steps) index extents) (Kinded · steps)
  | 0, _, kinded => kinded
  | index + 1, extents, kinded => by
    unfold propagate
    cases found : steps[index]? with
    | none => exact fits_propagate consistent index kinded
    | some step =>
      cases foundOwn : extents[index]? with
      | none => exact fits_propagate consistent index kinded
      | some own =>
        have ownKind := kinded.kind found foundOwn
        refine Fits.bind (.foldlM kinded fun extents edge member kinded =>
          fits_demand consistent found ownKind kinded member) fun extents kinded => ?_
        exact fits_propagate consistent index kinded

theorem fits_ofSteps (consistent : Consistent steps.toList) :
    Fits (ofSteps steps (Producers.ofSteps steps)) (Kinded · steps) :=
  fits_propagate consistent _ (kinded_initial steps)

end Extents

/-! ## Budget -/

namespace Budget

variable {steps : Array Step} {scale : Scale} {state : State}

def State.Kinded (state : State) (steps : Array Step) : Prop :=
  ∀ slot bounds, state.footprints[slot]? = some bounds → Makes steps.toList slot bounds.kind

theorem fits_checkFigure (figure : Nat) : Fits (checkFigure figure) fun _ => True :=
  .ite (fun _ => trivial) fun _ => rfl

theorem fits_occupy (kinded : state.Kinded steps) (bounds : Bounds) :
    Fits (state.occupy bounds scale) (State.Kinded · steps) :=
  (Bounds.fits_memorySize scale).seq fun _ => (fits_checkFigure _).seq fun _ => .pure kinded

theorem fits_vacate (bounds : Bounds) :
    Fits (state.vacate bounds scale) fun after => after.footprints = state.footprints :=
  (Bounds.fits_memorySize scale).seq fun _ => .ite (fun _ => .pure rfl) fun _ => rfl

theorem fits_replace {slot : Slot} {bounds : Bounds} (kinded : state.Kinded steps)
    (made : Makes steps.toList slot bounds.kind) :
    Fits (state.replace slot bounds scale) (State.Kinded · steps) := by
  have inserted (footprints : Std.TreeMap Slot Bounds) (resident : Nat)
      (same : footprints = state.footprints) :
      State.Kinded ⟨footprints.insert slot bounds, resident⟩ steps := by
    intro other found present
    simp only [Std.TreeMap.getElem?_insert, Nat.compare_eq_eq] at present
    split at present
    case isTrue equal =>
      cases present
      rwa [← equal]
    case isFalse => exact kinded other found (same ▸ present)
  unfold State.replace
  cases state.footprints[slot]? with
  | none => exact fits_occupy (inserted _ state.resident rfl) bounds
  | some old =>
    exact (fits_vacate old).bind fun vacated same => fits_occupy (inserted _ _ same) bounds

theorem fits_free (kinded : state.Kinded steps) (slot : Slot) :
    Fits (state.free scale slot) (State.Kinded · steps) := by
  unfold State.free
  split
  case h_2 => exact kinded
  case h_1 old present =>
    have erased : State.Kinded { state with footprints := state.footprints.erase slot } steps := by
      intro other found left
      simp only [Std.TreeMap.getElem?_erase] at left
      split at left
      · cases left
      · exact kinded other found left
    refine (fits_vacate old).imp fun vacated same other found left => ?_
    exact erased other found (same ▸ left)

theorem kind_footprint {index : Nat} {step : Step} (consistent : Consistent steps.toList)
    (found : steps[index]? = some step) (kinded : state.Kinded steps) :
    (state.footprint step).kind = step.action.kind := by
  unfold State.footprint
  split
  · exact Bounds.kind_empty _
  · rw [Std.TreeMap.getD_eq_getD_getElem?]
    cases present : state.footprints[step.target]? with
    | none => exact Bounds.kind_empty _
    | some bounds =>
      have made := consistent.makes_target (by simpa using found)
      exact consistent.kind_unique (kinded _ _ present) made

theorem fits_advance {index : Nat} {step : Step} {own : Bounds} {releases : List Slot}
    (consistent : Consistent steps.toList) (found : steps[index]? = some step)
    (ownKind : own.kind = step.action.kind) (kinded : state.Kinded steps) :
    Fits (Budget.advance scale state step own releases) fun next => next.2.Kinded steps := by
  have footprintKind := kind_footprint consistent found kinded
  have made := consistent.makes_target (by simpa using found)
  have performed : Fits (state.perform step own scale) (State.Kinded · steps) := by
    unfold State.perform
    cases action : step.action with
    | yield name rectangle => exact fits_occupy kinded _
    | makeMap maker => exact fits_replace kinded (ownKind ▸ made)
    | makeProfile maker => exact fits_replace kinded (ownKind ▸ made)
    | editMap edit =>
      exact (Step.fits_footprintAfter ownKind footprintKind).bind fun after afterKind =>
        fits_replace kinded (afterKind ▸ made)
    | editProfile edit =>
      exact (Step.fits_footprintAfter ownKind footprintKind).bind fun after afterKind =>
        fits_replace kinded (afterKind ▸ made)
  refine (Step.fits_extraMemory ownKind footprintKind scale).seq fun extra => ?_
  refine (fits_checkFigure _).seq fun requirement => performed.bind fun performed kinded => ?_
  exact Fits.bind (.foldlM kinded fun state slot _ kinded => fits_free kinded slot) fun _ kinded =>
    .pure kinded

end Budget

/-! ## Schedules -/

namespace Schedule

/-- A sequence of consistent steps has a schedule, unless a figure does not fit. -/
theorem fits_ofSequence {sequence : Sequence} (consistent : Consistent sequence.steps.toList) :
    Fits (ofSequence sequence (Producers.ofSteps sequence.steps)) fun _ => True := by
  refine (Extents.fits_ofSteps consistent).bind fun extents kinded => ?_
  refine Fits.bind (?_ : Fits _ fun state => state.1.Kinded sequence.steps) fun _ _ => .pure trivial
  refine .foldlM ?_ ?_
  · intro slot bounds present
    simp at present
  · rintro ⟨budget, done⟩ ⟨step, bounds, releases⟩ member budgetKinded
    obtain ⟨index, found⟩ := List.mem_iff_getElem?.1 member
    rw [List.getElem?_zip_eq_some, List.getElem?_zip_eq_some] at found
    obtain ⟨foundStep, foundBounds, -⟩ := found
    have foundStep : sequence.steps[index]? = some step := by simpa using foundStep
    have ownKind := kinded.kind foundStep (by simpa using foundBounds)
    exact (Budget.fits_advance consistent foundStep ownKind budgetKinded).bind fun _ kinded =>
      .pure kinded

def places (schedule : Schedule) : List (Bounds × List Slot) :=
  schedule.toList.map fun facts => (facts.bounds, facts.releases)

theorem places_of_foldlM {scale : Scale} {items : List (Step × Bounds × List Slot)}
    {state after : Budget.State × Schedule} (run : items.foldlM (advance scale) state = .ok after) :
    after.2.places = state.2.places ++ items.map Prod.snd := by
  induction items generalizing state with
  | nil =>
    cases run
    simp
  | cons item items ih =>
    obtain ⟨step, bounds, releases⟩ := item
    rw [List.foldlM_cons] at run
    obtain ⟨between, advanced, rest⟩ := checked_bind_eq_ok run
    obtain ⟨next, -, pushed⟩ := checked_bind_eq_ok advanced
    cases pushed
    rw [ih rest]
    simp [places]

/-- A schedule lists the bounds of all steps and the slots that are freed after them. -/
theorem places_of_ofSequence {sequence : Sequence} {producers : Producers} {schedule : Schedule}
    (made : ofSequence sequence producers = .ok schedule) :
    ∃ extents, Extents.ofSteps sequence.steps producers = .ok extents ∧
      schedule.places = (sequence.steps.toList.zip
        (extents.toList.zip (Lifetimes.ofSteps sequence.steps))).map Prod.snd := by
  obtain ⟨extents, bounded, rest⟩ := checked_bind_eq_ok made
  obtain ⟨state, run, ended⟩ := checked_bind_eq_ok rest
  cases ended
  exact ⟨extents, bounded, places_of_foldlM run⟩

end Schedule

end Terrain
