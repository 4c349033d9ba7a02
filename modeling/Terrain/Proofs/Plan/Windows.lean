import Terrain.Proofs.Plan.Coverage

/-!
# Plans through a window

A large area can be rendered in tiles: the same steps once for each tile, with all yields showing it.
Where no step is planned to need more of a map than it makes itself, such a plan is simple. Of every
step either nothing is needed or just the window, and what is shown of a step is shown of all steps it
reads from.

* `Sequence.through` — all yields show a window.
* `Action.staysIn` — the actions that are planned this way; measuring distances is one of them.
* `Rectangle.pane` — a window, or nothing.
* `Extents.exists_panes` — the bounds of a plan through a window.
-/

namespace Terrain

/-! ## Steps through a window -/

/-- A yield shows the window and no longer its own rectangle. -/
def Action.through (window : Rectangle) : Action → Action
  | yield name _ => yield name window
  | action => action

def Step.through (window : Rectangle) (step : Step) : Step :=
  { step with action := step.action.through window }

def Sequence.through (window : Rectangle) (sequence : Sequence) : Sequence :=
  { sequence with steps := sequence.steps.map (Step.through window) }

/-- Whether an edit is planned to need no more of any map than it makes. -/
def MapEdit.staysIn : MapEdit → Bool
  | blur _ | convexity _ | move _ | pattern .. => false
  | distanceMap _ => true
  | edit => edit.isPlanar

/-- Whether an action is planned to need no more of any map than it makes. -/
def Action.staysIn : Action → Bool
  | editMap edit => edit.staysIn
  | action => action.isPlanar

/-- A step of a sequence that is rendered through a window. -/
structure Step.SeenIn (window : Rectangle) (step : Step) : Prop where
  arity : step.arguments.length = step.action.arity
  stays : step.action.staysIn = true
  whole : ∀ name rectangle, step.action = .yield name rectangle → rectangle = window

section Through

variable {window : Rectangle} {step : Step} {steps : List Step} {slot : Slot} {kind : RasterKind}

theorem Action.kind_of_staysIn {action : Action} (stays : action.staysIn = true) :
    action.kind = .map := by
  cases action with
  | makeProfile maker => cases stays
  | editProfile edit => cases stays
  | _ => rfl

theorem Action.argumentKind_of_staysIn {action : Action} (stays : action.staysIn = true) :
    action.argumentKind = .map := by
  cases action with
  | makeMap maker => cases maker <;> first | rfl | cases stays
  | editMap edit => cases edit <;> first | rfl | cases stays
  | yield name rectangle => rfl
  | makeProfile maker => cases stays
  | editProfile edit => cases stays

/-- A window changes nothing of a step but the rectangle it yields. -/
theorem Step.through_eq (window : Rectangle) (step : Step) :
    (step.through window).isMaker = step.isMaker ∧ (step.through window).mentions = step.mentions ∧
      (step.through window).arguments = step.arguments ∧
      (step.through window).action.kind = step.action.kind ∧
      (step.through window).action.argumentKind = step.action.argumentKind := by
  obtain ⟨location, action, arguments, target⟩ := step
  cases action with
  | _ => exact ⟨rfl, rfl, rfl, rfl, rfl⟩

theorem Action.arity_through (window : Rectangle) (action : Action) :
    (action.through window).arity = action.arity := by
  cases action <;> rfl

theorem Makes.through (made : Makes steps slot kind) :
    Makes (steps.map (Step.through window)) slot kind := by
  obtain ⟨step, member, maker, target, makes⟩ := made
  obtain ⟨sameMaker, -, -, sameKind, -⟩ := Step.through_eq window step
  exact ⟨step.through window, List.mem_map_of_mem member, sameMaker.trans maker, target,
    sameKind.trans makes⟩

theorem Step.Follows.through (follows : step.Follows steps) :
    (step.through window).Follows (steps.map (Step.through window)) := by
  obtain ⟨sameMaker, -, sameArguments, sameKind, sameArgumentKind⟩ := Step.through_eq window step
  constructor
  · exact follows.arity.trans (Action.arity_through window step.action).symm
  · intro maker earlier member
    obtain ⟨original, before, rfl⟩ := List.mem_map.1 member
    rw [(Step.through_eq window original).2.1]
    exact follows.new (sameMaker ▸ maker) original before
  · intro edits
    rw [sameKind]
    exact (follows.filled (sameMaker ▸ edits)).through
  · intro slot argument
    rw [sameArgumentKind]
    exact (follows.arguments slot (sameArguments ▸ argument)).through

theorem Sequence.WellFormed.through {sequence : Sequence} (wellFormed : sequence.WellFormed)
    (window : Rectangle) : (sequence.through window).WellFormed where
  consistent before step after split := by
    simp only [Sequence.through, Array.toList_map] at split
    obtain ⟨front, rest, whole, rfl, tail⟩ := List.map_eq_append_iff.1 split
    obtain ⟨original, behind, rfl, rfl, rfl⟩ := List.map_eq_cons_iff.1 tail
    exact (wellFormed.consistent front original behind whole).through
  reserved step member slot mentioned := by
    simp only [Sequence.through, Array.toList_map] at member
    obtain ⟨original, recorded, rfl⟩ := List.mem_map.1 member
    rw [(Step.through_eq window original).2.1] at mentioned
    exact wellFormed.reserved original recorded slot mentioned

theorem Step.seenIn_through (arity : step.arguments.length = step.action.arity)
    (stays : step.action.staysIn = true) : (step.through window).SeenIn window := by
  obtain ⟨location, action, arguments, target⟩ := step
  cases action with
  | yield name rectangle =>
    refine ⟨arity, rfl, ?_⟩
    rintro _ _ ⟨⟩
    rfl
  | _ => exact ⟨arity, stays, nofun⟩

end Through

/-! ## Panes -/

namespace Rectangle

variable {window : Rectangle}

/-- The window, or nothing of it. -/
def pane (window : Rectangle) (shown : Bool) : Rectangle := if shown then window else empty

theorem pane_inj {first second : Bool} (nonempty : window.isEmpty = false)
    (same : window.pane first = window.pane second) : first = second := by
  have different : empty ≠ window := by
    rintro rfl
    cases nonempty
  cases first <;> cases second
  · rfl
  · exact absurd same different
  · exact absurd same.symm different
  · rfl

/-- Two panes together show what either of them shows. -/
theorem combine_pane (within : window.Within figureLimit) (nonempty : window.isEmpty = false)
    (first second : Bool) :
    combine (window.pane first) (window.pane second) = window.pane (first || second) := by
  cases first with
  | false => rfl
  | true =>
    cases second with
    | false =>
      change (if window.isEmpty then empty else if empty.isEmpty then window else _) = window
      rw [nonempty]
      rfl
    | true =>
      -- the hull of a window with itself is not narrowed below the limit
      change combine window window = window
      obtain ⟨left, top, width, height⟩ := within
      unfold Below figureLimit at *
      obtain ⟨⟨x, y⟩, ⟨across, down⟩⟩ := window
      rw [combine, nonempty, if_neg Bool.false_ne_true, if_neg Bool.false_ne_true]
      simp only [ofIntervals, Interval.hull, Interval.ofBounds, Interval.stop, horizontal, vertical,
        narrowCoordinate_eq_max, narrowExtent_eq_min, Rectangle.mk.injEq, Point.mk.injEq,
        Size.mk.injEq] at *
      dsimp only [Coordinate, Extent] at *
      omega

theorem foldlM_combine_pane (within : window.Within figureLimit) (nonempty : window.isEmpty = false)
    (shown : Bool) (count : Nat) :
    (List.replicate count (Bounds.rectangle (window.pane shown))).foldlM Bounds.combine
      (.rectangle (window.pane shown)) = .ok (.rectangle (window.pane shown)) := by
  induction count with
  | zero => rfl
  | succ count ih =>
    rw [List.replicate_succ, List.foldlM_cons, Bounds.combine, combine_pane within nonempty,
      Bool.or_self]
    exact ih

end Rectangle

/-! ## Needs through a window -/

theorem MapEdit.prior_of_staysIn {edit : MapEdit} {own : Rectangle} (stays : edit.staysIn = true) :
    edit.prior own = own := by
  cases edit <;> first | rfl | cases stays

namespace Step

variable {window own : Rectangle} {step : Step} {shown : Bool}

/-- Whether something is shown of what a step reads. A yield shows its target by itself. -/
def wants (step : Step) (shown : Bool) : Bool := shown || step.action.isYield

theorem argumentBounds_of_staysIn (stays : step.action.staysIn = true) :
    step.argumentBounds (.rectangle own) = .ok (.rectangle own) := by
  unfold argumentBounds
  cases action : step.action with
  | makeMap maker => cases maker <;> first | rfl | (rw [action] at stays; cases stays)
  | editMap edit => cases edit <;> first | rfl | (rw [action] at stays; cases stays)
  | yield name rectangle => rfl
  | makeProfile maker => rw [action] at stays; cases stays
  | editProfile edit => rw [action] at stays; cases stays

theorem SeenIn.priorBounds_eq (seen : step.SeenIn window) (within : window.Within figureLimit)
    (nonempty : window.isEmpty = false) : step.priorBounds (.rectangle (window.pane shown)) =
      .ok (.rectangle (window.pane (step.wants shown))) := by
  obtain ⟨-, stays, whole⟩ := seen
  unfold priorBounds wants
  cases action : step.action with
  | makeMap maker => simp [Action.isYield]
  | makeProfile maker => rw [action] at stays; cases stays
  | editProfile edit => rw [action] at stays; cases stays
  | yield name rectangle =>
    -- a yield shows the whole window, whatever is shown of it later
    obtain rfl := whole name rectangle action
    exact congrArg (fun own => Except.ok (Bounds.rectangle own))
      (Rectangle.combine_pane within nonempty shown true)
  | editMap edit =>
    rw [action] at stays
    change (if (window.pane shown).isEmpty = true then pure (Bounds.rectangle (window.pane shown)) else
      pure (Bounds.rectangle (edit.prior (window.pane shown)))) = _
    rw [MapEdit.prior_of_staysIn stays, ite_self]
    rw [show (shown || (Action.editMap edit).isYield) = shown from Bool.or_false shown]
    rfl

/-- Only edits and yields read their target, and a yield reads nothing else. -/
theorem SeenIn.wants_of_mem_arguments (seen : step.SeenIn window) {slot : Slot}
    (argument : slot ∈ step.arguments) : step.wants shown = shown := by
  have counted : 0 < step.action.arity := seen.arity ▸ List.length_pos_of_mem argument
  unfold wants
  cases action : step.action with
  | yield name rectangle =>
    rw [action] at counted
    cases counted
  | _ => exact Bool.or_false shown

end Step

namespace Extents

variable {steps : Array Step} {window : Rectangle} {step : Step} {slot : Slot} {shown : Bool}

/-- A step needs of a slot what is shown, as often as it reads it. -/
theorem exists_needs_pane (seen : step.SeenIn window) (within : window.Within figureLimit)
    (nonempty : window.isEmpty = false) (reads : slot ∈ step.readSlots) :
    ∃ count, needs step (.rectangle (window.pane shown)) slot =
      .ok (List.replicate (count + 1) (.rectangle (window.pane (step.wants shown)))) := by
  -- a step needs the slot once for each argument that it is, and once more as a target that it changes
  generalize occurrences : step.arguments.filter (· == slot) = list
  have shares : list.mapM (fun _ => step.argumentBounds (.rectangle (window.pane shown))) =
      .ok (List.replicate list.length (.rectangle (window.pane (step.wants shown)))) := by
    cases list with
    | nil => rfl
    | cons first rest =>
      have argument : first ∈ step.arguments :=
        List.mem_of_mem_filter (occurrences ▸ List.mem_cons_self)
      rw [Step.argumentBounds_of_staysIn seen.stays, seen.wants_of_mem_arguments argument,
        ← List.map_const']
      exact List.mapM_pure
  unfold needs
  rw [occurrences, shares]
  by_cases changes : (!step.isMaker && slot == step.target) = true
  · refine ⟨list.length, ?_⟩
    change (if (!step.isMaker && slot == step.target) = true then
      (do return List.replicate list.length _ ++
        [← step.priorBounds (.rectangle (window.pane shown))]) else _) = _
    rw [if_pos changes, seen.priorBounds_eq within nonempty, List.replicate_succ']
    rfl
  · -- a slot that is read and not changed is an argument
    have argument : slot ∈ step.arguments := by
      rcases List.mem_append.1 reads with argument | target
      · exact argument
      · cases maker : step.isMaker <;> simp_all
    have some : list ≠ [] := by
      subst occurrences
      exact List.ne_nil_of_mem (List.mem_filter.2 ⟨argument, beq_self_eq_true slot⟩)
    obtain ⟨first, rest, rfl⟩ := List.exists_cons_of_ne_nil some
    exact ⟨rest.length, if_neg changes⟩

theorem need?_pane (seen : step.SeenIn window) (within : window.Within figureLimit)
    (nonempty : window.isEmpty = false) (reads : slot ∈ step.readSlots) :
    need? step (.rectangle (window.pane shown)) slot =
      .ok (some (.rectangle (window.pane (step.wants shown)))) := by
  obtain ⟨count, needed⟩ := @exists_needs_pane _ _ _ shown seen within nonempty reads
  rw [need?, needed, List.replicate_succ]
  change (do return some (← (List.replicate count _).foldlM Bounds.combine _)) = _
  rw [Rectangle.foldlM_combine_pane within nonempty]
  rfl

/-! ## Plans through a window -/

/-- All bounds are panes of a window. -/
structure Panes (window : Rectangle) (steps : Array Step) (extents : Extents) : Prop where
  size : extents.size = steps.size
  pane : ∀ {index : Nat} {bounds : Bounds}, extents[index]? = some bounds →
    ∃ shown, bounds = .rectangle (window.pane shown)

/-- What was shown still is, and bounds from a number on are as they were. -/
def Opens (window : Rectangle) (extents after : Extents) (from' : Nat) : Prop :=
  ∀ index : Nat,
    (extents[index]? = some (.rectangle window) → after[index]? = some (.rectangle window)) ∧
      (from' ≤ index → after[index]? = extents[index]?)

/-- If something is shown of what a step reads, it is shown of the step that wrote it. -/
def Handed (window : Rectangle) (wanted : Bool) (edge : Edge) (extents : Extents) : Prop :=
  wanted = true → extents[edge.producer]? = some (.rectangle window)

variable {extents after last : Extents} {edge : Edge} {count : Nat} {wanted : Bool}

theorem Opens.refl (window : Rectangle) (extents : Extents) (count : Nat) :
    Opens window extents extents count := fun _ => ⟨id, fun _ => rfl⟩

theorem Opens.trans (first : Opens window extents after count) (second : Opens window after last count) :
    Opens window extents last count := by
  intro index
  obtain ⟨shown, kept⟩ := first index
  obtain ⟨shown', kept'⟩ := second index
  exact ⟨shown' ∘ shown, fun behind => (kept' behind).trans (kept behind)⟩

theorem Opens.mono {more : Nat} (opens : Opens window extents after count) (le : count ≤ more) :
    Opens window extents after more := fun index =>
  ⟨(opens index).1, fun behind => (opens index).2 (Nat.le_trans le behind)⟩

theorem Handed.opens (handed : Handed window wanted edge extents)
    (opens : Opens window extents after count) : Handed window wanted edge after :=
  fun wants => (opens edge.producer).1 (handed wants)

theorem panes_initial (seen : ∀ step ∈ steps, step.SeenIn window) :
    Panes window steps (initial steps) where
  size := Array.size_map
  pane {index _} found := by
    simp only [initial, Array.getElem?_map, Option.map_eq_some_iff] at found
    obtain ⟨step, found, rfl⟩ := found
    refine ⟨false, ?_⟩
    rw [Action.kind_of_staysIn (seen step (Array.mem_of_getElem? found)).stays]
    rfl

section Demand

variable (seen : step.SeenIn window) (within : window.Within figureLimit)
  (nonempty : window.isEmpty = false)

include seen within nonempty

theorem exists_demand_pane (panes : Panes window steps extents) (reads : edge.slot ∈ step.readSlots)
    (earlier : edge.producer < count) (inside : count ≤ steps.size) :
    ∃ after, demand step (.rectangle (window.pane shown)) extents edge = .ok after ∧
      Panes window steps after ∧ Opens window extents after count ∧
      Handed window (step.wants shown) edge after := by
  have bound : edge.producer < extents.size := by
    rw [panes.size]
    omega
  have found := Array.getElem?_eq_getElem bound
  obtain ⟨present, same⟩ := panes.pane found
  rw [same] at found
  -- the producer shows what it showed before and what the step wants
  have combined := Rectangle.combine_pane within nonempty present (step.wants shown)
  have lookup (index : Nat) : (extents.setIfInBounds edge.producer
      (.rectangle (window.pane (present || step.wants shown))))[index]? =
        if edge.producer = index then some (.rectangle (window.pane (present || step.wants shown)))
        else extents[index]? := by
    rw [Array.getElem?_setIfInBounds, if_pos bound]
  refine ⟨extents.setIfInBounds edge.producer
    (.rectangle (window.pane (present || step.wants shown))), ?_, ?_, ?_, ?_⟩
  · rw [demand, need?_pane seen within nonempty reads, found, ← combined]
    rfl
  · refine ⟨by rw [Array.size_setIfInBounds, panes.size], fun {index bounds} at' => ?_⟩
    rw [lookup] at at'
    split at at'
    case isTrue =>
      cases at'
      exact ⟨_, rfl⟩
    case isFalse => exact panes.pane at'
  · intro index
    rw [lookup]
    constructor
    · intro open'
      split
      case isTrue here =>
        subst here
        rw [found, Option.some.injEq, Bounds.rectangle.injEq] at open'
        have shows' : present = true := Rectangle.pane_inj nonempty open'
        rw [shows', Bool.true_or]
        rfl
      case isFalse => exact open'
    · intro behind
      rw [if_neg (by omega)]
  · intro wants
    rw [lookup, if_pos rfl, wants, Bool.or_true]
    rfl

theorem exists_foldlM_demand_pane {edges : List Edge} (panes : Panes window steps extents)
    (inside : count ≤ steps.size)
    (each : ∀ edge ∈ edges, edge.slot ∈ step.readSlots ∧ edge.producer < count) :
    ∃ after, edges.foldlM (demand step (.rectangle (window.pane shown))) extents = .ok after ∧
      Panes window steps after ∧ Opens window extents after count ∧
      ∀ edge ∈ edges, Handed window (step.wants shown) edge after := by
  induction edges generalizing extents with
  | nil => exact ⟨extents, rfl, panes, .refl window extents count, by simp⟩
  | cons edge edges ih =>
    rw [List.forall_mem_cons] at each
    obtain ⟨between, demanded, panes, opens, handed⟩ :=
      @exists_demand_pane _ _ _ shown _ _ _ seen within nonempty panes each.1.1 each.1.2 inside
    obtain ⟨after, rest, panes, opens', all⟩ := ih panes each.2
    refine ⟨after, ?_, panes, opens.trans opens', List.forall_mem_cons.2 ⟨handed.opens opens', all⟩⟩
    rw [List.foldlM_cons, demanded]
    exact rest

end Demand

/-- The steps below a number hand on their needs. -/
theorem exists_propagate_pane (seen : ∀ step ∈ steps, step.SeenIn window)
    (within : window.Within figureLimit) (nonempty : window.isEmpty = false)
    (panes : Panes window steps extents) (inside : count ≤ steps.size) :
    ∃ after, propagate steps (.ofSteps steps) count extents = .ok after ∧ Panes window steps after ∧
      Opens window extents after count ∧ ∀ index step shown, index < count → steps[index]? = some step →
        after[index]? = some (.rectangle (window.pane shown)) →
          ∀ edge ∈ (Producers.ofSteps steps).edges index,
            Handed window (step.wants shown) edge after := by
  induction count generalizing extents with
  | zero =>
    exact ⟨extents, rfl, panes, .refl window extents 0,
      fun _ _ _ none => absurd none (Nat.not_lt_zero _)⟩
  | succ index ih =>
    -- the last of the steps hands on its needs first, then those before it
    have found := Array.getElem?_eq_getElem (show index < steps.size by omega)
    have foundOwn := Array.getElem?_eq_getElem (show index < extents.size by rw [panes.size]; omega)
    generalize steps[index] = step at found
    obtain ⟨shown, same⟩ := panes.pane foundOwn
    rw [same] at foundOwn
    have each (edge : Edge) (edgeOf : edge ∈ (Producers.ofSteps steps).edges index) :
        edge.slot ∈ step.readSlots ∧ edge.producer < index := by
      obtain ⟨reads, last⟩ := (Producers.mem_edges found).1 edgeOf
      exact ⟨reads, last.of_take.1⟩
    obtain ⟨between, demanded, panes, opens, handed⟩ := @exists_foldlM_demand_pane _ _ _ shown _ _
      (seen step (Array.mem_of_getElem? found)) within nonempty _ panes (Nat.le_of_succ_le inside) each
    obtain ⟨after, propagated, panes, opens', all⟩ := ih panes (Nat.le_of_succ_le inside)
    refine ⟨after, ?_, panes, (opens.trans opens').mono (Nat.le_succ _), ?_⟩
    · rw [propagate, found, foundOwn]
      dsimp only
      rw [demanded]
      exact propagated
    · intro number other shown' less foundOther foundShown
      rcases Nat.lt_succ_iff_lt_or_eq.1 less with less | rfl
      · exact all number other shown' less foundOther foundShown
      · -- nothing has changed in front of the step since it handed on its needs
        cases found.symm.trans foundOther
        have kept := ((opens.trans opens') number).2 (Nat.le_refl _)
        rw [foundShown, foundOwn, Option.some.injEq, Bounds.rectangle.injEq] at kept
        cases Rectangle.pane_inj nonempty kept
        exact fun edge edgeOf => (handed edge edgeOf).opens opens'

/-- The bounds of a plan through a window are panes of it. What is shown of a step is shown of all steps
that it reads from, and of what a yield reads as well. -/
theorem exists_panes (seen : ∀ step ∈ steps, step.SeenIn window) (within : window.Within figureLimit)
    (nonempty : window.isEmpty = false) :
    ∃ extents, ofSteps steps (.ofSteps steps) = .ok extents ∧ Panes window steps extents ∧
      ∀ index step shown, steps[index]? = some step →
        extents[index]? = some (.rectangle (window.pane shown)) → step.wants shown = true →
          ∀ slot producer, slot ∈ step.readSlots →
            LastWrite (steps.toList.take index) slot producer →
              extents[producer]? = some (.rectangle window) := by
  obtain ⟨extents, made, panes, -, all⟩ :=
    exists_propagate_pane seen within nonempty (panes_initial seen) (Nat.le_refl steps.size)
  refine ⟨extents, made, panes, fun index step shown found foundOwn wants slot producer reads last => ?_⟩
  have less := (Array.getElem?_eq_some_iff.1 found).1
  exact all index step shown less found foundOwn ⟨slot, producer⟩
    ((Producers.mem_edges found).2 ⟨reads, last⟩) wants

end Extents

end Terrain
