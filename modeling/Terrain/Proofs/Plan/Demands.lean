import Terrain.Proofs.Number.Sums
import Terrain.Proofs.Plan.Kinds
import Terrain.Proofs.Plan.Lifetimes
import Terrain.Proofs.Plane.Hulls

/-!
# Demands on the steps of a plan

The bounds of a step are what the steps behind it need of its product, and nothing more: starting from
empty bounds, the demands of its consumers fold together, the last consumer first, each of them taken at
the bounds that this consumer has in the end. The walk keeps one array and changes it while it goes back.
It may do so because a step hands its needs to earlier steps only, so that its own bounds are final when
its turn comes.

A step that names one slot several times has as many edges to the producer, and it hands over all of its
needs along each of them. That this does not matter is the idempotence of hulls.

* `latestWriter?` — the last step before another one that has a slot as its target.
* `KindConsistent` — every slot is read as the kind of raster that its producer leaves there.
* `demandsOn` — all that is needed of the product of a step.
* `Extents.bounds_are_demands` — the bounds of every step are the demands on it, folded together, and
  contain each of them unless a hull is too long.
-/

namespace Terrain

variable {steps : Array Step}

/-! ## Producers -/

def latestWriter? (steps : Array Step) (slot : Slot) : Nat → Option Nat
  | 0 => none
  | count + 1 =>
    if steps[count]?.map (·.target) = some slot then some count else latestWriter? steps slot count

theorem latestWriter?_eq_some {slot : Slot} {count producer : Nat} :
    latestWriter? steps slot count = some producer ↔
      LastWrite (steps.toList.take count) slot producer := by
  induction count with
  | zero => simpa [latestWriter?] using not_lastWrite_nil slot producer
  | succ count ih =>
    rw [latestWriter?, List.take_add_one, Array.getElem?_toList]
    cases found : steps[count]? with
    | none => simpa using ih
    | some step =>
      have inside : count ≤ steps.size := Nat.le_of_lt (Array.getElem?_eq_some_iff.1 found).1
      rw [Option.toList_some, lastWrite_snoc_iff]
      by_cases same : step.target = slot
      · simp [same, List.length_take, Nat.min_eq_left inside, eq_comm]
      · simpa [same] using ih

/-- A producer stands before the step that reads the slot, and the slot is its target. -/
theorem exists_of_latestWriter? {slot : Slot} {index producer : Nat}
    (written : latestWriter? steps slot index = some producer) :
    producer < index ∧ ∃ writer, steps[producer]? = some writer ∧ writer.target = slot := by
  simpa using (latestWriter?_eq_some.1 written).of_take

namespace Producers

/-- The edges of a step are those that it had when the walk came to it. -/
theorem edges_foldl_advance (before after : List Step) (step : Step) :
    edges ((before ++ step :: after).foldl advance (∅, #[])).2 before.length =
      edgesOf (before.foldl advance (∅, #[])).1 step := by
  induction after using List.reverseRecOn with
  | nil =>
    have size := (tracks_ofSteps before.toArray).size
    simp only [List.foldl_toArray] at size
    rw [List.foldl_append]
    simp [advance, edges, ← size]
  | append_singleton after last ih =>
    have size := (tracks_ofSteps (before ++ step :: after).toArray).size
    simp only [List.foldl_toArray, List.length_append, List.length_cons] at size
    have inside : before.length < ((before ++ step :: after).foldl advance (∅, #[])).2.size := by omega
    rw [← ih, show before ++ step :: (after ++ [last]) = (before ++ step :: after) ++ [last] by simp,
      List.foldl_append]
    simp only [List.foldl_cons, List.foldl_nil, advance, edges, Array.getD_eq_getD_getElem?,
      Array.getElem?_push_lt inside, Array.getElem?_eq_getElem inside]

/-- One edge for each slot that is read and has a producer, in the order in which they are read. -/
theorem edges_eq {index : Nat} {step : Step} (found : steps[index]? = some step) :
    (ofSteps steps).edges index = step.readSlots.filterMap fun slot =>
      (latestWriter? steps slot index).map (Edge.mk slot) := by
  obtain ⟨inside, rfl⟩ := Array.getElem?_eq_some_iff.1 found
  have split : steps.toList =
      steps.toList.take index ++ steps[index] :: steps.toList.drop (index + 1) := by
    rw [← Array.getElem_toList, List.getElem_cons_drop, List.take_append_drop]
  have length : (steps.toList.take index).length = index := by
    simp [Nat.le_of_lt inside]
  have walked := edges_foldl_advance (steps.toList.take index) (steps.toList.drop (index + 1)) steps[index]
  rw [← split, length] at walked
  unfold ofSteps
  rw [← Array.foldl_toList, walked]
  -- the writers that the walk has noted by then are the latest ones
  have writers := (tracks_ofSteps (steps.toList.take index).toArray).writers
  simp only [List.foldl_toArray] at writers
  unfold edgesOf
  congr 1
  funext slot
  congr 1
  ext producer
  rw [writers, latestWriter?_eq_some]

end Producers

/-! ## Kinds -/

/-- Every step finds the kind of raster that it expects in the slots that it reads, as far as an earlier
step has left one there. -/
structure KindConsistent (steps : Array Step) : Prop where
  arguments : ∀ {index producer : Nat} {step writer : Step} {slot : Slot}, steps[index]? = some step →
    slot ∈ step.arguments → latestWriter? steps slot index = some producer →
    steps[producer]? = some writer → writer.action.kind = step.action.argumentKind
  target : ∀ {index producer : Nat} {step writer : Step}, steps[index]? = some step →
    step.isMaker = false → latestWriter? steps step.target index = some producer →
    steps[producer]? = some writer → writer.action.kind = step.action.kind

/-- In a consistent plan a slot has one kind throughout. -/
theorem Consistent.kindConsistent (consistent : Consistent steps.toList) : KindConsistent steps where
  arguments {index _ step writer slot} found argument written foundWriter := by
    obtain ⟨-, other, foundOther, rfl⟩ := exists_of_latestWriter? written
    obtain rfl : writer = other := Option.some_inj.1 (foundWriter.symm.trans foundOther)
    have made := (consistent.follows_at (by simpa using found)).arguments _ argument
    exact consistent.kind_unique (consistent.makes_target (by simpa using foundWriter))
      (made.mono (List.take_subset index _))
  target {index _ step writer} found edits written foundWriter := by
    obtain ⟨-, other, foundOther, same⟩ := exists_of_latestWriter? written
    obtain rfl : writer = other := Option.some_inj.1 (foundWriter.symm.trans foundOther)
    have made := (consistent.follows_at (by simpa using found)).filled edits
    exact consistent.kind_unique (same ▸ consistent.makes_target (by simpa using foundWriter))
      (made.mono (List.take_subset index _))

/-! ## Figures -/

namespace Interval

section Whole

open Number

/-- The bounds of whole floats are taken as they are. -/
theorem ofFloatBounds_eq {x y : Float} {a b : ℤ} (isValue : IsValue x a) (isValue' : IsValue y b) (inRange : IsCoordinate a)
    (ordered : a ≤ b) (fits : b - a ≤ (extentMax : Int)) :
    ofFloatBounds x y = ⟨a, (b - a).toNat⟩ := by
  have low : IsValue (-2147483648.0) (-2147483648 : ℤ) :=
    isValue_of_isWholeFloat ⟨by norm_num [Number.Small], rfl⟩
  have high : IsValue 2147483647.0 (2147483647 : ℤ) :=
    isValue_of_isWholeFloat ⟨by norm_num [Number.Small], rfl⟩
  have most : IsValue 4294967295.0 (4294967295 : ℤ) :=
    isValue_of_isWholeFloat ⟨by norm_num [Number.Small], rfl⟩
  have range := isCoordinate_iff.1 inRange
  have longest : b - a ≤ (4294967295 : ℤ) := fits
  have start : clamp (-2147483648.0) 2147483647.0 x = x :=
    isValue.clamp_eq low high (by exact_mod_cast range.1) (by exact_mod_cast range.2)
  have difference : IsValue (y - x) (b - a : ℤ) :=
    isValue'.sub isValue (by unfold Number.Small; omega) (by unfold Number.Small; omega)
      (by unfold Number.Small; omega)
  have length : clamp 0.0 4294967295.0 (y - x) = y - x :=
    difference.clamp_eq isValue_zero most (by exact_mod_cast (by omega : 0 ≤ b - a))
      (by exact_mod_cast longest)
  simp only [ofFloatBounds, start, length]
  rw [isValue.truncateTo, difference.truncateTo, truncated_intCast, truncated_intCast,
    clampInt_of_mem inRange.1 inRange.2, clampInt_of_mem (by omega) fits]

/-- An interval of no length is reflected to another one, unless it lies at the least coordinate: there is
no coordinate opposite to that. -/
theorem reflected_of_empty {start : Coordinate} (inRange : IsCoordinate start)
    (above : start ≠ coordinateMin) : (⟨start, 0⟩ : Interval).reflected = ⟨-start, 0⟩ := by
  obtain ⟨least, most⟩ := isCoordinate_iff.1 inRange
  have small : start.natAbs ≤ 2 ^ 53 := by omega
  have opposite : IsValue (-Float.ofInt start) (-start : ℤ) := by
    simpa using (isValue_ofInt small).neg (isNormal_intCast start)
  have range : IsCoordinate (-start) := by
    rw [isCoordinate_iff]
    unfold coordinateMin at above
    dsimp only [Coordinate] at *
    omega
  have none : -start - -start ≤ (extentMax : Int) := by
    rw [sub_self]
    exact Int.natCast_nonneg _
  have reflected := ofFloatBounds_eq opposite opposite range (Int.le_refl _) none
  rw [sub_self] at reflected
  have stop : (⟨start, 0⟩ : Interval).stop = start := by simp [Interval.stop]
  rw [Interval.reflected, stop]
  exact reflected

end Whole

theorem representable_ofFloatBounds (start stop : Float) : (ofFloatBounds start stop).Representable := by
  constructor
  · exact Number.narrowBy_mem Number.truncateWhole coordinateMin coordinateMax _ (by decide) (by decide)
  · have range := Number.narrowBy_mem Number.truncateWhole 0 extentMax
      (Number.clamp 0.0 4294967295.0 (stop - Number.clamp (-2147483648.0) 2147483647.0 start))
      (by decide) (by decide)
    exact Int.toNat_le.2 range.2

theorem Representable.unstretched {interval : Interval} (inRange : interval.Representable)
    (factor : Scale) : (interval.unstretched factor).Representable := by
  unfold Interval.unstretched
  split
  · exact inRange
  · exact representable_ofFloatBounds _ _

end Interval

def Action.Representable : Action → Prop
  | .yield _ rectangle => rectangle.Representable
  | .editMap (.resize rectangle _) => rectangle.Representable
  | .editMap (.pattern repeated) => repeated.Representable
  | .editMap (.transformHeights interval _ _) => interval.Representable
  | .editProfile (.resize interval _) => interval.Representable
  | .editProfile (.pattern repeated) => repeated.Representable
  | .makeProfile (.slice _ coordinate) => IsCoordinate coordinate
  | _ => True

theorem MapEdit.representable_prior {edit : MapEdit} {extent : Rectangle}
    (inRange : extent.Representable) (figures : (Action.editMap edit).Representable) :
    (edit.prior extent).Representable := by
  cases edit with
  | blur radius => exact .expand _ _
  | convexity radius => exact .expand _ _
  | distort maxDistance => exact .expand _ _
  | shift maxDistance direction => exact inRange.expandIn _ _
  | transform matrix => exact .expand _ _
  | rescale horizontal vertical => exact ⟨inRange.horizontal.unstretched _, inRange.vertical.unstretched _⟩
  | move offset => exact inRange.translated _
  | resize rectangle height => exact inRange.intersect figures
  | _ => exact inRange

theorem ProfileEdit.representable_prior {edit : ProfileEdit} {extent : Interval}
    (inRange : extent.Representable) (figures : (Action.editProfile edit).Representable) :
    (edit.prior extent).Representable := by
  cases edit with
  | blur radius => exact Interval.representable_ofBounds _ _
  | flip => exact Interval.representable_ofFloatBounds _ _
  | rescale factor => exact inRange.unstretched _
  | move offset => exact inRange.translated _
  | resize interval height => exact inRange.intersect figures
  | _ => exact inRange

namespace Bounds

variable {bounds : Bounds}

theorem exists_asRectangle (map : bounds.kind = .map) :
    ∃ extent, bounds = .rectangle extent ∧ bounds.asRectangle = .ok extent := by
  cases bounds with
  | rectangle extent => exact ⟨extent, rfl, rfl⟩
  | interval extent => cases map

theorem exists_asInterval (profile : bounds.kind = .profile) :
    ∃ extent, bounds = .interval extent ∧ bounds.asInterval = .ok extent := by
  cases bounds with
  | rectangle extent => cases profile
  | interval extent => exact ⟨extent, rfl, rfl⟩

end Bounds

namespace Step

variable {step : Step} {own : Bounds}

/-- A step can always tell what it needs of the earlier content of its target. -/
theorem exists_priorBounds (suits : own.Suits step.action.kind) (figures : step.action.Representable) :
    ∃ prior, step.priorBounds own = .ok prior ∧ prior.Suits step.action.kind := by
  unfold priorBounds
  cases action : step.action with
  | makeMap maker => exact ⟨own, rfl, action ▸ suits⟩
  | makeProfile maker => exact ⟨own, rfl, action ▸ suits⟩
  | yield name rectangle =>
    rw [action] at suits figures
    exact ⟨_, Bounds.combine_eq suits.kind, suits.join ⟨rfl, figures⟩⟩
  | editMap edit =>
    rw [action] at suits figures
    by_cases empty : own.isEmpty = true
    · exact ⟨own, by simp [empty, pure, Except.pure], suits⟩
    · obtain ⟨extent, rfl, rectangle⟩ := Bounds.exists_asRectangle suits.kind
      exact ⟨.rectangle (edit.prior extent), by simp [empty, rectangle, bind, Except.bind, pure, Except.pure],
        rfl, MapEdit.representable_prior suits.inRange figures⟩
  | editProfile edit =>
    rw [action] at suits figures
    by_cases empty : own.isEmpty = true
    · exact ⟨own, by simp [empty, pure, Except.pure], suits⟩
    · obtain ⟨extent, rfl, interval⟩ := Bounds.exists_asInterval suits.kind
      exact ⟨.interval (edit.prior extent), by simp [empty, interval, bind, Except.bind, pure, Except.pure],
        rfl, ProfileEdit.representable_prior suits.inRange figures⟩

/-- A step can always tell what it needs of an argument. -/
theorem exists_argumentBounds (suits : own.Suits step.action.kind)
    (figures : step.action.Representable) :
    ∃ share, step.argumentBounds own = .ok share ∧ share.Suits step.action.argumentKind := by
  suffices answered : ∃ share, step.argumentBounds own = .ok share ∧ share.Representable by
    obtain ⟨share, answer, inRange⟩ := answered
    exact ⟨share, answer, (fits_argumentBounds suits.kind).ok answer, inRange⟩
  have across (kind : own.kind = .map) (direction : Direction) :
      ∃ share, (do return Bounds.interval ((← own.asRectangle).across direction)) = Except.ok share ∧
        share.Representable := by
    obtain ⟨extent, rfl, -⟩ := Bounds.exists_asRectangle kind
    refine ⟨_, rfl, ?_⟩
    cases direction with
    | horizontal => exact suits.inRange.vertical
    | vertical => exact suits.inRange.horizontal
  unfold argumentBounds
  split
  case h_1 action => exact across (by rw [suits.kind, action]; rfl) _
  case h_2 action => exact across (by rw [suits.kind, action]; rfl) _
  case h_3 direction coordinate action =>
    rw [action] at suits figures
    obtain ⟨side, rfl, -⟩ := Bounds.exists_asInterval suits.kind
    have line : Interval.Representable ⟨coordinate, 1⟩ := ⟨figures, show 1 ≤ extentMax by decide⟩
    by_cases empty : side.isEmpty = true
    · exact ⟨.empty .map, by simp [Bounds.asInterval, empty, bind, Except.bind, pure, Except.pure],
        Bounds.representable_empty _⟩
    · refine ⟨_, by simp [Bounds.asInterval, empty, bind, Except.bind, pure, Except.pure]; rfl, ?_⟩
      cases direction with
      | horizontal => exact .ofIntervals suits.inRange line
      | vertical => exact .ofIntervals line suits.inRange
  case h_4 action =>
    rw [action] at figures
    exact ⟨_, rfl, figures⟩
  case h_5 action =>
    rw [action] at figures
    exact ⟨_, rfl, figures⟩
  case h_6 action =>
    rw [action] at figures
    exact ⟨_, rfl, figures⟩
  case h_7 => exact ⟨own, rfl, suits.inRange⟩

end Step

/-! ## Demands -/

/-- What one step needs of the product of another one: its share of every argument that comes from
there, and the earlier content of its target if that does. -/
def demandsOf (steps : Array Step) (producer index : Nat) (step : Step) (own : Bounds) :
    Except Breach (List Bounds) := do
  let arguments := step.arguments.filter fun slot => latestWriter? steps slot index == some producer
  let shares ← arguments.mapM fun _ => step.argumentBounds own
  if !step.isMaker && latestWriter? steps step.target index == some producer then
    return shares ++ [← step.priorBounds own]
  return shares

def demandsAt (steps : Array Step) (extents : Extents) (producer index : Nat) :
    Except Breach (List Bounds) :=
  match steps[index]?, extents[index]? with
  | some step, some own => demandsOf steps producer index step own
  | _, _ => .ok []

/-- All that is needed of the product of a step, the demands of the last step first. -/
def demandsOn (steps : Array Step) (extents : Extents) (producer : Nat) :
    Except Breach (List Bounds) := do
  return (← (List.range steps.size).reverse.mapM (demandsAt steps extents producer)).flatten

namespace Extents

section Needs

variable {index producer : Nat} {step writer : Step} {own : Bounds} {slot : Slot}

theorem mapM_const_eq {α β : Type} {items : List α} {result : Except Breach β} {value : β}
    (answer : result = .ok value) :
    (items.mapM fun _ => result) = .ok (List.replicate items.length value) := by
  induction items with
  | nil => rfl
  | cons item items ih =>
    rw [List.mapM_cons, ih, answer]
    rfl

/-- The needs of a step are bounds that suit the producer, and there are some if it reads the slot. -/
theorem exists_needs_suits (kinds : KindConsistent steps) (found : steps[index]? = some step)
    (figures : step.action.Representable) (suits : own.Suits step.action.kind)
    (written : latestWriter? steps slot index = some producer)
    (foundWriter : steps[producer]? = some writer) :
    ∃ needed, needs step own slot = .ok needed ∧
      (∀ need ∈ needed, need.Suits writer.action.kind) ∧ (needed = [] ↔ slot ∉ step.readSlots) := by
  obtain ⟨share, shareAnswer, shareSuits⟩ := Step.exists_argumentBounds suits figures
  obtain ⟨prior, priorAnswer, priorSuits⟩ := Step.exists_priorBounds suits figures
  have shares (need : Bounds)
      (member : need ∈ List.replicate (step.arguments.filter (· == slot)).length share) :
      need.Suits writer.action.kind := by
    obtain ⟨some, rfl⟩ := List.mem_replicate.1 member
    obtain ⟨argument, isArgument⟩ := List.exists_mem_of_length_pos (Nat.pos_of_ne_zero some)
    obtain ⟨isArgument, same⟩ := List.mem_filter.1 isArgument
    rw [eq_of_beq same] at isArgument
    exact ⟨shareSuits.kind.trans (kinds.arguments found isArgument written foundWriter).symm,
      shareSuits.inRange⟩
  unfold needs
  rw [mapM_const_eq shareAnswer, priorAnswer]
  by_cases changes : (!step.isMaker && slot == step.target) = true
  · rw [Bool.and_eq_true, Bool.not_eq_true', beq_iff_eq] at changes
    obtain ⟨edits, rfl⟩ := changes
    refine ⟨_ ++ [prior], by simp [edits, bind, Except.bind, pure, Except.pure]; rfl, ?_,
      by simp [Step.readSlots, edits]⟩
    rw [List.forall_mem_append, List.forall_mem_singleton]
    exact ⟨shares, priorSuits.kind.trans (kinds.target found edits written foundWriter).symm,
      priorSuits.inRange⟩
  · refine ⟨_, by simp only [bind, Except.bind, changes]; rfl, shares, ?_⟩
    -- the slot is not the target of an edit, so that it is read as an argument if at all
    have asArgument : slot ∈ step.readSlots ↔ slot ∈ step.arguments := by
      cases maker : step.isMaker <;> simp_all [Step.readSlots]
    rw [List.replicate_eq_nil_iff, List.length_eq_zero_iff, List.filter_eq_nil_iff, asArgument]
    simp [List.forall_mem_ne']

/-- What is needed of a slot is what its needs fold together to. -/
theorem need?_eq {kind : RasterKind} {first : Bounds} {rest : List Bounds}
    (listed : needs step own slot = .ok (first :: rest)) (suits : ∀ need ∈ first :: rest, need.Suits kind) :
    need? step own slot = .ok (some (rest.foldl Bounds.join first)) := by
  rw [List.forall_mem_cons] at suits
  simp [need?, listed, bind, Except.bind, Bounds.foldlM_combine_eq suits.1 suits.2, pure, Except.pure]

/-- Of the product of a step nothing is needed but the content of its target. -/
theorem demandsOf_eq (foundWriter : steps[producer]? = some writer) :
    demandsOf steps producer index step own =
      if latestWriter? steps writer.target index = some producer then needs step own writer.target
      else .ok [] := by
  -- the slots that come from the producer are its target, or none
  have fromProducer (slot : Slot) : latestWriter? steps slot index = some producer ↔
      latestWriter? steps writer.target index = some producer ∧ slot = writer.target := by
    constructor
    · intro written
      obtain ⟨-, other, foundOther, rfl⟩ := exists_of_latestWriter? written
      obtain rfl : writer = other := Option.some_inj.1 (foundWriter.symm.trans foundOther)
      exact ⟨written, rfl⟩
    · rintro ⟨written, rfl⟩
      exact written
  have test (slot : Slot) : (latestWriter? steps slot index == some producer) =
      (decide (latestWriter? steps writer.target index = some producer) && slot == writer.target) := by
    rw [Bool.eq_iff_iff, beq_iff_eq, fromProducer, Bool.and_eq_true, decide_eq_true_iff, beq_iff_eq]
  have swap : (step.target == writer.target) = (writer.target == step.target) := BEq.comm
  unfold demandsOf needs
  simp only [test]
  by_cases written : latestWriter? steps writer.target index = some producer
  · simp only [written, decide_true, Bool.true_and, swap, if_true]
  · simp [written, pure, Except.pure, bind, Except.bind]

end Needs

/-! ## The walk -/

/-- Every step has bounds of its kind, with figures that fit. -/
structure Suit (extents : Extents) (steps : Array Step) : Prop where
  size : extents.size = steps.size
  suits : ∀ {index : Nat} {step : Step} {own : Bounds}, steps[index]? = some step →
    extents[index]? = some own → own.Suits step.action.kind

theorem suit_initial (steps : Array Step) : (initial steps).Suit steps where
  size := Array.size_map
  suits found foundOwn := by
    simp only [initial, Array.getElem?_map, found, Option.map_some, Option.some_inj] at foundOwn
    rw [← foundOwn]
    exact Bounds.suits_empty _

theorem Suit.exists_own {extents : Extents} {index : Nat} {step : Step} (suit : extents.Suit steps)
    (found : steps[index]? = some step) : ∃ own, extents[index]? = some own := by
  have inside : index < extents.size := suit.size ▸ (Array.getElem?_eq_some_iff.1 found).1
  exact ⟨_, Array.getElem?_eq_getElem inside⟩

theorem Suit.set {extents : Extents} {index : Nat} {step : Step} {bounds : Bounds}
    (suit : extents.Suit steps) (found : steps[index]? = some step)
    (suits : bounds.Suits step.action.kind) : Suit (extents.setIfInBounds index bounds) steps where
  size := by rw [Array.size_setIfInBounds, suit.size]
  suits {other _ _} foundOther foundOwn := by
    rw [Array.getElem?_setIfInBounds] at foundOwn
    split at foundOwn
    case isTrue same =>
      subst same
      split at foundOwn
      · cases found.symm.trans foundOther
        cases foundOwn
        exact suits
      · cases foundOwn
    case isFalse => exact suit.suits foundOther foundOwn

section Walk

variable {index producer : Nat} {step writer : Step} {own : Bounds} {extents : Extents}

/-- What a step hands along an edge. -/
structure Hands (steps : Array Step) (step : Step) (own : Bounds) (edge : Edge) (need : Bounds) :
    Prop where
  asked : need? step own edge.slot = .ok (some need)
  suits : ∀ writer, steps[edge.producer]? = some writer → need.Suits writer.action.kind

/-- Handing over joins the need to the bounds of the producer and changes no others. -/
theorem exists_demand_join {edge : Edge} {need : Bounds} (suit : extents.Suit steps)
    (foundWriter : steps[edge.producer]? = some writer) (hands : Hands steps step own edge need) :
    ∃ after, demand step own extents edge = .ok after ∧ after.Suit steps ∧
      ∀ producer, after[producer]? =
        if edge.producer = producer then extents[producer]?.map (·.join need) else extents[producer]? := by
  obtain ⟨present, foundPresent⟩ := suit.exists_own foundWriter
  have presentSuits := suit.suits foundWriter foundPresent
  have needSuits := hands.suits writer foundWriter
  refine ⟨extents.setIfInBounds edge.producer (present.join need), ?_,
    suit.set foundWriter (presentSuits.join needSuits), fun producer => ?_⟩
  · have combined := Bounds.combine_eq (presentSuits.kind.trans needSuits.kind.symm)
    simp [demand, hands.asked, foundPresent, combined, bind, Except.bind, pure, Except.pure]
  · rw [Array.getElem?_setIfInBounds]
    by_cases same : edge.producer = producer
    · subst same
      rw [if_pos rfl, if_pos rfl, if_pos (Array.getElem?_eq_some_iff.1 foundPresent).1, foundPresent]
      rfl
    · rw [if_neg same, if_neg same]

/-- However many edges lead to a producer, what is needed of it is joined to its bounds once. -/
theorem exists_foldlM_demand_join {edges : List Edge} (suit : extents.Suit steps)
    (inside : ∀ edge ∈ edges, ∃ writer, steps[edge.producer]? = some writer)
    (handed : ∀ edge ∈ edges, ∃ need, Hands steps step own edge need) :
    ∃ after, edges.foldlM (demand step own) extents = .ok after ∧ after.Suit steps ∧
      ∀ producer need, (∀ edge ∈ edges, edge.producer = producer → Hands steps step own edge need) →
        after[producer]? = if ∃ edge ∈ edges, edge.producer = producer then
          extents[producer]?.map (·.join need) else extents[producer]? := by
  induction edges generalizing extents with
  | nil => exact ⟨extents, rfl, suit, by simp⟩
  | cons first edges ih =>
    rw [List.forall_mem_cons] at inside handed
    obtain ⟨⟨writer, foundWriter⟩, inside⟩ := inside
    obtain ⟨⟨firstNeed, firstHands⟩, handed⟩ := handed
    obtain ⟨middle, demanded, middleSuit, changed⟩ := exists_demand_join suit foundWriter firstHands
    obtain ⟨after, folded, afterSuit, joined⟩ := ih middleSuit inside handed
    refine ⟨after, by rw [List.foldlM_cons, demanded]; exact folded, afterSuit, ?_⟩
    intro producer need hands
    rw [List.forall_mem_cons] at hands
    rw [joined producer need hands.2, changed producer]
    by_cases same : first.producer = producer
    · -- the same need once more adds nothing
      subst same
      have sameNeed : firstNeed = need := by
        have equal := firstHands.asked.symm.trans (hands.1 rfl).asked
        exact Option.some_inj.1 (Except.ok.inj equal)
      subst sameNeed
      obtain ⟨present, foundPresent⟩ := suit.exists_own foundWriter
      have again := Bounds.join_join_self (suit.suits foundWriter foundPresent)
        (firstHands.suits writer foundWriter)
      by_cases more : ∃ edge ∈ edges, edge.producer = first.producer <;>
        simp [more, foundPresent, again]
    · simp [same]

/-- The demands of a step on another one are what it needs of each slot that an edge to it is about, and
there are some if there is such an edge. -/
theorem exists_demandsOf (kinds : KindConsistent steps) (found : steps[index]? = some step)
    (figures : step.action.Representable) (suits : own.Suits step.action.kind)
    (foundWriter : steps[producer]? = some writer) :
    ∃ demands, demandsOf steps producer index step own = .ok demands ∧
      (∀ demand ∈ demands, demand.Suits writer.action.kind) ∧
      (demands = [] ↔ ∀ edge ∈ (Producers.ofSteps steps).edges index, edge.producer ≠ producer) ∧
      ∀ edge ∈ (Producers.ofSteps steps).edges index, edge.producer = producer →
        needs step own edge.slot = .ok demands := by
  have target (edge : Edge) (member : edge ∈ (Producers.ofSteps steps).edges index)
      (same : edge.producer = producer) : edge.slot = writer.target ∧ writer.target ∈ step.readSlots ∧
        latestWriter? steps writer.target index = some producer := by
    obtain ⟨read, last⟩ := (Producers.mem_edges found).1 member
    have written := latestWriter?_eq_some.2 last
    obtain ⟨-, other, foundOther, isTarget⟩ := exists_of_latestWriter? written
    rw [same] at foundOther written
    obtain rfl : writer = other := Option.some_inj.1 (foundWriter.symm.trans foundOther)
    rw [isTarget]
    exact ⟨rfl, read, written⟩
  rw [demandsOf_eq foundWriter]
  by_cases written : latestWriter? steps writer.target index = some producer
  · obtain ⟨needed, listed, all, read⟩ := exists_needs_suits kinds found figures suits written foundWriter
    refine ⟨needed, (if_pos written).trans listed, all, ?_, fun edge member same => ?_⟩
    · rw [read]
      constructor
      · intro unread edge member same
        exact unread (target edge member same).2.1
      · intro none isRead
        exact none ⟨writer.target, producer⟩
          ((Producers.mem_edges found).2 ⟨isRead, latestWriter?_eq_some.1 written⟩) rfl
    · rw [(target edge member same).1]
      exact listed
  · have none (edge : Edge) (member : edge ∈ (Producers.ofSteps steps).edges index) :
        edge.producer ≠ producer := fun same => written (target edge member same).2.2
    exact ⟨[], if_neg written, by simp, iff_of_true rfl none, fun edge member same =>
      absurd same (none edge member)⟩

/-- A step hands all of its needs along each of its edges. -/
theorem hands_of_needs {edge : Edge} {first : Bounds} {rest : List Bounds}
    (foundWriter : steps[edge.producer]? = some writer)
    (listed : needs step own edge.slot = .ok (first :: rest))
    (all : ∀ need ∈ first :: rest, need.Suits writer.action.kind) :
    Hands steps step own edge (rest.foldl Bounds.join first) := by
  refine ⟨need?_eq listed all, fun other foundOther => ?_⟩
  obtain rfl : writer = other := Option.some_inj.1 (foundWriter.symm.trans foundOther)
  rw [List.forall_mem_cons] at all
  exact all.1.foldl_join all.2

/-- One round of the walk: the demands of a step are joined to the bounds of their producers, and the
bounds from the step itself on stay as they are. -/
theorem exists_round (kinds : KindConsistent steps) (found : steps[index]? = some step)
    (figures : step.action.Representable) (suit : extents.Suit steps)
    (foundOwn : extents[index]? = some own) :
    ∃ after, ((Producers.ofSteps steps).edges index).foldlM (demand step own) extents = .ok after ∧
      after.Suit steps ∧ (∀ late, index ≤ late → after[late]? = extents[late]?) ∧
      ∀ producer writer present, steps[producer]? = some writer → extents[producer]? = some present →
        ∃ demands, demandsOf steps producer index step own = .ok demands ∧
          (∀ demand ∈ demands, demand.Suits writer.action.kind) ∧
          after[producer]? = some (demands.foldl Bounds.join present) := by
  have suits := suit.suits found foundOwn
  have back (edge : Edge) (member : edge ∈ (Producers.ofSteps steps).edges index) :
      edge.producer < index ∧ ∃ writer, steps[edge.producer]? = some writer := by
    have written := latestWriter?_eq_some.2 ((Producers.mem_edges found).1 member).2
    obtain ⟨before, writer, foundWriter, -⟩ := exists_of_latestWriter? written
    exact ⟨before, writer, foundWriter⟩
  have handed (edge : Edge) (member : edge ∈ (Producers.ofSteps steps).edges index) :
      ∃ need, Hands steps step own edge need := by
    obtain ⟨-, writer, foundWriter⟩ := back edge member
    obtain ⟨demands, -, all, none, listed⟩ := exists_demandsOf kinds found figures suits foundWriter
    cases demands with
    | nil => exact absurd rfl (none.1 rfl edge member)
    | cons first rest => exact ⟨_, hands_of_needs foundWriter (listed edge member rfl) all⟩
  obtain ⟨after, folded, afterSuit, joined⟩ :=
    exists_foldlM_demand_join suit (fun edge member => (back edge member).2) handed
  -- bounds that no edge leads to are not changed
  have kept (other : Nat)
      (none : ∀ edge ∈ (Producers.ofSteps steps).edges index, edge.producer ≠ other) :
      after[other]? = extents[other]? := by
    rw [joined other (.empty .map) fun edge member same => absurd same (none edge member), if_neg]
    rintro ⟨edge, member, same⟩
    exact none edge member same
  refine ⟨after, folded, afterSuit, fun late le => kept late fun edge member same => ?_, ?_⟩
  · have before := (back edge member).1
    omega
  intro producer writer present foundWriter foundPresent
  obtain ⟨demands, asked, all, none, listed⟩ := exists_demandsOf kinds found figures suits foundWriter
  refine ⟨demands, asked, all, ?_⟩
  cases demands with
  | nil => rw [kept producer (none.1 rfl), foundPresent, List.foldl_nil]
  | cons first rest =>
    have some : ∃ edge ∈ (Producers.ofSteps steps).edges index, edge.producer = producer := by
      by_contra absent
      cases none.2 fun edge member same => absent ⟨edge, member, same⟩
    have hands (edge : Edge) (member : edge ∈ (Producers.ofSteps steps).edges index)
        (same : edge.producer = producer) : Hands steps step own edge (rest.foldl Bounds.join first) :=
      hands_of_needs (same ▸ foundWriter) (listed edge member same) all
    rw [List.forall_mem_cons] at all
    rw [joined producer _ hands, if_pos some, foundPresent, Option.map_some,
      Bounds.join_foldl_join (suit.suits foundWriter foundPresent) all.1 all.2, List.foldl_cons]

/-- Every step below a number hands what it needs of a product, at the bounds it has in the end. -/
theorem exists_propagate_demands (kinds : KindConsistent steps)
    (figures : ∀ step ∈ steps.toList, step.action.Representable) (suit : extents.Suit steps) :
    ∃ after, propagate steps (Producers.ofSteps steps) index extents = .ok after ∧ after.Suit steps ∧
      (∀ late, index ≤ late → after[late]? = extents[late]?) ∧
      ∀ producer writer present, steps[producer]? = some writer → extents[producer]? = some present →
        ∃ demands, (List.range index).reverse.mapM (demandsAt steps after producer) = .ok demands ∧
          (∀ demand ∈ demands.flatten, demand.Suits writer.action.kind) ∧
          after[producer]? = some (demands.flatten.foldl Bounds.join present) := by
  induction index generalizing extents with
  | zero => exact ⟨extents, rfl, suit, fun _ _ => rfl, fun _ _ _ _ foundPresent =>
      ⟨[], rfl, by simp, foundPresent⟩⟩
  | succ index ih =>
    have consumers : (List.range (index + 1)).reverse = index :: (List.range index).reverse := by
      rw [List.range_succ, List.reverse_append, List.reverse_singleton, List.singleton_append]
    unfold propagate
    cases found : steps[index]? with
    | none =>
      obtain ⟨after, ran, afterSuit, late, joined⟩ := ih suit
      refine ⟨after, ran, afterSuit, fun number le => late number (by omega), ?_⟩
      intro producer writer present foundWriter foundPresent
      obtain ⟨demands, listed, all, total⟩ := joined producer writer present foundWriter foundPresent
      refine ⟨[] :: demands, ?_, by simpa using all, by simpa using total⟩
      rw [consumers, List.mapM_cons, listed, demandsAt, found]
      rfl
    | some step =>
      obtain ⟨own, foundOwn⟩ := suit.exists_own found
      have inside : step ∈ steps.toList := by
        simpa using Array.mem_of_getElem? found
      obtain ⟨middle, handed, middleSuit, kept, handedOver⟩ :=
        exists_round kinds found (figures step inside) suit foundOwn
      obtain ⟨after, ran, afterSuit, late, joined⟩ := ih middleSuit
      refine ⟨after, ?_, afterSuit, fun number le => ?_, ?_⟩
      · simp only [foundOwn, handed]
        exact ran
      · rw [late number (by omega), kept number (by omega)]
      intro producer writer present foundWriter foundPresent
      obtain ⟨nearest, asked, nearestSuit, added⟩ :=
        handedOver producer writer present foundWriter foundPresent
      obtain ⟨demands, listed, all, total⟩ := joined producer writer _ foundWriter added
      -- the step has its own bounds still, since only earlier ones have changed
      have final : after[index]? = some own := by
        rw [late index (Nat.le_refl _), kept index (Nat.le_refl _), foundOwn]
      refine ⟨nearest :: demands, ?_, ?_, ?_⟩
      · rw [consumers, List.mapM_cons, listed, demandsAt, found, final]
        simp only [asked]
        rfl
      · rw [List.flatten_cons, List.forall_mem_append]
        exact ⟨nearestSuit, all⟩
      · rw [List.flatten_cons, List.foldl_append]
        exact total

end Walk

/-- Empty bounds are near to all others. -/
theorem hullFits_empty {kind : RasterKind} {bounds : Bounds} (suits : bounds.Suits kind) :
    Bounds.HullFits (.empty kind) bounds := by
  cases kind with
  | map =>
    cases bounds with
    | rectangle extent => exact .inl rfl
    | interval extent => cases suits.kind
  | profile =>
    cases bounds with
    | rectangle extent => cases suits.kind
    | interval extent => exact .inl rfl

/-- A schedule lists the bounds as the walk has found them. -/
theorem bounds_of_ofSequence {sequence : Sequence} {producers : Producers} {extents : Extents}
    {schedule : Schedule} (made : Schedule.ofSequence sequence producers = .ok schedule)
    (bounded : ofSteps sequence.steps producers = .ok extents)
    (size : extents.size = sequence.steps.size) :
    schedule.toList.map (·.bounds) = extents.toList := by
  obtain ⟨other, boundedToo, listed⟩ := Schedule.places_of_ofSequence made
  obtain rfl : extents = other := Except.ok.inj (bounded.symm.trans boundedToo)
  have lengths : extents.toList.length ≤ (Lifetimes.ofSteps sequence.steps).length := by
    simp [size, Lifetimes.length_ofSteps]
  have length : (extents.toList.zip (Lifetimes.ofSteps sequence.steps)).length ≤
      sequence.steps.toList.length := by
    simp [size, Lifetimes.length_ofSteps]
  calc schedule.toList.map (·.bounds) = schedule.places.map Prod.fst := by simp [Schedule.places]
    _ = extents.toList := by rw [listed, List.map_snd_zip length, List.map_fst_zip lengths]

/-- The bounds of a plan of consistent kinds are the demands on its steps. They can be found, and every
schedule has these. The edges of a step lead to the latest writers of the slots that it reads. The bounds
of a step are what the demands on it fold together to, at the final bounds of its consumers, and they
contain each of these demands if no hull of two of them is too long. -/
theorem bounds_are_demands {sequence : Sequence} (kinds : KindConsistent sequence.steps)
    (figures : ∀ step ∈ sequence.steps.toList, step.action.Representable) :
    ∃ extents, ofSteps sequence.steps (Producers.ofSteps sequence.steps) = .ok extents ∧
      extents.size = sequence.steps.size ∧
      (∀ schedule, Schedule.ofSequence sequence (Producers.ofSteps sequence.steps) = .ok schedule →
        schedule.toList.map (·.bounds) = extents.toList) ∧
      (∀ index step, sequence.steps[index]? = some step →
        (Producers.ofSteps sequence.steps).edges index = step.readSlots.filterMap fun slot =>
          (latestWriter? sequence.steps slot index).map (Edge.mk slot)) ∧
      ∀ producer writer own, sequence.steps[producer]? = some writer → extents[producer]? = some own →
        ∃ demands, demandsOn sequence.steps extents producer = .ok demands ∧
          demands.foldlM Bounds.combine (.empty writer.action.kind) = .ok own ∧
          (demands.Pairwise Bounds.HullFits → ∀ demand ∈ demands, own.contains demand = true) := by
  obtain ⟨extents, ran, suit, -, joined⟩ :=
    @exists_propagate_demands _ sequence.steps.size _ kinds figures (suit_initial sequence.steps)
  refine ⟨extents, ran, suit.size, fun _ made => bounds_of_ofSequence made ran suit.size,
    fun _ _ => Producers.edges_eq, fun producer writer own foundWriter foundOwn => ?_⟩
  have start : (initial sequence.steps)[producer]? = some (.empty writer.action.kind) := by
    simp [initial, foundWriter]
  obtain ⟨demands, listed, all, total⟩ := joined producer writer _ foundWriter start
  have empty := Bounds.suits_empty writer.action.kind
  obtain rfl : own = demands.flatten.foldl Bounds.join (.empty writer.action.kind) :=
    Option.some_inj.1 (foundOwn.symm.trans total)
  refine ⟨demands.flatten, by rw [demandsOn, listed]; rfl, Bounds.foldlM_combine_eq empty all, ?_⟩
  intro apart demand member
  have near (demand : Bounds) (member : demand ∈ demands.flatten) := hullFits_empty (all demand member)
  exact Bounds.contains_foldl_join empty all (List.pairwise_cons.2 ⟨near, apart⟩) demand
    (List.mem_cons_of_mem _ member)

/-- A map that is blended with itself through another one, shown, blurred and shown again. -/
def blended : Sequence where
  steps := #[⟨⟨1, 1⟩, .makeMap (.flat 7), [], 0⟩, ⟨⟨2, 1⟩, .makeMap (.flat 9), [], 1⟩,
    ⟨⟨3, 1⟩, .editMap .combine, [0, 1], 0⟩, ⟨⟨4, 1⟩, .yield "sharp" ⟨⟨0, 0⟩, ⟨2, 2⟩⟩, [], 0⟩,
    ⟨⟨5, 1⟩, .editMap (.blur 3), [], 0⟩, ⟨⟨6, 1⟩, .yield "soft" ⟨⟨5, 5⟩, ⟨1, 1⟩⟩, [], 0⟩]
  scale := 1.0
  limit := 6
  slotCount := 2

def blendedExtent : Rectangle := ⟨⟨0, 0⟩, ⟨9, 9⟩⟩

/-- Both the share of the argument and the earlier content of the target come from the first step. -/
theorem blended_bounds : ∃ extents demands,
    ofSteps blended.steps (Producers.ofSteps blended.steps) = .ok extents ∧
    extents[0]? = some (.rectangle blendedExtent) ∧
    demandsOn blended.steps extents 0 = .ok demands ∧ demands.length = 2 ∧
    demands.foldlM Bounds.combine (.empty .map) = .ok (.rectangle blendedExtent) ∧
    ∀ demand ∈ demands, Bounds.contains (.rectangle blendedExtent) demand = true := by
  have consistent : Consistent blended.steps.toList := by
    refine .snoc (.snoc (.snoc (.snoc (.snoc (.snoc consistent_nil ?_) ?_) ?_) ?_) ?_) ?_
    all_goals decide
  have figures : ∀ step ∈ blended.steps.toList, step.action.Representable := by
    simp only [blended, List.forall_mem_cons]
    exact ⟨trivial, trivial, trivial, ⟨by decide, by decide⟩, trivial, ⟨by decide, by decide⟩, nofun⟩
  obtain ⟨extents, ran, -, -, -, folds⟩ := bounds_are_demands consistent.kindConsistent figures
  have facts : (ofSteps blended.steps (Producers.ofSteps blended.steps)).toOption.all (fun extents =>
      extents[0]? == some (.rectangle blendedExtent) &&
        (demandsOn blended.steps extents 0).toOption ==
          some [.rectangle blendedExtent, .rectangle blendedExtent]) = true := by
    decide +kernel
  rw [ran] at facts
  simp only [Except.toOption, Option.all_some, Bool.and_eq_true, beq_iff_eq] at facts
  obtain ⟨demands, listed, total, holds⟩ := folds 0 _ _ rfl facts.1
  rw [listed] at facts
  obtain rfl := Option.some_inj.1 facts.2
  exact ⟨extents, _, ran, facts.1, listed, rfl, total, holds (by decide)⟩

end Extents

end Terrain
