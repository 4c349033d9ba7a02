import Mathlib.Logic.Relation
import Terrain.Proofs.Number.Errors
import Terrain.Proofs.Plan.Budget
import Terrain.Proofs.Plan.Demands
import Terrain.Proofs.Plan.Windows

/-!
# Steps that nothing is shown of

From a step one goes on to the steps that read its product, to those that read what these leave, and so
on. If no yield comes on the way, nothing is needed of the product, and so nothing of what its maker
reads. A few actions break this off, since they read an area of their own choice of an argument.

A maker of which nothing is needed leaves a raster over nothing. Later edits leave it at that, except
for a resizing, so that working on it takes no memory either. Other edits take their room even if nothing
is shown of them: they work on all of a raster that may have been shown before.

* `Unseen`, `Unasked`, `Dead` — no yield is reached, and no area is asked for.
* `Extents.exists_bounds_empty` — the bounds of dead steps.
* `Idle` — the steps that make a dead product or work on one.
* `Schedule.hollow_before`, `Schedule.exists_idle` — they take nothing.
-/

namespace Terrain

open Relation

variable {steps : Array Step} {index producer consumer : Nat} {step : Step} {own : Bounds}

/-! ## Consumers -/

/-- One step reads the product of another one. -/
def Consumes (steps : Array Step) (producer consumer : Nat) : Prop :=
  ∃ edge ∈ (Producers.ofSteps steps).edges consumer, edge.producer = producer

/-- Whether an action reads an area of its own choice of its argument, whatever it has to produce. -/
def Action.asksArea : Action → Bool
  | .editMap (.pattern ..) | .editMap (.transformHeights ..) | .editProfile (.pattern ..) => true
  | _ => false

/-- No yield is reached from a step by going on to consumers. -/
def Unseen (steps : Array Step) (index : Nat) : Prop :=
  ∀ later step, TransGen (Consumes steps) index later → steps[later]? = some step →
    step.action.isYield = false

/-- No area is asked of the product of a step or of one that is reached from it. -/
def Unasked (steps : Array Step) (index : Nat) : Prop :=
  ∀ producer consumer step slot, ReflTransGen (Consumes steps) index producer →
    steps[consumer]? = some step → slot ∈ step.arguments →
      latestWriter? steps slot consumer = some producer → step.action.asksArea = false

structure Dead (steps : Array Step) (index : Nat) : Prop where
  unseen : Unseen steps index
  unasked : Unasked steps index

/-- A step reads what an earlier step has left in one of its slots. -/
theorem consumes_iff (found : steps[consumer]? = some step) : Consumes steps producer consumer ↔
    ∃ slot ∈ step.readSlots, latestWriter? steps slot consumer = some producer := by
  simp only [Consumes, Producers.mem_edges found, latestWriter?_eq_some]
  constructor
  · rintro ⟨⟨slot, _⟩, ⟨read, written⟩, rfl⟩
    exact ⟨slot, read, written⟩
  · rintro ⟨slot, read, written⟩
    exact ⟨⟨slot, producer⟩, ⟨read, written⟩, rfl⟩

/-- Only steps are consumers, and they come behind their producers. -/
theorem Consumes.exists_step (consumes : Consumes steps producer consumer) :
    ∃ step, steps[consumer]? = some step ∧ producer < consumer := by
  cases found : steps[consumer]? with
  | none =>
    -- there are edges for the steps only
    obtain ⟨edge, member, -⟩ := consumes
    have size : (Producers.ofSteps steps).size = steps.toList.length :=
      (Producers.tracks_ofSteps steps).size
    rw [Array.length_toList] at size
    have outside : (Producers.ofSteps steps)[consumer]? = none := by
      rw [Array.getElem?_eq_none_iff] at found ⊢
      omega
    rw [Producers.edges, Array.getD_eq_getD_getElem?, outside] at member
    cases member
  | some step =>
    obtain ⟨slot, -, written⟩ := (consumes_iff found).1 consumes
    exact ⟨step, rfl, (exists_of_latestWriter? written).1⟩

theorem consumes_target (found : steps[consumer]? = some step) (edits : step.isMaker = false)
    (written : latestWriter? steps step.target consumer = some producer) :
    Consumes steps producer consumer :=
  (consumes_iff found).2 ⟨step.target, by simp [Step.readSlots, edits], written⟩

namespace Dead

/-- What is reached from a dead step is dead. -/
theorem of_consumes (dead : Dead steps producer) (consumes : Consumes steps producer consumer) :
    Dead steps consumer where
  unseen later step reached := dead.unseen later step (.head consumes reached)
  unasked other consumer step slot reached :=
    dead.unasked other consumer step slot (.head consumes reached)

theorem isYield_eq_false (dead : Dead steps producer) (consumes : Consumes steps producer consumer)
    (found : steps[consumer]? = some step) : step.action.isYield = false :=
  dead.unseen consumer step (.single consumes) found

end Dead

/-- Steps that are closed under consumers hold all that is reached from one of them. -/
theorem mem_of_closed {closed : List Nat} (further : ∀ consumer < steps.size,
      ∀ edge ∈ (Producers.ofSteps steps).edges consumer, edge.producer ∈ closed → consumer ∈ closed)
    (member : index ∈ closed) (reached : ReflTransGen (Consumes steps) index consumer) :
    consumer ∈ closed := by
  -- on the way from the first step, each consumer is in the list because its producer is
  induction reached with
  | refl => exact member
  | tail _ consumes inside =>
    obtain ⟨step, found, -⟩ := consumes.exists_step
    obtain ⟨edge, read, rfl⟩ := consumes
    exact further _ (Array.getElem?_eq_some_iff.1 found).1 edge read inside

theorem unseen_of_closed {closed : List Nat} (further : ∀ consumer < steps.size,
      ∀ edge ∈ (Producers.ofSteps steps).edges consumer, edge.producer ∈ closed → consumer ∈ closed)
    (draws : ∀ step ∈ closed.filterMap (steps[·]?), step.action.isYield = false)
    (member : index ∈ closed) : Unseen steps index := fun later step reached found =>
  draws step (List.mem_filterMap.2 ⟨later, mem_of_closed further member reached.to_reflTransGen, found⟩)

/-- A step among others that are closed under consumers is dead if none of them yields and none of their
consumers asks for an area. -/
theorem dead_of_closed {closed : List Nat} (further : ∀ consumer < steps.size,
      ∀ edge ∈ (Producers.ofSteps steps).edges consumer, edge.producer ∈ closed → consumer ∈ closed)
    (draws : ∀ step ∈ closed.filterMap (steps[·]?), step.action.isYield = false)
    (asks : ∀ step ∈ closed.filterMap (steps[·]?), step.action.asksArea = false)
    (member : index ∈ closed) : Dead steps index where
  unseen := unseen_of_closed further draws member
  unasked producer consumer step slot reached found argument written := by
    have consumes : Consumes steps producer consumer :=
      (consumes_iff found).2 ⟨slot, List.mem_append_left _ argument, written⟩
    have inside := mem_of_closed further member (reached.tail consumes)
    exact asks step (List.mem_filterMap.2 ⟨consumer, inside, found⟩)

/-! ## Nothing is needed for nothing -/

namespace Step

/-- To produce nothing a step reads nothing of its arguments. -/
theorem argumentBounds_empty (asks : step.action.asksArea = false) :
    step.argumentBounds (.empty step.action.kind) = .ok (.empty step.action.argumentKind) := by
  obtain ⟨location, action, arguments, target⟩ := step
  cases action with
  | makeMap maker =>
    cases maker with
    | projection direction => cases direction <;> rfl
    | _ => rfl
  | editMap edit =>
    cases edit with
    | shift maxDistance direction => cases direction <;> rfl
    | pattern repeated => cases asks
    | transformHeights interval low high => cases asks
    | _ => rfl
  | yield name rectangle => rfl
  | makeProfile maker => cases maker <;> rfl
  | editProfile edit =>
    cases edit with
    | pattern repeated => cases asks
    | _ => rfl

/-- To produce nothing a step needs nothing of what is there, unless it shows it. -/
theorem priorBounds_empty (draws : step.action.isYield = false) :
    step.priorBounds (.empty step.action.kind) = .ok (.empty step.action.kind) := by
  obtain ⟨location, action, arguments, target⟩ := step
  cases action with
  | yield name rectangle => cases draws
  | _ => rfl

end Step

/-- What a list of results consists of. -/
theorem exists_of_mem_mapM {α β : Type} {f : α → Except Breach β} {items : List α} {results : List β}
    {result : β} (run : items.mapM f = .ok results) (member : result ∈ results) :
    ∃ item ∈ items, f item = .ok result := by
  induction items generalizing results with
  | nil =>
    cases run
    cases member
  | cons item items ih =>
    rw [List.mapM_cons] at run
    obtain ⟨first, answer, rest⟩ := checked_bind_eq_ok run
    obtain ⟨others, answers, ended⟩ := checked_bind_eq_ok rest
    cases ended
    rcases List.mem_cons.1 member with rfl | later
    · exact ⟨item, List.mem_cons_self, answer⟩
    · obtain ⟨other, inside, answer⟩ := ih answers later
      exact ⟨other, List.mem_cons_of_mem _ inside, answer⟩

/-- A demand is a share of an argument or the earlier content of the target. -/
theorem mem_demandsOf {demands : List Bounds} {demand : Bounds}
    (asked : demandsOf steps producer consumer step own = .ok demands) (member : demand ∈ demands) :
    (∃ slot ∈ step.arguments, latestWriter? steps slot consumer = some producer ∧
        step.argumentBounds own = .ok demand) ∨
      step.isMaker = false ∧ latestWriter? steps step.target consumer = some producer ∧
        step.priorBounds own = .ok demand := by
  obtain ⟨shares, listed, rest⟩ := checked_bind_eq_ok asked
  have isShare (share : Bounds) (member : share ∈ shares) : ∃ slot ∈ step.arguments,
      latestWriter? steps slot consumer = some producer ∧ step.argumentBounds own = .ok share := by
    obtain ⟨slot, filtered, answer⟩ := exists_of_mem_mapM listed member
    obtain ⟨argument, written⟩ := List.mem_filter.1 filtered
    exact ⟨slot, argument, by simpa using written, answer⟩
  split at rest
  case isTrue changes =>
    simp only [Bool.and_eq_true, Bool.not_eq_true', beq_iff_eq] at changes
    obtain ⟨prior, answer, ended⟩ := checked_bind_eq_ok rest
    cases ended
    rcases List.mem_append.1 member with share | last
    · exact .inl (isShare demand share)
    · rw [List.mem_singleton.1 last]
      exact .inr ⟨changes.1, changes.2, answer⟩
  case isFalse =>
    cases rest
    exact .inl (isShare demand member)

/-- Only consumers need something of a product. -/
theorem consumes_of_mem_demandsOf {demands : List Bounds} {demand : Bounds}
    (found : steps[consumer]? = some step)
    (asked : demandsOf steps producer consumer step own = .ok demands) (member : demand ∈ demands) :
    Consumes steps producer consumer := by
  rcases mem_demandsOf asked member with ⟨slot, argument, written, -⟩ | ⟨edits, written, -⟩
  · exact (consumes_iff found).2 ⟨slot, List.mem_append_left _ argument, written⟩
  · exact consumes_target found edits written

/-- A step that is neither shown nor asked for needs nothing of the steps that it reads. -/
theorem eq_empty_of_mem_demandsOf {demands : List Bounds} {demand : Bounds}
    (kinds : KindConsistent steps) (found : steps[consumer]? = some step) {writer : Step}
    (foundWriter : steps[producer]? = some writer) (dead : Dead steps producer)
    (asked : demandsOf steps producer consumer step (.empty step.action.kind) = .ok demands)
    (member : demand ∈ demands) : demand = .empty writer.action.kind := by
  -- what a consumer asks of an argument is excluded by the one half of being dead, what it keeps of its
  -- target by the other half
  rcases mem_demandsOf asked member with ⟨slot, argument, written, share⟩ | ⟨edits, written, prior⟩
  · have asks := dead.unasked producer consumer step slot .refl found argument written
    cases share.symm.trans (Step.argumentBounds_empty asks)
    rw [kinds.arguments found argument written foundWriter]
  · have draws := dead.isYield_eq_false (consumes_target found edits written) found
    cases prior.symm.trans (Step.priorBounds_empty draws)
    rw [kinds.target found edits written foundWriter]

/-- Nothing together with nothing is nothing. -/
theorem Bounds.foldl_join_empty {kind : RasterKind} {demands : List Bounds}
    (all : ∀ demand ∈ demands, demand = .empty kind) :
    demands.foldl Bounds.join (.empty kind) = .empty kind := by
  -- the list is so many times nothing, and only their number matters
  rw [List.eq_replicate_of_mem all]
  generalize demands.length = count
  induction count with
  | zero => rfl
  | succ count ih =>
    rwa [List.replicate_succ, List.foldl_cons, Bounds.join_self (Bounds.representable_empty kind)]

namespace Extents

/-- Nothing is needed of a dead step. -/
theorem exists_bounds_empty (kinds : KindConsistent steps)
    (figures : ∀ step ∈ steps.toList, step.action.Representable) :
    ∃ extents, ofSteps steps (Producers.ofSteps steps) = .ok extents ∧ extents.Suit steps ∧
      ∀ index step, steps[index]? = some step → Dead steps index →
        extents[index]? = some (.empty step.action.kind) := by
  obtain ⟨extents, ran, suit, -, joined⟩ :=
    @exists_propagate_demands _ steps.size _ kinds figures (suit_initial steps)
  refine ⟨extents, ran, suit, fun index step found dead => ?_⟩
  -- consumers stand behind their producers, so that their bounds are known first
  induction index using Nat.strong_decreasing_induction generalizing step with
  | base =>
    refine ⟨steps.size, fun index outside step found => ?_⟩
    rw [Array.getElem?_eq_none (Nat.le_of_lt outside)] at found
    cases found
  | step index ih =>
    have start : (initial steps)[index]? = some (.empty step.action.kind) := by
      simp [initial, found]
    obtain ⟨demands, listed, -, total⟩ := joined index step _ found start
    rw [total, Bounds.foldl_join_empty]
    intro demand member
    obtain ⟨needed, isNeeded, member⟩ := List.mem_flatten.1 member
    obtain ⟨consumer, -, answer⟩ := exists_of_mem_mapM listed isNeeded
    unfold demandsAt at answer
    split at answer
    case h_1 reader own foundReader foundOwn =>
      have consumes := consumes_of_mem_demandsOf foundReader answer member
      obtain ⟨_, -, behind⟩ := consumes.exists_step
      have nothing := ih consumer behind reader foundReader (dead.of_consumes consumes)
      cases foundOwn.symm.trans nothing
      exact eq_empty_of_mem_demandsOf kinds foundReader found dead answer member
    case h_2 =>
      cases answer
      cases member

end Extents

/-! ## Rasters without samples -/

/-- Where an edit leaves a profile of no length. -/
def Action.startAfter (start : Coordinate) : Action → Coordinate
  | .editProfile (.move offset) => (Interval.translated ⟨start, 0⟩ offset).start
  | .editProfile (.rescale factor) => (Interval.stretched ⟨start, 0⟩ factor).start
  | .editProfile .flip => -start
  | _ => start

/-- Whether an edit adds no area to a raster that has none. A resizing lays out its own area, and the
reflection of the least coordinate is cut off by one. -/
def Action.addsNothing (start : Coordinate) : Action → Bool
  | .editMap (.resize ..) | .editProfile (.resize ..) => false
  | .editProfile .flip => start != coordinateMin
  | _ => true

/-- A step that works on what a dead maker has made, and where this lies by then if it is a profile. -/
inductive Idle (steps : Array Step) : Coordinate → Nat → Prop
  | made {index : Nat} {step : Step} (found : steps[index]? = some step) (makes : step.isMaker = true)
      (dead : Dead steps index) : Idle steps 0 index
  | edited {index producer : Nat} {step : Step} {start : Coordinate} (found : steps[index]? = some step)
      (edits : step.isMaker = false)
      (written : latestWriter? steps step.target index = some producer)
      (idle : Idle steps start producer) (adds : step.action.addsNothing start = true) :
      Idle steps (step.action.startAfter start) index

theorem Idle.dead {start : Coordinate} (idle : Idle steps start index) : Dead steps index := by
  induction idle with
  | made found makes dead => exact dead
  | edited found edits written idle adds dead =>
    exact dead.of_consumes (consumes_target found edits written)

theorem Idle.isCoordinate {start : Coordinate} (idle : Idle steps start index) : IsCoordinate start := by
  induction idle with
  | made found makes dead => exact ⟨by decide, by decide⟩
  | @edited index producer step start found edits written idle adds inRange =>
    generalize step.action = action at adds ⊢
    cases action with
    | editProfile edit =>
      cases edit with
      | move offset => exact isCoordinate_narrowCoordinate _
      | rescale factor => exact Number.narrowBy_mem Number.truncateWhole _ _ _ (by decide) (by decide)
      | flip =>
        have above : start ≠ coordinateMin := by simpa [Action.addsNothing] using adds
        obtain ⟨least, most⟩ := isCoordinate_iff.1 inRange
        change IsCoordinate (-start)
        rw [isCoordinate_iff]
        unfold coordinateMin at above
        dsimp only [Coordinate] at *
        omega
      | _ => exact inRange
    | _ => exact inRange

/-- Bounds of a kind and of no area. An interval starts where it is known to. -/
structure Bounds.Hollow (bounds : Bounds) (kind : RasterKind) (start : Coordinate) : Prop where
  ofKind : bounds.kind = kind
  isEmpty : bounds.isEmpty = true
  start : ∀ interval, bounds = .interval interval → interval.start = start

namespace Bounds

variable {bounds : Bounds} {kind : RasterKind} {start : Coordinate}

theorem hollow_interval (start : Coordinate) : (interval ⟨start, 0⟩).Hollow .profile start := by
  refine ⟨rfl, rfl, ?_⟩
  rintro _ ⟨⟩
  rfl

theorem hollow_rectangle {extent : Rectangle} (none : (rectangle extent).isEmpty = true)
    (start : Coordinate) : (rectangle extent).Hollow .map start := by
  refine ⟨rfl, none, ?_⟩
  rintro _ ⟨⟩

theorem hollow_empty (kind : RasterKind) : (empty kind).Hollow kind 0 := by
  cases kind with
  | map => exact hollow_rectangle rfl 0
  | profile => exact hollow_interval 0

theorem Hollow.eq_interval (hollow : bounds.Hollow .profile start) : bounds = .interval ⟨start, 0⟩ := by
  obtain ⟨extent, rfl, -⟩ := exists_asInterval hollow.ofKind
  have length : extent.length = 0 := by simpa [Bounds.isEmpty, Interval.isEmpty] using hollow.isEmpty
  obtain ⟨first, size⟩ := extent
  cases length
  cases hollow.start _ rfl
  rfl

theorem Hollow.memorySize (hollow : bounds.Hollow kind start) (scale : Scale) :
    bounds.memorySize scale = .ok 0 := by
  unfold Bounds.memorySize
  rw [hollow.isEmpty, if_pos rfl]

theorem Hollow.bytes (hollow : bounds.Hollow kind start) (scale : Scale) : bounds.bytes scale = 0 := by
  unfold Bounds.bytes
  rw [hollow.isEmpty, if_pos rfl]

end Bounds

namespace Interval

open Number

theorem truncateTo_zero_mul {low high : Int} (factor : Scale) (above : low ≤ 0) (below : 0 ≤ high) :
    truncateTo low high (Float.ofInt 0 * factor) = 0 :=
  narrowBy_zero_mul factor (isValue_ofInt (by decide)) (by decide) above below

theorem length_stretched {interval : Interval} (none : interval.length = 0) (factor : Scale) :
    (interval.stretched factor).length = 0 := by
  rw [stretched, none]
  exact congrArg Int.toNat (truncateTo_zero_mul factor (by decide) (by decide))

/-- Nothing touches no sample, whatever the scale. -/
theorem scaled_zero (scale : Scale) : (⟨0, 0⟩ : Interval).scaled scale = ⟨0, 0⟩ := by
  have first : floorTo wideMin wideMax (Float.ofInt 0 * scale) = 0 :=
    narrowBy_zero_mul scale (isValue_ofInt (by decide)) (by decide) (by decide) (by decide)
  have last : ceilTo wideMin wideMax ((Float.ofInt 0 + Float.ofNat 0) * scale) = 0 :=
    narrowBy_zero_mul scale isValue_zero (by decide) (by decide) (by decide)
  rw [scaled, first, last]
  rfl

end Interval

namespace Rectangle

theorem area_eq_zero_iff {size : Size} : size.area = 0 ↔ size.width = 0 ∨ size.height = 0 :=
  Nat.mul_eq_zero

/-- A stretched rectangle has no area if it had none before. -/
theorem area_stretched {rectangle : Rectangle} (none : rectangle.size.area = 0)
    (horizontal vertical : Scale) : (rectangle.stretched horizontal vertical).size.area = 0 := by
  rw [area_eq_zero_iff] at none ⊢
  exact none.imp (fun none => Interval.length_stretched none horizontal)
    fun none => Interval.length_stretched none vertical

theorem scaled_empty (scale : Scale) : empty.scaled scale = empty := by
  have side := Interval.scaled_zero scale
  rw [scaled, show empty.horizontal = ⟨0, 0⟩ from rfl, show empty.vertical = ⟨0, 0⟩ from rfl, side]
  rfl

end Rectangle

/-- An edit of a dead product leaves no area where there was none. -/
theorem Step.footprintAfter_hollow {footprint after : Bounds} {start : Coordinate}
    (hollow : footprint.Hollow step.action.kind start) (inRange : IsCoordinate start)
    (adds : step.action.addsNothing start = true)
    (planned : step.footprintAfter (.empty step.action.kind) footprint = .ok after) :
    after.Hollow step.action.kind (step.action.startAfter start) := by
  obtain ⟨location, action, arguments, target⟩ := step
  cases action with
  | editMap edit =>
    obtain ⟨extent, rfl, -⟩ := Bounds.exists_asRectangle hollow.ofKind
    cases edit with
    | rescale horizontal vertical =>
      cases planned
      have area : extent.size.area = 0 := by
        simpa [Bounds.isEmpty, Rectangle.isEmpty] using hollow.isEmpty
      refine Bounds.hollow_rectangle ?_ _
      simpa [Bounds.isEmpty, Rectangle.isEmpty] using Rectangle.area_stretched area horizontal vertical
    | move offset =>
      cases planned
      exact @Bounds.hollow_rectangle (extent.translated offset) hollow.isEmpty _
    | resize rectangle height => cases adds
    | transform matrix =>
      cases planned
      exact Bounds.hollow_rectangle rfl _
    | _ =>
      cases planned
      exact Bounds.hollow_rectangle hollow.isEmpty _
  | editProfile edit =>
    -- the profile has no length, so that its start is all there is to it
    cases hollow.eq_interval
    cases edit with
    | rescale factor =>
      cases planned
      have none := @Interval.length_stretched ⟨start, 0⟩ rfl factor
      refine ⟨rfl, by simp [Bounds.isEmpty, Interval.isEmpty, none], ?_⟩
      rintro _ ⟨⟩
      rfl
    | move offset =>
      cases planned
      exact Bounds.hollow_interval _
    | resize interval height => cases adds
    | flip =>
      cases planned
      have above : start ≠ coordinateMin := by simpa [Action.addsNothing] using adds
      rw [Interval.reflected_of_empty inRange above]
      exact Bounds.hollow_interval _
    | _ =>
      cases planned
      exact hollow
  | _ =>
    cases planned
    exact hollow

/-! ## Books -/

namespace Budget

variable {scale : Scale} {state performed after : State} {start : Coordinate}

/-- What idle steps have left takes no area, and it is there as long as a later step names its slot. -/
structure State.Hollow (state : State) (steps : Array Step) (count : Nat) : Prop where
  hollow : ∀ slot producer writer start bounds, latestWriter? steps slot count = some producer →
    steps[producer]? = some writer → Idle steps start producer →
      state.footprints[slot]? = some bounds → bounds.Hollow writer.action.kind start
  held : ∀ slot producer start, latestWriter? steps slot count = some producer →
    Idle steps start producer → ∀ later ∈ steps.toList.drop count, slot ∈ later.mentions →
      state.footprints[slot]? ≠ none

theorem State.Hollow.footprint (hollow : state.Hollow steps index) (kinds : KindConsistent steps)
    (found : steps[index]? = some step) (edits : step.isMaker = false)
    (written : latestWriter? steps step.target index = some producer)
    (idle : Idle steps start producer) : (state.footprint step).Hollow step.action.kind start := by
  -- the step names its target, which has not been freed by then
  have later : step ∈ steps.toList.drop index :=
    List.mem_of_getElem? (by simpa using found : (steps.toList.drop index)[0]? = some step)
  have held := hollow.held _ _ _ written idle step later (by simp [Step.mentions])
  obtain ⟨bounds, recorded⟩ := Option.ne_none_iff_exists'.1 held
  obtain ⟨-, writer, foundWriter, -⟩ := exists_of_latestWriter? written
  rw [footprint_eq edits recorded, ← kinds.target found edits written foundWriter]
  exact hollow.hollow _ _ _ _ _ written foundWriter idle recorded

/-- A raster without area needs no room to be worked on. -/
theorem extra_eq_zero {workspace : Workspace} {own footprint after : Bounds} {kind : RasterKind}
    {extra : Nat} (hollow : footprint.Hollow kind start) {start' : Coordinate}
    (hollowAfter : after.Hollow kind start') (planned : step.footprintAfter own footprint = .ok after)
    (taken : Step.extraMemory.ofWorkspace step own footprint scale workspace = .ok extra) :
    extra = 0 := by
  obtain ⟨current, size, rest⟩ := checked_bind_eq_ok taken
  cases (hollow.memorySize scale).symm.trans size
  cases workspace with
  | copies count => exact (checkFigure_eq_ok rest).1
  | replacement =>
    obtain ⟨_, plannedToo, size⟩ := checked_bind_eq_ok rest
    cases planned.symm.trans plannedToo
    exact Except.ok.inj (size.symm.trans (hollowAfter.memorySize scale))

/-- An idle step needs nothing on top of what is resident, and the footprint that it leaves has no
area. -/
theorem idle_perform {extra : Nat} (hollow : state.Hollow steps index) (kinds : KindConsistent steps)
    (found : steps[index]? = some step) (idle : Idle steps start index)
    (taken : step.extraMemory (.empty step.action.kind) (state.footprint step) scale = .ok extra)
    (performing : state.perform step (.empty step.action.kind) scale = .ok performed) :
    extra = 0 ∧ ∃ bounds, state.replace step.target bounds scale = .ok performed ∧
      bounds.Hollow step.action.kind start := by
  unfold Step.extraMemory at taken
  unfold State.perform at performing
  cases idle with
  | made foundMaker makes dead =>
    -- a maker needs the room of its product, whose bounds are empty
    cases found.symm.trans foundMaker
    have nothing := Bounds.hollow_empty step.action.kind
    have size := nothing.memorySize scale
    unfold Step.isMaker at makes
    cases action : step.action with
    | makeMap maker =>
      rw [action] at taken performing size nothing
      cases size.symm.trans taken
      exact ⟨rfl, _, performing, nothing⟩
    | makeProfile maker =>
      rw [action] at taken performing size nothing
      cases size.symm.trans taken
      exact ⟨rfl, _, performing, nothing⟩
    | _ =>
      rw [action] at makes
      cases makes
  | edited foundEdit edits written idle adds =>
    -- an edit needs copies of what is there or the room of what replaces it, both without area
    cases found.symm.trans foundEdit
    have before := hollow.footprint kinds found edits written idle
    have draws := idle.dead.isYield_eq_false (consumes_target found edits written) found
    have leaves {after : Bounds} (planned : step.footprintAfter (.empty step.action.kind)
        (state.footprint step) = .ok after) :=
      Step.footprintAfter_hollow before idle.isCoordinate adds planned
    generalize own : Bounds.empty step.action.kind = nothing at taken performing leaves
    unfold Step.isMaker at edits
    cases action : step.action with
    | editMap edit =>
      rw [action] at taken performing
      obtain ⟨bounds, planned, replaced⟩ := checked_bind_eq_ok performing
      rw [← action]
      exact ⟨extra_eq_zero before (leaves planned) planned taken, bounds, replaced, leaves planned⟩
    | editProfile edit =>
      rw [action] at taken performing
      obtain ⟨bounds, planned, replaced⟩ := checked_bind_eq_ok performing
      rw [← action]
      exact ⟨extra_eq_zero before (leaves planned) planned taken, bounds, replaced, leaves planned⟩
    | yield name rectangle =>
      rw [action] at draws
      cases draws
    | _ =>
      rw [action] at edits
      cases edits

/-- The work of a step changes no footprint but that of its target. -/
theorem footprints_perform {own : Bounds} {played : List Step} {slot : Slot}
    (balanced : state.Balanced scale played) (performing : state.perform step own scale = .ok performed)
    (other : slot ≠ step.target) : performed.footprints[slot]? = state.footprints[slot]? := by
  have kept {bounds : Bounds} (replaced : state.replace step.target bounds scale = .ok performed) :
      performed.footprints[slot]? = state.footprints[slot]? := by
    rw [(balanced_replace balanced replaced).2.1, Std.TreeMap.getElem?_insert, if_neg]
    simpa using other.symm
  unfold State.perform at performing
  split at performing
  · rw [(occupy_eq_ok performing).1]
  · exact kept performing
  · exact kept performing
  all_goals
    obtain ⟨bounds, -, replaced⟩ := checked_bind_eq_ok performing
    exact kept replaced

theorem hollow_perform {own : Bounds} {extra : Nat} {played : List Step}
    (balanced : state.Balanced scale played) (hollow : state.Hollow steps index)
    (kinds : KindConsistent steps) (found : steps[index]? = some step)
    (nothing : Dead steps index → own = .empty step.action.kind)
    (taken : step.extraMemory own (state.footprint step) scale = .ok extra)
    (performing : state.perform step own scale = .ok performed) :
    performed.Hollow steps (index + 1) := by
  have others {slot : Slot} (other : ¬step.target = slot) :=
    footprints_perform balanced performing (Ne.symm other)
  constructor
  · intro slot producer writer start bounds written foundWriter idle recorded
    simp only [latestWriter?, found, Option.map_some, Option.some_inj] at written
    split at written
    case isTrue target =>
      -- the slot has been written by this step, which is idle itself
      cases written
      cases found.symm.trans foundWriter
      cases nothing idle.dead
      obtain ⟨-, left, replaced, leftHollow⟩ := idle_perform hollow kinds found idle taken performing
      rw [(balanced_replace balanced replaced).2.1, target, Std.TreeMap.getElem?_insert_self] at recorded
      cases recorded
      exact leftHollow
    case isFalse other =>
      rw [others other] at recorded
      exact hollow.hollow slot producer writer start bounds written foundWriter idle recorded
  · intro slot producer start written idle later behind named
    simp only [latestWriter?, found, Option.map_some, Option.some_inj] at written
    split at written
    case isTrue target =>
      cases written
      cases nothing idle.dead
      obtain ⟨-, left, replaced, -⟩ := idle_perform hollow kinds found idle taken performing
      rw [(balanced_replace balanced replaced).2.1, target, Std.TreeMap.getElem?_insert_self]
      exact Option.some_ne_none _
    case isFalse other =>
      rw [others other]
      have before := (List.drop_sublist_drop_left steps.toList (Nat.le_succ index)).subset behind
      exact hollow.held slot producer start written idle later before named

/-- Freed slots have no footprints, and no later step names them. -/
theorem hollow_foldlM_free {slots : List Slot} {played : List Step} {count : Nat}
    (balanced : state.Balanced scale played) (hollow : state.Hollow steps count)
    (unnamed : ∀ slot ∈ slots, ∀ later ∈ steps.toList.drop count, slot ∉ later.mentions)
    (run : slots.foldlM (State.free scale) state = .ok after) : after.Hollow steps count := by
  induction slots generalizing state with
  | nil =>
    cases run
    exact hollow
  | cons slot slots ih =>
    rw [List.foldlM_cons] at run
    obtain ⟨freed, freeing, rest⟩ := checked_bind_eq_ok run
    obtain ⟨_, freeing', balanced, left⟩ := exists_free balanced slot
    cases freeing.symm.trans freeing'
    refine ih balanced ⟨?_, ?_⟩ (fun slot member => unnamed slot (List.mem_cons_of_mem _ member)) rest
    · intro other producer writer start bounds written foundWriter idle recorded
      rw [left] at recorded
      split at recorded
      · cases recorded
      · exact hollow.hollow other producer writer start bounds written foundWriter idle recorded
    · intro other producer start written idle later behind named
      rw [left]
      split
      case isTrue same =>
        subst same
        exact absurd named (unnamed _ List.mem_cons_self later behind)
      case isFalse => exact hollow.held other producer start written idle later behind named

/-- Freeing slots leaves no more resident than before. -/
theorem resident_foldlM_free {slots : List Slot} (run : slots.foldlM (State.free scale) state = .ok after) :
    after.resident ≤ state.resident := by
  induction slots generalizing state with
  | nil =>
    cases run
    exact Nat.le_refl _
  | cons slot slots ih =>
    rw [List.foldlM_cons] at run
    obtain ⟨freed, freeing, rest⟩ := checked_bind_eq_ok run
    refine (ih rest).trans ?_
    unfold State.free at freeing
    split at freeing
    case h_1 old recorded =>
      obtain ⟨size, -, vacated⟩ := checked_bind_eq_ok freeing
      split at vacated
      · cases vacated
        exact Nat.sub_le _ _
      · cases vacated
    case h_2 =>
      cases freeing
      exact Nat.le_refl _

end Budget

namespace Schedule

variable {sequence : Sequence} {items : List (Step × Bounds × List Slot)}

/-- The items are about the steps and their bounds, number by number. -/
theorem item_of_itemsOf {extents : Extents} (listed : itemsOf sequence = .ok items)
    (bounded : Extents.ofSteps sequence.steps (.ofSteps sequence.steps) = .ok extents)
    (size : extents.size = sequence.steps.size) :
    items.length = sequence.steps.size ∧ ∀ (index : Nat) step own releases,
      items[index]? = some (step, own, releases) →
        sequence.steps[index]? = some step ∧ extents[index]? = some own ∧
          (Lifetimes.ofSteps sequence.steps)[index]? = some releases := by
  obtain ⟨_, boundedToo, ended⟩ := checked_bind_eq_ok listed
  cases bounded.symm.trans boundedToo
  cases ended
  refine ⟨by simp [size, Lifetimes.length_ofSteps], fun index step own releases item => ?_⟩
  rw [List.getElem?_zip_eq_some, List.getElem?_zip_eq_some] at item
  exact ⟨by simpa using item.1, by simpa using item.2.1, item.2.2⟩

/-- Before every item of a schedule, what idle steps have left takes no area. -/
theorem hollow_before (kinds : KindConsistent sequence.steps)
    (figures : ∀ step ∈ sequence.steps.toList, step.action.Representable)
    (listed : itemsOf sequence = .ok items) {index : Nat} {budget : Budget.State}
    (run : before sequence.scale items index = .ok budget) : budget.Hollow sequence.steps index := by
  obtain ⟨extents, bounded, suit, nothing⟩ := Extents.exists_bounds_empty kinds figures
  obtain ⟨length, known⟩ := item_of_itemsOf listed bounded suit.size
  induction index generalizing budget with
  | zero =>
    constructor
    · intro slot producer writer start bounds written
      cases written
    · intro slot producer start written
      cases written
  | succ index ih =>
    cases found : items[index]? with
    | none =>
      -- behind the last item nothing is written, and the books stay as they are
      have outside : sequence.steps[index]? = none := by
        rw [List.getElem?_eq_none_iff] at found
        exact Array.getElem?_eq_none (length ▸ found)
      have same : before sequence.scale items (index + 1) = before sequence.scale items index := by
        unfold before
        rw [List.take_add_one, found, Option.toList_none, List.append_nil]
      have writes (slot : Slot) : latestWriter? sequence.steps slot (index + 1) =
          latestWriter? sequence.steps slot index := by
        rw [latestWriter?, outside, if_neg (by simp)]
      obtain ⟨hollow, held⟩ := ih (same ▸ run)
      constructor
      · intro slot producer writer start bounds written
        exact hollow slot producer writer start bounds (writes slot ▸ written)
      · intro slot producer start written idle later behind
        exact held slot producer start (writes slot ▸ written) idle later
          ((List.drop_sublist_drop_left _ (Nat.le_succ index)).subset behind)
    | some item =>
      obtain ⟨step, own, releases⟩ := item
      rw [before_succ found] at run
      obtain ⟨found, foundOwn, foundReleases⟩ := known index step own releases found
      obtain ⟨earlier, played, rest⟩ := checked_bind_eq_ok run
      obtain ⟨⟨memory, after⟩, advanced, ended⟩ := checked_bind_eq_ok rest
      cases ended
      obtain ⟨extra, performed, taken, -, performing, freed⟩ := Budget.advance_eq_ok advanced
      have balanced := balanced_before played
      have ownNothing (dead : Dead sequence.steps index) : own = .empty step.action.kind :=
        Option.some_inj.1 (foundOwn.symm.trans (nothing index step found dead))
      have unnamed (slot : Slot) (member : slot ∈ releases) (later : Step)
          (behind : later ∈ sequence.steps.toList.drop (index + 1)) : slot ∉ later.mentions :=
        Lifetimes.not_mentioned_of_freed foundReleases member behind
      exact Budget.hollow_foldlM_free (Budget.balanced_perform balanced performing)
        (Budget.hollow_perform balanced (ih played) kinds found ownNothing taken performing) unnamed freed

/-- The bounds of a dead step are empty in every schedule. -/
theorem bounds_of_dead (kinds : KindConsistent sequence.steps)
    (figures : ∀ step ∈ sequence.steps.toList, step.action.Representable) {schedule : Schedule}
    (made : ofSequence sequence (.ofSteps sequence.steps) = .ok schedule) {index : Nat} {step : Step}
    {facts : StepFacts} (found : sequence.steps[index]? = some step)
    (foundFacts : schedule[index]? = some facts) (dead : Dead sequence.steps index) :
    facts.bounds = .empty step.action.kind := by
  obtain ⟨extents, bounded, suit, nothing⟩ := Extents.exists_bounds_empty kinds figures
  obtain ⟨items, listed, known⟩ := exists_advance_of_ofSequence made
  obtain ⟨other, -, -, item, -, -⟩ := known index facts foundFacts
  obtain ⟨-, foundBounds, -⟩ := (item_of_itemsOf listed bounded suit.size).2 index _ _ _ item
  exact Option.some_inj.1 (foundBounds.symm.trans (nothing index step found dead))

/-- An idle step is planned with what is resident before it, and leaves no more. -/
theorem exists_idle (kinds : KindConsistent sequence.steps)
    (figures : ∀ step ∈ sequence.steps.toList, step.action.Representable) {schedule : Schedule}
    (made : ofSequence sequence (.ofSteps sequence.steps) = .ok schedule) {index : Nat} {step : Step}
    {facts : StepFacts} {start : Coordinate} (found : sequence.steps[index]? = some step)
    (foundFacts : schedule[index]? = some facts) (idle : Idle sequence.steps start index) :
    ∃ items budget performed, itemsOf sequence = .ok items ∧
      before sequence.scale items index = .ok budget ∧
      budget.perform step facts.bounds sequence.scale = .ok performed ∧
      facts.memory = budget.resident ∧ performed.resident ≤ budget.resident := by
  obtain ⟨extents, bounded, suit, -⟩ := Extents.exists_bounds_empty kinds figures
  obtain ⟨items, listed, known⟩ := exists_advance_of_ofSequence made
  obtain ⟨other, budget, after, item, played, advanced⟩ := known index facts foundFacts
  obtain ⟨foundOther, -⟩ := (item_of_itemsOf listed bounded suit.size).2 index _ _ _ item
  cases found.symm.trans foundOther
  obtain ⟨extra, performed, taken, memory, performing, -⟩ := Budget.advance_eq_ok advanced
  refine ⟨items, budget, performed, listed, played, performing, ?_⟩
  -- the footprint of its raster has no area before nor after it, so that no room is taken at all
  rw [bounds_of_dead kinds figures made found foundFacts idle.dead] at taken performing
  have hollow := hollow_before kinds figures listed played
  obtain ⟨rfl, bounds, replaced, left⟩ :=
    Budget.idle_perform hollow kinds found idle taken performing
  have resident := (Budget.balanced_replace (balanced_before played) replaced).2.2
  rw [left.bytes] at resident
  omega

/-- The books before a step hold no more than was required for the step in front of it, unless that one
moves or flips a raster. -/
theorem resident_le_memory {schedule : Schedule}
    (made : ofSequence sequence (.ofSteps sequence.steps) = .ok schedule) {index : Nat} {step : Step}
    {facts : StepFacts} {budget : Budget.State} (listed : itemsOf sequence = .ok items)
    (played : before sequence.scale items (index + 1) = .ok budget)
    (found : sequence.steps[index]? = some step) (foundFacts : schedule[index]? = some facts)
    (stays : step.action.shifts = false) : budget.resident ≤ facts.memory := by
  obtain ⟨_, listedToo, known⟩ := exists_advance_of_ofSequence made
  cases listed.symm.trans listedToo
  obtain ⟨other, earlier, after, item, playedEarlier, advanced⟩ := known index facts foundFacts
  rw [before_succ item, playedEarlier] at played
  obtain ⟨_, ⟨⟩, rest⟩ := checked_bind_eq_ok played
  obtain ⟨_, advancedToo, ended⟩ := checked_bind_eq_ok rest
  cases advanced.symm.trans advancedToo
  cases ended
  obtain ⟨extra, performed, taken, memory, performing, freed⟩ := Budget.advance_eq_ok advanced
  -- the step of the item is the step of the sequence
  have isStep : other = step := by
    obtain ⟨extents, -, rest⟩ := checked_bind_eq_ok listed
    cases rest
    rw [List.getElem?_zip_eq_some] at item
    exact Option.some_inj.1 ((by simpa using item.1.symm : some other = _).trans found)
  cases isStep
  rw [memory]
  exact (Budget.resident_foldlM_free freed).trans
    (Budget.resident_le (balanced_before playedEarlier) stays taken performing)

end Schedule

end Terrain
