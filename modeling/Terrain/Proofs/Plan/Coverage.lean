import Terrain.Plan.Extents
import Terrain.Proofs.Breaches
import Terrain.Proofs.Plan.Producers
import Terrain.Proofs.Plan.Scenes

/-!
# Bounds cover what is read

The bounds of a step that wrote a slot cover all that later steps need of it, until the slot is
written again. The bounds of a step are final when it hands on its needs, for it hands them to earlier
steps only; and bounds only grow, as long as they stay away from the ends of the coordinates.

* `Rectangle.Inside` — one rectangle lies in another, unless the other reaches far out.
* `Extents.Met` — what a step needs of a slot lies in the bounds of the slot's producer.
* `Extents.exists_ofSteps` — all needs are met.
-/

namespace Terrain

namespace Interval

variable {i j : Interval}

theorem hull_length_pos (placed : IsCoordinate i.start) (nonempty : (0 : Int) < i.length) :
    (0 : Int) < (hull i j).length := by
  rw [isCoordinate_iff] at placed
  simp only [hull, ofBounds, stop, narrowCoordinate_eq_max, narrowExtent_eq_min]
  dsimp only [Coordinate]
  omega

/-- A hull whose ends stay near the origin was not saturated. -/
theorem between_hull {x : Int} (first : Below (hull i j).start 1073741824)
    (last : Below ((hull i j).start + (hull i j).length - 1) 1073741824)
    (either : Between i.start i.length x ∨ Between j.start j.length x) :
    Between (hull i j).start (hull i j).length x := by
  simp only [hull, ofBounds, stop, narrowCoordinate_eq_max, narrowExtent_eq_min, Between, Below] at *
  dsimp only [Coordinate] at *
  omega

end Interval

namespace Rectangle

variable {a b c : Rectangle}

/-- All points of a rectangle are near the origin. -/
def Near (rectangle : Rectangle) : Prop :=
  ∀ x y, rectangle.Covers x y → Below x 1073741824 ∧ Below y 1073741824

def Inside (inner outer : Rectangle) : Prop :=
  outer.Near → ∀ x y, inner.Covers x y → outer.Covers x y

def Placed (rectangle : Rectangle) : Prop :=
  IsCoordinate rectangle.position.x ∧ IsCoordinate rectangle.position.y

theorem Inside.refl (a : Rectangle) : Inside a a := fun _ _ _ covered => covered

theorem Inside.trans (first : Inside a b) (second : Inside b c) : Inside a c := by
  intro near x y covered
  have nearB : b.Near := fun x y covered => near x y (second near x y covered)
  exact second near x y (first nearB x y covered)

theorem inside_of_isEmpty (empty : a.isEmpty = true) (b : Rectangle) : Inside a b :=
  fun _ x y covered => absurd covered (isEmpty_iff.1 empty x y)

theorem Within.placed {limit : Nat} (within : a.Within limit) (most : limit ≤ 2147483648) :
    a.Placed := by
  obtain ⟨x, y, -, -⟩ := within
  unfold Below at x y
  unfold Placed
  rw [isCoordinate_iff, isCoordinate_iff]
  omega

theorem placed_ofBounds (horizontal vertical : Int × Int) :
    (ofIntervals (.ofBounds horizontal.1 horizontal.2) (.ofBounds vertical.1 vertical.2)).Placed :=
  ⟨isCoordinate_narrowCoordinate _, isCoordinate_narrowCoordinate _⟩

theorem Placed.combine (left : a.Placed) (right : b.Placed) : (combine a b).Placed := by
  unfold Rectangle.combine
  split
  · exact right
  · split
    · exact left
    · exact placed_ofBounds (_, _) (_, _)

theorem inside_combine (placed : a.Placed) : Inside a (combine a b) ∧ Inside b (combine a b) := by
  by_cases emptyA : a.isEmpty = true
  · have same : combine a b = b := by rw [combine, if_pos emptyA]
    rw [same]
    exact ⟨inside_of_isEmpty emptyA b, .refl b⟩
  by_cases emptyB : b.isEmpty = true
  · have same : combine a b = a := by rw [combine, if_neg emptyA, if_pos emptyB]
    rw [same]
    exact ⟨.refl a, inside_of_isEmpty emptyB a⟩
  have same : combine a b =
      ofIntervals (.hull a.horizontal b.horizontal) (.hull a.vertical b.vertical) := by
    rw [combine, if_neg emptyA, if_neg emptyB]
  have sides : (0 : Int) < a.size.width ∧ (0 : Int) < a.size.height := by
    simp only [isEmpty, Size.area, beq_iff_eq, Nat.mul_eq_zero, not_or] at emptyA
    omega
  have width := @Interval.hull_length_pos a.horizontal b.horizontal placed.1 sides.1
  have height := @Interval.hull_length_pos a.vertical b.vertical placed.2 sides.2
  rw [same]
  generalize acrossX : Interval.hull a.horizontal b.horizontal = across at *
  generalize downY : Interval.hull a.vertical b.vertical = down at *
  -- both ends of the hull are points of it
  have ends (near : (ofIntervals across down).Near) :
      (Below across.start 1073741824 ∧ Below (across.start + across.length - 1) 1073741824) ∧
        Below down.start 1073741824 ∧ Below (down.start + down.length - 1) 1073741824 := by
    have first : (ofIntervals across down).Covers across.start down.start := by
      simp only [Covers, Between, ofIntervals]
      omega
    have last : (ofIntervals across down).Covers (across.start + across.length - 1)
        (down.start + down.length - 1) := by
      simp only [Covers, Between, ofIntervals]
      dsimp only [Coordinate]
      omega
    obtain ⟨firstX, firstY⟩ := near _ _ first
    obtain ⟨lastX, lastY⟩ := near _ _ last
    exact ⟨⟨firstX, lastX⟩, firstY, lastY⟩
  subst acrossX downY
  constructor
  · intro near x y covered
    obtain ⟨⟨firstX, lastX⟩, firstY, lastY⟩ := ends near
    exact ⟨Interval.between_hull firstX lastX (.inl covered.1),
      Interval.between_hull firstY lastY (.inl covered.2)⟩
  · intro near x y covered
    obtain ⟨⟨firstX, lastX⟩, firstY, lastY⟩ := ends near
    exact ⟨Interval.between_hull firstX lastX (.inr covered.1),
      Interval.between_hull firstY lastY (.inr covered.2)⟩

end Rectangle

/-! ## Needs of a step -/

/-- Figures of steps and bounds are below this limit, so that nothing computed from two of them
saturates. -/
def figureLimit : Nat := 536870912

namespace Rectangle

variable {own rectangle : Rectangle}

theorem Placed.expand (own : Rectangle) (amount : Extent) : (own.expand amount).Placed :=
  placed_ofBounds (_, _) (_, _)

theorem Placed.translated (own : Rectangle) (offset : Point) : (own.translated offset).Placed :=
  ⟨isCoordinate_narrowCoordinate _, isCoordinate_narrowCoordinate _⟩

/-- Rectangles folded together: all of them lie in the result. -/
theorem exists_foldlM_combine {first : Rectangle} {rest : List Rectangle} (placed : first.Placed)
    (all : ∀ other ∈ rest, other.Placed) :
    ∃ sum, (rest.map Bounds.rectangle).foldlM Bounds.combine (.rectangle first) = .ok (.rectangle sum) ∧
      sum.Placed ∧ ∀ other ∈ first :: rest, other.Inside sum := by
  induction rest generalizing first with
  | nil => exact ⟨first, rfl, placed, by simpa using Inside.refl first⟩
  | cons second rest ih =>
    rw [List.forall_mem_cons] at all
    obtain ⟨inFirst, inSecond⟩ := @inside_combine first second placed
    obtain ⟨sum, folded, placed, inside⟩ := ih (placed.combine all.1) all.2
    rw [List.forall_mem_cons] at inside
    refine ⟨sum, folded, placed, ?_⟩
    simp only [List.forall_mem_cons]
    exact ⟨inFirst.trans inside.1, inSecond.trans inside.1, inside.2⟩

end Rectangle

def MapEdit.argumentRectangle (own : Rectangle) : MapEdit → Rectangle
  | pattern repeated => repeated
  | _ => own

namespace Step

variable {step : Step} {own : Rectangle}

def argumentRectangle (step : Step) (own : Rectangle) : Rectangle :=
  match step.action with
  | .editMap edit => edit.argumentRectangle own
  | _ => own

def priorRectangle (step : Step) (own : Rectangle) : Rectangle :=
  match step.action with
  | .yield _ rectangle => .combine own rectangle
  | .editMap edit => if own.isEmpty then own else edit.prior own
  | _ => own

theorem argumentBounds_eq (planar : step.action.isPlanar = true) :
    step.argumentBounds (.rectangle own) = .ok (.rectangle (step.argumentRectangle own)) := by
  unfold argumentBounds argumentRectangle
  cases action : step.action with
  | makeMap maker => cases maker <;> first | rfl | (rw [action] at planar; cases planar)
  | editMap edit => cases edit <;> first | rfl | (rw [action] at planar; cases planar)
  | yield name rectangle => rfl
  | makeProfile maker => rw [action] at planar; cases planar
  | editProfile edit => rw [action] at planar; cases planar

theorem priorBounds_eq (planar : step.action.isPlanar = true) :
    step.priorBounds (.rectangle own) = .ok (.rectangle (step.priorRectangle own)) := by
  unfold priorBounds priorRectangle
  cases action : step.action with
  | makeMap maker => rfl
  | yield name rectangle => rfl
  | editMap edit =>
    change (if own.isEmpty = true then pure (Bounds.rectangle own) else
      pure (Bounds.rectangle (edit.prior own))) = _
    dsimp only
    split <;> rfl
  | makeProfile maker => rfl
  | editProfile edit => rw [action] at planar; cases planar

theorem placed_argumentRectangle (figures : step.action.Figures figureLimit) (placed : own.Placed) :
    (step.argumentRectangle own).Placed := by
  unfold argumentRectangle
  split
  case h_1 edit action =>
    rw [action] at figures
    cases edit with
    | pattern repeated => exact Rectangle.Within.placed figures (by decide)
    | _ => exact placed
  case h_2 => exact placed

theorem placed_priorRectangle (planar : step.action.isPlanar = true)
    (figures : step.action.Figures figureLimit) (placed : own.Placed) :
    (step.priorRectangle own).Placed := by
  unfold priorRectangle
  split
  case h_1 action =>
    rw [action] at figures
    exact placed.combine (Rectangle.Within.placed figures (by decide))
  case h_2 edit action =>
    rw [action] at planar
    split
    · exact placed
    · cases edit with
      | blur radius => exact .expand own radius
      | convexity radius => exact .expand own radius
      | move offset => exact .translated own _
      | distort maxDistance => cases planar
      | shift maxDistance direction => cases planar
      | transform matrix => cases planar
      | rescale horizontal vertical => cases planar
      | resize rectangle height => cases planar
      | _ => exact placed
  case h_3 => exact placed

end Step

namespace Extents

variable {steps : Array Step} {step : Step} {own : Rectangle} {slot : Slot}

/-- All that a planar step needs of a slot it reads. -/
structure Needs (step : Step) (own : Rectangle) (slot : Slot) (need : Rectangle) : Prop where
  placed : need.Placed
  argument : slot ∈ step.arguments → (step.argumentRectangle own).Inside need
  prior : step.isMaker = false → slot = step.target → (step.priorRectangle own).Inside need

/-- The list of what a planar step needs of a slot it reads. -/
theorem exists_needs (planar : step.action.isPlanar = true) (figures : step.action.Figures figureLimit)
    (placed : own.Placed) (reads : slot ∈ step.readSlots) :
    ∃ list : List Rectangle, needs step (.rectangle own) slot = .ok (list.map .rectangle) ∧
      list ≠ [] ∧ (∀ other ∈ list, other.Placed) ∧
      (slot ∈ step.arguments → step.argumentRectangle own ∈ list) ∧
      (step.isMaker = false → slot = step.target → step.priorRectangle own ∈ list) := by
  have placedArgument := Step.placed_argumentRectangle figures placed
  have placedPrior := Step.placed_priorRectangle planar figures placed
  have shares : ∃ list : List Rectangle, (step.arguments.filter (· == slot)).mapM
        (fun _ => step.argumentBounds (.rectangle own)) = .ok (list.map .rectangle) ∧
      (slot ∈ step.arguments → step.argumentRectangle own ∈ list) ∧ ∀ other ∈ list, other.Placed := by
    refine ⟨(step.arguments.filter (· == slot)).map fun _ => step.argumentRectangle own, ?_, ?_, ?_⟩
    · rw [Step.argumentBounds_eq planar, List.map_map]
      exact List.mapM_pure
    · exact fun member => List.mem_map.2 ⟨slot, by simpa using member, rfl⟩
    · rintro other member
      obtain ⟨_, -, rfl⟩ := List.mem_map.1 member
      exact placedArgument
  obtain ⟨list, listed, occurs, all⟩ := shares
  unfold needs
  rw [listed]
  by_cases changes : (!step.isMaker && slot == step.target) = true
  · refine ⟨list ++ [step.priorRectangle own], ?_, by simp, ?_, fun member => ?_, by simp⟩
    · change (if (!step.isMaker && slot == step.target) = true then
        (do return list.map Bounds.rectangle ++ [← step.priorBounds (.rectangle own)]) else _) = _
      rw [if_pos changes, Step.priorBounds_eq planar, List.map_append]
      rfl
    · simpa [or_imp, forall_and] using ⟨all, placedPrior⟩
    · exact List.mem_append_left _ (occurs member)
  · have member : slot ∈ step.arguments := by
      unfold Step.readSlots at reads
      rcases List.mem_append.1 reads with member | own
      · exact member
      · cases maker : step.isMaker <;> simp_all
    refine ⟨list, if_neg changes, List.ne_nil_of_mem (occurs member), all, occurs, ?_⟩
    intro edits same
    simp [edits, same] at changes

theorem exists_need (planar : step.action.isPlanar = true) (figures : step.action.Figures figureLimit)
    (placed : own.Placed) (reads : slot ∈ step.readSlots) :
    ∃ need, need? step (.rectangle own) slot = .ok (some (.rectangle need)) ∧
      Needs step own slot need := by
  obtain ⟨list, needed, nonempty, placed, argument, prior⟩ := exists_needs planar figures placed reads
  obtain ⟨first, rest, rfl⟩ := List.exists_cons_of_ne_nil nonempty
  rw [List.forall_mem_cons] at placed
  obtain ⟨sum, folded, placedSum, inside⟩ := Rectangle.exists_foldlM_combine placed.1 placed.2
  refine ⟨sum, ?_, placedSum, fun member => inside _ (argument member), fun edits same =>
    inside _ (prior edits same)⟩
  rw [need?, needed]
  change (do return some (← (rest.map Bounds.rectangle).foldlM Bounds.combine (.rectangle first))) = _
  rw [folded]
  rfl

/-! ## Bounds only grow -/

/-- All bounds are rectangles whose corner is a point. -/
structure Laid (extents : Extents) (steps : Array Step) : Prop where
  size : extents.size = steps.size
  rectangle : ∀ {index : Nat} {bounds : Bounds}, extents[index]? = some bounds →
    ∃ own, bounds = .rectangle own ∧ own.Placed

/-- Bounds have grown, and those from a number on are as they were. -/
def Grows (extents after : Extents) (from' : Nat) : Prop :=
  ∀ (index : Nat) (own : Rectangle), extents[index]? = some (.rectangle own) →
    ∃ more, after[index]? = some (.rectangle more) ∧ own.Inside more ∧ (from' ≤ index → more = own)

/-- What a step needs of a slot lies in the bounds of the slot's producer. -/
def Met (step : Step) (own : Rectangle) (edge : Edge) (extents : Extents) : Prop :=
  ∃ need bounds, Needs step own edge.slot need ∧
    extents[edge.producer]? = some (.rectangle bounds) ∧ need.Inside bounds

variable {extents after last : Extents} {edge : Edge} {count : Nat}

theorem Grows.refl (extents : Extents) (count : Nat) : Grows extents extents count :=
  fun _ own found => ⟨own, found, .refl own, fun _ => rfl⟩

theorem Grows.trans (first : Grows extents after count) (second : Grows after last count) :
    Grows extents last count := by
  intro index own found
  obtain ⟨more, found, inside, same⟩ := first index own found
  obtain ⟨most, found, inside', same'⟩ := second index more found
  exact ⟨most, found, inside.trans inside', fun behind => (same' behind).trans (same behind)⟩

theorem Grows.mono {more : Nat} (grows : Grows extents after count) (le : count ≤ more) :
    Grows extents after more := by
  intro index own found
  obtain ⟨most, found, inside, same⟩ := grows index own found
  exact ⟨most, found, inside, fun behind => same (Nat.le_trans le behind)⟩

theorem Met.grows (met : Met step own edge extents) (grows : Grows extents after count) :
    Met step own edge after := by
  obtain ⟨need, bounds, needs, found, inside⟩ := met
  obtain ⟨more, found, inside', -⟩ := grows _ _ found
  exact ⟨need, more, needs, found, inside.trans inside'⟩

theorem laid_initial (planar : ∀ step ∈ steps, step.action.isPlanar = true) :
    (initial steps).Laid steps where
  size := Array.size_map
  rectangle {index _} found := by
    simp only [initial, Array.getElem?_map, Option.map_eq_some_iff] at found
    obtain ⟨step, found, rfl⟩ := found
    refine ⟨.empty, ?_, by decide, by decide⟩
    have isPlanar := planar step (Array.mem_of_getElem? found)
    cases action : step.action with
    | makeProfile maker => rw [action] at isPlanar; cases isPlanar
    | editProfile edit => rw [action] at isPlanar; cases isPlanar
    | _ => rfl

/-- The need of a step is handed to an earlier one. -/
theorem exists_demand (planar : step.action.isPlanar = true)
    (figures : step.action.Figures figureLimit) (placed : own.Placed) (laid : extents.Laid steps)
    (reads : edge.slot ∈ step.readSlots) (earlier : edge.producer < count) (inside : count ≤ steps.size) :
    ∃ after, demand step (.rectangle own) extents edge = .ok after ∧ after.Laid steps ∧
      Grows extents after count ∧ Met step own edge after := by
  obtain ⟨need, needed, needs⟩ := exists_need planar figures placed reads
  have bound : edge.producer < extents.size := by
    rw [laid.size]
    omega
  obtain ⟨present, found, placedPresent⟩ := laid.rectangle (Array.getElem?_eq_getElem bound)
  obtain ⟨inPresent, inNeed⟩ := @Rectangle.inside_combine present need placedPresent
  have placedSum := placedPresent.combine needs.placed
  have lookup (index : Nat) : (extents.setIfInBounds edge.producer
      (.rectangle (present.combine need)))[index]? =
        if edge.producer = index then some (.rectangle (present.combine need)) else extents[index]? := by
    rw [Array.getElem?_setIfInBounds, if_pos bound]
  refine ⟨extents.setIfInBounds edge.producer (.rectangle (present.combine need)), ?_, ?_, ?_, ?_⟩
  · rw [demand, needed, Array.getElem?_eq_getElem bound, found]
    rfl
  · refine ⟨by rw [Array.size_setIfInBounds, laid.size], fun {index bounds} found => ?_⟩
    rw [lookup] at found
    split at found
    case isTrue =>
      cases found
      exact ⟨_, rfl, placedSum⟩
    case isFalse => exact laid.rectangle found
  · intro index other found'
    rw [lookup]
    split
    case isTrue same =>
      subst same
      rw [Array.getElem?_eq_getElem bound, found] at found'
      cases found'
      exact ⟨_, rfl, inPresent, fun behind => absurd earlier (Nat.not_lt.2 behind)⟩
    case isFalse => exact ⟨other, found', .refl other, fun _ => rfl⟩
  · exact ⟨need, _, needs, by rw [lookup, if_pos rfl], inNeed⟩

/-- All needs of a step are handed on. -/
theorem exists_foldlM_demand {edges : List Edge} (planar : step.action.isPlanar = true)
    (figures : step.action.Figures figureLimit) (placed : own.Placed) (laid : extents.Laid steps)
    (inside : count ≤ steps.size)
    (each : ∀ edge ∈ edges, edge.slot ∈ step.readSlots ∧ edge.producer < count) :
    ∃ after, edges.foldlM (demand step (.rectangle own)) extents = .ok after ∧ after.Laid steps ∧
      Grows extents after count ∧ ∀ edge ∈ edges, Met step own edge after := by
  induction edges generalizing extents with
  | nil => exact ⟨extents, rfl, laid, .refl extents count, by simp⟩
  | cons edge edges ih =>
    rw [List.forall_mem_cons] at each
    obtain ⟨between, handed, laid, grows, met⟩ :=
      exists_demand planar figures placed laid each.1.1 each.1.2 inside
    obtain ⟨after, rest, laid, grows', all⟩ := ih laid each.2
    refine ⟨after, ?_, laid, grows.trans grows', List.forall_mem_cons.2 ⟨met.grows grows', all⟩⟩
    rw [List.foldlM_cons, handed]
    exact rest

/-- The steps below a number hand on their needs, and all of these are met in the end. -/
theorem exists_propagate (planar : ∀ step ∈ steps, step.action.isPlanar = true)
    (figures : ∀ step ∈ steps, step.action.Figures figureLimit) (laid : extents.Laid steps)
    (inside : count ≤ steps.size) :
    ∃ after, propagate steps (.ofSteps steps) count extents = .ok after ∧ after.Laid steps ∧
      Grows extents after count ∧ ∀ index step own, index < count → steps[index]? = some step →
        after[index]? = some (.rectangle own) →
          ∀ edge ∈ (Producers.ofSteps steps).edges index, Met step own edge after := by
  induction count generalizing extents with
  | zero => exact ⟨extents, rfl, laid, .refl extents 0, fun _ _ _ none => absurd none (Nat.not_lt_zero _)⟩
  | succ index ih =>
    have found := Array.getElem?_eq_getElem (show index < steps.size by omega)
    have foundOwn := Array.getElem?_eq_getElem (show index < extents.size by rw [laid.size]; omega)
    generalize steps[index] = step at found
    obtain ⟨own, same, placed⟩ := laid.rectangle foundOwn
    rw [same] at foundOwn
    have member := Array.mem_of_getElem? found
    have each (edge : Edge) (edgeOf : edge ∈ (Producers.ofSteps steps).edges index) :
        edge.slot ∈ step.readSlots ∧ edge.producer < index := by
      obtain ⟨reads, last⟩ := (Producers.mem_edges found).1 edgeOf
      exact ⟨reads, last.of_take.1⟩
    obtain ⟨between, handed, laid, grows, met⟩ :=
      exists_foldlM_demand (planar step member) (figures step member) placed laid (by omega) each
    obtain ⟨after, propagated, laid, grows', all⟩ := ih laid (by omega)
    refine ⟨after, ?_, laid, (grows.trans grows').mono (Nat.le_succ _), ?_⟩
    · rw [propagate, found, foundOwn]
      dsimp only
      rw [handed]
      exact propagated
    · intro number other bounds less foundOther foundBounds
      rcases Nat.lt_succ_iff_lt_or_eq.1 less with less | rfl
      · exact all number other bounds less foundOther foundBounds
      · -- the bounds of the step itself have not changed since it handed on its needs
        cases found.symm.trans foundOther
        obtain ⟨kept, foundKept, -, same⟩ := (grows.trans grows') _ _ foundOwn
        cases foundBounds.symm.trans foundKept
        rw [same (Nat.le_refl _)]
        exact fun edge edgeOf => (met edge edgeOf).grows grows'

/-- The bounds of a plan are rectangles, and what a step needs of a slot lies in those of the step that
wrote the slot last. -/
theorem exists_ofSteps (planar : ∀ step ∈ steps, step.action.isPlanar = true)
    (figures : ∀ step ∈ steps, step.action.Figures figureLimit) :
    ∃ extents, ofSteps steps (.ofSteps steps) = .ok extents ∧ extents.Laid steps ∧
      ∀ index step own, steps[index]? = some step → extents[index]? = some (.rectangle own) →
        ∀ slot producer, slot ∈ step.readSlots → LastWrite (steps.toList.take index) slot producer →
          Met step own ⟨slot, producer⟩ extents := by
  obtain ⟨extents, made, laid, -, all⟩ :=
    exists_propagate planar figures (laid_initial planar) (Nat.le_refl steps.size)
  refine ⟨extents, made, laid, fun index step own found foundOwn slot producer reads last => ?_⟩
  have less := (Array.getElem?_eq_some_iff.1 found).1
  exact all index step own less found foundOwn _ ((Producers.mem_edges found).2 ⟨reads, last⟩)

end Extents

end Terrain
