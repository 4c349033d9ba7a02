import Terrain.Plan.Bounds
import Terrain.Proofs.Plane.Regions

/-!
# Hulls of bounds

Bounds whose figures fit 32 bits form a band under `combine`: it is associative and idempotent, also
where a hull is too long and is cut. The cut moves the far end only, and every further hull starts at
or before the same start, so that it is cut at the same place or before it.

* `Interval.Representable`, `Rectangle.Representable`, `Bounds.Representable` — the figures fit 32 bits.
* `Bounds.join` — the combination of bounds of one kind, with `join_assoc` and `join_self`.
* `Bounds.HullFits` — the hull of two bounds is not cut.
* `Bounds.contains_foldl_join` — bounds folded together contain each of them if no hull is cut.
-/

namespace Terrain

/-! ## Intervals -/

namespace Interval

variable {i j k : Interval}

structure Representable (interval : Interval) : Prop where
  start : IsCoordinate interval.start
  length : interval.length ≤ extentMax

instance (interval : Interval) : Decidable interval.Representable :=
  decidable_of_iff (IsCoordinate interval.start ∧ interval.length ≤ extentMax)
    ⟨fun ⟨start, length⟩ => ⟨start, length⟩, fun ⟨start, length⟩ => ⟨start, length⟩⟩

theorem le_extentMax_narrowExtent (value : Int) : narrowExtent value ≤ extentMax :=
  Nat.min_le_right _ _

theorem representable_ofBounds (start stop : Int) : (ofBounds start stop).Representable :=
  ⟨isCoordinate_narrowCoordinate start, le_extentMax_narrowExtent _⟩

theorem representable_hull (i j : Interval) : (hull i j).Representable := representable_ofBounds _ _

theorem Representable.translated (inRange : i.Representable) (offset : Coordinate) :
    (i.translated offset).Representable :=
  ⟨isCoordinate_narrowCoordinate _, inRange.length⟩

theorem isCoordinate_max {x y : Int} (left : IsCoordinate x) (right : IsCoordinate y) :
    IsCoordinate (max x y) := by
  rcases Int.le_total x y with le | le
  · rwa [Int.max_eq_right le]
  · rwa [Int.max_eq_left le]

theorem Representable.intersect (left : i.Representable) (right : j.Representable) :
    (intersect i j).Representable :=
  ⟨isCoordinate_max left.start right.start, le_extentMax_narrowExtent _⟩

theorem representable_stretched (i : Interval) (factor : Scale) : (i.stretched factor).Representable := by
  constructor
  · exact Number.narrowBy_mem Number.truncateWhole coordinateMin coordinateMax _ (by decide) (by decide)
  · have range := Number.narrowBy_mem Number.truncateWhole 0 extentMax (Float.ofNat i.length * factor)
      (by decide) (by decide)
    exact Int.toNat_le.2 range.2

theorem isEmpty_iff_length : i.isEmpty = true ↔ i.length = 0 := beq_iff_eq

theorem stop_mk (start : Coordinate) (length : Extent) :
    stop ⟨start, length⟩ = start + (length : Int) := rfl

/-- A hull starts at the first start; it ends at the last end, unless that is too far away. -/
theorem hull_eq (left : i.Representable) (right : j.Representable) :
    hull i j = ⟨min i.start j.start,
      min (max i.stop j.stop - min i.start j.start).toNat 4294967295⟩ := by
  have low := isCoordinate_iff.1 left.start
  have low' := isCoordinate_iff.1 right.start
  have start : narrowCoordinate (min i.start j.start) = min i.start j.start := by
    rw [narrowCoordinate_eq_max]
    dsimp only [Coordinate]
    omega
  simp only [hull, ofBounds, start, narrowExtent_eq_min]

theorem hull_self (inRange : i.Representable) : hull i i = i := by
  have length := le_extentMax_iff.1 inRange.length
  obtain ⟨start, length⟩ := i
  simp only [hull_eq inRange inRange, stop, Interval.mk.injEq]
  dsimp only [Coordinate, Extent] at *
  omega

/-- A hull that starts before a cut interval is not longer for what the cut has left out. -/
theorem narrowExtent_past_cut {low start stop far : Int} (before : low ≤ start) (ordered : start ≤ stop) :
    min (max (start + ↑(min (stop - start).toNat 4294967295)) far - low).toNat 4294967295 =
      min (max stop far - low).toNat 4294967295 := by
  omega

theorem hull_assoc (first : i.Representable) (second : j.Representable) (third : k.Representable) :
    hull (hull i j) k = hull i (hull j k) := by
  have ordered (a b : Interval) : min a.start b.start ≤ max a.stop b.stop := by
    dsimp only [stop, Coordinate, Extent]
    omega
  rw [hull_eq (representable_hull i j) third, hull_eq first (representable_hull j k),
    hull_eq first second, hull_eq second third]
  simp only [Interval.mk.injEq, stop_mk]
  constructor
  · exact Int.min_assoc _ _ _
  · -- both lengths are those of the hull of all three, cut once
    rw [narrowExtent_past_cut (Int.min_le_left _ _) (ordered i j), Int.max_assoc, Int.min_assoc]
    rw [Int.max_comm i.stop, Int.max_comm i.stop,
      narrowExtent_past_cut (Int.min_le_right _ _) (ordered j k)]

theorem hull_length_ne_zero (left : i.Representable) (right : j.Representable)
    (nonempty : i.length ≠ 0) : (hull i j).length ≠ 0 := by
  rw [hull_eq left right]
  simp only [stop]
  dsimp only [Coordinate, Extent] at *
  omega

theorem combine_self (inRange : i.Representable) : combine i i = i := by
  by_cases empty : i.isEmpty = true
  · simp [combine, empty]
  · simp [combine, empty, hull_self inRange]

theorem combine_of_isEmpty_left (empty : i.isEmpty = true) : combine i j = j := by
  simp [combine, empty]

theorem combine_of_isEmpty_right (empty : j.isEmpty = true) (filled : i.isEmpty = false) :
    combine i j = i := by
  simp [combine, empty, filled]

theorem combine_of_filled (left : i.isEmpty = false) (right : j.isEmpty = false) :
    combine i j = hull i j := by
  simp [combine, left, right]

theorem isEmpty_hull (left : i.Representable) (right : j.Representable) (filled : i.isEmpty = false) :
    (hull i j).isEmpty = false := by
  have length : i.length ≠ 0 := by simpa [isEmpty] using filled
  simpa [isEmpty] using hull_length_ne_zero left right length

theorem combine_assoc (first : i.Representable) (second : j.Representable) (third : k.Representable) :
    combine (combine i j) k = combine i (combine j k) := by
  cases emptyI : i.isEmpty with
  | true => rw [combine_of_isEmpty_left emptyI, combine_of_isEmpty_left emptyI]
  | false =>
    cases emptyJ : j.isEmpty with
    | true => rw [combine_of_isEmpty_right emptyJ emptyI, combine_of_isEmpty_left emptyJ]
    | false =>
      rw [combine_of_filled emptyI emptyJ]
      have filled := isEmpty_hull first second emptyI
      cases emptyK : k.isEmpty with
      | true =>
        rw [combine_of_isEmpty_right emptyK filled, combine_of_isEmpty_right emptyK emptyJ,
          combine_of_filled emptyI emptyJ]
      | false =>
        rw [combine_of_filled filled emptyK, combine_of_filled emptyJ emptyK,
          combine_of_filled emptyI (isEmpty_hull second third emptyJ), hull_assoc first second third]

theorem Representable.combine (left : i.Representable) (right : j.Representable) :
    (combine i j).Representable := by
  unfold Interval.combine
  split
  · exact right
  · split
    · exact left
    · exact representable_hull i j

/-! ### Containment -/

def HullFits (i j : Interval) : Prop :=
  max i.stop j.stop - min i.start j.start ≤ extentMax

instance (i j : Interval) : Decidable (HullFits i j) := inferInstanceAs (Decidable (_ ≤ _))

theorem hullFits_iff : HullFits i j ↔ max i.stop j.stop - min i.start j.start ≤ (4294967295 : Int) :=
  Iff.rfl

theorem containsInterval_iff : i.containsInterval j = true ↔
    j.length = 0 ∨ (i.start ≤ j.start ∧ j.stop ≤ i.stop) := by
  simp [containsInterval, isEmpty]

theorem containsInterval_self (i : Interval) : i.containsInterval i = true := by
  simp [containsInterval_iff]

theorem containsInterval_trans (first : i.containsInterval j = true)
    (second : j.containsInterval k = true) : i.containsInterval k = true := by
  rw [containsInterval_iff] at *
  simp only [stop] at *
  dsimp only [Coordinate, Extent] at *
  omega

/-- A hull that fits ends at the last end. -/
theorem stop_hull (left : i.Representable) (right : j.Representable) (fits : HullFits i j) :
    (hull i j).start = min i.start j.start ∧ (hull i j).stop = max i.stop j.stop := by
  rw [hullFits_iff] at fits
  rw [hull_eq left right]
  simp only [stop, true_and] at *
  dsimp only [Coordinate, Extent] at *
  omega

theorem contains_hull (left : i.Representable) (right : j.Representable) (fits : HullFits i j) :
    (hull i j).containsInterval i = true ∧ (hull i j).containsInterval j = true := by
  obtain ⟨start, stop⟩ := stop_hull left right fits
  rw [containsInterval_iff, containsInterval_iff, start, stop]
  dsimp only [Coordinate]
  omega

/-- Hulls of three intervals fit if those of every two of them do. -/
theorem hullFits_hull (left : i.Representable) (right : j.Representable) (fits : HullFits i j)
    (first : HullFits i k) (second : HullFits j k) : HullFits (hull i j) k := by
  obtain ⟨start, stop⟩ := stop_hull left right fits
  rw [hullFits_iff] at *
  rw [start, stop]
  dsimp only [Coordinate] at *
  omega

end Interval

/-! ## Rectangles -/

namespace Rectangle

variable {a b c : Rectangle}

structure Representable (rectangle : Rectangle) : Prop where
  horizontal : rectangle.horizontal.Representable
  vertical : rectangle.vertical.Representable

instance (rectangle : Rectangle) : Decidable rectangle.Representable :=
  decidable_of_iff (rectangle.horizontal.Representable ∧ rectangle.vertical.Representable)
    ⟨fun ⟨horizontal, vertical⟩ => ⟨horizontal, vertical⟩,
      fun ⟨horizontal, vertical⟩ => ⟨horizontal, vertical⟩⟩

theorem Representable.ofIntervals {i j : Interval} (left : i.Representable) (right : j.Representable) :
    (ofIntervals i j).Representable := ⟨left, right⟩

theorem Representable.expand (rectangle : Rectangle) (amount : Extent) :
    (rectangle.expand amount).Representable :=
  ⟨Interval.representable_ofBounds _ _, Interval.representable_ofBounds _ _⟩

theorem Representable.expandIn (inRange : a.Representable) (amount : Extent) (direction : Direction) :
    (a.expandIn amount direction).Representable := by
  cases direction with
  | horizontal => exact ⟨Interval.representable_ofBounds _ _, inRange.vertical⟩
  | vertical => exact ⟨inRange.horizontal, Interval.representable_ofBounds _ _⟩

theorem Representable.translated (inRange : a.Representable) (offset : Point) :
    (a.translated offset).Representable :=
  ⟨⟨isCoordinate_narrowCoordinate _, inRange.horizontal.length⟩,
    ⟨isCoordinate_narrowCoordinate _, inRange.vertical.length⟩⟩

theorem Representable.intersect (left : a.Representable) (right : b.Representable) :
    (intersect a b).Representable :=
  ⟨left.horizontal.intersect right.horizontal, left.vertical.intersect right.vertical⟩

theorem representable_stretched (a : Rectangle) (horizontal vertical : Scale) :
    (a.stretched horizontal vertical).Representable :=
  ⟨Interval.representable_stretched _ _, Interval.representable_stretched _ _⟩

theorem Representable.scaled_one (inRange : a.Representable) : a.scaled 1.0 = a := by
  unfold scaled
  rw [Interval.scaled_one inRange.horizontal.start inRange.horizontal.length,
    Interval.scaled_one inRange.vertical.start inRange.vertical.length]
  rfl

def hull (a b : Rectangle) : Rectangle :=
  ofIntervals (.hull a.horizontal b.horizontal) (.hull a.vertical b.vertical)

theorem representable_hull (a b : Rectangle) : (hull a b).Representable :=
  ⟨Interval.representable_hull _ _, Interval.representable_hull _ _⟩

theorem isEmpty_eq (a : Rectangle) : a.isEmpty = (a.horizontal.isEmpty || a.vertical.isEmpty) := by
  simp only [isEmpty, Size.area, Interval.isEmpty, horizontal, vertical]
  rw [Bool.eq_iff_iff]
  simp

theorem isEmpty_hull (left : a.Representable) (right : b.Representable) (filled : a.isEmpty = false) :
    (hull a b).isEmpty = false := by
  rw [isEmpty_eq, Bool.or_eq_false_iff] at *
  exact ⟨Interval.isEmpty_hull left.horizontal right.horizontal filled.1,
    Interval.isEmpty_hull left.vertical right.vertical filled.2⟩

theorem hull_assoc (first : a.Representable) (second : b.Representable) (third : c.Representable) :
    hull (hull a b) c = hull a (hull b c) :=
  congrArg₂ ofIntervals (Interval.hull_assoc first.horizontal second.horizontal third.horizontal)
    (Interval.hull_assoc first.vertical second.vertical third.vertical)

theorem hull_self (inRange : a.Representable) : hull a a = a :=
  congrArg₂ ofIntervals (Interval.hull_self inRange.horizontal) (Interval.hull_self inRange.vertical)

theorem combine_of_isEmpty_left (empty : a.isEmpty = true) : combine a b = b := by
  simp [combine, empty]

theorem combine_of_isEmpty_right (empty : b.isEmpty = true) (filled : a.isEmpty = false) :
    combine a b = a := by
  simp [combine, empty, filled]

theorem combine_of_filled (left : a.isEmpty = false) (right : b.isEmpty = false) :
    combine a b = hull a b := by
  simp [combine, hull, left, right]

theorem combine_self (inRange : a.Representable) : combine a a = a := by
  cases empty : a.isEmpty with
  | true => exact combine_of_isEmpty_left empty
  | false => rw [combine_of_filled empty empty, hull_self inRange]

theorem combine_assoc (first : a.Representable) (second : b.Representable) (third : c.Representable) :
    combine (combine a b) c = combine a (combine b c) := by
  cases emptyA : a.isEmpty with
  | true => rw [combine_of_isEmpty_left emptyA, combine_of_isEmpty_left emptyA]
  | false =>
    cases emptyB : b.isEmpty with
    | true => rw [combine_of_isEmpty_right emptyB emptyA, combine_of_isEmpty_left emptyB]
    | false =>
      rw [combine_of_filled emptyA emptyB]
      have filled := isEmpty_hull first second emptyA
      cases emptyC : c.isEmpty with
      | true =>
        rw [combine_of_isEmpty_right emptyC filled, combine_of_isEmpty_right emptyC emptyB,
          combine_of_filled emptyA emptyB]
      | false =>
        rw [combine_of_filled filled emptyC, combine_of_filled emptyB emptyC,
          combine_of_filled emptyA (isEmpty_hull second third emptyB), hull_assoc first second third]

theorem Representable.combine (left : a.Representable) (right : b.Representable) :
    (combine a b).Representable := by
  unfold Rectangle.combine
  split
  · exact right
  · split
    · exact left
    · exact representable_hull a b

/-! ### Containment -/

def HullFits (a b : Rectangle) : Prop :=
  Interval.HullFits a.horizontal b.horizontal ∧ Interval.HullFits a.vertical b.vertical

instance (a b : Rectangle) : Decidable (HullFits a b) := inferInstanceAs (Decidable (_ ∧ _))

theorem containsRectangle_iff : a.containsRectangle b = true ↔ b.isEmpty = true ∨
    (a.horizontal.containsInterval b.horizontal = true ∧
      a.vertical.containsInterval b.vertical = true) := by
  simp [containsRectangle]

theorem containsRectangle_self (a : Rectangle) : a.containsRectangle a = true :=
  containsRectangle_iff.2 (.inr ⟨Interval.containsInterval_self _, Interval.containsInterval_self _⟩)

theorem containsRectangle_trans (first : a.containsRectangle b = true)
    (second : b.containsRectangle c = true) : a.containsRectangle c = true := by
  rw [containsRectangle_iff] at first second ⊢
  rcases second with empty | ⟨inHorizontal, inVertical⟩
  · exact .inl empty
  rcases first with empty | ⟨horizontal, vertical⟩
  · -- nothing but empty rectangles lies in an empty one
    left
    rw [isEmpty_eq, Bool.or_eq_true] at empty ⊢
    simp only [Interval.containsInterval_iff, Interval.isEmpty_iff_length, Interval.stop] at *
    dsimp only [Coordinate, Extent] at *
    omega
  · exact .inr ⟨Interval.containsInterval_trans horizontal inHorizontal,
      Interval.containsInterval_trans vertical inVertical⟩

theorem contains_hull (left : a.Representable) (right : b.Representable) (fits : HullFits a b) :
    (hull a b).containsRectangle a = true ∧ (hull a b).containsRectangle b = true := by
  obtain ⟨leftX, rightX⟩ := Interval.contains_hull left.horizontal right.horizontal fits.1
  obtain ⟨leftY, rightY⟩ := Interval.contains_hull left.vertical right.vertical fits.2
  exact ⟨containsRectangle_iff.2 (.inr ⟨leftX, leftY⟩), containsRectangle_iff.2 (.inr ⟨rightX, rightY⟩)⟩

theorem hullFits_hull (left : a.Representable) (right : b.Representable) (fits : HullFits a b)
    (first : HullFits a c) (second : HullFits b c) : HullFits (hull a b) c :=
  ⟨Interval.hullFits_hull left.horizontal right.horizontal fits.1 first.1 second.1,
    Interval.hullFits_hull left.vertical right.vertical fits.2 first.2 second.2⟩

end Rectangle

/-! ## Bounds of either kind -/

namespace Bounds

variable {a b c : Bounds}

def Representable : Bounds → Prop
  | rectangle extent => extent.Representable
  | interval extent => extent.Representable

theorem representable_empty (kind : RasterKind) : (empty kind).Representable := by
  cases kind <;> exact ⟨by decide, by decide⟩

def join : Bounds → Bounds → Bounds
  | rectangle a, rectangle b => rectangle (.combine a b)
  | interval a, interval b => interval (.combine a b)
  | a, _ => a

theorem combine_eq (same : a.kind = b.kind) : a.combine b = .ok (a.join b) := by
  cases a <;> cases b <;> first | rfl | cases same

theorem kind_join (a b : Bounds) : (a.join b).kind = a.kind := by
  cases a <;> cases b <;> rfl

theorem Representable.join (left : a.Representable) (right : b.Representable) :
    (a.join b).Representable := by
  cases a with
  | rectangle a =>
    cases b with
    | rectangle b => exact Rectangle.Representable.combine left right
    | interval b => exact left
  | interval a =>
    cases b with
    | rectangle b => exact left
    | interval b => exact Interval.Representable.combine left right

theorem join_self (inRange : a.Representable) : a.join a = a := by
  cases a with
  | rectangle a => exact congrArg rectangle (Rectangle.combine_self inRange)
  | interval a => exact congrArg interval (Interval.combine_self inRange)

theorem join_assoc (first : a.Representable) (second : b.Representable) (third : c.Representable)
    (same : b.kind = c.kind) : (a.join b).join c = a.join (b.join c) := by
  cases a with
  | rectangle a =>
    cases b with
    | rectangle b =>
      cases c with
      | rectangle c => exact congrArg rectangle (Rectangle.combine_assoc first second third)
      | interval c => cases same
    | interval b =>
      cases c with
      | rectangle c => cases same
      | interval c => rfl
  | interval a =>
    cases b with
    | rectangle b =>
      cases c with
      | rectangle c => rfl
      | interval c => cases same
    | interval b =>
      cases c with
      | rectangle c => cases same
      | interval c => exact congrArg interval (Interval.combine_assoc first second third)

structure Suits (bounds : Bounds) (kind : RasterKind) : Prop where
  kind : bounds.kind = kind
  inRange : bounds.Representable

theorem suits_empty (kind : RasterKind) : (empty kind).Suits kind :=
  ⟨by cases kind <;> rfl, representable_empty kind⟩

section Folds

variable {start first : Bounds} {demands : List Bounds} {kind : RasterKind}

theorem Suits.join (suits : a.Suits kind) (suitsToo : b.Suits kind) : (a.join b).Suits kind :=
  ⟨(kind_join _ _).trans suits.kind, suits.inRange.join suitsToo.inRange⟩

theorem Suits.foldl_join (suits : start.Suits kind) (all : ∀ demand ∈ demands, demand.Suits kind) :
    (demands.foldl Bounds.join start).Suits kind := by
  induction demands generalizing start with
  | nil => exact suits
  | cons second demands ih =>
    rw [List.forall_mem_cons] at all
    exact ih (suits.join all.1) all.2

/-- Bounds that all are of one kind fold together without a breach. -/
theorem foldlM_combine_eq (suits : start.Suits kind) (all : ∀ demand ∈ demands, demand.Suits kind) :
    demands.foldlM combine start = .ok (demands.foldl join start) := by
  induction demands generalizing start with
  | nil => rfl
  | cons second demands ih =>
    rw [List.forall_mem_cons] at all
    rw [List.foldlM_cons, combine_eq (suits.kind.trans all.1.kind.symm)]
    exact ih (suits.join all.1) all.2

/-- Bounds folded onto a start may be folded together first. -/
theorem join_foldl_join (suits : start.Suits kind) (firstSuits : first.Suits kind)
    (all : ∀ demand ∈ demands, demand.Suits kind) :
    start.join (demands.foldl join first) = demands.foldl join (start.join first) := by
  induction demands generalizing first with
  | nil => rfl
  | cons second demands ih =>
    rw [List.forall_mem_cons] at all
    rw [List.foldl_cons, List.foldl_cons, join_assoc suits.inRange firstSuits.inRange all.1.inRange
      (firstSuits.kind.trans all.1.kind.symm)]
    exact ih (firstSuits.join all.1) all.2

/-- The same bounds need not be joined twice. -/
theorem join_join_self (suits : start.Suits kind) (firstSuits : first.Suits kind) :
    (start.join first).join first = start.join first := by
  rw [join_assoc suits.inRange firstSuits.inRange firstSuits.inRange rfl, join_self firstSuits.inRange]

end Folds

/-! ### Containment -/

def contains : Bounds → Bounds → Bool
  | rectangle outer, rectangle inner => outer.containsRectangle inner
  | interval outer, interval inner => outer.containsInterval inner
  | _, _ => false

/-- The hull of two bounds is not too long. Empty bounds have no hull with others. -/
def HullFits : Bounds → Bounds → Prop
  | rectangle a, rectangle b => a.isEmpty = true ∨ b.isEmpty = true ∨ a.HullFits b
  | interval a, interval b => a.isEmpty = true ∨ b.isEmpty = true ∨ a.HullFits b
  | _, _ => True

instance : DecidableRel HullFits
  | rectangle _, rectangle _ => inferInstanceAs (Decidable (_ ∨ _ ∨ _))
  | interval _, interval _ => inferInstanceAs (Decidable (_ ∨ _ ∨ _))
  | rectangle _, interval _ => inferInstanceAs (Decidable True)
  | interval _, rectangle _ => inferInstanceAs (Decidable True)

theorem contains_self (a : Bounds) : a.contains a = true := by
  cases a with
  | rectangle a => exact Rectangle.containsRectangle_self a
  | interval a => exact Interval.containsInterval_self a

theorem contains_trans (first : a.contains b = true) (second : b.contains c = true) :
    a.contains c = true := by
  cases a with
  | rectangle a =>
    cases b with
    | rectangle b =>
      cases c with
      | rectangle c => exact Rectangle.containsRectangle_trans first second
      | interval c => cases second
    | interval b => cases first
  | interval a =>
    cases b with
    | rectangle b => cases first
    | interval b =>
      cases c with
      | rectangle c => cases second
      | interval c => exact Interval.containsInterval_trans first second

theorem contains_join (left : a.Representable) (right : b.Representable) (same : a.kind = b.kind)
    (fits : HullFits a b) : (a.join b).contains a = true ∧ (a.join b).contains b = true := by
  cases a <;> cases b <;> cases same
  case rectangle.rectangle.refl a b =>
    change (Rectangle.combine a b).containsRectangle a = true ∧
      (Rectangle.combine a b).containsRectangle b = true
    cases emptyA : a.isEmpty with
    | true =>
      rw [Rectangle.combine_of_isEmpty_left emptyA]
      exact ⟨by simp [Rectangle.containsRectangle, emptyA], Rectangle.containsRectangle_self b⟩
    | false =>
      cases emptyB : b.isEmpty with
      | true =>
        rw [Rectangle.combine_of_isEmpty_right emptyB emptyA]
        exact ⟨Rectangle.containsRectangle_self a, by simp [Rectangle.containsRectangle, emptyB]⟩
      | false =>
        rw [Rectangle.combine_of_filled emptyA emptyB]
        have fits : a.HullFits b := by simpa [HullFits, emptyA, emptyB] using fits
        exact Rectangle.contains_hull left right fits
  case interval.interval.refl a b =>
    change (Interval.combine a b).containsInterval a = true ∧
      (Interval.combine a b).containsInterval b = true
    cases emptyA : a.isEmpty with
    | true =>
      rw [Interval.combine_of_isEmpty_left emptyA]
      exact ⟨by simp [Interval.containsInterval, emptyA], Interval.containsInterval_self b⟩
    | false =>
      cases emptyB : b.isEmpty with
      | true =>
        rw [Interval.combine_of_isEmpty_right emptyB emptyA]
        exact ⟨Interval.containsInterval_self a, by simp [Interval.containsInterval, emptyB]⟩
      | false =>
        rw [Interval.combine_of_filled emptyA emptyB]
        have fits : a.HullFits b := by simpa [HullFits, emptyA, emptyB] using fits
        exact Interval.contains_hull left right fits

theorem hullFits_join (left : a.Representable) (right : b.Representable) (same : a.kind = b.kind)
    (fits : HullFits a b) (first : HullFits a c) (second : HullFits b c) : HullFits (a.join b) c := by
  cases a <;> cases b <;> cases same
  all_goals cases c <;> first | exact trivial | skip
  case rectangle.rectangle.refl.rectangle a b c =>
    change HullFits (.rectangle (.combine a b)) (.rectangle c)
    cases emptyA : a.isEmpty with
    | true => rwa [Rectangle.combine_of_isEmpty_left emptyA]
    | false =>
      cases emptyB : b.isEmpty with
      | true => rwa [Rectangle.combine_of_isEmpty_right emptyB emptyA]
      | false =>
        rw [Rectangle.combine_of_filled emptyA emptyB]
        simp only [HullFits, emptyA, emptyB, Bool.false_eq_true, false_or] at fits first second ⊢
        rcases first with empty | first
        · exact .inr (.inl empty)
        rcases second with empty | second
        · exact .inr (.inl empty)
        exact .inr (.inr (Rectangle.hullFits_hull left right fits first second))
  case interval.interval.refl.interval a b c =>
    change HullFits (.interval (.combine a b)) (.interval c)
    cases emptyA : a.isEmpty with
    | true => rwa [Interval.combine_of_isEmpty_left emptyA]
    | false =>
      cases emptyB : b.isEmpty with
      | true => rwa [Interval.combine_of_isEmpty_right emptyB emptyA]
      | false =>
        rw [Interval.combine_of_filled emptyA emptyB]
        simp only [HullFits, emptyA, emptyB, Bool.false_eq_true, false_or] at fits first second ⊢
        rcases first with empty | first
        · exact .inr (.inl empty)
        rcases second with empty | second
        · exact .inr (.inl empty)
        exact .inr (.inr (Interval.hullFits_hull left right fits first second))

/-- If no two of some bounds are too far apart, what they fold together to contains each of them. -/
theorem contains_foldl_join {demands : List Bounds} {start : Bounds} {kind : RasterKind}
    (suits : start.Suits kind) (all : ∀ demand ∈ demands, demand.Suits kind)
    (fits : (start :: demands).Pairwise HullFits) :
    ∀ demand ∈ start :: demands, (demands.foldl join start).contains demand = true := by
  induction demands generalizing start with
  | nil => simp [contains_self]
  | cons first demands ih =>
    rw [List.forall_mem_cons] at all
    simp only [List.pairwise_cons, List.forall_mem_cons] at fits
    obtain ⟨⟨near, startFits⟩, firstFits, apart⟩ := fits
    have same := suits.kind.trans all.1.kind.symm
    obtain ⟨holdsStart, holdsFirst⟩ := contains_join suits.inRange all.1.inRange same near
    -- the hull of the first two is as near to the others as they are themselves
    have nearOthers (other : Bounds) (member : other ∈ demands) : HullFits (start.join first) other :=
      hullFits_join suits.inRange all.1.inRange same near (startFits other member)
        (firstFits other member)
    have holds := ih (suits.join all.1) all.2 (List.pairwise_cons.2 ⟨nearOthers, apart⟩)
    rw [List.forall_mem_cons] at holds
    simp only [List.forall_mem_cons, List.foldl_cons]
    exact ⟨contains_trans holds.1 holdsStart, contains_trans holds.1 holdsFirst, holds.2⟩

end Bounds

end Terrain
