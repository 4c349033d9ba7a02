import Terrain.Proofs.Plane.Hulls
import Terrain.Proofs.Plane.Overlaps

/-!
# Laws of extents

Intervals and rectangles are combined, intersected, grown and shrunk by the same laws. They hold up to
the ends of the 32-bit figures: a hull that is too long is cut at its far end, and all that is lost by
the cut is that it contains its operands.

Two empty extents are the only ones whose order matters, since the first one is dropped. Bounds that
differ at most in how they are empty are alike, and up to that, folding is free of order.

* `Shape` — what is done with the extents of one shape, and `Shape.Lawful` the laws.
* `Shape.Hulls` — what makes combining lawful, whatever the shape.
* `Interval.lawful_shape`, `Rectangle.lawful_shape` — the two shapes obey the laws.
* `Bounds.Alike`, `Bounds.alike_foldl_join_of_perm` — folds in different orders.
* `bounds_lawful` — all of it together.
-/

namespace Terrain

/-! ## Intervals -/

namespace Interval

variable {i j k : Interval} {amount : Extent}

theorem hull_comm (i j : Interval) : hull i j = hull j i := by
  rw [hull, hull, Int.min_comm, Int.max_comm]

/-! ### Containment -/

theorem containsInterval_iff_of_filled (filled : j.isEmpty = false) :
    i.containsInterval j = true ↔ i.start ≤ j.start ∧ j.stop ≤ i.stop := by
  have length : j.length ≠ 0 := by simpa [isEmpty] using filled
  rw [containsInterval_iff]
  exact or_iff_right length

/-- What contains two intervals contains their hull, also one that was cut. -/
theorem containsInterval_hull (left : i.Representable) (right : j.Representable)
    (filledI : i.isEmpty = false) (filledJ : j.isEmpty = false)
    (first : k.containsInterval i = true) (second : k.containsInterval j = true) :
    k.containsInterval (hull i j) = true := by
  rw [containsInterval_iff_of_filled filledI] at first
  rw [containsInterval_iff_of_filled filledJ] at second
  rw [containsInterval_iff_of_filled (isEmpty_hull left right filledI), hull_eq left right]
  -- the start is never cut, and a cut only brings the end nearer
  simp only [stop] at *
  dsimp only [Coordinate, Extent] at *
  omega

/-- A hull contains what it was made of unless it was cut. -/
theorem contains_hull_iff (left : i.Representable) (right : j.Representable)
    (filledI : i.isEmpty = false) (filledJ : j.isEmpty = false) :
    (hull i j).containsInterval i = true ∧ (hull i j).containsInterval j = true ↔ HullFits i j := by
  refine ⟨fun ⟨first, second⟩ => ?_, contains_hull left right⟩
  rw [containsInterval_iff_of_filled filledI] at first
  rw [containsInterval_iff_of_filled filledJ] at second
  rw [hull_eq left right] at first second
  rw [hullFits_iff]
  simp only [stop] at *
  dsimp only [Coordinate, Extent] at *
  omega

/-! ### Overlaps -/

/-- An interval of what two others share. The length is that of the overlap itself. -/
def IsOverlap (i j shared : Interval) : Prop :=
  shared.start = max i.start j.start ∧
    (shared.length : Int) = max 0 (min i.stop j.stop - max i.start j.start)

theorem isOverlap_intersect (inRange : i.Representable) : i.IsOverlap j (intersect i j) := by
  have length := le_extentMax_iff.1 inRange.length
  refine ⟨rfl, ?_⟩
  simp only [intersect, stop, narrowExtent_eq_min]
  dsimp only [Coordinate, Extent] at *
  omega

/-! ### Growing and shrinking -/

def Interior (interval : Interval) : Prop :=
  coordinateMin < interval.start ∧ interval.length < extentMax

/-- Growing by an amount cuts neither figure. -/
def Uncut (interval : Interval) (amount : Extent) : Prop :=
  coordinateMin ≤ interval.start - amount ∧ interval.length + 2 * amount ≤ extentMax

instance (interval : Interval) : Decidable interval.Interior := inferInstanceAs (Decidable (_ ∧ _))

instance (interval : Interval) (amount : Extent) : Decidable (interval.Uncut amount) :=
  inferInstanceAs (Decidable (_ ∧ _))

theorem interior_iff : i.Interior ↔
    (-2147483648 : Int) < i.start ∧ i.length < (4294967295 : Nat) := Iff.rfl

theorem uncut_iff : i.Uncut amount ↔ (-2147483648 : Int) ≤ i.start - amount ∧
    i.length + 2 * amount ≤ (4294967295 : Nat) := Iff.rfl

theorem expand_eq (inRange : i.Representable) (uncut : i.Uncut amount) :
    i.expand amount = ⟨i.start - amount, i.length + 2 * amount⟩ := by
  have start := isCoordinate_iff.1 inRange.start
  rw [uncut_iff] at uncut
  simp only [expand, ofBounds, stop, narrowExtent_eq_min, narrowCoordinate_eq_max, Interval.mk.injEq]
  dsimp only [Coordinate, Extent] at *
  omega

theorem contract_expand (inRange : i.Representable) (uncut : i.Uncut amount) :
    (i.expand amount).contract amount = i := by
  have start := isCoordinate_iff.1 inRange.start
  have length := le_extentMax_iff.1 inRange.length
  rw [expand_eq inRange uncut]
  -- the way back cuts nothing either: it ends at figures that fit
  obtain ⟨start, length⟩ := i
  simp only [contract, narrowExtent_eq_min, narrowCoordinate_eq_max, Interval.mk.injEq]
  dsimp only [Coordinate, Extent] at *
  omega

theorem uncut_of_interior_expand (inRange : i.Representable) (interior : (i.expand amount).Interior) :
    i.Uncut amount := by
  have start := isCoordinate_iff.1 inRange.start
  rw [uncut_iff]
  -- a figure that was cut is at the end of its range
  simp only [interior_iff, expand, ofBounds, stop, narrowExtent_eq_min,
    narrowCoordinate_eq_max] at interior
  dsimp only [Coordinate, Extent] at *
  omega

end Interval

/-! ## Rectangles -/

namespace Rectangle

variable {a b c : Rectangle} {amount : Extent} {point : Point}

theorem hull_comm (a b : Rectangle) : hull a b = hull b a :=
  congrArg₂ ofIntervals (Interval.hull_comm _ _) (Interval.hull_comm _ _)

/-! ### Containment -/

/-- A rectangle with an area has two sides with a length. -/
theorem sides_filled (filled : a.isEmpty = false) :
    a.horizontal.isEmpty = false ∧ a.vertical.isEmpty = false := by
  rwa [isEmpty_eq, Bool.or_eq_false_iff] at filled

theorem containsRectangle_iff_of_filled (filled : b.isEmpty = false) :
    a.containsRectangle b = true ↔ a.horizontal.containsInterval b.horizontal = true ∧
      a.vertical.containsInterval b.vertical = true := by
  rw [containsRectangle_iff, filled]
  exact or_iff_right Bool.false_ne_true

theorem containsRectangle_hull (left : a.Representable) (right : b.Representable)
    (filledA : a.isEmpty = false) (filledB : b.isEmpty = false)
    (first : c.containsRectangle a = true) (second : c.containsRectangle b = true) :
    c.containsRectangle (hull a b) = true := by
  obtain ⟨horizontalA, verticalA⟩ := sides_filled filledA
  obtain ⟨horizontalB, verticalB⟩ := sides_filled filledB
  rw [containsRectangle_iff_of_filled filledA] at first
  rw [containsRectangle_iff_of_filled filledB] at second
  rw [containsRectangle_iff_of_filled (isEmpty_hull left right filledA)]
  exact ⟨Interval.containsInterval_hull left.horizontal right.horizontal horizontalA horizontalB
      first.1 second.1,
    Interval.containsInterval_hull left.vertical right.vertical verticalA verticalB first.2 second.2⟩

theorem contains_hull_iff (left : a.Representable) (right : b.Representable)
    (filledA : a.isEmpty = false) (filledB : b.isEmpty = false) :
    (hull a b).containsRectangle a = true ∧ (hull a b).containsRectangle b = true ↔ HullFits a b := by
  refine ⟨fun ⟨first, second⟩ => ?_, contains_hull left right⟩
  obtain ⟨horizontalA, verticalA⟩ := sides_filled filledA
  obtain ⟨horizontalB, verticalB⟩ := sides_filled filledB
  rw [containsRectangle_iff_of_filled filledA] at first
  rw [containsRectangle_iff_of_filled filledB] at second
  have horizontal := Interval.contains_hull_iff left.horizontal right.horizontal horizontalA horizontalB
  have vertical := Interval.contains_hull_iff left.vertical right.vertical verticalA verticalB
  exact ⟨horizontal.1 ⟨first.1, second.1⟩, vertical.1 ⟨first.2, second.2⟩⟩

/-! ### Overlaps, growing and shrinking -/

theorem containsPoint_intersect (inRange : a.Representable) :
    (intersect a b).containsPoint point = true ↔
      a.containsPoint point = true ∧ b.containsPoint point = true := by
  rw [containsPoint_iff, containsPoint_iff, containsPoint_iff,
    covers_intersect inRange.horizontal.length inRange.vertical.length]

theorem isOverlap_intersect (inRange : a.Representable) (direction : Direction) :
    (a.along direction).IsOverlap (b.along direction) ((intersect a b).along direction) := by
  cases direction with
  | horizontal => exact Interval.isOverlap_intersect inRange.horizontal
  | vertical => exact Interval.isOverlap_intersect inRange.vertical

def Interior (rectangle : Rectangle) : Prop := rectangle.horizontal.Interior ∧ rectangle.vertical.Interior

def Uncut (rectangle : Rectangle) (amount : Extent) : Prop :=
  rectangle.horizontal.Uncut amount ∧ rectangle.vertical.Uncut amount

instance (rectangle : Rectangle) : Decidable rectangle.Interior := inferInstanceAs (Decidable (_ ∧ _))

instance (rectangle : Rectangle) (amount : Extent) : Decidable (rectangle.Uncut amount) :=
  inferInstanceAs (Decidable (_ ∧ _))

theorem contract_expand (inRange : a.Representable) (uncut : a.Uncut amount) :
    (a.expand amount).contract amount = a :=
  congrArg₂ ofIntervals (Interval.contract_expand inRange.horizontal uncut.1)
    (Interval.contract_expand inRange.vertical uncut.2)

theorem uncut_of_interior_expand (inRange : a.Representable) (interior : (a.expand amount).Interior) :
    a.Uncut amount :=
  ⟨Interval.uncut_of_interior_expand inRange.horizontal interior.1,
    Interval.uncut_of_interior_expand inRange.vertical interior.2⟩

end Rectangle

/-! ## The laws of both shapes -/

/-- What is done with the extents of one shape, and when it is done without a cut. -/
structure Shape (α π : Type) where
  isEmpty : α → Bool
  /-- The smallest extent around two, empty or not. -/
  hull : α → α → α
  combine : α → α → α
  intersect : α → α → α
  expand : α → Extent → α
  contract : α → Extent → α
  /-- Whether the second extent lies in the first. -/
  contains : α → α → Bool
  /-- Whether a place lies in the extent. -/
  covers : α → π → Bool
  /-- The figures fit 32 bits. -/
  Representable : α → Prop
  /-- The hull of two extents is not too long. -/
  HullFits : α → α → Prop
  /-- No figure is at the end of its range. -/
  Interior : α → Prop
  /-- Growing by an amount cuts no figure. -/
  Uncut : α → Extent → Prop

def Interval.shape : Shape Interval Coordinate where
  isEmpty := isEmpty
  hull := hull
  combine := combine
  intersect := intersect
  expand := expand
  contract := contract
  contains := containsInterval
  covers := contains
  Representable := Representable
  HullFits := HullFits
  Interior := Interior
  Uncut := Uncut

def Rectangle.shape : Shape Rectangle Point where
  isEmpty := isEmpty
  hull := hull
  combine := combine
  intersect := intersect
  expand := expand
  contract := contract
  contains := containsRectangle
  covers := containsPoint
  Representable := Representable
  HullFits := HullFits
  Interior := Interior
  Uncut := Uncut

/-- The laws of the extents of a shape. Only containment of the operands needs a hull that fits; it is
what a cut hull lacks. -/
structure Shape.Lawful {α π : Type} (shape : Shape α π) : Prop where
  combine_assoc : ∀ {a b c}, shape.Representable a → shape.Representable b → shape.Representable c →
    shape.combine (shape.combine a b) c = shape.combine a (shape.combine b c)
  combine_self : ∀ {a}, shape.Representable a → shape.combine a a = a
  combine_empty : ∀ {a b}, shape.isEmpty a = false → shape.isEmpty b = true →
    shape.combine a b = a ∧ shape.combine b a = a
  combine_comm : ∀ {a b}, shape.isEmpty a = false ∨ shape.isEmpty b = false →
    shape.combine a b = shape.combine b a
  contains_operands : ∀ {a b}, shape.Representable a → shape.Representable b →
    (shape.contains (shape.combine a b) a = true ∧ shape.contains (shape.combine a b) b = true ↔
      shape.isEmpty a = true ∨ shape.isEmpty b = true ∨ shape.HullFits a b)
  combine_least : ∀ {a b c}, shape.Representable a → shape.Representable b →
    shape.contains c a = true → shape.contains c b = true →
    shape.contains c (shape.combine a b) = true
  covers_intersect : ∀ {a b place}, shape.Representable a →
    (shape.covers (shape.intersect a b) place = true ↔
      shape.covers a place = true ∧ shape.covers b place = true)
  contract_expand : ∀ {a amount}, shape.Representable a → shape.Uncut a amount →
    shape.contract (shape.expand a amount) amount = a
  uncut_of_interior : ∀ {a amount}, shape.Representable a → shape.Interior (shape.expand a amount) →
    shape.Uncut a amount

namespace Shape

variable {α π : Type} {shape : Shape α π} {a b c : α}

/-- What is to be known of the hulls of a shape: they are symmetric and least, contain what they were
made of unless they are cut, and combining drops empty operands. -/
structure Hulls (shape : Shape α π) : Prop where
  combine_eq : ∀ a b, shape.combine a b =
    if shape.isEmpty a then b else if shape.isEmpty b then a else shape.hull a b
  contains_self : ∀ a, shape.contains a a = true
  contains_empty : ∀ {a b}, shape.isEmpty b = true → shape.contains a b = true
  hull_comm : ∀ a b, shape.hull a b = shape.hull b a
  contains_hull : ∀ {a b}, shape.Representable a → shape.Representable b →
    shape.isEmpty a = false → shape.isEmpty b = false →
    (shape.contains (shape.hull a b) a = true ∧ shape.contains (shape.hull a b) b = true ↔
      shape.HullFits a b)
  hull_least : ∀ {a b c}, shape.Representable a → shape.Representable b →
    shape.isEmpty a = false → shape.isEmpty b = false →
    shape.contains c a = true → shape.contains c b = true → shape.contains c (shape.hull a b) = true

namespace Hulls

variable (hulls : shape.Hulls)

include hulls

theorem combine_cases (a b : α) :
    shape.isEmpty a = true ∧ shape.combine a b = b ∨
      shape.isEmpty a = false ∧ shape.isEmpty b = true ∧ shape.combine a b = a ∨
        shape.isEmpty a = false ∧ shape.isEmpty b = false ∧ shape.combine a b = shape.hull a b := by
  rw [hulls.combine_eq]
  cases shape.isEmpty a <;> cases shape.isEmpty b <;> simp

theorem combine_empty (filled : shape.isEmpty a = false) (empty : shape.isEmpty b = true) :
    shape.combine a b = a ∧ shape.combine b a = a := by
  rw [hulls.combine_eq, hulls.combine_eq, filled, empty]
  exact ⟨rfl, rfl⟩

theorem combine_comm (filled : shape.isEmpty a = false ∨ shape.isEmpty b = false) :
    shape.combine a b = shape.combine b a := by
  rcases hulls.combine_cases a b with ⟨emptyA, eq⟩ | ⟨filledA, emptyB, eq⟩ | ⟨filledA, filledB, eq⟩
  · have filledB : shape.isEmpty b = false := by simpa [emptyA] using filled
    rw [eq, (hulls.combine_empty filledB emptyA).1]
  · rw [eq, (hulls.combine_empty filledA emptyB).2]
  · rw [eq, hulls.hull_comm, hulls.combine_eq b a, filledA, filledB]
    rfl

/-- Only a hull that is cut does not contain what it was made of. -/
theorem contains_operands (left : shape.Representable a) (right : shape.Representable b) :
    shape.contains (shape.combine a b) a = true ∧ shape.contains (shape.combine a b) b = true ↔
      shape.isEmpty a = true ∨ shape.isEmpty b = true ∨ shape.HullFits a b := by
  rcases hulls.combine_cases a b with ⟨emptyA, eq⟩ | ⟨-, emptyB, eq⟩ | ⟨filledA, filledB, eq⟩
  · rw [eq]
    exact iff_of_true ⟨hulls.contains_empty emptyA, hulls.contains_self b⟩ (.inl emptyA)
  · rw [eq]
    exact iff_of_true ⟨hulls.contains_self a, hulls.contains_empty emptyB⟩ (.inr (.inl emptyB))
  · rw [eq, hulls.contains_hull left right filledA filledB, filledA, filledB]
    simp

theorem combine_least (left : shape.Representable a) (right : shape.Representable b)
    (first : shape.contains c a = true) (second : shape.contains c b = true) :
    shape.contains c (shape.combine a b) = true := by
  rcases hulls.combine_cases a b with ⟨-, eq⟩ | ⟨-, -, eq⟩ | ⟨filledA, filledB, eq⟩
  · rwa [eq]
  · rwa [eq]
  · rw [eq]
    exact hulls.hull_least left right filledA filledB first second

end Hulls

end Shape

theorem Interval.hulls_shape : Interval.shape.Hulls where
  combine_eq _ _ := rfl
  contains_self := containsInterval_self
  contains_empty empty := containsInterval_iff.2 (.inl (isEmpty_iff_length.1 empty))
  hull_comm := hull_comm
  contains_hull := contains_hull_iff
  hull_least := containsInterval_hull

theorem Interval.lawful_shape : Interval.shape.Lawful where
  combine_assoc := combine_assoc
  combine_self := combine_self
  combine_empty := hulls_shape.combine_empty
  combine_comm := hulls_shape.combine_comm
  contains_operands := hulls_shape.contains_operands
  combine_least := hulls_shape.combine_least
  covers_intersect {i j x} inRange := by
    change (intersect i j).contains x = true ↔ i.contains x = true ∧ j.contains x = true
    rw [contains_iff, contains_iff, contains_iff, Interval.covers_intersect inRange.length]
  contract_expand := contract_expand
  uncut_of_interior := uncut_of_interior_expand

theorem Rectangle.hulls_shape : Rectangle.shape.Hulls where
  combine_eq _ _ := rfl
  contains_self := containsRectangle_self
  contains_empty empty := containsRectangle_iff.2 (.inl empty)
  hull_comm := hull_comm
  contains_hull := contains_hull_iff
  hull_least := containsRectangle_hull

theorem Rectangle.lawful_shape : Rectangle.shape.Lawful where
  combine_assoc := combine_assoc
  combine_self := combine_self
  combine_empty := hulls_shape.combine_empty
  combine_comm := hulls_shape.combine_comm
  contains_operands := hulls_shape.contains_operands
  combine_least := hulls_shape.combine_least
  covers_intersect := containsPoint_intersect
  contract_expand := contract_expand
  uncut_of_interior := uncut_of_interior_expand

/-! ## Folds in any order -/

namespace Bounds

variable {a b c : Bounds} {kind : RasterKind} {start start' : Bounds} {demands demands' : List Bounds}

theorem join_of_isEmpty_left (same : a.kind = b.kind) (empty : a.isEmpty = true) : a.join b = b := by
  cases a <;> cases b <;> cases same
  case rectangle.rectangle.refl => exact congrArg rectangle (Rectangle.combine_of_isEmpty_left empty)
  case interval.interval.refl => exact congrArg interval (Interval.combine_of_isEmpty_left empty)

theorem join_comm (same : a.kind = b.kind) (filled : a.isEmpty = false ∨ b.isEmpty = false) :
    a.join b = b.join a := by
  cases a <;> cases b <;> cases same
  case rectangle.rectangle.refl => exact congrArg rectangle (Rectangle.hulls_shape.combine_comm filled)
  case interval.interval.refl => exact congrArg interval (Interval.hulls_shape.combine_comm filled)

/-- The same bounds, or two that are empty. -/
def Alike (a b : Bounds) : Prop := a = b ∨ a.isEmpty = true ∧ b.isEmpty = true

theorem Alike.trans (first : Alike a b) (second : Alike b c) : Alike a c := by
  rcases first with rfl | ⟨emptyA, emptyB⟩
  · exact second
  · rcases second with rfl | ⟨-, emptyC⟩
    · exact .inr ⟨emptyA, emptyB⟩
    · exact .inr ⟨emptyA, emptyC⟩

theorem Alike.eq_of_filled (alike : Alike a b) (filled : a.isEmpty = false) : b = a := by
  rcases alike with same | ⟨empty, -⟩
  · exact same.symm
  · rw [filled] at empty
    cases empty

theorem alike_join_comm (same : a.kind = b.kind) : Alike (a.join b) (b.join a) := by
  cases emptyA : a.isEmpty with
  | false => exact .inl (join_comm same (.inl emptyA))
  | true =>
    cases emptyB : b.isEmpty with
    | false => exact .inl (join_comm same (.inr emptyB))
    | true =>
      rw [join_of_isEmpty_left same emptyA, join_of_isEmpty_left same.symm emptyB]
      exact .inr ⟨emptyB, emptyA⟩

theorem Alike.join_left (alike : Alike a b) (left : a.kind = c.kind) (right : b.kind = c.kind) :
    Alike (a.join c) (b.join c) := by
  rcases alike with rfl | ⟨emptyA, emptyB⟩
  · exact .inl rfl
  · rw [join_of_isEmpty_left left emptyA, join_of_isEmpty_left right emptyB]
    exact .inl rfl

theorem Alike.join_right (alike : Alike a b) (left : a.kind = c.kind) (right : b.kind = c.kind) :
    Alike (c.join a) (c.join b) :=
  -- what is joined on the right may stand on the left as well
  (alike_join_comm left.symm).trans ((alike.join_left left right).trans (alike_join_comm right))

/-- Two bounds may be joined to a third one in either order. -/
theorem alike_join_swap (suits : a.Suits kind) (second : b.Suits kind) (third : c.Suits kind) :
    Alike ((a.join b).join c) ((a.join c).join b) := by
  have same := second.kind.trans third.kind.symm
  rw [join_assoc suits.inRange second.inRange third.inRange same,
    join_assoc suits.inRange third.inRange second.inRange same.symm]
  have toFirst (other : Bounds) (sameKind : other.kind = kind) : other.kind = a.kind :=
    sameKind.trans suits.kind.symm
  exact (alike_join_comm same).join_right (toFirst _ ((kind_join b c).trans second.kind))
    (toFirst _ ((kind_join c b).trans third.kind))

theorem Alike.foldl_join (alike : Alike start start') (suits : start.Suits kind)
    (suits' : start'.Suits kind) (all : ∀ demand ∈ demands, demand.Suits kind) :
    Alike (demands.foldl join start) (demands.foldl join start') := by
  induction demands generalizing start start' with
  | nil => exact alike
  | cons first demands ih =>
    rw [List.forall_mem_cons] at all
    exact ih (alike.join_left (suits.kind.trans all.1.kind.symm) (suits'.kind.trans all.1.kind.symm))
      (suits.join all.1) (suits'.join all.1) all.2

/-- What bounds fold together to does not depend on their order, unless it is empty. -/
theorem alike_foldl_join_of_perm (perm : demands.Perm demands') (suits : start.Suits kind)
    (all : ∀ demand ∈ demands, demand.Suits kind) :
    Alike (demands.foldl join start) (demands'.foldl join start) := by
  induction perm generalizing start with
  | nil => exact .inl rfl
  | cons first _ ih =>
    rw [List.forall_mem_cons] at all
    exact ih (suits.join all.1) all.2
  | swap first second demands =>
    simp only [List.forall_mem_cons] at all
    obtain ⟨suitsSecond, suitsFirst, all⟩ := all
    exact (alike_join_swap suits suitsSecond suitsFirst).foldl_join
      ((suits.join suitsSecond).join suitsFirst) ((suits.join suitsFirst).join suitsSecond) all
  | trans perm _ first second =>
    exact (first suits all).trans (second suits fun demand member => all demand (perm.mem_iff.2 member))

/-- Every list of bounds of one kind folds together, and bounds that are not empty stay the same in
every other order, also with another one as the start. -/
theorem exists_foldlM_of_perm (all : ∀ demand ∈ start :: demands, demand.Suits kind)
    (perm : (start :: demands).Perm (start' :: demands')) :
    ∃ bound bound', demands.foldlM combine start = .ok bound ∧
      demands'.foldlM combine start' = .ok bound' ∧ (bound.isEmpty = false → bound' = bound) := by
  have all' : ∀ demand ∈ start' :: demands', demand.Suits kind := fun demand member =>
    all demand (perm.mem_iff.2 member)
  have alike := alike_foldl_join_of_perm perm (suits_empty kind) all
  rw [List.forall_mem_cons] at all all'
  have dropped {first : Bounds} (suits : first.Suits kind) : (empty kind).join first = first :=
    join_of_isEmpty_left ((suits_empty kind).kind.trans suits.kind.symm) (by cases kind <;> rfl)
  rw [List.foldl_cons, List.foldl_cons, dropped all.1, dropped all'.1] at alike
  exact ⟨_, _, foldlM_combine_eq all.1 all.2, foldlM_combine_eq all'.1 all'.2, alike.eq_of_filled⟩

end Bounds

/-- The algebra of bounds: the laws of intervals and rectangles, overlaps whose figures are not cut, and
folds whose order does not matter unless all bounds are empty. -/
theorem bounds_lawful :
    Interval.shape.Lawful ∧ Rectangle.shape.Lawful ∧
      (∀ i j : Interval, i.Representable → i.IsOverlap j (.intersect i j)) ∧
      (∀ a b : Rectangle, a.Representable → ∀ direction : Direction,
        (a.along direction).IsOverlap (b.along direction) ((Rectangle.intersect a b).along direction)) ∧
      ∀ (kind : RasterKind) (start start' : Bounds) (demands demands' : List Bounds),
        (∀ demand ∈ start :: demands, demand.Suits kind) →
        (start :: demands).Perm (start' :: demands') →
        ∃ bound bound', demands.foldlM Bounds.combine start = .ok bound ∧
          demands'.foldlM Bounds.combine start' = .ok bound' ∧
          (bound.isEmpty = false → bound' = bound) :=
  ⟨Interval.lawful_shape, Rectangle.lawful_shape, fun _ _ => Interval.isOverlap_intersect,
    fun _ _ inRange direction => Rectangle.isOverlap_intersect inRange direction,
    fun _ _ _ _ _ => Bounds.exists_foldlM_of_perm⟩

def outpost : Interval := ⟨-2147483648, 1⟩

def expanse : Interval := ⟨2147483647, 4294967295⟩

def islet : Interval := ⟨0, 3⟩

/-- Hulls at the limits are cut, so that one operand is not contained, and are the same in every order. -/
theorem outpost_bounds_lawful :
    (outpost.Representable ∧ expanse.Representable ∧ islet.Representable) ∧
      Interval.combine (.combine outpost expanse) islet =
        .combine outpost (.combine expanse islet) ∧
      ¬((Interval.combine outpost expanse).containsInterval outpost = true ∧
        (Interval.combine outpost expanse).containsInterval expanse = true) ∧
      (islet.Uncut 2147483646 ∧ (islet.expand 2147483646).contract 2147483646 = islet) ∧
      ∃ bound bound', [.interval expanse, .interval islet].foldlM Bounds.combine (.interval outpost) =
          .ok bound ∧
        [.interval outpost, .interval expanse].foldlM Bounds.combine (.interval islet) = .ok bound' ∧
        bound' = bound := by
  obtain ⟨intervals, -, -, -, folds⟩ := bounds_lawful
  have inRange : outpost.Representable ∧ expanse.Representable ∧ islet.Representable := by decide
  have uncut : islet.Uncut 2147483646 := by decide
  refine ⟨inRange, intervals.combine_assoc inRange.1 inRange.2.1 inRange.2.2, fun contained => ?_,
    ⟨uncut, intervals.contract_expand inRange.2.2 uncut⟩, ?_⟩
  · have tooLong : ¬(outpost.isEmpty = true ∨ expanse.isEmpty = true ∨ outpost.HullFits expanse) := by
      decide
    exact tooLong ((intervals.contains_operands inRange.1 inRange.2.1).1 contained)
  · have suits : ∀ demand ∈ [Bounds.interval outpost, .interval expanse, .interval islet],
        demand.Suits .profile := by
      simp only [List.forall_mem_cons]
      exact ⟨⟨rfl, inRange.1⟩, ⟨rfl, inRange.2.1⟩, ⟨rfl, inRange.2.2⟩, by simp⟩
    have perm : [Bounds.interval outpost, .interval expanse, .interval islet].Perm
        [.interval islet, .interval outpost, .interval expanse] := by decide
    obtain ⟨bound, bound', run, run', same⟩ := folds .profile _ _ _ _ suits perm
    have filled : bound.isEmpty = false := by
      rw [← Except.ok.inj run]
      decide
    exact ⟨bound, bound', run, run', same filled⟩

end Terrain
