import Terrain.Failure

/-!
# Breaches of a plan

A plan and its rendering keep to slots and kinds: a slot is read after it was filled and before it is
freed, and rasters and bounds are of the kind that is expected. The other breaches of rendering come
from numbers: a sample outside a raster, a figure that does not fit its type.

* `Breach.isStructural` — breaches of slots and kinds.
* `Fits` — a computation that ends with a value or with a breach of numbers.
* `Gives` — a condition on the value alone, whatever else a computation may end with.
-/

namespace Terrain

/-- Breaches of slots and kinds. -/
def Breach.isStructural : Breach → Bool
  | emptySlot _ | wrongRaster .. | mixedBounds .. | mapBoundsExpected _ | profileBoundsExpected _
  | stepMismatch .. | notCreator _ | missingArgument => true
  | _ => false

/-- The value satisfies the condition, and a breach is not one of slots and kinds. -/
def Fits {α : Type} (result : Except Breach α) (holds : α → Prop) : Prop :=
  match result with
  | .ok value => holds value
  | .error breach => breach.isStructural = false

namespace Fits

variable {α β : Type} {holds : α → Prop}

theorem imp {result : Except Breach α} {holds' : α → Prop} (fits : Fits result holds)
    (implies : ∀ value, holds value → holds' value) : Fits result holds' := by
  cases result with
  | ok value => exact implies value fits
  | error breach => exact fits

theorem bind {result : Except Breach α} {next : α → Except Breach β} {holds' : β → Prop}
    (first : Fits result holds) (second : ∀ value, holds value → Fits (next value) holds') :
    Fits (result >>= next) holds' := by
  cases result with
  | ok value => exact second value first
  | error breach => exact first

/-- The value of the first computation is of no interest. -/
theorem seq {result : Except Breach α} {next : α → Except Breach β} {holds' : β → Prop}
    (first : Fits result holds) (second : ∀ value, Fits (next value) holds') :
    Fits (result >>= next) holds' :=
  first.bind fun value _ => second value

theorem discard {result : Except Breach α} (fits : Fits result fun _ => True) :
    Fits (Functor.discard result) fun _ => True := by
  cases result with
  | ok value => trivial
  | error breach => exact fits

theorem pure {value : α} (true : holds value) : Fits (Pure.pure value) holds := true

theorem ite {condition : Prop} [Decidable condition] {result other : Except Breach α}
    (isTrue : condition → Fits result holds) (isFalse : ¬condition → Fits other holds) :
    Fits (if condition then result else other) holds := by
  split
  case isTrue true => exact isTrue true
  case isFalse false => exact isFalse false

/-- What every round keeps holds at the end. -/
theorem foldlM {f : α → β → Except Breach α} {items : List β} {start : α} (first : holds start)
    (round : ∀ state, ∀ item ∈ items, holds state → Fits (f state item) holds) :
    Fits (items.foldlM f start) holds := by
  induction items generalizing start with
  | nil => exact first
  | cons item items ih =>
    rw [List.foldlM_cons]
    refine (round start item List.mem_cons_self first).bind fun state kept => ?_
    exact ih kept fun state other member => round state other (List.mem_cons_of_mem _ member)

theorem mapM {f : β → Except Breach α} {items : List β} (each : ∀ item ∈ items, Fits (f item) holds) :
    Fits (items.mapM f) fun values => ∀ value ∈ values, holds value := by
  induction items with
  | nil =>
    rw [List.mapM_nil]
    exact .pure (by simp)
  | cons item items ih =>
    rw [List.mapM_cons]
    refine (each item List.mem_cons_self).bind fun value kept => ?_
    refine (ih fun other member => each other (List.mem_cons_of_mem _ member)).bind fun values all => ?_
    exact .pure (by simpa using ⟨kept, all⟩)

theorem ok {result : Except Breach α} {value : α} (fits : Fits result holds)
    (ended : result = .ok value) : holds value := by
  rw [ended] at fits
  exact fits

theorem error {result : Except Breach α} {breach : Breach} (fits : Fits result holds)
    (failed : result = .error breach) : breach.isStructural = false := by
  rw [failed] at fits
  exact fits

end Fits

/-- A sequence ends with a value only if both of its parts do. -/
theorem checked_bind_eq_ok {α β : Type} {result : Except Breach α} {next : α → Except Breach β}
    {value : β} (run : (result >>= next) = .ok value) :
    ∃ middle, result = .ok middle ∧ next middle = .ok value := by
  cases result with
  | ok middle => exact ⟨middle, rfl, run⟩
  | error breach => cases run

theorem fits_checkCoordinate (value : Int) : Fits (checkCoordinate value) fun _ => True :=
  .ite (fun _ => trivial) fun _ => rfl

/-! ## Values -/

/-- What a computation ends with, if it ends with a value, satisfies the condition. -/
def Gives {ε α : Type} (result : Except ε α) (holds : α → Prop) : Prop :=
  ∀ value, result = .ok value → holds value

theorem Fits.gives {α : Type} {result : Except Breach α} {holds : α → Prop} (fits : Fits result holds) :
    Gives result holds :=
  fun _ ended => fits.ok ended

namespace Gives

variable {ε α β : Type} {holds : α → Prop}

theorem pure {value : α} (true : holds value) : Gives (Pure.pure value : Except ε α) holds := by
  rintro _ ⟨⟩
  exact true

theorem bind {result : Except ε α} {next : α → Except ε β} {holds' : β → Prop}
    (first : Gives result holds) (second : ∀ value, holds value → Gives (next value) holds') :
    Gives (result >>= next) holds' := by
  cases result with
  | ok value => exact second value (first value rfl)
  | error failure => exact nofun

/-- Nothing is known of the first value. -/
theorem seq {result : Except ε α} {next : α → Except ε β} {holds' : β → Prop}
    (second : ∀ value, Gives (next value) holds') : Gives (result >>= next) holds' :=
  bind (fun _ _ => trivial : Gives result fun _ => True) fun value _ => second value

end Gives

end Terrain
