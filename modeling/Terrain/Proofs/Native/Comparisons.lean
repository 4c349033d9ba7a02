import Terrain.Native.Dispatch
import Terrain.Proofs.Heap.Histories
import Terrain.Proofs.Machine.References
import Terrain.Proofs.Native.Arguments
import Terrain.Proofs.Number.Values

/-!
# Comparisons of numbers

Numbers are equal the way array keys are, in the total order of floats, and they are ordered by their
values. The two agree on all finite floats but the two zeros, which are different keys of one value.

* `Native.Compares` — what a comparison of two objects answers.
* `Number.OppositeZeros` — the two floats that are zero.
* `Native.comparisons_agree` — the six comparisons of two numbers.
-/

namespace Terrain

namespace Number

variable {x y : Float} {p q : ℚ}

/-! ## The two zeros -/

/-- Both floats are zero, with different signs. -/
def OppositeZeros (x y : Float) : Prop := x = 0.0 ∧ y = -0.0 ∨ x = -0.0 ∧ y = 0.0

theorem OppositeZeros.isValue (opposite : OppositeZeros x y) : IsValue x 0 ∧ IsValue y 0 ∧ x ≠ y := by
  have different : (0.0 : Float) ≠ -0.0 := by
    rw [Ne, isValue_zero.eq_iff isValue_neg_zero]
    exact fun same => absurd (same.2 rfl) (by decide)
  obtain ⟨rfl, rfl⟩ | ⟨rfl, rfl⟩ := opposite
  · exact ⟨isValue_zero, isValue_neg_zero, different⟩
  · exact ⟨isValue_neg_zero, isValue_zero, different.symm⟩

/-- Floats of one value are the same unless they are opposite zeros. -/
theorem IsValue.eq_iff_of_not_oppositeZeros (isValue : IsValue x p) (isValue' : IsValue y q)
    (apart : ¬OppositeZeros x y) : x = y ↔ p = q := by
  refine ⟨fun same => ((isValue.eq_iff isValue').1 same).1, ?_⟩
  rintro rfl
  rcases eq_or_ne p 0 with rfl | nonzero
  · rcases isValue.eq_zero_or_eq_neg_zero with rfl | rfl <;>
      rcases isValue'.eq_zero_or_eq_neg_zero with rfl | rfl
    · rfl
    · exact absurd (.inl ⟨rfl, rfl⟩) apart
    · exact absurd (.inr ⟨rfl, rfl⟩) apart
    · rfl
  · exact (isValue.eq_iff isValue').2 ⟨rfl, fun zero => absurd zero nonzero⟩

end Number

namespace Native

open Machine

variable {program : Program} {machine : Machine} {location : Location} {operator : String}
  {first second : ObjectId} {x y : Float} {p q : ℚ}

/-! ## Answers of comparisons -/

def Compares (program : Program) (machine : Machine) (location : Location) (first second : ObjectId)
    (operator : String) (answer : Bool) : Prop :=
  callGlobal ⟨location, operator, [first, second]⟩ program machine =
    .ok machine.heap.cells.size { machine with heap := machine.heap.adding (.boolean answer) }

theorem compares_of_query {query : Query Value} {answer : Bool}
    (means : valueOperator? ⟨location, operator, [first, second]⟩ = some query)
    (run : query program machine = .ok (.boolean answer)) :
    Compares program machine location first second operator answer := by
  rw [Compares, callGlobal, operator?, means]
  change (inspect query >>= fun value => onHeap (Heap.register value)) program machine = _
  rw [run_inspect_bind run]
  exact run_onHeap (Heap.register_run _ _)

theorem numberOperand_eq_ok {call : NativeCall} {index : Nat} {id : ObjectId}
    (argument : call.object index program machine = .ok id)
    (found : machine.heap.value? id = some (.number x)) :
    call.numberOperand index program machine = .ok x := by
  have value : call.value index program machine = .ok (.number x) := by
    rw [NativeCall.value, Query.bind_of_eq_ok argument, Query.value_eq_ok found]
  rw [NativeCall.numberOperand, Query.bind_of_eq_ok value]
  rfl

section Operands

variable (found : machine.heap.value? first = some (.number x))
  (found' : machine.heap.value? second = some (.number y))

include found found'

theorem compares_of_relation {relation : Float → Float → Bool}
    (means : valueOperator? ⟨location, operator, [first, second]⟩ =
      some (compare relation ⟨location, operator, [first, second]⟩)) :
    Compares program machine location first second operator (relation x y) := by
  set call : NativeCall := ⟨location, operator, [first, second]⟩
  have expected : call.expect 2 2 program machine = .ok () := rfl
  have left : call.numberOperand 0 program machine = .ok x :=
    numberOperand_eq_ok rfl found
  have right : call.numberOperand 1 program machine = .ok y :=
    numberOperand_eq_ok rfl found'
  refine compares_of_query means ?_
  rw [compare, Query.bind_of_eq_ok expected, Query.bind_of_eq_ok left, Query.bind_of_eq_ok right]
  rfl

/-- Numbers are equal if they are the same float. -/
theorem equal_eq_ok :
    equal ⟨location, operator, [first, second]⟩ program machine =
      .ok (decide (x = y)) := by
  set call : NativeCall := ⟨location, operator, [first, second]⟩
  have expected : call.expect 2 2 program machine = .ok () := rfl
  have left : call.object 0 program machine = .ok first := rfl
  have right : call.object 1 program machine = .ok second := rfl
  rw [equal, Query.bind_of_eq_ok expected, Query.bind_of_eq_ok left, Query.bind_of_eq_ok right,
    Query.bind_of_eq_ok (Query.value_eq_ok found), Query.bind_of_eq_ok (Query.value_eq_ok found')]
  have same : (ArrayKey.number x == ArrayKey.number y) = decide (x = y) := by
    rw [Bool.eq_iff_iff, beq_iff_eq, ArrayKey.number.injEq, decide_eq_true_iff]
  exact congrArg Except.ok same

theorem compares_equal :
    Compares program machine location first second "==" (decide (x = y)) ∧
      Compares program machine location first second "!=" (!decide (x = y)) := by
  constructor
  · refine compares_of_query rfl ?_
    rw [Query.bind_of_eq_ok (equal_eq_ok found found')]
    rfl
  · refine compares_of_query rfl ?_
    rw [Query.bind_of_eq_ok (equal_eq_ok found found')]
    rfl

/-- The four relations compare values. -/
theorem compares_ordered (isValue : Number.IsValue x p) (isValue' : Number.IsValue y q) :
    Compares program machine location first second "<" (decide (p < q)) ∧
      Compares program machine location first second "<=" (decide (p ≤ q)) ∧
      Compares program machine location first second ">" (decide (q < p)) ∧
      Compares program machine location first second ">=" (decide (q ≤ p)) := by
  refine ⟨?_, ?_, ?_, ?_⟩
  · rw [← decide_eq_decide.2 (isValue.lt_iff isValue')]
    exact @compares_of_relation _ _ _ _ _ _ _ _ found found' (fun a b => a < b) rfl
  · rw [← decide_eq_decide.2 (isValue.le_iff isValue')]
    exact @compares_of_relation _ _ _ _ _ _ _ _ found found' (fun a b => a ≤ b) rfl
  · rw [← decide_eq_decide.2 (isValue'.lt_iff isValue)]
    exact @compares_of_relation _ _ _ _ _ _ _ _ found found' (fun a b => b < a) rfl
  · rw [← decide_eq_decide.2 (isValue'.le_iff isValue)]
    exact @compares_of_relation _ _ _ _ _ _ _ _ found found' (fun a b => b ≤ a) rfl

end Operands

theorem count_true_trichotomy (p q : ℚ) :
    [decide (p < q), decide (p = q), decide (q < p)].count true = 1 := by
  rcases lt_trichotomy p q with less | rfl | greater
  · simp [less, less.ne, less.not_gt]
  · simp
  · simp [greater, greater.ne', greater.not_gt]

/-- Two finite numbers that are not opposite zeros are either equal or ordered one way, and the other
comparisons follow from that. Opposite zeros are neither equal nor ordered, though both `<=` and `>=`
hold of them. -/
theorem comparisons_agree (found : machine.heap.value? first = some (.number x))
    (found' : machine.heap.value? second = some (.number y)) (finite : Number.isFinite x)
    (finite' : Number.isFinite y) (program : Program) (location : Location) :
    ∃ less equal greater : Bool,
      Compares program machine location first second "<" less ∧
      Compares program machine location first second "==" equal ∧
      Compares program machine location first second ">" greater ∧
      Compares program machine location first second "!=" (!equal) ∧
      (¬Number.OppositeZeros x y → [less, equal, greater].count true = 1 ∧
        Compares program machine location first second "<=" (less || equal) ∧
        Compares program machine location first second ">=" (greater || equal)) ∧
      (Number.OppositeZeros x y → less = false ∧ equal = false ∧ greater = false ∧
        Compares program machine location first second "<=" true ∧
        Compares program machine location first second ">=" true) := by
  obtain ⟨p, isValue⟩ := Number.isFinite_iff.1 finite
  obtain ⟨q, isValue'⟩ := Number.isFinite_iff.1 finite'
  obtain ⟨equal, unequal⟩ := @compares_equal program _ location _ _ _ _ found found'
  obtain ⟨less, atMost, greater, atLeast⟩ :=
    @compares_ordered program _ location _ _ _ _ _ _ found found' isValue isValue'
  refine ⟨_, _, _, less, equal, greater, unequal, ?_, ?_⟩
  · intro apart
    -- here the keys are equal where the values are, so all six are about the values
    have same : decide (x = y) = decide (p = q) :=
      decide_eq_decide.2 (isValue.eq_iff_of_not_oppositeZeros isValue' apart)
    have weak : decide (p ≤ q) = (decide (p < q) || decide (p = q)) := by
      rw [← Bool.decide_or]
      exact decide_eq_decide.2 le_iff_lt_or_eq
    have weak' : decide (q ≤ p) = (decide (q < p) || decide (p = q)) := by
      rw [← Bool.decide_or]
      exact decide_eq_decide.2 (le_iff_lt_or_eq.trans (or_congr_right eq_comm))
    rw [same, ← weak, ← weak']
    exact ⟨count_true_trichotomy p q, atMost, atLeast⟩
  · intro opposite
    obtain ⟨zero, zero', different⟩ := opposite.isValue
    obtain rfl := isValue.unique zero
    obtain rfl := isValue'.unique zero'
    exact ⟨decide_eq_false (lt_irrefl 0), decide_eq_false different, decide_eq_false (lt_irrefl 0),
      atMost, atLeast⟩

/-! ## Numbers on a heap -/

def withNumbers (x y : Float) : Machine :=
  { Machine.blank Machine.idle with heap := ⟨#[some ⟨0, .number x⟩, some ⟨0, .number y⟩], 0, false⟩ }

/-- A half and a whole are in order. -/
theorem comparisons_half_one : ∃ less equal greater : Bool,
    Compares Machine.idle (withNumbers 0.5 1.0) default 0 1 "<" less ∧
      Compares Machine.idle (withNumbers 0.5 1.0) default 0 1 "==" equal ∧
      Compares Machine.idle (withNumbers 0.5 1.0) default 0 1 ">" greater ∧
      [less, equal, greater].count true = 1 := by
  obtain ⟨less, equal, greater, isLess, isEqual, isGreater, -, apart, -⟩ :=
    @comparisons_agree (withNumbers 0.5 1.0) 0 1 0.5 1.0 rfl rfl (by decide) (by decide) Machine.idle
      default
  have different : ¬Number.OppositeZeros 0.5 1.0 := by
    rintro (⟨-, zero⟩ | ⟨-, zero⟩)
    · exact absurd (congrArg Float.toBits zero) (by decide)
    · exact absurd (congrArg Float.toBits zero) (by decide)
  exact ⟨less, equal, greater, isLess, isEqual, isGreater, (apart different).1⟩

/-- Zero and its opposite are neither equal nor ordered, though `<=` holds of them. -/
theorem comparisons_zero_neg_zero :
    Number.isFinite 0.0 ∧ Number.isFinite (-0.0) ∧
      Compares Machine.idle (withNumbers 0.0 (-0.0)) default 0 1 "<" false ∧
      Compares Machine.idle (withNumbers 0.0 (-0.0)) default 0 1 "==" false ∧
      Compares Machine.idle (withNumbers 0.0 (-0.0)) default 0 1 ">" false ∧
      Compares Machine.idle (withNumbers 0.0 (-0.0)) default 0 1 "<=" true := by
  have found : (withNumbers 0.0 (-0.0)).heap.value? 0 = some (.number 0.0) := rfl
  have found' : (withNumbers 0.0 (-0.0)).heap.value? 1 = some (.number (-0.0)) := rfl
  have different := (Number.OppositeZeros.isValue (.inl ⟨rfl, rfl⟩)).2.2
  obtain ⟨equal, -⟩ := @compares_equal Machine.idle _ default _ _ _ _ found found'
  obtain ⟨less, atMost, greater, -⟩ := @compares_ordered Machine.idle _ default _ _ _ _ _ _ found
    found' Number.isValue_zero Number.isValue_neg_zero
  rw [decide_eq_false different] at equal
  exact ⟨by decide, by decide, less, equal, greater, atMost⟩

end Native

end Terrain
