import Terrain.Heap.Key

/-!
# The order of array keys

Keys are compared as their patterns, by type first, so two patterns of one type are the only interesting
case. Inside a type it is the order of the payload: a lexicographic one for points and enum values, and
for numbers the order of bit patterns, which tells every two of them apart.

The instances below are what the ordered map behind script arrays relies on.
-/

namespace Terrain

/-! ## Bit patterns -/

namespace Number

/-- The bits of a float are its whole identity. -/
theorem eq_of_toBits_eq {x y : Float} (same : x.toBits = y.toBits) : x = y := by
  obtain ⟨⟨bits, _⟩⟩ := x
  obtain ⟨⟨bits', _⟩⟩ := y
  change bits = bits' at same
  subst same
  rfl

/-- The sign bit of a pattern, in numbers. -/
theorem signBit_eq (bits : UInt64) : (bits >>> 63 != 0) = decide (Nat.pow 2 63 ≤ bits.toNat) := by
  have bound := bits.toNat_lt
  have shifted : (bits >>> 63).toNat = bits.toNat / 9223372036854775808 := by
    rw [UInt64.toNat_shiftRight]
    simp [Nat.shiftRight_eq_div_pow]
  have zero : bits >>> 63 = 0 ↔ bits.toNat / 9223372036854775808 = 0 := by
    rw [← shifted, ← UInt64.toNat_inj]
    rfl
  have large : Nat.pow 2 63 ≤ bits.toNat ↔ ¬ bits >>> 63 = 0 := by
    rw [zero, Nat.pow_eq]
    omega
  rw [Bool.eq_iff_iff, bne_iff_ne, decide_eq_true_iff, large]

theorem isSignNegative_eq (x : Float) :
    isSignNegative x = decide (Nat.pow 2 63 ≤ x.toBits.toNat) := signBit_eq x.toBits

/-- The bits below the sign, in numbers. -/
theorem magnitude_toNat (bits : UInt64) :
    (bits &&& 0x7fffffffffffffff).toNat = bits.toNat % Nat.pow 2 63 := by
  rw [UInt64.toNat_and]
  exact Nat.and_two_pow_sub_one_eq_mod _ 63

/-- Only equal patterns stand at the same place of the total order. -/
theorem orderKey_injective {a b : UInt64} (same : orderKey a = orderKey b) : a = b := by
  apply UInt64.toNat_inj.1
  have boundA := a.toNat_lt
  have boundB := b.toNat_lt
  simp only [orderKey, signBit_eq, magnitude_toNat, decide_eq_true_eq, Nat.pow_eq,
    Nat.reducePow] at same
  split at same <;> split at same <;> omega

instance : Std.TransCmp totalCompare where
  eq_swap := Std.OrientedOrd.eq_swap (α := Int)
  isLE_trans := Std.TransOrd.isLE_trans (α := Int)

instance : Std.LawfulEqCmp totalCompare where
  compare_self := Std.ReflOrd.compare_self (α := Int)
  eq_of_compare same := orderKey_injective (Std.LawfulEqOrd.eq_of_compare same)

end Number

/-! ## Patterns of keys -/

section Comparisons

variable {α β : Type} {f : α → α → Ordering} {g : β → β → Ordering}

/-- Of two things one precedes the other. -/
theorem isLE_or_isLE [Std.OrientedCmp f] (a b : α) : ((f a b).isLE || (f b a).isLE) = true := by
  rw [@Std.OrientedCmp.eq_swap _ f _ a b]
  cases f b a <;> rfl

/-- Where only the same is equal, different things in order ascend strictly. -/
theorem eq_lt_of_isLE_of_ne [Std.LawfulEqCmp f] {a b : α} (ordered : (f a b).isLE) (different : a ≠ b) :
    f a b = .lt := by
  rcases Ordering.isLE_iff_eq_lt_or_eq_eq.1 ordered with less | same
  · exact less
  · exact absurd (Std.LawfulEqCmp.eq_of_compare same) different

theorem then_eq_swap [Std.OrientedCmp f] [Std.OrientedCmp g] {a b : α} {a' b' : β} :
    (f a b).then (g a' b') = ((f b a).then (g b' a')).swap := by
  rw [Ordering.swap_then, ← Std.OrientedCmp.eq_swap, ← Std.OrientedCmp.eq_swap]

theorem then_isLE_trans [Std.TransCmp f] [Std.TransCmp g] {a b c : α} {a' b' c' : β}
    (left : ((f a b).then (g a' b')).isLE) (right : ((f b c).then (g b' c')).isLE) :
    ((f a c).then (g a' c')).isLE := by
  rw [Ordering.isLE_then_iff_or] at left right ⊢
  rcases left with left | ⟨left, inner⟩ <;> rcases right with right | ⟨right, inner'⟩
  · exact .inl (Std.TransCmp.lt_trans left right)
  · exact .inl (Std.TransCmp.lt_of_lt_of_eq left right)
  · exact .inl (Std.TransCmp.lt_of_eq_of_lt left right)
  · exact .inr ⟨Std.TransCmp.eq_trans left right, Std.TransCmp.isLE_trans inner inner'⟩

end Comparisons

namespace KeyPattern

/-- Keys of different types compare by type alone. -/
theorem compare_of_rank_ne {a b : KeyPattern} (different : a.rank ≠ b.rank) :
    KeyPattern.compare a b = Ord.compare a.rank b.rank := by
  cases a <;> cases b <;> first | rfl | exact absurd rfl different

theorem rank_le_of_isLE {a b : KeyPattern} (ordered : (KeyPattern.compare a b).isLE) :
    a.rank ≤ b.rank := by
  by_cases same : a.rank = b.rank
  · exact Nat.le_of_eq same
  · rw [compare_of_rank_ne same] at ordered
    exact Nat.isLE_compare.1 ordered

/-- Inside a type only the payloads matter. -/
theorem isLE_trans_of_rank_eq {a b c : KeyPattern} (left : a.rank = b.rank) (right : b.rank = c.rank)
    (first : (KeyPattern.compare a b).isLE) (second : (KeyPattern.compare b c).isLE) :
    (KeyPattern.compare a c).isLE := by
  cases a <;> cases b <;> simp only [rank, Nat.reduceEqDiff] at left <;>
    cases c <;> simp only [rank, Nat.reduceEqDiff] at right
  case null.null.null => exact first
  case boolean.boolean.boolean => exact Std.TransOrd.isLE_trans (α := Bool) first second
  case number.number.number =>
    exact @Std.TransCmp.isLE_trans _ Number.totalCompare _ _ _ _ first second
  case text.text.text => exact Std.TransOrd.isLE_trans (α := String) first second
  case point.point.point =>
    exact then_isLE_trans (f := Number.totalCompare) (g := Number.totalCompare) first second
  case enum.enum.enum =>
    exact then_isLE_trans (f := Ord.compare (α := String)) (g := Ord.compare (α := Int)) first second
  case identity.identity.identity => exact Std.TransOrd.isLE_trans (α := Nat) first second

theorem compare_eq_swap {a b : KeyPattern} :
    KeyPattern.compare a b = (KeyPattern.compare b a).swap := by
  by_cases same : a.rank = b.rank
  · cases a <;> cases b <;> simp only [rank, Nat.reduceEqDiff] at same
    case null.null => rfl
    case boolean.boolean => exact Std.OrientedOrd.eq_swap (α := Bool)
    case number.number => exact @Std.OrientedCmp.eq_swap _ Number.totalCompare _ _ _
    case text.text => exact Std.OrientedOrd.eq_swap (α := String)
    case point.point => exact then_eq_swap (f := Number.totalCompare) (g := Number.totalCompare)
    case enum.enum =>
      exact then_eq_swap (f := Ord.compare (α := String)) (g := Ord.compare (α := Int))
    case identity.identity => exact Std.OrientedOrd.eq_swap (α := Nat)
  · rw [compare_of_rank_ne same, compare_of_rank_ne (Ne.symm same)]
    exact Std.OrientedOrd.eq_swap (α := Nat)

instance : Std.TransCmp KeyPattern.compare where
  eq_swap := compare_eq_swap
  isLE_trans {a b c} first second := by
    have left := rank_le_of_isLE first
    have right := rank_le_of_isLE second
    by_cases same : a.rank = c.rank
    · exact isLE_trans_of_rank_eq (by omega) (by omega) first second
    · rw [compare_of_rank_ne same]
      exact Nat.isLE_compare.2 (by omega)

/-- Keys that compare equal are the same key. -/
theorem eq_of_compare_eq {a b : KeyPattern} (equal : KeyPattern.compare a b = .eq) : a = b := by
  by_cases same : a.rank = b.rank
  · cases a <;> cases b <;> simp only [rank, Nat.reduceEqDiff] at same
    case null.null => rfl
    case boolean.boolean => exact congrArg _ (Std.LawfulEqOrd.eq_of_compare equal)
    case number.number =>
      exact congrArg _ (@Std.LawfulEqCmp.eq_of_compare _ Number.totalCompare _ _ _ equal)
    case text.text => exact congrArg _ (Std.LawfulEqOrd.eq_of_compare equal)
    case point.point =>
      obtain ⟨first, second⟩ := Ordering.then_eq_eq.1 equal
      rw [@Std.LawfulEqCmp.eq_of_compare _ Number.totalCompare _ _ _ first,
        @Std.LawfulEqCmp.eq_of_compare _ Number.totalCompare _ _ _ second]
    case enum.enum =>
      obtain ⟨first, second⟩ := Ordering.then_eq_eq.1 equal
      rw [Std.LawfulEqOrd.eq_of_compare first, Std.LawfulEqOrd.eq_of_compare second]
    case identity.identity => exact congrArg _ (Std.LawfulEqOrd.eq_of_compare equal)
  · rw [compare_of_rank_ne same] at equal
    exact absurd (Std.LawfulEqOrd.eq_of_compare equal) same

instance : Std.LawfulEqCmp KeyPattern.compare where
  compare_self := Std.ReflCmp.compare_self
  eq_of_compare := eq_of_compare_eq

end KeyPattern

/-! ## Keys -/

namespace ArrayKey

/-- A key has all its numbers in its pattern. -/
theorem pattern_injective : Function.Injective pattern := by
  intro a b same
  cases a <;> cases b <;> simp only [pattern, reduceCtorEq, KeyPattern.boolean.injEq,
    KeyPattern.number.injEq, KeyPattern.text.injEq, KeyPattern.point.injEq, KeyPattern.enum.injEq,
    KeyPattern.identity.injEq] at same
  case null.null => rfl
  case boolean.boolean => rw [same]
  case number.number => rw [Number.eq_of_toBits_eq same]
  case text.text => rw [same]
  case point.point => rw [Number.eq_of_toBits_eq same.1, Number.eq_of_toBits_eq same.2]
  case enum.enum => rw [same.1, same.2]
  case identity.identity => rw [same]

theorem compare_eq_swap {a b : ArrayKey} :
    ArrayKey.compare a b = (ArrayKey.compare b a).swap := KeyPattern.compare_eq_swap

/-- Keys that compare equal are the same key. -/
theorem eq_of_compare_eq {a b : ArrayKey} (equal : ArrayKey.compare a b = .eq) : a = b :=
  pattern_injective (KeyPattern.eq_of_compare_eq equal)

instance : Std.TransCmp ArrayKey.compare where
  eq_swap := compare_eq_swap
  isLE_trans first second := @Std.TransCmp.isLE_trans _ KeyPattern.compare _ _ _ _ first second

instance : Std.LawfulEqCmp ArrayKey.compare where
  compare_self := Std.ReflCmp.compare_self
  eq_of_compare := eq_of_compare_eq

instance : Std.LawfulBEqCmp ArrayKey.compare where
  compare_eq_iff_beq := by simp [BEq.beq]

instance : LawfulBEq ArrayKey where
  rfl := by simp [BEq.beq]
  eq_of_beq equal := eq_of_compare_eq (by simpa [BEq.beq] using equal)

instance : DecidableEq ArrayKey := fun a b =>
  decidable_of_iff (ArrayKey.compare a b = .eq) Std.LawfulEqCmp.compare_eq_iff_eq

end ArrayKey

end Terrain
