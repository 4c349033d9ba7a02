import Terrain.Proofs.Heap.Reorderings

/-!
# Identity of keys

Two keys compare equal only if they are the same key: of one type, with the same text, the same bits of
each number, the same handle. So it makes no difference whether an array finds a key by descending in
its ordered map, by testing the keys of its order one after the other, or by sorting them.

* `LawfulOrder` — a total order in which nothing but the same is equal.
* `mergeSort_eq_of_perm` — what such an order sorts to is decided by what is sorted.
* `ScriptArray.TellsApart` — the operations of an array that tell keys apart.
* `ArrayKey.ordered_by_identity` — the order of all patterns, and what follows for arrays.
-/

namespace Terrain

/-! ## Lawful orders -/

section Orders

variable {κ : Type} {order : κ → κ → Ordering}

/-- A total order in which nothing but the same is equal. -/
structure LawfulOrder (order : κ → κ → Ordering) : Prop where
  reflexive : ∀ a, order a a = .eq
  antisymmetric : ∀ a b, order a b = (order b a).swap
  transitive : ∀ {a b c result}, order a b = result → order b c = result → order a c = result
  transitive_isLE : ∀ {a b c}, (order a b).isLE → (order b c).isLE → (order a c).isLE
  total : ∀ a b, (order a b).isLE ∨ (order b a).isLE
  identical : ∀ a b, order a b = .eq ↔ a = b

theorem lawfulOrder [Std.TransCmp order] [Std.LawfulEqCmp order] : LawfulOrder order where
  reflexive _ := Std.ReflCmp.compare_self
  antisymmetric _ _ := Std.OrientedCmp.eq_swap
  transitive {a b c result} first second := by
    cases result with
    | lt => exact Std.TransCmp.lt_trans first second
    | eq => exact Std.TransCmp.eq_trans first second
    | gt => exact Std.TransCmp.gt_trans first second
  transitive_isLE := Std.TransCmp.isLE_trans
  total a b := by
    rw [← Bool.or_eq_true]
    exact isLE_or_isLE a b
  identical _ _ := Std.LawfulEqCmp.compare_eq_iff_eq

/-- There is one way to put a list into a lawful order. -/
theorem mergeSort_eq_of_perm [Std.TransCmp order] [Std.LawfulEqCmp order] {list sorted : List κ}
    (perm : sorted.Perm list) (ascending : sorted.Pairwise fun a b => (order a b).isLE) :
    (list.mergeSort fun a b => (order a b).isLE) = sorted := by
  have sortedToo := @List.pairwise_mergeSort _ (fun a b => (order a b).isLE)
    (fun _ _ _ => Std.TransCmp.isLE_trans) isLE_or_isLE list
  apply List.Perm.eq_of_pairwise _ sortedToo ascending ((List.mergeSort_perm _ _).trans perm.symm)
  -- what precedes each other is equal, and so the same
  intro a b _ _ before after
  exact Std.LawfulEqCmp.eq_of_compare (Std.OrientedCmp.isLE_antisymm before after)

end Orders

/-! ## Arrays -/

namespace ScriptArray

/-- The operations of an array tell two keys apart unless they are the same: looking up in the map,
testing the keys of the order, and sorting. -/
structure TellsApart (array : ScriptArray) : Prop where
  get?_iff : ∀ key entry, array.get? key = some entry ↔ (key, entry) ∈ array.entries.toList
  get?_insert : ∀ key other entry,
    (array.insert key entry).get? other = if key = other then some entry else array.get? other
  get?_erase : ∀ key other,
    (array.erase key).get? other = if key = other then none else array.get? other
  order_contains : ∀ key, array.order.contains key = true ↔ key ∈ array.order
  mem_order_erase : ∀ key other, array.contains key = true →
    (other ∈ (array.erase key).order ↔ other ∈ array.order ∧ other ≠ key)
  /-- Where the two parts are in step, the map and the order find the same keys. -/
  contains_eq : array.InStep → ∀ key, array.contains key = array.order.contains key
  sortByKeys_eq : ∀ keys : List ArrayKey, keys.Perm array.order.toList →
    keys.Pairwise (fun a b => (a.compare b).isLE) → array.sortByKeys.order.toList = keys
  sortByValues_eq : ∀ ranked sorted : List (ArrayKey × ArrayKey), sorted.Perm ranked →
    sorted.Pairwise (fun a b => (rankedCompare a b).isLE) →
    (array.sortByValues ranked).order.toList = sorted.map (·.2)

theorem mem_order_erase_of_contains {array : ScriptArray} {key other : ArrayKey}
    (present : array.contains key = true) :
    other ∈ (array.erase key).order ↔ other ∈ array.order ∧ other ≠ key := by
  rw [erase, if_pos present, Array.mem_filter]
  simp

theorem tellsApart (array : ScriptArray) : array.TellsApart where
  get?_iff _ _ := Std.TreeMap.mem_toList_iff_getElem?_eq_some.symm
  get?_insert := array.get?_insert
  get?_erase := array.get?_erase
  order_contains _ := Array.contains_iff_mem
  mem_order_erase _ _ := mem_order_erase_of_contains
  contains_eq inStep key := by
    rw [Bool.eq_iff_iff, contains_iff, ← inStep.mem_order, Array.contains_iff_mem]
  sortByKeys_eq _ perm ascending := mergeSort_eq_of_perm perm ascending
  sortByValues_eq ranked sorted perm ascending := by
    have order : (ranked.mergeSort fun a b => (rankedCompare a b).isLE) = sorted :=
      mergeSort_eq_of_perm perm ascending
    rw [← order]
    rfl

end ScriptArray

/-! ## All patterns -/

namespace KeyPattern

/-- The types stand in the order of the constructors. -/
theorem rank_eq_ctorIdx (a : KeyPattern) : a.rank = a.ctorIdx := by
  cases a <;> rfl

/-- Patterns of different constructors compare by type alone, and never equal. -/
theorem compare_of_ctorIdx_ne {a b : KeyPattern} (different : a.ctorIdx ≠ b.ctorIdx) :
    a.compare b = Ord.compare a.rank b.rank ∧ a.compare b ≠ .eq := by
  have ranks : a.rank ≠ b.rank := by rwa [rank_eq_ctorIdx, rank_eq_ctorIdx]
  refine ⟨compare_of_rank_ne ranks, fun equal => ?_⟩
  rw [compare_of_rank_ne ranks] at equal
  exact ranks (Std.LawfulEqOrd.eq_of_compare equal)

end KeyPattern

namespace ArrayKey

/-- Keys with any bits for numbers are in a lawful total order, by type first, in which only keys of the
same payload are equal. The keys of objects are in this order, and arrays tell them apart by nothing but
identity. -/
theorem ordered_by_identity :
    LawfulOrder KeyPattern.compare ∧
      (∀ a b : KeyPattern, a.ctorIdx ≠ b.ctorIdx →
        a.compare b = Ord.compare a.rank b.rank ∧ a.compare b ≠ .eq) ∧
      LawfulOrder ArrayKey.compare ∧
      (∀ a b : ArrayKey, a.compare b = a.pattern.compare b.pattern ∧
        (a.compare b = .eq ↔ a.pattern = b.pattern)) ∧
      ∀ array : ScriptArray, array.TellsApart :=
  ⟨lawfulOrder, fun _ _ => KeyPattern.compare_of_ctorIdx_ne, lawfulOrder,
    fun a b => ⟨rfl, lawfulOrder.identical a.pattern b.pattern⟩, ScriptArray.tellsApart⟩

/-- Not-a-number with a sign and without one, and the two zeros: four numbers that only their bits
tell apart. -/
theorem nan_and_zero_ordered_by_identity :
    KeyPattern.compare (.number 0xfff8000000000000) (.number 0x7ff8000000000000) ≠ .eq ∧
      KeyPattern.compare (.point 0 0) (.point 0 0x8000000000000000) ≠ .eq ∧
      (KeyPattern.text "").ctorIdx ≠ (KeyPattern.number 0).ctorIdx ∧
      KeyPattern.compare (.text "") (.number 0) = .gt ∧
      (ScriptArray.empty.insert (.number 0.0) ⟨1, 2⟩).get? (.number (-0.0)) = none ∧
      (ScriptArray.empty.insert (.number 0.0) ⟨1, 2⟩).get? (.number 0.0) = some ⟨1, 2⟩ := by
  obtain ⟨patterns, types, -, -, arrays⟩ := ordered_by_identity
  have different : (KeyPattern.text "").ctorIdx ≠ (KeyPattern.number 0).ctorIdx := by decide
  have zeros : ArrayKey.number 0.0 ≠ .number (-0.0) := by decide +kernel
  refine ⟨fun equal => ?_, fun equal => ?_, different, (types _ _ different).1, ?_, ?_⟩
  · exact absurd ((patterns.identical _ _).1 equal) (by decide)
  · exact absurd ((patterns.identical _ _).1 equal) (by decide)
  · rw [(arrays _).get?_insert, if_neg zeros]
    rfl
  · rw [(arrays _).get?_insert, if_pos rfl]

end ArrayKey

end Terrain
