import Terrain.Proofs.Heap.Histories

/-!
# Sorting and shuffling

The three reorderings of an array leave its entries alone. The sorts put the pairs into the one order in
which they ascend strictly, whatever the order was before: by key, or by what the value compares by and
then by key. No key stands twice, so there are no ties.

A shuffle draws one position for every pair but the first, from the last one down, and exchanges. It is
split into the positions that are drawn and what they do, and every order of the pairs is the outcome of
exactly one list of positions.

* `ScriptArray.sortedByKeys`, `ScriptArray.sortedByValues` — what the sorts reach.
* `ScriptArray.Draws`, `ScriptArray.shuffledBy` — positions that can be drawn, and what they do.
* `ScriptArray.existsUnique_draws` — one list of positions for each order.
* `Heap.Reached.lawful_reorderings` — the reorderings of an array of the heap.
-/

namespace Terrain

namespace ScriptArray

variable {array : ScriptArray}

/-! ## Sorting -/

/-- Where keys are in order and none stands twice, they ascend strictly. -/
theorem sortedByKeys (nodup : array.order.toList.Nodup) :
    array.sortByKeys.order.toList.Pairwise fun a b => a.compare b = .lt := by
  have sorted := @List.pairwise_mergeSort _ (fun a b : ArrayKey => (a.compare b).isLE)
    (fun _ _ _ => Std.TransCmp.isLE_trans) isLE_or_isLE array.order.toList
  have distinct : array.sortByKeys.order.toList.Nodup :=
    array.reorders_sortByKeys.order.nodup_iff.2 nodup
  exact sorted.imp₂ (fun _ _ => eq_lt_of_isLE_of_ne) distinct

/-- The order of projected keys: by the projection, then by the key. -/
def rankedCompare (a b : ArrayKey × ArrayKey) : Ordering :=
  (a.1.compare b.1).then (a.2.compare b.2)

instance : Std.TransCmp rankedCompare where
  eq_swap := then_eq_swap (f := ArrayKey.compare) (g := ArrayKey.compare)
  isLE_trans := then_isLE_trans (f := ArrayKey.compare) (g := ArrayKey.compare)

instance : Std.LawfulEqCmp rankedCompare where
  compare_self := Std.ReflCmp.compare_self
  eq_of_compare {a b} equal := by
    obtain ⟨first, second⟩ := Ordering.then_eq_eq.1 equal
    exact Prod.ext (ArrayKey.eq_of_compare_eq first) (ArrayKey.eq_of_compare_eq second)

/-- Sorted by any projection of the keys, they ascend strictly by it and then by themselves. -/
theorem sortedByValues (nodup : array.order.toList.Nodup) (rank : ArrayKey → ArrayKey) :
    (array.sortByValues (array.order.toList.map fun key => (rank key, key))).order.toList.Pairwise
      fun a b => rankedCompare (rank a, a) (rank b, b) = .lt := by
  set ranked := array.order.toList.map fun key => (rank key, key)
  have sorted := @List.pairwise_mergeSort _ (fun a b => (rankedCompare a b).isLE)
    (fun _ _ _ => Std.TransCmp.isLE_trans) isLE_or_isLE ranked
  have reorders : array.Reorders (array.sortByValues ranked) :=
    reorders_sortByValues (by rw [List.map_map]; exact List.map_id _)
  have distinct : ((ranked.mergeSort fun a b => (rankedCompare a b).isLE).map (·.2)).Nodup :=
    reorders.order.nodup_iff.2 nodup
  -- what is sorted are the keys with their projections
  have projected (pair : ArrayKey × ArrayKey)
      (member : pair ∈ ranked.mergeSort fun a b => (rankedCompare a b).isLE) :
      pair = (rank pair.2, pair.2) := by
    obtain ⟨key, -, rfl⟩ := List.mem_map.1 (List.mem_mergeSort.1 member)
    rfl
  change ((ranked.mergeSort fun a b => (rankedCompare a b).isLE).map (·.2)).Pairwise _
  rw [List.pairwise_map]
  rw [List.Nodup, List.pairwise_map] at distinct
  refine (sorted.and distinct).imp_of_mem ?_
  rintro a b memberA memberB ⟨ordered, different⟩
  rw [← projected a memberA, ← projected b memberB]
  exact eq_lt_of_isLE_of_ne ordered fun same => different (congrArg Prod.snd same)

/-! ## Shuffling -/

/-- Positions that can be drawn: one for each place from `count` down to 1, at or before it. -/
inductive Draws : Nat → List Nat → Prop where
  | none : Draws 0 []
  | next {count draw : Nat} {draws : List Nat} (within : draw ≤ count + 1)
      (rest : Draws count draws) : Draws (count + 1) (draw :: draws)

theorem Draws.length_eq {count : Nat} {draws : List Nat} (drawn : Draws count draws) :
    draws.length = count := by
  induction drawn with
  | none => rfl
  | next _ _ ih => rw [List.length_cons, ih]

/-- Exchanges each place with the position drawn for it, from the last place down. -/
def exchange (order : Array ArrayKey) : List Nat → Array ArrayKey
  | [] => order
  | draw :: draws => exchange (order.swapIfInBounds (draws.length + 1) draw) draws

def shuffledBy (array : ScriptArray) (draws : List Nat) : ScriptArray :=
  { array with order := exchange array.order draws }

/-- The positions a source gives. -/
def drawsFrom (random : RandomSequence) : Nat → List Nat
  | 0 => []
  | count + 1 =>
    (pick random.nextWord.1 0 (count + 1)).toNat :: drawsFrom random.nextWord.2 count

theorem toNat_pick_le (bits : UInt64) (count : Nat) :
    (pick bits 0 (count + 1)).toNat ≤ count + 1 := by
  have span : ((count : Int) + 1 - 0 + 1).toNat = count + 2 := by omega
  have below : bits.toNat % (count + 2) < count + 2 := Nat.mod_lt _ (by omega)
  rw [pick, span]
  omega

theorem draws_drawsFrom (count : Nat) : ∀ random, Draws count (drawsFrom random count) := by
  induction count with
  | zero => exact fun _ => .none
  | succ count ih =>
    intro random
    exact .next (toNat_pick_le random.nextWord.1 count) (ih random.nextWord.2)

/-- A shuffle draws a position for every place, and exchanges. -/
theorem shuffleFrom_eq (count : Nat) : ∀ (order : Array ArrayKey) (random : RandomSequence),
    shuffleFrom order random count =
      (exchange order (drawsFrom random count), (fun random => random.nextWord.2)^[count] random) := by
  induction count with
  | zero => exact fun _ _ => rfl
  | succ count ih =>
    intro order random
    -- the number of positions still to come is the place of the next exchange
    have length := (draws_drawsFrom count random.nextWord.2).length_eq
    rw [shuffleFrom, drawsFrom, exchange, Function.iterate_succ_apply]
    generalize random.nextWord = drawn at length ⊢
    rw [length]
    exact ih _ _

theorem shuffle_eq (array : ScriptArray) (random : RandomSequence) :
    array.shuffle random = (array.shuffledBy (drawsFrom random (array.size - 1)),
      (fun random => random.nextWord.2)^[array.size - 1] random) := by
  simp only [shuffle, shuffleFrom_eq, shuffledBy]

theorem perm_exchange (draws : List Nat) : ∀ order : Array ArrayKey,
    (exchange order draws).toList.Perm order.toList := by
  induction draws with
  | nil => exact fun _ => .refl _
  | cons draw draws ih => exact fun order => (ih _).trans (perm_swapIfInBounds _ _ _)

theorem reorders_shuffledBy (array : ScriptArray) (draws : List Nat) :
    array.Reorders (array.shuffledBy draws) where
  entries := rfl
  order := perm_exchange _ _

theorem getElem?_swapIfInBounds {order : Array ArrayKey} {place draw : Nat}
    (inside : place < order.size) (within : draw ≤ place) (index : Nat) :
    (order.swapIfInBounds place draw)[index]? =
      if draw = index then order[place]? else if place = index then order[draw]?
      else order[index]? := by
  have drawn : draw < order.size := by omega
  rw [Array.swapIfInBounds_def, dif_pos inside, dif_pos drawn, Array.getElem?_swap,
    Array.getElem?_eq_getElem inside, Array.getElem?_eq_getElem drawn]

/-- What was exchanged stays where it is: later places are before it. -/
theorem getElem?_exchange {count : Nat} {draws : List Nat} (drawn : Draws count draws) :
    ∀ {order : Array ArrayKey}, count < order.size → ∀ {index : Nat}, count < index →
      (exchange order draws)[index]? = order[index]? := by
  induction drawn with
  | none => exact fun _ _ _ => rfl
  | @next count draw draws within rest ih =>
    intro order inside index beyond
    rw [exchange, ih (by rw [Array.size_swapIfInBounds]; omega) (by omega), rest.length_eq,
      getElem?_swapIfInBounds inside within, if_neg (by omega), if_neg (by omega)]

/-- The place that is exchanged first gets what stood at the drawn position. -/
theorem getElem?_exchange_cons {count draw : Nat} {draws : List Nat} (within : draw ≤ count + 1)
    (rest : Draws count draws) {order : Array ArrayKey} (inside : count + 1 < order.size) :
    (exchange order (draw :: draws))[count + 1]? = order[draw]? := by
  rw [exchange, getElem?_exchange rest (by rw [Array.size_swapIfInBounds]; omega) (by omega),
    rest.length_eq, getElem?_swapIfInBounds inside within]
  split
  case isTrue same => rw [same]
  case isFalse => rw [if_pos rfl]

/-- Lists that have the same entries and agree but for the first one are the same. -/
theorem eq_of_perm_of_tail {target list : List ArrayKey} (perm : target.Perm list)
    (agree : ∀ index, 0 < index → target[index]? = list[index]?) : target = list := by
  cases list with
  | nil => exact perm.eq_nil
  | cons head tail =>
    cases target with
    | nil => exact absurd perm.symm.eq_nil (by simp)
    | cons head' tail' =>
      have same : tail' = tail := by
        apply List.ext_getElem?
        intro index
        simpa using agree (index + 1) index.succ_pos
      subst same
      have heads : [head'].Perm [head] := (List.perm_append_right_iff tail').1 perm
      rw [List.singleton_perm_singleton.1 heads]

/-- Every order that differs from a given one only up to a place is reached from there by exactly one
list of positions: the position for the place is where its key stands, and so on. -/
theorem existsUnique_exchange (count : Nat) : ∀ {order : Array ArrayKey} {target : List ArrayKey},
    order.toList.Nodup → target.Perm order.toList → (count < order.size ∨ count = 0) →
      (∀ index, count < index → target[index]? = order[index]?) →
        ∃! draws, Draws count draws ∧ (exchange order draws).toList = target := by
  induction count with
  | zero =>
    intro order target _ perm _ agree
    have same : target = order.toList := by
      apply eq_of_perm_of_tail perm
      simpa only [Array.getElem?_toList] using agree
    refine ⟨[], ⟨.none, same.symm⟩, ?_⟩
    rintro draws ⟨drawn, -⟩
    cases drawn
    rfl
  | succ count ih =>
    intro order target nodup perm room agree
    have inside : count + 1 < order.size := by omega
    have length : target.length = order.size := by rw [perm.length_eq, Array.length_toList]
    have distinct : target.Nodup := perm.nodup_iff.2 nodup
    -- the key that has to come to the place is at or before it
    have member : target[count + 1] ∈ order.toList := perm.mem_iff.1 (List.getElem_mem _)
    obtain ⟨draw, less, found⟩ := List.getElem_of_mem member
    have found : order[draw]? = target[count + 1]? := by
      rw [← Array.getElem?_toList, List.getElem?_eq_getElem less, found,
        List.getElem?_eq_getElem (by omega)]
    have drawn : draw < order.size := by simpa using less
    have within : draw ≤ count + 1 := by
      by_contra beyond
      have twice : target[draw]? = target[count + 1]? := by rw [agree draw (by omega), found]
      have := (List.getElem?_inj (by omega) distinct).1 twice
      omega
    have unique (other : Nat) (same : order[other]? = target[count + 1]?) : other = draw := by
      rw [← found, ← Array.getElem?_toList, ← Array.getElem?_toList] at same
      exact ((List.getElem?_inj less nodup).1 same.symm).symm
    -- once it is there, the rest is to be brought about by the other positions
    set next := order.swapIfInBounds (count + 1) draw
    have swapped : next.toList.Perm order.toList := perm_swapIfInBounds _ _ _
    have nextAgree (index : Nat) (beyond : count < index) : target[index]? = next[index]? := by
      rw [getElem?_swapIfInBounds inside within]
      split
      case isTrue same =>
        by_cases last : count + 1 = index
        · rw [← last, ← found, same, last]
        · omega
      case isFalse =>
        split
        case isTrue last => rw [← last, found]
        case isFalse => exact agree index (by omega)
    obtain ⟨draws, ⟨rest, reached⟩, only⟩ := ih (swapped.nodup_iff.2 nodup)
      (perm.trans swapped.symm) (.inl (by rw [Array.size_swapIfInBounds]; omega)) nextAgree
    refine ⟨draw :: draws, ⟨.next within rest, ?_⟩, ?_⟩
    · rw [exchange, rest.length_eq, reached]
    · rintro others ⟨othersDrawn, othersReached⟩
      cases othersDrawn with
      | @next _ other others otherWithin otherRest =>
        have place := getElem?_exchange_cons otherWithin otherRest inside
        rw [← Array.getElem?_toList, othersReached] at place
        obtain rfl := unique other place.symm
        rw [exchange, otherRest.length_eq] at othersReached
        rw [only others ⟨otherRest, othersReached⟩]

/-- Every order of the pairs is the outcome of exactly one list of positions. -/
theorem existsUnique_draws (inStep : array.InStep) {target : Pairs}
    (perm : target.Perm array.pairs) :
    ∃! draws, Draws (array.size - 1) draws ∧ (array.shuffledBy draws).pairs = target := by
  have keys : target.keys.Perm array.order.toList := by
    rw [← inStep.keys_pairs]
    exact perm.map _
  have room : array.size - 1 < array.order.size ∨ array.size - 1 = 0 := by
    rw [ScriptArray.size]
    omega
  -- past the last place both lists have nothing
  have agree (index : Nat) (beyond : array.size - 1 < index) :
      target.keys[index]? = array.order[index]? := by
    have length : target.keys.length = array.size := by
      rw [keys.length_eq, Array.length_toList, ScriptArray.size]
    rw [List.getElem?_eq_none (by omega), Array.getElem?_eq_none (by rw [← ScriptArray.size]; omega)]
  obtain ⟨draws, ⟨drawn, reached⟩, only⟩ :=
    existsUnique_exchange (array.size - 1) inStep.nodup keys room agree
  -- the keys decide the pairs
  have pairs (draws : List Nat) : (array.shuffledBy draws).pairs = target ↔
      (exchange array.order draws).toList = target.keys := by
    have reorders := array.reorders_shuffledBy draws
    have shuffled := reorders.inStep inStep
    constructor
    · intro same
      rw [← same, shuffled.keys_pairs]
      rfl
    · intro same
      have pairs : (array.shuffledBy draws).pairs =
          target.keys.map fun key => (key, (array.get? key).getD default) := by
        rw [shuffled.pairs_eq, reorders.get?, ← same]
        rfl
      rw [pairs, Pairs.keys, List.map_map]
      refine (List.map_congr_left fun pair member => ?_).trans (List.map_id target)
      have stored := inStep.mem_pairs.1 (perm.mem_iff.1 member)
      simp [stored]
  refine ⟨draws, ⟨drawn, (pairs draws).2 reached⟩, ?_⟩
  rintro others ⟨othersDrawn, same⟩
  exact only others ⟨othersDrawn, (pairs others).1 same⟩

end ScriptArray

namespace Heap

variable {heap : Heap} {held : Multiset ObjectId} {array : ObjectId} {items other : ScriptArray}

/-! ## Arrays of the heap -/

/-- An array has its pairs in another order. No lookup in it changes, and neither does anything else. -/
structure Rearranges (before after : Heap) (array : ObjectId) (items other : ScriptArray) : Prop where
  own : after.value? array = some (.array other)
  others : ∀ id, id ≠ array → after.value? id = before.value? id
  counts : after.refCount? = before.refCount?
  lookups : other.get? = items.get?
  pairs : other.pairs.Perm items.pairs

theorem exists_reorder_eq_ok (found : heap.value? array = some (.array items))
    (change : ScriptArray → ScriptArray) (reorders : items.Reorders (change items)) :
    ∃ after, modifyArray array change heap = .ok () after ∧
      heap.Rearranges after array items (change items) := by
  obtain ⟨after, run, own, others, counts⟩ := exists_modifyArray_eq_ok found change
  exact ⟨after, run, own, others, counts, reorders.get?, reorders.pairs⟩

/-- A pair comes before another: what its value compares by is less, or the same and its key is
less. -/
def Precedes (heap : Heap) (first second : ArrayKey × Entry) : Prop :=
  ∃ value value', heap.key? first.2.value = some value ∧ heap.key? second.2.value = some value' ∧
    (value.compare value').then (first.1.compare second.1) = .lt

/-- Sorting by key, whatever the order was. -/
theorem exists_sortByKeys_eq_ok (inStep : items.InStep)
    (found : heap.value? array = some (.array items)) :
    ∃ after sorted, sortByKeys array heap = .ok () after ∧
      heap.Rearranges after array items sorted ∧
      sorted.pairs.Pairwise fun first second => first.1.compare second.1 = .lt := by
  have reorders := items.reorders_sortByKeys
  obtain ⟨after, run, rearranges⟩ := exists_reorder_eq_ok found (·.sortByKeys) reorders
  refine ⟨after, _, (bind_of_eq_ok (arrayAt_run found)).trans run, rearranges, ?_⟩
  rw [(reorders.inStep inStep).pairs_eq, List.pairwise_map]
  exact ScriptArray.sortedByKeys inStep.nodup

/-- Sorting by value, whatever the order was. -/
theorem exists_sortByValues_eq_ok (counted : heap.Counted held) (inStep : items.InStep)
    (found : heap.value? array = some (.array items)) :
    ∃ after sorted, sortByValues array heap = .ok () after ∧
      heap.Rearranges after array items sorted ∧ sorted.pairs.Pairwise heap.Precedes := by
  have reorders := heap.reorders_sortByRank items
  obtain ⟨after, run, rearranges⟩ := exists_reorder_eq_ok found
    (·.sortByValues (items.order.toList.map fun key => (heap.rank items key, key))) reorders
  refine ⟨after, _, (sortByValues_eq counted inStep found).trans run, rearranges, ?_⟩
  rw [(reorders.inStep inStep).pairs_eq, reorders.get?, List.pairwise_map]
  refine (ScriptArray.sortedByValues inStep.nodup (heap.rank items)).imp_of_mem ?_
  intro key key' member member' ordered
  exact ⟨_, _, key?_eq_rank counted inStep found (reorders.order.mem_iff.1 member),
    key?_eq_rank counted inStep found (reorders.order.mem_iff.1 member'), ordered⟩

/-- Shuffling, with the positions the source gives. -/
theorem exists_shuffle_eq_ok (found : heap.value? array = some (.array items))
    (random : RandomSequence) :
    ∃ after, shuffle array random heap =
        .ok ((fun random => random.nextWord.2)^[items.size - 1] random) after ∧
      heap.Rearranges after array items
        (items.shuffledBy (ScriptArray.drawsFrom random (items.size - 1))) := by
  set draws := ScriptArray.drawsFrom random (items.size - 1)
  obtain ⟨after, run, rearranges⟩ := exists_reorder_eq_ok found (fun _ => items.shuffledBy draws)
    (items.reorders_shuffledBy draws)
  refine ⟨after, ?_, rearranges⟩
  rw [shuffle, bind_of_eq_ok (arrayAt_run found), ScriptArray.shuffle_eq]
  exact bind_of_eq_ok run

/-- The reorderings of an array, after any history. -/
theorem Reached.lawful_reorderings (reached : Reached heap held)
    (found : heap.value? array = some (.array items)) :
    (∃ after sorted, sortByKeys array heap = .ok () after ∧
      heap.Rearranges after array items sorted ∧
      sorted.pairs.Pairwise fun first second => first.1.compare second.1 = .lt) ∧
    (∃ after sorted, sortByValues array heap = .ok () after ∧
      heap.Rearranges after array items sorted ∧ sorted.pairs.Pairwise heap.Precedes) ∧
    (∀ random, ScriptArray.Draws (items.size - 1)
        (ScriptArray.drawsFrom random (items.size - 1)) ∧
      ∃ after, shuffle array random heap =
          .ok ((fun random => random.nextWord.2)^[items.size - 1] random) after ∧
        heap.Rearranges after array items
          (items.shuffledBy (ScriptArray.drawsFrom random (items.size - 1)))) ∧
    (∀ draws, ScriptArray.Draws (items.size - 1) draws →
      (items.shuffledBy draws).pairs.Perm items.pairs) ∧
    ∀ target : Pairs, target.Perm items.pairs → ∃! draws,
      ScriptArray.Draws (items.size - 1) draws ∧ (items.shuffledBy draws).pairs = target := by
  obtain ⟨counted, arrays⟩ := reached.sound
  obtain ⟨inStep, keyed⟩ := arrays array items found
  refine ⟨exists_sortByKeys_eq_ok inStep found, exists_sortByValues_eq_ok counted inStep found,
    ?_, ?_, ?_⟩
  · intro random
    exact ⟨ScriptArray.draws_drawsFrom _ random, exists_shuffle_eq_ok found random⟩
  · intro draws _
    exact (items.reorders_shuffledBy draws).pairs
  · intro target perm
    exact ScriptArray.existsUnique_draws inStep perm

theorem shelvedTwo_lawful_reorderings : ∃! draws, ScriptArray.Draws 1 draws ∧
    (shelfOfTwo.shuffledBy draws).pairs = [(.null, ⟨2, 1⟩), (.boolean true, ⟨1, 2⟩)] := by
  obtain ⟨-, -, -, -, unique⟩ := @Reached.lawful_reorderings _ _ 0 _ shelvedTwo_reached rfl
  have pairs : shelfOfTwo.pairs = [(.boolean true, ⟨1, 2⟩), (.null, ⟨2, 1⟩)] := rfl
  exact unique _ (pairs ▸ .swap _ _ _)

end Heap

end Terrain
