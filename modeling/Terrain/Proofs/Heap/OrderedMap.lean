import Terrain.Proofs.Heap.Arrays

/-!
# Arrays as ordered maps

Scripts see an array as a list of pairs, each a key with the entry stored under it. An array keeps
the list in two parts: the keys in their order, and the entries by key. Here the parts are put
together, and every change of the parts is read as a change of the list.

* `Pairs` — the list, with looking up and storing.
* `ScriptArray.InStep` — the two parts list the same keys, each once.
* `ScriptArray.ReadsAs` — looking into an array is looking into its list.
* `ScriptArray.pairs_insert`, `ScriptArray.pairs_erase`, … — what a change makes of the list.
-/

namespace Terrain

/-! ## Lists of pairs -/

abbrev Pairs := List (ArrayKey × Entry)

namespace Pairs

variable {pairs : Pairs} {key : ArrayKey} {entry : Entry}

def keys (pairs : Pairs) : List ArrayKey := pairs.map (·.1)

def entry? (pairs : Pairs) (key : ArrayKey) : Option Entry :=
  (pairs.find? fun pair => pair.1 = key).map (·.2)

/-- Puts an entry in the place of the one under its key, or at the end if there is none. -/
def store (pairs : Pairs) (key : ArrayKey) (entry : Entry) : Pairs :=
  if key ∈ pairs.keys then pairs.map fun pair => if pair.1 = key then (key, entry) else pair
  else pairs ++ [(key, entry)]

def without (pairs : Pairs) (key : ArrayKey) : Pairs := pairs.filter fun pair => pair.1 ≠ key

theorem without_eq_self (absent : key ∉ pairs.keys) : pairs.without key = pairs := by
  apply List.filter_eq_self.2
  intro pair member
  have different : pair.1 ≠ key := by
    rintro rfl
    exact absent (List.mem_map_of_mem member)
  simpa using different

theorem without_head {pair : ArrayKey × Entry} (unique : Pairs.keys (pair :: pairs) |>.Nodup) :
    Pairs.without (pair :: pairs) pair.1 = pairs := by
  have absent : pair.1 ∉ pairs.keys := (List.nodup_cons.1 unique).1
  calc Pairs.without (pair :: pairs) pair.1 = pairs.without pair.1 := by simp [without]
    _ = pairs := without_eq_self absent

theorem without_last {pair : ArrayKey × Entry} (unique : Pairs.keys (pairs ++ [pair]) |>.Nodup) :
    Pairs.without (pairs ++ [pair]) pair.1 = pairs := by
  have absent : pair.1 ∉ pairs.keys := by
    rw [keys, List.map_append] at unique
    intro member
    exact (List.nodup_append.1 unique).2.2 _ member _ (List.mem_singleton_self _) rfl
  calc Pairs.without (pairs ++ [pair]) pair.1 = pairs.without pair.1 := by simp [without]
    _ = pairs := without_eq_self absent

end Pairs

namespace ScriptArray

variable {array : ScriptArray} {key : ArrayKey} {entry : Entry}

def pairs (array : ScriptArray) : Pairs :=
  array.order.toList.filterMap fun key => (array.get? key).map (key, ·)

structure InStep (array : ScriptArray) : Prop where
  nodup : array.order.toList.Nodup
  mem_order : ∀ key, key ∈ array.order ↔ key ∈ array.entries

theorem mem_entries : key ∈ array.entries ↔ ∃ entry, array.get? key = some entry := by
  rw [Std.TreeMap.mem_iff_isSome_getElem?, Option.isSome_iff_exists]
  rfl

theorem contains_iff : array.contains key ↔ key ∈ array.entries := Iff.rfl

theorem notMem_entries : key ∉ array.entries ↔ array.get? key = none := by
  rw [mem_entries, ← Option.isSome_iff_exists, Option.not_isSome_iff_eq_none]

/-! ## Looking -/

namespace InStep

theorem exists_entry (inStep : array.InStep) (member : key ∈ array.order) :
    ∃ entry, array.get? key = some entry :=
  mem_entries.1 ((inStep.mem_order key).1 member)

theorem mem_pairs (inStep : array.InStep) :
    (key, entry) ∈ array.pairs ↔ array.get? key = some entry := by
  rw [pairs, List.mem_filterMap]
  constructor
  · rintro ⟨other, -, found⟩
    obtain ⟨stored, found, same⟩ := Option.map_eq_some_iff.1 found
    cases same
    exact found
  · intro found
    have member := (inStep.mem_order key).2 (mem_entries.2 ⟨entry, found⟩)
    exact ⟨key, Array.mem_toList_iff.2 member, by rw [found, Option.map_some]⟩

/-- Position by position, the pairs are the keys of the order with what is stored under them. -/
theorem pairs_eq (inStep : array.InStep) :
    array.pairs = array.order.toList.map fun key => (key, (array.get? key).getD default) := by
  rw [pairs, ← List.filterMap_eq_map]
  apply List.filterMap_congr
  intro key member
  obtain ⟨entry, found⟩ := inStep.exists_entry (Array.mem_toList_iff.1 member)
  simp [found]

theorem keys_pairs (inStep : array.InStep) : array.pairs.keys = array.order.toList := by
  rw [Pairs.keys, inStep.pairs_eq, List.map_map]
  exact List.map_id _

theorem mem_keys (inStep : array.InStep) : key ∈ array.pairs.keys ↔ key ∈ array.entries := by
  rw [inStep.keys_pairs, Array.mem_toList_iff, inStep.mem_order]

theorem nodup_keys (inStep : array.InStep) : array.pairs.keys.Nodup := by
  rw [inStep.keys_pairs]
  exact inStep.nodup

/-- Pairs with one key are one pair. -/
theorem eq_of_key_eq (inStep : array.InStep) {pair other : ArrayKey × Entry}
    (member : pair ∈ array.pairs) (otherMember : other ∈ array.pairs) (same : pair.1 = other.1) :
    pair = other := by
  have found := inStep.mem_pairs.1 member
  have otherFound := inStep.mem_pairs.1 otherMember
  rw [same, otherFound, Option.some.injEq] at found
  exact Prod.ext same found.symm

theorem get?_eq (inStep : array.InStep) (key : ArrayKey) :
    array.get? key = array.pairs.entry? key := by
  cases found : array.pairs.find? fun pair => pair.1 = key with
  | none =>
    rw [Pairs.entry?, found, Option.map_none]
    apply notMem_entries.1
    intro member
    obtain ⟨entry, stored⟩ := mem_entries.1 member
    have differs := List.find?_eq_none.1 found _ (inStep.mem_pairs.2 stored)
    simp at differs
  | some pair =>
    have same : pair.1 = key := by simpa using List.find?_some found
    have stored := inStep.mem_pairs.1 (List.mem_of_find?_eq_some found)
    rw [Pairs.entry?, found, Option.map_some, ← same, stored]

theorem entryAt?_eq (inStep : array.InStep) (index : Nat) :
    array.entryAt? index = array.pairs[index]?.map (·.2) := by
  rw [entryAt?, inStep.pairs_eq, List.getElem?_map, Array.getElem?_toList]
  cases listed : array.order[index]? with
  | none => rfl
  | some key =>
    obtain ⟨entry, found⟩ := inStep.exists_entry (Array.mem_of_getElem? listed)
    simp [found]

end InStep

/-- Looking into an array is looking into a list of pairs. -/
structure ReadsAs (array : ScriptArray) (pairs : Pairs) : Prop where
  size : array.size = pairs.length
  get? : ∀ key, array.get? key = pairs.entry? key
  contains : ∀ key, array.contains key ↔ key ∈ pairs.keys
  entryAt? : ∀ index, array.entryAt? index = pairs[index]?.map (·.2)
  front? : array.front? = pairs.head?.map (·.2)
  back? : array.back? = pairs.getLast?.map (·.2)

theorem InStep.readsAs (inStep : array.InStep) : array.ReadsAs array.pairs where
  size := by simp [inStep.pairs_eq, ScriptArray.size]
  get? := inStep.get?_eq
  contains key := by rw [contains_iff, inStep.mem_keys]
  entryAt? := inStep.entryAt?_eq
  front? := by rw [ScriptArray.front?, inStep.entryAt?_eq, List.head?_eq_getElem?]
  back? := by
    have length : array.pairs.length = array.size := by simp [inStep.pairs_eq, ScriptArray.size]
    rw [ScriptArray.back?, List.getLast?_eq_getElem?, length, ← inStep.entryAt?_eq]
    split
    case isTrue empty =>
      rw [ScriptArray.entryAt?, Array.isEmpty_iff.1 empty]
      rfl
    case isFalse => rfl

/-! ## Storing and deleting -/

theorem inStep_empty : empty.InStep where
  nodup := List.nodup_nil
  mem_order key := by simp [empty]

/-- A key that is present keeps its place, a new one goes to the end. -/
theorem order_insert (array : ScriptArray) (key : ArrayKey) (entry : Entry) :
    (array.insert key entry).order.toList =
      if key ∈ array.entries then array.order.toList else array.order.toList ++ [key] := by
  rw [insert]
  by_cases present : key ∈ array.entries
  · rw [if_pos present, if_pos (contains_iff.2 present)]
  · rw [if_neg present, if_neg fun held => present (contains_iff.1 held), Array.toList_push]

theorem mem_entries_insert {other : ArrayKey} :
    other ∈ (array.insert key entry).entries ↔ key = other ∨ other ∈ array.entries := by
  rw [mem_entries, mem_entries, get?_insert]
  by_cases same : key = other <;> simp [same]

theorem InStep.insert (inStep : array.InStep) (key : ArrayKey) (entry : Entry) :
    (array.insert key entry).InStep := by
  by_cases present : key ∈ array.entries
  case pos =>
    constructor
    · rw [order_insert, if_pos present]
      exact inStep.nodup
    · intro other
      rw [← Array.mem_toList_iff, order_insert, if_pos present, mem_entries_insert,
        Array.mem_toList_iff, inStep.mem_order]
      constructor
      · exact .inr
      · rintro (rfl | member)
        · exact present
        · exact member
  case neg =>
    have absent : key ∉ array.order.toList := by
      rw [Array.mem_toList_iff, inStep.mem_order]
      exact present
    constructor
    · rw [order_insert, if_neg present]
      apply List.Nodup.append inStep.nodup (List.nodup_singleton key)
      simpa using absent
    · intro other
      rw [← Array.mem_toList_iff, order_insert, if_neg present, mem_entries_insert, List.mem_append,
        List.mem_singleton, Array.mem_toList_iff, inStep.mem_order, or_comm, eq_comm]

theorem pairs_insert (inStep : array.InStep) (key : ArrayKey) (entry : Entry) :
    (array.insert key entry).pairs = array.pairs.store key entry := by
  have kept (other : ArrayKey) (different : other ≠ key) :
      (array.insert key entry).get? other = array.get? other := by
    rw [get?_insert, if_neg (Ne.symm different)]
  have stored : (array.insert key entry).get? key = some entry := by
    rw [get?_insert, if_pos rfl]
  simp only [Pairs.store, inStep.mem_keys]
  rw [pairs, order_insert]
  split
  case isTrue =>
    -- the order is the old one, and only the pair of the key reads otherwise
    rw [pairs, List.map_filterMap]
    apply List.filterMap_congr
    intro other member
    obtain ⟨old, found⟩ := inStep.exists_entry (Array.mem_toList_iff.1 member)
    by_cases same : other = key
    · subst same
      simp [found, stored]
    · simp [found, kept other same, same]
  case isFalse absent =>
    -- none of the old keys is the new one
    rw [List.filterMap_append, pairs]
    congr 1
    · apply List.filterMap_congr
      intro other member
      have different : other ≠ key := by
        rintro rfl
        exact absent ((inStep.mem_order other).1 (Array.mem_toList_iff.1 member))
      rw [kept other different]
    · simp [stored]

theorem order_erase (inStep : array.InStep) (key : ArrayKey) :
    (array.erase key).order.toList = array.order.toList.filter fun other => other ≠ key := by
  rw [erase]
  split
  case isTrue =>
    rw [Array.toList_filter]
    apply List.filter_congr
    intro other _
    by_cases same : other = key <;> simp [same]
  case isFalse absent =>
    -- nothing was erased, and nothing is filtered out
    symm
    apply List.filter_eq_self.2
    intro other member
    have different : other ≠ key := by
      rintro rfl
      exact absent (contains_iff.2 ((inStep.mem_order other).1 (Array.mem_toList_iff.1 member)))
    simpa using different

theorem mem_entries_erase {other : ArrayKey} :
    other ∈ (array.erase key).entries ↔ other ∈ array.entries ∧ other ≠ key := by
  rw [mem_entries, mem_entries, get?_erase]
  by_cases same : key = other
  · simp [same]
  · simp [same, Ne.symm same]

theorem InStep.erase (inStep : array.InStep) (key : ArrayKey) : (array.erase key).InStep where
  nodup := by
    rw [order_erase inStep]
    exact inStep.nodup.filter _
  mem_order other := by
    rw [← Array.mem_toList_iff, order_erase inStep, List.mem_filter, mem_entries_erase,
      Array.mem_toList_iff, inStep.mem_order, decide_eq_true_iff]

theorem pairs_erase (inStep : array.InStep) (key : ArrayKey) :
    (array.erase key).pairs = array.pairs.without key := by
  rw [pairs, order_erase inStep, Pairs.without, pairs, List.filterMap_filter, List.filter_filterMap]
  apply List.filterMap_congr
  intro other member
  obtain ⟨entry, found⟩ := inStep.exists_entry (Array.mem_toList_iff.1 member)
  by_cases same : other = key
  · subst same
    simp [Option.filter, found]
  · simp [same, Ne.symm same, Option.filter, found, get?_erase]

theorem erase_eq_self (missing : array.get? key = none) : array.erase key = array := by
  rw [erase, if_neg]
  exact fun held => notMem_entries.2 missing (contains_iff.1 held)

/-- Deleting one key after the other keeps the pairs of all other keys. -/
theorem inStep_foldl_erase (keys : List ArrayKey) : ∀ {array : ScriptArray}, array.InStep →
    (keys.foldl ScriptArray.erase array).InStep ∧
      (keys.foldl ScriptArray.erase array).pairs = array.pairs.filter (·.1 ∉ keys) := by
  induction keys with
  | nil =>
    intro array inStep
    exact ⟨inStep, by simp⟩
  | cons key keys ih =>
    intro array inStep
    obtain ⟨kept, rest⟩ := ih (inStep.erase key)
    refine ⟨kept, ?_⟩
    rw [List.foldl_cons, rest, pairs_erase inStep, Pairs.without, List.filter_filter]
    apply List.filter_congr
    intro pair _
    simp [Bool.and_comm]

/-- Deleting the keys of some pairs deletes just these pairs, since no key stands twice. -/
theorem InStep.filter_notMem_keys (inStep : array.InStep) (test : ArrayKey × Entry → Bool) :
    array.pairs.filter (·.1 ∉ Pairs.keys (array.pairs.filter test)) =
      array.pairs.filter (!test ·) := by
  apply List.filter_congr
  intro pair member
  have listed : pair.1 ∈ Pairs.keys (array.pairs.filter test) ↔ test pair = true := by
    constructor
    · intro inKeys
      obtain ⟨other, passed, same⟩ := List.mem_map.1 inKeys
      obtain ⟨otherMember, passes⟩ := List.mem_filter.1 passed
      rw [← inStep.eq_of_key_eq otherMember member same]
      exact passes
    · intro passes
      exact List.mem_map_of_mem (List.mem_filter.2 ⟨member, passes⟩)
  simp [listed]

theorem get?_foldl_erase {keys : List ArrayKey} {other : ArrayKey} : ∀ {array : ScriptArray},
    (keys.foldl ScriptArray.erase array).get? other = some entry →
      array.get? other = some entry := by
  induction keys with
  | nil => exact id
  | cons key keys ih =>
    intro array found
    have found := ih found
    rw [get?_erase] at found
    split at found
    · cases found
    · exact found

/-! ## Ends -/

theorem popFront?_pairs (inStep : array.InStep) :
    array.popFront? = array.pairs.head?.map fun pair => (pair.2, array.erase pair.1) := by
  rw [Heap.popFront?_eq, inStep.pairs_eq, List.head?_map, List.head?_eq_getElem?,
    Array.getElem?_toList]
  cases first : array.order[0]? with
  | none => rfl
  | some key =>
    obtain ⟨entry, found⟩ := inStep.exists_entry (Array.mem_of_getElem? first)
    simp [Heap.takeKey, found]

theorem popBack?_pairs (inStep : array.InStep) :
    array.popBack? = array.pairs.getLast?.map fun pair => (pair.2, array.erase pair.1) := by
  rw [Heap.popBack?_eq, inStep.pairs_eq, List.getLast?_map, Array.getLast?_toList]
  cases last : array.order.back? with
  | none => rfl
  | some key =>
    obtain ⟨entry, found⟩ := inStep.exists_entry (Array.mem_of_back? last)
    simp [Heap.takeKey, found]

def dropPair (array : ScriptArray) (pair : Option (ArrayKey × Entry)) : ScriptArray :=
  (pair.map fun pair => array.erase pair.1).getD array

theorem InStep.dropPair (inStep : array.InStep) (pair : Option (ArrayKey × Entry)) :
    (array.dropPair pair).InStep := by
  cases pair with
  | none => exact inStep
  | some pair => exact inStep.erase pair.1

theorem pairs_dropPair_head (inStep : array.InStep) :
    (array.dropPair array.pairs.head?).pairs = array.pairs.tail := by
  have unique := inStep.nodup_keys
  cases list : array.pairs with
  | nil => exact list
  | cons pair rest =>
    rw [list] at unique
    calc (array.erase pair.1).pairs = Pairs.without (pair :: rest) pair.1 := by
          rw [pairs_erase inStep, list]
      _ = rest := Pairs.without_head unique

theorem pairs_dropPair_last (inStep : array.InStep) :
    (array.dropPair array.pairs.getLast?).pairs = array.pairs.dropLast := by
  have unique := inStep.nodup_keys
  rcases List.eq_nil_or_concat' array.pairs with list | ⟨rest, pair, list⟩
  · rw [list]
    exact list
  · rw [list] at unique ⊢
    rw [List.getLast?_concat, List.dropLast_concat]
    calc (array.erase pair.1).pairs = Pairs.without (rest ++ [pair]) pair.1 := by
          rw [pairs_erase inStep, list]
      _ = rest := Pairs.without_last unique

/-! ## Reordering -/

/-- A reordering moves keys about and leaves the entries alone. -/
structure Reorders (array other : ScriptArray) : Prop where
  entries : other.entries = array.entries
  order : other.order.toList.Perm array.order.toList

namespace Reorders

variable {other : ScriptArray}

theorem get? (reorders : array.Reorders other) : other.get? = array.get? := by
  funext key
  rw [ScriptArray.get?, reorders.entries, ScriptArray.get?]

theorem inStep (reorders : array.Reorders other) (inStep : array.InStep) : other.InStep where
  nodup := reorders.order.nodup_iff.2 inStep.nodup
  mem_order key := by
    rw [reorders.entries, ← inStep.mem_order, ← Array.mem_toList_iff, reorders.order.mem_iff,
      Array.mem_toList_iff]

theorem pairs (reorders : array.Reorders other) : other.pairs.Perm array.pairs := by
  rw [ScriptArray.pairs, reorders.get?]
  exact reorders.order.filterMap _

end Reorders

theorem reorders_sortByKeys (array : ScriptArray) : array.Reorders array.sortByKeys where
  entries := rfl
  order := List.mergeSort_perm _ _

/-- Any projections may stand in front of the keys. -/
theorem reorders_sortByValues {ranked : List (ArrayKey × ArrayKey)}
    (keys : ranked.map (·.2) = array.order.toList) :
    array.Reorders (array.sortByValues ranked) where
  entries := rfl
  order := by
    rw [← keys]
    exact (List.mergeSort_perm _ _).map _

theorem perm_swapIfInBounds (order : Array ArrayKey) (i j : Nat) :
    (order.swapIfInBounds i j).toList.Perm order.toList := by
  rw [Array.swapIfInBounds_def]
  split
  · split
    · exact (Array.swap_perm _ _).toList
    · exact .refl _
  · exact .refl _

theorem perm_shuffleFrom (steps : Nat) : ∀ (order : Array ArrayKey) (random : RandomSequence),
    (shuffleFrom order random steps).1.toList.Perm order.toList := by
  induction steps with
  | zero =>
    intro order random
    exact .refl _
  | succ i ih =>
    intro order random
    exact (ih _ _).trans (perm_swapIfInBounds _ _ _)

theorem reorders_shuffle (array : ScriptArray) (random : RandomSequence) :
    array.Reorders (array.shuffle random).1 where
  entries := rfl
  order := perm_shuffleFrom _ _ _

end ScriptArray

end Terrain
