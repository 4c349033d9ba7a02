import Terrain.Proofs.Heap.OrderedMap

/-!
# Changing one array

The operations on an array give it other items. They count references up before and down
afterwards, when objects may go: entries, other arrays, even the array itself if only its own entries
referred to it. No other object that stays has another value, and an array that stays has the new
items.

* `Heap.Gives` — the outcome of an action that fails only under a condition.
* `Heap.key?` — what an object compares by.
* `Heap.Leaves` — one array has other items, and what else is there is as it was.
* `Heap.gives_setEntry`, `Heap.gives_eraseKey`, … — which items each operation leaves.
-/

namespace Terrain.Heap

variable {heap between after : Heap} {held held' : Multiset ObjectId} {array id : ObjectId}
  {items items' : ScriptArray}

/-! ## Outcomes -/

section Outcomes

variable {α β : Type} {fails : Prop}

/-- A value and the heap it comes with satisfy `done`; the action fails only if `fails`. -/
def Gives (result : EStateM.Result Failure Heap α) (done : α → Heap → Prop) (fails : Prop) : Prop :=
  match result with
  | .ok value heap => done value heap
  | .error _ _ => fails

theorem Gives.bind {action : HeapM α} {next : α → HeapM β} {done : β → Heap → Prop}
    (gives : Gives (action heap) (fun value heap => Gives (next value heap) done fails) fails) :
    Gives ((action >>= next) heap) done fails := by
  change Gives (EStateM.bind action next heap) done fails
  unfold EStateM.bind
  cases outcome : action heap <;> simpa only [outcome, Gives] using gives

theorem bind_of_eq_ok {action : HeapM α} {next : α → HeapM β} {value : α}
    (run : action heap = .ok value between) : (action >>= next) heap = next value between := by
  change EStateM.bind action next heap = _
  simp only [EStateM.bind, run]

/-- A first action whose outcome is known. -/
theorem Gives.bind_of_eq_ok {action : HeapM α} {next : α → HeapM β} {value : α}
    {done : β → Heap → Prop} (run : action heap = .ok value between)
    (gives : Gives (next value between) done fails) :
    Gives ((action >>= next) heap) done fails := by
  rw [Heap.bind_of_eq_ok run]
  exact gives

theorem Gives.imp {result : EStateM.Result Failure Heap α} {done done' : α → Heap → Prop}
    {fails' : Prop} (gives : Gives result done fails)
    (onDone : ∀ value heap, done value heap → done' value heap) (onFails : fails → fails') :
    Gives result done' fails' := by
  match result with
  | .ok value heap => exact onDone value heap gives
  | .error _ _ => exact onFails gives

theorem Gives.of_eq_ok {result : EStateM.Result Failure Heap α} {done : α → Heap → Prop} {value : α}
    (gives : Gives result done fails) (run : result = .ok value after) : done value after := by
  rw [run] at gives
  exact gives

theorem Gives.exists_eq_ok {result : EStateM.Result Failure Heap α} {done : α → Heap → Prop}
    (gives : Gives result done fails) (sure : ¬fails) :
    ∃ value after, result = .ok value after := by
  match result with
  | .ok value heap => exact ⟨value, heap, rfl⟩
  | .error _ _ => exact absurd gives sure

/-- A test that leaves the heap as it is filters a list as a function would. -/
theorem filterM_run {test : α → HeapM Bool} {passes : α → Bool} {list : List α}
    (tests : ∀ item ∈ list, test item heap = .ok (passes item) heap) :
    list.filterM test heap = .ok (list.filter passes) heap := by
  have loop : ∀ (list kept : List α), (∀ item ∈ list, test item heap = .ok (passes item) heap) →
      list.filterAuxM test kept heap = .ok ((list.filter passes).reverse ++ kept) heap := by
    intro list
    induction list with
    | nil =>
      intro kept _
      rfl
    | cons item list ih =>
      intro kept tests
      have rest := ih (bif passes item then item :: kept else kept)
        fun other member => tests other (List.mem_cons_of_mem _ member)
      rw [List.filterAuxM, bind_of_eq_ok (tests item List.mem_cons_self), rest]
      cases passed : passes item <;> simp [passed]
  have reversed := loop list [] tests
  rw [List.append_nil] at reversed
  refine (bind_of_eq_ok reversed).trans ?_
  rw [List.reverse_reverse]
  rfl

theorem mapM_run {f : α → HeapM β} {g : α → β} : ∀ {list : List α},
    (∀ item ∈ list, f item heap = .ok (g item) heap) →
      list.mapM f heap = .ok (list.map g) heap := by
  intro list
  induction list with
  | nil =>
    intro _
    rw [List.mapM_nil]
    rfl
  | cons item list ih =>
    intro runs
    have rest := ih fun other member => runs other (List.mem_cons_of_mem _ member)
    rw [List.mapM_cons, bind_of_eq_ok (runs item List.mem_cons_self), bind_of_eq_ok rest]
    rfl

end Outcomes

/-! ## Keys of objects -/

def key? (heap : Heap) (id : ObjectId) : Option ArrayKey := (heap.value? id).map (·.key id)

theorem contains_of_key? {key : ArrayKey} (found : heap.key? id = some key) : heap.contains id := by
  obtain ⟨value, stored, -⟩ := Option.map_eq_some_iff.1 found
  exact contains_iff_value?.2 ⟨value, stored⟩

theorem exists_key? (live : heap.contains id) : ∃ key, heap.key? id = some key := by
  obtain ⟨value, stored⟩ := contains_iff_value?.1 live
  exact ⟨value.key id, by rw [key?, stored, Option.map_some]⟩

theorem keyOf_eq_ok_of_key? {key : ArrayKey} (found : heap.key? id = some key) :
    keyOf id heap = .ok key heap := by
  obtain ⟨value, stored, rfl⟩ := Option.map_eq_some_iff.1 found
  exact keyOf_run stored

/-- Objects compare by their keys. -/
theorem compareObjects_run {other : ObjectId} {key otherKey : ArrayKey}
    (found : heap.key? id = some key) (otherFound : heap.key? other = some otherKey) :
    compareObjects id other heap = .ok (key.compare otherKey) heap := by
  rw [compareObjects, bind_of_eq_ok (keyOf_eq_ok_of_key? found),
    bind_of_eq_ok (keyOf_eq_ok_of_key? otherFound)]
  rfl

abbrev Counted (heap : Heap) (held : Multiset ObjectId) : Prop :=
  heap.Accounted held Set.univ ⟨fun _ _ => True, 0⟩

/-! ## Changing one array -/

/-- An array that is still there has new items, and any other object that is still there has the
value it had. -/
structure Leaves (before after : Heap) (held : Multiset ObjectId) (array : ObjectId)
    (items : ScriptArray) : Prop where
  counted : after.Counted held
  own : ∀ value, after.value? array = some value → value = .array items
  others : ∀ id value, id ≠ array → after.value? id = some value → before.value? id = some value

namespace Leaves

theorem refl (counted : heap.Counted held)
    (own : ∀ value, heap.value? array = some value → value = .array items) :
    heap.Leaves heap held array items :=
  ⟨counted, own, fun _ _ _ => id⟩

theorem trans (first : heap.Leaves between held array items)
    (second : between.Leaves after held' array items') : heap.Leaves after held' array items' where
  counted := second.counted
  own := second.own
  others id value different stored :=
    first.others id value different (second.others id value different stored)

theorem of_eq (leaves : heap.Leaves after held array items) (same : held = held') :
    heap.Leaves after held' array items :=
  same ▸ leaves

theorem of_value?_eq (leaves : between.Leaves after held array items)
    (values : between.value? = heap.value?) : heap.Leaves after held array items where
  counted := leaves.counted
  own := leaves.own
  others := by
    rw [← values]
    exact leaves.others

/-- Objects may go, as long as the counts are exact. -/
theorem remains (leaves : heap.Leaves between held array items) (remains : between.Remains after)
    (counted : after.Counted held') : heap.Leaves after held' array items where
  counted := counted
  own value stored := leaves.own value (remains.values array value stored)
  others id value different stored :=
    leaves.others id value different (remains.values id value stored)

/-- An array compares as itself, whatever it contains, so what is still there compares as before. -/
theorem key? (leaves : heap.Leaves after held' array items')
    (found : heap.value? array = some (.array items)) {id : ObjectId} (live : after.contains id) :
    after.key? id = heap.key? id := by
  obtain ⟨value, stored⟩ := contains_iff_value?.1 live
  by_cases same : id = array
  · -- before and after, the key of the array is its handle
    subst same
    rw [Heap.key?, Heap.key?, found, stored, leaves.own value stored]
    rfl
  · rw [Heap.key?, Heap.key?, stored, leaves.others id value same stored]

end Leaves

theorem gives_cell_of_none {fails : Prop} {done : Cell → Heap → Prop}
    (missing : heap.cell? id = none) (holds : fails) : Gives (Heap.cell id heap) done fails := by
  rw [Heap.cell, get_bind, missing]
  exact holds

theorem gives_addRef (counted : heap.Counted held) :
    Gives (addRef id heap)
      (fun _ after => after.Counted (id ::ₘ held) ∧ after.value? = heap.value?)
      (¬heap.contains id) := by
  by_cases live : heap.contains id
  case pos =>
    have ends := ends_addRef counted live
    rw [addRef_run counted.isOpen live] at ends ⊢
    exact ⟨ends.1.mono (Set.subset_univ _), ends.2⟩
  case neg =>
    rw [addRef, get_bind, counted.isOpen, if_neg Bool.false_ne_true, get_bind, if_neg live]
    exact live

theorem gives_release (counted : heap.Counted (id ::ₘ held)) :
    Gives (release id heap) (fun _ after => after.Counted held ∧ heap.Remains after) False := by
  obtain ⟨after, run, counted, remains⟩ :=
    drops_release id heap held _ _ (counted.of_eq (Multiset.singleton_add id held).symm)
  rw [run]
  exact ⟨counted, remains⟩

theorem gives_releaseEntry {fails : Prop} {entry : Entry}
    (counted : heap.Counted (entry.held + held)) :
    Gives (releaseEntry entry heap) (fun _ after => after.Counted held ∧ heap.Remains after)
      fails := by
  rw [held_add] at counted
  refine Gives.bind ((gives_release counted).imp ?_ False.elim)
  rintro - between ⟨counted, first⟩
  refine (gives_release counted).imp ?_ False.elim
  rintro - after ⟨counted, second⟩
  exact ⟨counted, first.trans second⟩

theorem modifyArray_run (live : heap.contains array) (change : ScriptArray → ScriptArray) :
    modifyArray array change heap = .ok () (heap.modifyCell array fun cell =>
      { cell with value := match cell.value with
        | .array items => .array (change items)
        | other => other }) := by
  rw [modifyArray, modifyValue, get_bind, if_pos live]
  rfl

theorem exists_modifyArray_eq_ok (found : heap.value? array = some (.array items))
    (change : ScriptArray → ScriptArray) :
    ∃ after, modifyArray array change heap = .ok () after ∧
      after.value? array = some (.array (change items)) ∧
      (∀ id, id ≠ array → after.value? id = heap.value? id) ∧
      after.refCount? = heap.refCount? := by
  obtain ⟨cell, stored, shape⟩ := Option.map_eq_some_iff.1 found
  refine ⟨_, modifyArray_run (contains_iff_value?.2 ⟨_, found⟩) change, ?_, ?_, ?_⟩
  · simp [value?, cell?_modifyCell, stored, shape]
  · intro id different
    rw [value?, value?, cell?_modifyCell, if_neg (Ne.symm different)]
  · funext id
    rw [refCount?, refCount?, cell?_modifyCell]
    split
    · rw [Option.map_map]
      rfl
    · rfl

theorem gives_modifyArray {fails : Prop} (counted : heap.Counted held)
    (found : heap.value? array = some (.array items)) (change : ScriptArray → ScriptArray)
    (exchange : held' + (change items).contents = held + items.contents) :
    Gives (modifyArray array change heap)
      (fun _ after => heap.Leaves after held' array (change items)) fails := by
  have live : heap.contains array := contains_iff_value?.2 ⟨_, found⟩
  obtain ⟨cell, stored, shape⟩ := Option.map_eq_some_iff.1 found
  have ends := ends_modifyArray counted found change exchange
  rw [modifyArray_run live] at ends ⊢
  refine ⟨ends, fun value changed => ?_, fun id value different kept => ?_⟩
  · rw [value?, cell?_modifyCell, if_pos rfl, stored] at changed
    simpa [shape, eq_comm] using changed
  · rw [value?, cell?_modifyCell, if_neg (Ne.symm different)] at kept
    exact kept

/-! ## The operations -/

theorem gives_setEntry {fails : Prop} {key value : ObjectId} {arrayKey : ArrayKey}
    (counted : heap.Counted held) (found : heap.value? array = some (.array items))
    (keyFound : heap.key? key = some arrayKey) (valueLive : heap.contains value) :
    Gives (setEntry array key value heap)
      (fun _ after => heap.Leaves after held array (items.insert arrayKey ⟨key, value⟩)) fails := by
  refine Gives.bind_of_eq_ok (keyOf_eq_ok_of_key? keyFound) (Gives.bind ?_)
  refine (gives_addRef counted).imp ?_ (absurd (contains_of_key? keyFound))
  rintro - first ⟨counted, keptFirst⟩
  have valueLive : first.contains value := by
    simpa only [contains_iff_value?, keptFirst] using valueLive
  refine Gives.bind ((gives_addRef counted).imp ?_ (absurd valueLive))
  rintro - second ⟨counted, keptSecond⟩
  have values : second.value? = heap.value? := keptSecond.trans keptFirst
  rw [← values] at found
  refine Gives.bind_of_eq_ok (arrayAt_run found) (Gives.bind ?_)
  have exchange := items.exchange_insert arrayKey ⟨key, value⟩ held
  refine (gives_modifyArray counted found (·.insert arrayKey ⟨key, value⟩) exchange).imp ?_ id
  intro _ third changed
  have stored := changed.of_value?_eq values
  -- what the entry replaces is let go last, when the array no longer lists it
  cases replaced : items.get? arrayKey with
  | none =>
    have same : ((items.get? arrayKey).map Entry.held).getD 0 + held = held := by simp [replaced]
    exact { stored with counted := stored.counted.of_eq same }
  | some old =>
    have same : ((items.get? arrayKey).map Entry.held).getD 0 + held = old.held + held := by
      rw [replaced, Option.map_some, Option.getD_some]
    refine (gives_releaseEntry (stored.counted.of_eq same)).imp ?_ id
    rintro - after ⟨counted, remains⟩
    exact stored.remains remains counted

theorem gives_eraseKey {fails : Prop} (counted : heap.Counted held)
    (found : heap.value? array = some (.array items)) (key : ArrayKey) :
    Gives (eraseKey array key heap)
      (fun there after => there = (items.get? key).isSome ∧
        heap.Leaves after held array (items.erase key)) fails := by
  apply Gives.bind_of_eq_ok (arrayAt_run found)
  cases stored : items.get? key with
  | none =>
    refine ⟨rfl, .refl counted fun value same => ?_⟩
    rw [found, Option.some.injEq] at same
    rw [ScriptArray.erase_eq_self stored, same]
  | some entry =>
    have exchange : entry.held + held + (items.erase key).contents = held + items.contents := by
      rw [ScriptArray.contents_erase stored]
      abel
    refine Gives.bind ((gives_modifyArray counted found (·.erase key) exchange).imp ?_ id)
    intro _ between changed
    refine Gives.bind ((gives_releaseEntry changed.counted).imp ?_ id)
    rintro - after ⟨counted, remains⟩
    exact ⟨rfl, changed.remains remains counted⟩

/-- The loop goes on as long as the array is there, and an array that is held stays. -/
theorem gives_eraseKeys (keys : List ArrayKey) : ∀ {heap : Heap} {items : ScriptArray},
    heap.Counted held → (∀ value, heap.value? array = some value → value = .array items) →
      Gives ((forIn keys PUnit.unit fun key _ => do
          let _ ← eraseKey array key
          pure (ForInStep.yield PUnit.unit) : HeapM PUnit) heap)
        (fun _ after => heap.Leaves after held array (keys.foldl ScriptArray.erase items))
        (array ∉ held) := by
  induction keys with
  | nil =>
    intro heap items counted own
    exact .refl counted own
  | cons key keys ih =>
    intro heap items counted own
    rw [List.forIn_cons]
    cases found : heap.value? array with
    | none =>
      have missing : heap.cell? array = none := Option.map_eq_none_iff.1 found
      have gone : array ∉ held := by
        intro member
        obtain ⟨cell, live, -⟩ := counted.live member
        rw [missing] at live
        cases live
      -- the array is looked for first, down to its cell
      iterate 5 apply Gives.bind
      exact gives_cell_of_none missing gone
    | some value =>
      rw [own value found] at found
      refine Gives.bind (Gives.bind ((gives_eraseKey counted found key).imp ?_ id))
      rintro - between ⟨-, first⟩
      refine (ih first.counted first.own).imp ?_ id
      intro _ after second
      exact first.trans second

def hasValue (heap : Heap) (value : ObjectId) (pair : ArrayKey × Entry) : Bool :=
  match compareObjects pair.2.value value heap with
  | .ok order _ => order == .eq
  | .error _ _ => false

theorem keysOfValue_run {value : ObjectId} (counted : heap.Counted held) (inStep : items.InStep)
    (found : heap.value? array = some (.array items)) (valueLive : heap.contains value) :
    keysOfValue array value heap =
      .ok (Pairs.keys (items.pairs.filter (heap.hasValue value))) heap := by
  obtain ⟨valueKey, valueFound⟩ := exists_key? valueLive
  have keys : Pairs.keys (items.pairs.filter (heap.hasValue value)) = items.order.toList.filter
      fun key => heap.hasValue value (key, (items.get? key).getD default) := by
    rw [inStep.pairs_eq, List.filter_map, Pairs.keys, List.map_map]
    exact List.map_id _
  rw [keys, keysOfValue, bind_of_eq_ok (arrayAt_run found)]
  apply filterM_run
  intro key member
  obtain ⟨entry, stored⟩ := inStep.exists_entry (Array.mem_toList_iff.1 member)
  obtain ⟨entryKey, entryFound⟩ := exists_key? (counted.entry_live found stored).2
  have compared := compareObjects_run entryFound valueFound
  simp only [stored, hasValue, Option.getD_some, compared]
  rw [bind_of_eq_ok compared]
  rfl

theorem gives_removeValue {value : ObjectId} (counted : heap.Counted held) (inStep : items.InStep)
    (found : heap.value? array = some (.array items)) (valueLive : heap.contains value) :
    Gives (removeValue array value heap)
      (fun count after => count = items.pairs.countP (heap.hasValue value) ∧
        heap.Leaves after held array
          ((Pairs.keys (items.pairs.filter (heap.hasValue value))).foldl ScriptArray.erase items))
      (array ∉ held) := by
  have own (content : Value) (stored : heap.value? array = some content) :
      content = .array items := by
    rw [found, Option.some.injEq] at stored
    exact stored.symm
  refine Gives.bind_of_eq_ok (keysOfValue_run counted inStep found valueLive) (Gives.bind ?_)
  refine (gives_eraseKeys _ counted own).imp ?_ id
  intro _ after leaves
  refine ⟨?_, leaves⟩
  rw [Pairs.keys, List.length_map, List.countP_eq_length_filter]

/-- Taking a pair out hands the references of its entry over. -/
theorem gives_takePair {fails : Prop} (counted : heap.Counted held) (inStep : items.InStep)
    (found : heap.value? array = some (.array items)) {pair : Option (ArrayKey × Entry)}
    (member : ∀ taken, pair = some taken → taken ∈ items.pairs) :
    Gives ((match pair.map fun pair => (pair.2, items.erase pair.1) with
        | some (entry, items) => do
          modifyArray array fun _ => items
          return some entry
        | none => return none : HeapM (Option Entry)) heap)
      (fun taken after => taken = pair.map (·.2) ∧
        heap.Leaves after ((taken.map Entry.held).getD 0 + held) array (items.dropPair pair))
      fails := by
  cases pair with
  | none =>
    refine ⟨rfl, .refl (counted.of_eq (zero_add held).symm) fun value stored => ?_⟩
    rw [found, Option.some.injEq] at stored
    exact stored.symm
  | some pair =>
    have exchange : pair.2.held + held + (items.erase pair.1).contents = held + items.contents := by
      rw [ScriptArray.contents_erase (inStep.mem_pairs.1 (member pair rfl))]
      abel
    apply Gives.bind
    apply (gives_modifyArray counted found (fun _ => items.erase pair.1) exchange).imp ?_ id
    intro _ after leaves
    exact ⟨rfl, leaves⟩

theorem gives_popFront? {fails : Prop} (counted : heap.Counted held) (inStep : items.InStep)
    (found : heap.value? array = some (.array items)) :
    Gives (popFront? array heap)
      (fun taken after => taken = items.pairs.head?.map (·.2) ∧
        heap.Leaves after ((taken.map Entry.held).getD 0 + held) array
          (items.dropPair items.pairs.head?)) fails := by
  apply Gives.bind_of_eq_ok (arrayAt_run found)
  rw [ScriptArray.popFront?_pairs inStep]
  exact gives_takePair counted inStep found fun pair first => List.mem_of_head? first

theorem gives_popBack? {fails : Prop} (counted : heap.Counted held) (inStep : items.InStep)
    (found : heap.value? array = some (.array items)) :
    Gives (popBack? array heap)
      (fun taken after => taken = items.pairs.getLast?.map (·.2) ∧
        heap.Leaves after ((taken.map Entry.held).getD 0 + held) array
          (items.dropPair items.pairs.getLast?)) fails := by
  apply Gives.bind_of_eq_ok (arrayAt_run found)
  rw [ScriptArray.popBack?_pairs inStep]
  exact gives_takePair counted inStep found fun pair last => List.mem_of_getLast? last

theorem gives_reorder {fails : Prop} (counted : heap.Counted held)
    (found : heap.value? array = some (.array items)) {change : ScriptArray → ScriptArray}
    (reorders : items.Reorders (change items)) :
    Gives (modifyArray array change heap)
      (fun _ after => heap.Leaves after held array (change items)) fails := by
  apply gives_modifyArray counted found
  rw [ScriptArray.contents, reorders.entries, ScriptArray.contents]

/-- What the value stored under a key compares by. -/
def rank (heap : Heap) (items : ScriptArray) (key : ArrayKey) : ArrayKey :=
  (heap.key? ((items.get? key).getD default).value).getD .null

theorem key?_eq_rank (counted : heap.Counted held) (inStep : items.InStep)
    (found : heap.value? array = some (.array items)) {key : ArrayKey}
    (member : key ∈ items.order.toList) :
    heap.key? ((items.get? key).getD default).value = some (heap.rank items key) := by
  obtain ⟨entry, stored⟩ := inStep.exists_entry (Array.mem_toList_iff.1 member)
  obtain ⟨valueKey, valueFound⟩ := exists_key? (counted.entry_live found stored).2
  rw [rank, stored, Option.getD_some, valueFound, Option.getD_some]

/-- Every value is looked at once, before the keys are moved. -/
theorem sortByValues_eq (counted : heap.Counted held) (inStep : items.InStep)
    (found : heap.value? array = some (.array items)) :
    sortByValues array heap = modifyArray array
      (·.sortByValues (items.order.toList.map fun key => (heap.rank items key, key))) heap := by
  have ranks (key : ArrayKey) (member : key ∈ items.order.toList) :
      (do return (← valueKeyOf items key, key) : HeapM (ArrayKey × ArrayKey)) heap =
        .ok (heap.rank items key, key) heap := by
    have ranked := key?_eq_rank counted inStep found member
    obtain ⟨entry, stored⟩ := inStep.exists_entry (Array.mem_toList_iff.1 member)
    have read : valueKeyOf items key heap = .ok (heap.rank items key) heap := by
      rw [stored, Option.getD_some] at ranked
      simp only [valueKeyOf, stored]
      exact keyOf_eq_ok_of_key? ranked
    rw [bind_of_eq_ok read]
    rfl
  rw [sortByValues, bind_of_eq_ok (arrayAt_run found), bind_of_eq_ok (mapM_run ranks)]

theorem reorders_sortByRank (heap : Heap) (items : ScriptArray) :
    items.Reorders
      (items.sortByValues (items.order.toList.map fun key => (heap.rank items key, key))) := by
  apply ScriptArray.reorders_sortByValues
  rw [List.map_map]
  exact List.map_id _

theorem gives_sortByValues {fails : Prop} (counted : heap.Counted held) (inStep : items.InStep)
    (found : heap.value? array = some (.array items)) :
    Gives (sortByValues array heap)
      (fun _ after => ∃ sorted, items.Reorders sorted ∧ heap.Leaves after held array sorted)
      fails := by
  have reorders := heap.reorders_sortByRank items
  rw [sortByValues_eq counted inStep found]
  exact (gives_reorder counted found reorders).imp (fun _ _ leaves => ⟨_, reorders, leaves⟩) id

end Terrain.Heap
