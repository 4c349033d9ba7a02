import Terrain.Heap.Arrays
import Terrain.Proofs.Heap.Counts
import Terrain.Proofs.Heap.Keys

/-!
# Reference counts of arrays

An array holds two references for every entry, one to the key object and one to the value object. The
operations on arrays exchange exactly the references of the entries they put in or take out.

* `ScriptArray.contents` — the references an array holds, and how they change.
* `Heap.ends_setEntry`, `Heap.ends_eraseKey`, … — the counted operations.
-/

namespace Terrain

def Entry.held (entry : Entry) : Multiset ObjectId := {entry.key, entry.value}

namespace ScriptArray

def contents (array : ScriptArray) : Multiset ObjectId :=
  (array.entries.toList.map fun item => item.2.held).sum

theorem coe_children (array : ScriptArray) : (↑array.children : Multiset ObjectId) = array.contents := by
  unfold children contents
  induction array.entries.toList with
  | nil => rfl
  | cons item items ih =>
    simp only [List.flatMap_cons, ← Multiset.coe_add, ih, List.map_cons, List.sum_cons]
    rfl

theorem contents_of_perm {array : ScriptArray} {items : List (ArrayKey × Entry)}
    (perm : array.entries.toList.Perm items) :
    array.contents = (items.map fun item => item.2.held).sum :=
  (perm.map _).sum_eq

def others (array : ScriptArray) (key : ArrayKey) : Multiset ObjectId :=
  ((array.entries.toList.filter (¬key == ·.1)).map fun item => item.2.held).sum

theorem contents_insert (array : ScriptArray) (key : ArrayKey) (entry : Entry) :
    (array.insert key entry).contents = entry.held + array.others key := by
  have perm : (array.insert key entry).entries.toList.Perm
      ((key, entry) :: array.entries.toList.filter (¬key == ·.1)) :=
    Std.TreeMap.toList_insert_perm
  rw [contents_of_perm perm, List.map_cons, List.sum_cons]
  rfl

/-- Arrays in which the same is found hold the same. -/
theorem contents_congr {left right : ScriptArray} (same : ∀ key, left.get? key = right.get? key) :
    left.contents = right.contents :=
  contents_of_perm (Std.TreeMap.equiv_iff_toList_perm.1 (Std.TreeMap.Equiv.of_forall_constGet?_eq same))

theorem get?_insert (array : ScriptArray) (key other : ArrayKey) (entry : Entry) :
    (array.insert key entry).get? other = if key = other then some entry else array.get? other := by
  have looked := @Std.TreeMap.getElem?_insert _ _ _ array.entries _ other key entry
  rw [get?, insert, looked]
  by_cases same : key = other
  · simp [same, Std.ReflCmp.compare_self]
  · rw [if_neg same, if_neg fun equal => same (ArrayKey.eq_of_compare_eq equal), get?]

theorem get?_erase (array : ScriptArray) (key other : ArrayKey) :
    (array.erase key).get? other = if key = other then none else array.get? other := by
  unfold erase
  split
  case isTrue =>
    have looked := @Std.TreeMap.getElem?_erase _ _ _ array.entries _ key other
    rw [get?, looked]
    by_cases same : key = other
    · simp [same, Std.ReflCmp.compare_self]
    · rw [if_neg same, if_neg fun equal => same (ArrayKey.eq_of_compare_eq equal), get?]
  case isFalse absent =>
    split
    case isTrue same =>
      subst same
      exact Std.TreeMap.getElem?_eq_none (by simpa [contains] using absent)
    case isFalse => rfl

/-- The contents beside the entry of a key. -/
theorem contents_of_get?_eq_some {array : ScriptArray} {key : ArrayKey} {entry : Entry}
    (found : array.get? key = some entry) :
    array.contents = entry.held + array.others key := by
  rw [← contents_insert]
  apply contents_congr
  intro other
  rw [get?_insert]
  split
  case isTrue same => rw [← same, found]
  case isFalse => rfl

theorem contents_of_get?_eq_none {array : ScriptArray} {key : ArrayKey}
    (missing : array.get? key = none) : array.contents = array.others key := by
  have all : array.entries.toList.filter (¬key == ·.1) = array.entries.toList := by
    apply List.filter_eq_self.2
    intro item member
    have stored : array.get? item.1 = some item.2 :=
      Std.TreeMap.mem_toList_iff_getElem?_eq_some.1 member
    simp only [decide_eq_true_eq]
    intro equal
    have same : key = item.1 := ArrayKey.eq_of_compare_eq (by simpa [BEq.beq] using equal)
    rw [← same, missing] at stored
    cases stored
  rw [others, all, contents]

/-- Storing an entry exchanges it for the one that was there. -/
theorem contents_insert_add (array : ScriptArray) (key : ArrayKey) (entry : Entry) :
    (array.insert key entry).contents + ((array.get? key).map Entry.held).getD 0 =
      entry.held + array.contents := by
  cases found : array.get? key with
  | none =>
    rw [contents_insert, contents_of_get?_eq_none found, Option.map_none, Option.getD_none, add_zero]
  | some old =>
    rw [contents_insert, contents_of_get?_eq_some found, Option.map_some, Option.getD_some]
    abel

/-- References to the new key and value go in, those to the old ones come out. -/
theorem exchange_insert (array : ScriptArray) (key : ArrayKey) (entry : Entry)
    (held : Multiset ObjectId) :
    ((array.get? key).map Entry.held).getD 0 + held + (array.insert key entry).contents =
      entry.value ::ₘ entry.key ::ₘ held + array.contents := by
  have exchanged := array.contents_insert_add key entry
  calc _ = (array.insert key entry).contents + ((array.get? key).map Entry.held).getD 0 + held := by
        abel
    _ = {entry.key, entry.value} + array.contents + held := by rw [exchanged]; rfl
    _ = _ := by
      rw [← Multiset.singleton_add, ← Multiset.singleton_add, Multiset.insert_eq_cons,
        ← Multiset.singleton_add]
      abel

/-- Removing an entry takes its references out. -/
theorem contents_erase {array : ScriptArray} {key : ArrayKey} {entry : Entry}
    (found : array.get? key = some entry) :
    array.contents = entry.held + (array.erase key).contents := by
  have missing : (array.erase key).get? key = none := by rw [get?_erase, if_pos rfl]
  have restored : ((array.erase key).insert key entry).contents = array.contents := by
    apply contents_congr
    intro other
    rw [get?_insert, get?_erase]
    split
    case isTrue same => rw [← same, found]
    case isFalse different => rfl
  rw [← restored, contents_insert, contents_of_get?_eq_none missing]

/-- The entries of an array are part of its contents. -/
theorem mem_contents_of_get? {array : ScriptArray} {key : ArrayKey} {entry : Entry}
    (found : array.get? key = some entry) :
    entry.key ∈ array.contents ∧ entry.value ∈ array.contents := by
  rw [contents_of_get?_eq_some found]
  simp [Entry.held]

end ScriptArray

/-! ## Arrays of the heap -/

namespace Heap

variable {heap : Heap} {held : Multiset ObjectId} {fresh : Set ObjectId} {handles : Handles}
  {array : ObjectId} {items : ScriptArray}

/-- The objects of an array's entries are live. -/
theorem Accounted.entry_live (accounted : heap.Accounted held fresh handles)
    (found : heap.value? array = some (.array items)) {key : ArrayKey} {entry : Entry}
    (stored : items.get? key = some entry) :
    heap.contains entry.key ∧ heap.contains entry.value := by
  obtain ⟨cell, found, shape⟩ := Option.map_eq_some_iff.1 found
  have shares : (heap.forget array).contained + ↑cell.value.children = heap.contained :=
    total_forget _ found
  have children (id : ObjectId) (member : id ∈ items.contents) : heap.contains id := by
    rw [← items.coe_children] at member
    have referred : id ∈ held + heap.contained := by
      rw [← shares, shape]
      exact Multiset.mem_add.2 (.inr (Multiset.mem_add.2 (.inr member)))
    obtain ⟨cell, found, _⟩ := accounted.live_of_mem_add referred
    simp [Heap.contains, found]
  have members := ScriptArray.mem_contents_of_get? stored
  exact ⟨children _ members.1, children _ members.2⟩

theorem keyOf_run {id : ObjectId} {value : Value} (found : heap.value? id = some value) :
    keyOf id heap = .ok (value.key id) heap := by
  simp [keyOf, bind, EStateM.bind, value_run found, pure, EStateM.pure]

theorem arrayAt_run (found : heap.value? array = some (.array items)) :
    arrayAt array heap = .ok items heap := by
  simp [arrayAt, bind, EStateM.bind, value_run found, pure, EStateM.pure]

/-- Anything but an array is a breach of another kind. -/
theorem ends_arrayAt (live : heap.contains array) :
    Ends (arrayAt array heap)
      (fun items heap' => heap' = heap ∧ heap.value? array = some (.array items))
      (fun _ => False) := by
  obtain ⟨value, found⟩ := contains_iff_value?.1 live
  unfold arrayAt
  apply Ends.bind
  rw [value_run found]
  cases value with
  | array items => exact ⟨rfl, found⟩
  | _ => rfl

/-- Replacing the content of an array exchanges the references in it for references from outside. -/
theorem ends_modifyArray (accounted : heap.Accounted held fresh handles)
    (found : heap.value? array = some (.array items)) (change : ScriptArray → ScriptArray)
    {held' : Multiset ObjectId}
    (exchange : held' + (change items).contents = held + items.contents) :
    Ends (modifyArray array change heap) (fun _ heap => heap.Accounted held' fresh handles)
      (fun _ => False) := by
  have live : heap.contains array := contains_iff_value?.2 ⟨_, found⟩
  obtain ⟨cell, found, shape⟩ := Option.map_eq_some_iff.1 found
  unfold modifyArray modifyValue
  apply Ends.bind
  change Ends ((if heap.contains array = true then _ else _ : HeapM Unit) heap) _ _
  rw [if_pos live]
  refine accounted.update found ?_ rfl ?_ ?_ ?_
  · simp only [shape, Value.children, ScriptArray.coe_children]
    rw [exchange]
  · simp [shape]
  · intro none
    exact accounted.settled array (by simpa [refCount?, found] using none)
  · exact fun other member _ => member

/-- Reordering an array keeps its references. -/
theorem ends_reorder (accounted : heap.Accounted held fresh handles)
    (found : heap.value? array = some (.array items)) {change : ScriptArray → ScriptArray}
    (kept : (change items).entries = items.entries) :
    Ends (modifyArray array change heap) (fun _ heap => heap.Accounted held fresh handles)
      (fun _ => False) :=
  ends_modifyArray accounted found change (by rw [ScriptArray.contents, kept, ScriptArray.contents])

/-! ## Storing -/

/-- An array takes a reference to the key and one to the value from nowhere else than their counts. -/
theorem ends_setEntry {key value : ObjectId} (accounted : heap.Accounted held fresh handles)
    (arrayLive : heap.contains array) (keyLive : heap.contains key)
    (valueLive : heap.contains value) :
    Ends (setEntry array key value heap)
      (fun _ heap => heap.Accounted held (fresh \ {key, value}) handles) (fun _ => False) := by
  obtain ⟨keyValue, keyFound⟩ := contains_iff_value?.1 keyLive
  unfold setEntry
  apply Ends.bind
  rw [keyOf_run keyFound]
  refine Ends.bind ((ends_addRef accounted keyLive).then ?_)
  rintro - first ⟨accounted, keptFirst⟩
  have live (id : ObjectId) : heap.contains id → first.contains id := by
    simp only [contains_iff_value?, keptFirst, imp_self]
  refine Ends.bind ((ends_addRef accounted (live _ valueLive)).then ?_)
  rintro - second ⟨accounted, keptSecond⟩
  have arrayLive : second.contains array := by
    simpa only [contains_iff_value?, keptSecond, keptFirst] using arrayLive
  refine Ends.bind ((ends_arrayAt arrayLive).then ?_)
  rintro items _ ⟨rfl, found⟩
  have fewer : (fresh \ {key}) \ {value} = fresh \ {key, value} := by
    rw [Set.sdiff_sdiff, Set.singleton_union]
  rw [fewer] at accounted
  -- the new entry pays for the two references counted above
  have exchange := items.exchange_insert (keyValue.key key) ⟨key, value⟩ held
  refine Ends.bind ((ends_modifyArray accounted found _ exchange).then ?_)
  rintro - heap accounted
  cases replaced : items.get? (keyValue.key key) with
  | none =>
    rw [replaced] at accounted
    exact Ends.pure (accounted.of_eq (by simp))
  | some old =>
    rw [replaced] at accounted
    have first : heap.Accounted (old.key ::ₘ old.value ::ₘ held) (fresh \ {key, value}) handles :=
      accounted.of_eq (by simp [Entry.held, ← Multiset.singleton_add, add_assoc])
    exact Ends.bind ((ends_release first).then fun _ heap accounted => ends_release accounted)

/-- The key made for an appended value ends in the array. -/
theorem ends_pushBack {value : ObjectId} (accounted : heap.Accounted held fresh handles)
    (arrayLive : heap.contains array) (valueLive : heap.contains value) :
    Ends (pushBack array value heap)
      (fun _ heap => heap.Accounted held (fresh \ {value}) handles) (fun _ => False) := by
  unfold pushBack
  refine Ends.bind ((ends_arrayAt arrayLive).then ?_)
  rintro items _ ⟨rfl, found⟩
  by_cases room : items.maxIntegerKey < wideMax
  case neg =>
    rw [ScriptArray.nextIntegerKey, if_neg room]
    rfl
  case pos =>
    simp only [ScriptArray.nextIntegerKey, room, if_true]
    refine Ends.bind ((ends_register accounted ⟨rfl, by simp⟩).then ?_)
    rintro key heap ⟨accounted, keyFound, kept⟩
    refine (ends_setEntry accounted (kept _ arrayLive) (contains_of_cell? keyFound)
      (kept _ valueLive)).then ?_
    rintro - heap accounted
    refine accounted.mono ?_
    rintro id ⟨rfl | member, other⟩
    · exact absurd (.inl rfl) other
    · exact ⟨member, fun same => other (.inr same)⟩

/-! ## Taking out -/

theorem held_add (entry : Entry) (held : Multiset ObjectId) :
    entry.held + held = entry.key ::ₘ entry.value ::ₘ held := by
  simp [Entry.held, ← Multiset.singleton_add, add_assoc]

theorem ends_releaseEntry {entry : Entry}
    (accounted : heap.Accounted (entry.held + held) fresh handles) :
    Ends (releaseEntry entry heap) (fun _ heap => heap.Accounted held fresh handles)
      (fun _ => False) := by
  rw [held_add] at accounted
  exact Ends.bind ((ends_release accounted).then fun _ heap accounted => ends_release accounted)

theorem ends_eraseKey {key : ArrayKey} (accounted : heap.Accounted held fresh handles)
    (arrayLive : heap.contains array) :
    Ends (eraseKey array key heap) (fun _ heap => heap.Accounted held fresh handles)
      (fun _ => False) := by
  unfold eraseKey
  refine Ends.bind ((ends_arrayAt arrayLive).then ?_)
  rintro items _ ⟨rfl, found⟩
  cases stored : items.get? key with
  | none => exact Ends.pure accounted
  | some entry =>
    have exchange : entry.held + held + (items.erase key).contents = held + items.contents := by
      rw [ScriptArray.contents_erase stored]
      abel
    refine Ends.bind ((ends_modifyArray accounted found (·.erase key) exchange).then
      fun _ heap accounted => ?_)
    exact Ends.bind ((ends_releaseEntry accounted).then fun _ heap accounted => Ends.pure accounted)

theorem ends_removeKey {key : ObjectId} (accounted : heap.Accounted held fresh handles)
    (arrayLive : heap.contains array) (keyLive : heap.contains key) :
    Ends (removeKey array key heap) (fun _ heap => heap.Accounted held fresh handles)
      (fun _ => False) := by
  obtain ⟨keyValue, keyFound⟩ := contains_iff_value?.1 keyLive
  unfold removeKey
  apply Ends.bind
  rw [keyOf_run keyFound]
  exact ends_eraseKey accounted arrayLive

/-! ## Looking -/

/-- An action that leaves the heap as it is. -/
def Reads {α : Type} (action : HeapM α) (heap : Heap) : Prop :=
  Ends (action heap) (fun _ heap' => heap' = heap) (fun _ => False)

section Loops

variable {α β : Type}

theorem Reads.bind {action : HeapM α} {next : α → HeapM β} (reads : Reads action heap)
    (following : ∀ value, Reads (next value) heap) : Reads (action >>= next) heap := by
  refine Ends.bind (Ends.then reads ?_)
  rintro value _ rfl
  exact following value

theorem Reads.pure (value : α) : Reads (pure value) heap := rfl

theorem reads_filterAuxM {test : α → HeapM Bool} : ∀ (list kept : List α),
    (∀ item ∈ list, Reads (test item) heap) → Reads (list.filterAuxM test kept) heap
  | [], kept, _ => Reads.pure kept
  | item :: list, kept, reads => by
    unfold List.filterAuxM
    refine Reads.bind (reads item List.mem_cons_self) fun keep => ?_
    exact reads_filterAuxM list _ fun other member => reads other (List.mem_cons_of_mem _ member)

theorem reads_filterM {test : α → HeapM Bool} {list : List α}
    (reads : ∀ item ∈ list, Reads (test item) heap) : Reads (list.filterM test) heap :=
  (reads_filterAuxM list [] reads).bind fun kept => Reads.pure kept.reverse

theorem reads_anyM {test : α → HeapM Bool} : ∀ {list : List α},
    (∀ item ∈ list, Reads (test item) heap) → Reads (list.anyM test) heap
  | [], _ => Reads.pure false
  | item :: list, reads => by
    unfold List.anyM
    refine Reads.bind (reads item List.mem_cons_self) fun found => ?_
    cases found with
    | true => exact Reads.pure true
    | false => exact reads_anyM fun other member => reads other (List.mem_cons_of_mem _ member)

theorem reads_mapM {f : α → HeapM β} : ∀ {list : List α},
    (∀ item ∈ list, Reads (f item) heap) → Reads (list.mapM f) heap
  | [], _ => by rw [List.mapM_nil]; exact Reads.pure []
  | item :: list, reads => by
    rw [List.mapM_cons]
    refine Reads.bind (reads item List.mem_cons_self) fun value => ?_
    have rest := reads_mapM fun other member => reads other (List.mem_cons_of_mem _ member)
    exact rest.bind fun values => Reads.pure (value :: values)

end Loops

theorem reads_keyOf {id : ObjectId} (live : heap.contains id) : Reads (keyOf id) heap := by
  obtain ⟨value, found⟩ := contains_iff_value?.1 live
  simp [Reads, keyOf_run found, Ends]

theorem reads_compareObjects {a b : ObjectId} (aLive : heap.contains a) (bLive : heap.contains b) :
    Reads (compareObjects a b) heap :=
  (reads_keyOf aLive).bind fun _ => (reads_keyOf bLive).bind fun _ => Reads.pure _

theorem reads_containsValue {value : ObjectId} (accounted : heap.Accounted held fresh handles)
    (arrayLive : heap.contains array) (valueLive : heap.contains value) :
    Reads (containsValue array value) heap := by
  unfold containsValue
  refine Ends.bind ((ends_arrayAt arrayLive).then ?_)
  rintro items _ ⟨rfl, found⟩
  refine reads_anyM fun entry member => ?_
  obtain ⟨key, -, stored⟩ := List.mem_filterMap.1 member
  exact (reads_compareObjects (accounted.entry_live found stored).2 valueLive).bind
    fun _ => Reads.pure _

theorem reads_entryOf? {key : ObjectId} (arrayLive : heap.contains array)
    (keyLive : heap.contains key) : Reads (entryOf? array key) heap := by
  refine (reads_keyOf keyLive).bind fun arrayKey => Ends.bind ((ends_arrayAt arrayLive).then ?_)
  rintro items _ ⟨rfl, -⟩
  exact Reads.pure _

theorem reads_keysOfValue {value : ObjectId} (accounted : heap.Accounted held fresh handles)
    (arrayLive : heap.contains array) (valueLive : heap.contains value) :
    Reads (keysOfValue array value) heap := by
  unfold keysOfValue
  refine Ends.bind ((ends_arrayAt arrayLive).then ?_)
  rintro items _ ⟨rfl, found⟩
  refine reads_filterM fun key _ => ?_
  cases stored : items.get? key with
  | none => exact Reads.pure false
  | some entry =>
    exact (reads_compareObjects (accounted.entry_live found stored).2 valueLive).bind
      fun _ => Reads.pure _

/-! ## Loops over entries -/

theorem ends_eraseKeys (member : array ∈ held) : ∀ (keys : List ArrayKey) (heap : Heap),
    heap.Accounted held fresh handles →
      Ends ((forIn keys PUnit.unit fun key _ => do
          let _ ← eraseKey array key
          pure (ForInStep.yield PUnit.unit) : HeapM PUnit) heap)
        (fun _ heap => heap.Accounted held fresh handles) (fun _ => False)
  | [], heap, accounted => Ends.pure accounted
  | key :: keys, heap, accounted => by
    rw [List.forIn_cons]
    refine Ends.bind (Ends.bind ((ends_eraseKey accounted (accounted.contains member)).then ?_))
    intro _ heap accounted
    exact ends_eraseKeys member keys heap accounted

theorem ends_removeValue {value : ObjectId} (accounted : heap.Accounted held fresh handles)
    (member : array ∈ held) (valueLive : heap.contains value) :
    Ends (removeValue array value heap) (fun _ heap => heap.Accounted held fresh handles)
      (fun _ => False) := by
  unfold removeValue
  refine Ends.bind (Ends.then (reads_keysOfValue accounted (accounted.contains member) valueLive) ?_)
  rintro keys _ rfl
  exact Ends.bind ((ends_eraseKeys member keys _ accounted).then fun _ heap accounted =>
    Ends.pure accounted)

/-! ## Ends of an array -/

def takeKey (items : ScriptArray) (key : ArrayKey) : Option (Entry × ScriptArray) :=
  (items.get? key).map fun entry => (entry, items.erase key)

theorem popFront?_eq (items : ScriptArray) :
    items.popFront? = items.order[0]?.bind (takeKey items) := by
  cases first : items.order[0]? with
  | none => simp [ScriptArray.popFront?, first]
  | some key => cases stored : items.get? key <;>
      simp [ScriptArray.popFront?, takeKey, first, stored]

theorem popBack?_eq (items : ScriptArray) :
    items.popBack? = items.order.back?.bind (takeKey items) := by
  cases last : items.order.back? with
  | none => simp [ScriptArray.popBack?, last]
  | some key => cases stored : items.get? key <;>
      simp [ScriptArray.popBack?, takeKey, last, stored]

theorem back?_eq (items : ScriptArray) : items.back? = items.order.back?.bind items.get? := by
  unfold ScriptArray.back? ScriptArray.isEmpty ScriptArray.entryAt? ScriptArray.size
  split
  case isTrue empty => rw [Array.isEmpty_iff.1 empty]; rfl
  case isFalse => rw [Array.back?]

theorem takeKey_map_fst (items : ScriptArray) (key : Option ArrayKey) :
    (key.bind (takeKey items)).map (·.1) = key.bind items.get? := by
  cases key with
  | none => rfl
  | some key => cases stored : items.get? key <;> simp [takeKey, stored]

/-- Taking an entry out hands its two references over. -/
theorem ends_takeEntry (accounted : heap.Accounted held fresh handles)
    (found : heap.value? array = some (.array items)) (key : Option ArrayKey) :
    Ends ((match key.bind (takeKey items) with
        | some (entry, items) => do
          modifyArray array fun _ => items
          return some entry
        | none => return none : HeapM (Option Entry)) heap)
      (fun taken heap => taken = key.bind items.get? ∧
        heap.Accounted ((taken.map Entry.held).getD 0 + held) fresh handles)
      (fun _ => False) := by
  rw [← takeKey_map_fst]
  cases taken : key.bind (takeKey items) with
  | none => exact ⟨rfl, accounted.of_eq (by simp)⟩
  | some result =>
    obtain ⟨entry, rest⟩ := result
    have exchange : entry.held + held + rest.contents = held + items.contents := by
      obtain ⟨key, -, taken⟩ := Option.bind_eq_some_iff.1 taken
      obtain ⟨_, stored, same⟩ := Option.map_eq_some_iff.1 taken
      cases same
      rw [ScriptArray.contents_erase stored]
      abel
    exact Ends.bind ((ends_modifyArray accounted found (fun _ => rest) exchange).then
      fun _ heap accounted => ⟨rfl, accounted⟩)

theorem ends_popFront? (accounted : heap.Accounted held fresh handles)
    (found : heap.value? array = some (.array items)) :
    Ends (popFront? array heap)
      (fun taken heap => taken = items.front? ∧
        heap.Accounted ((taken.map Entry.held).getD 0 + held) fresh handles)
      (fun _ => False) := by
  unfold popFront?
  apply Ends.bind
  rw [arrayAt_run found]
  simp only [Ends, popFront?_eq]
  exact ends_takeEntry accounted found items.order[0]?

theorem ends_popBack? (accounted : heap.Accounted held fresh handles)
    (found : heap.value? array = some (.array items)) :
    Ends (popBack? array heap)
      (fun taken heap => taken = items.back? ∧
        heap.Accounted ((taken.map Entry.held).getD 0 + held) fresh handles)
      (fun _ => False) := by
  unfold popBack?
  apply Ends.bind
  rw [arrayAt_run found]
  simp only [Ends, popBack?_eq, back?_eq]
  exact ends_takeEntry accounted found items.order.back?

/-! ## Reordering -/

theorem ends_sortByKeys (accounted : heap.Accounted held fresh handles)
    (arrayLive : heap.contains array) :
    Ends (sortByKeys array heap) (fun _ heap => heap.Accounted held fresh handles)
      (fun _ => False) := by
  unfold sortByKeys
  refine Ends.bind ((ends_arrayAt arrayLive).then ?_)
  rintro items _ ⟨rfl, found⟩
  exact ends_reorder accounted found rfl

theorem reads_valueKeyOf (accounted : heap.Accounted held fresh handles)
    (found : heap.value? array = some (.array items)) (key : ArrayKey) :
    Reads (valueKeyOf items key) heap := by
  unfold valueKeyOf
  cases stored : items.get? key with
  | none => exact Reads.pure _
  | some entry => exact reads_keyOf (accounted.entry_live found stored).2

theorem ends_sortByValues (accounted : heap.Accounted held fresh handles)
    (arrayLive : heap.contains array) :
    Ends (sortByValues array heap) (fun _ heap => heap.Accounted held fresh handles)
      (fun _ => False) := by
  unfold sortByValues
  refine Ends.bind ((ends_arrayAt arrayLive).then ?_)
  rintro items _ ⟨rfl, found⟩
  refine Ends.bind (Ends.then (reads_mapM fun key _ =>
    (reads_valueKeyOf accounted found key).bind fun _ => Reads.pure _) ?_)
  rintro ranked _ rfl
  exact ends_reorder accounted found rfl

theorem ends_shuffle (accounted : heap.Accounted held fresh handles)
    (arrayLive : heap.contains array) (random : RandomSequence) :
    Ends (shuffle array random heap) (fun _ heap => heap.Accounted held fresh handles)
      (fun _ => False) := by
  unfold shuffle
  refine Ends.bind ((ends_arrayAt arrayLive).then ?_)
  rintro items _ ⟨rfl, found⟩
  have kept : (items.shuffle random).1.entries = items.entries := rfl
  exact Ends.bind ((ends_reorder accounted found kept).then fun _ heap accounted =>
    Ends.pure accounted)

/-! ## Objects without references

An object that nothing refers to is not reached by any release, so it stays while others go. -/

section Unreferenced

variable {heap' : Heap} {id : ObjectId}

theorem cell_eq_ok {other : ObjectId} {cell : Cell} (run : Heap.cell other heap = .ok cell heap') :
    heap' = heap ∧ heap.cell? other = some cell := by
  cases found : heap.cell? other with
  | none =>
    rw [Heap.cell, get_bind, found] at run
    cases run
  | some stored =>
    cases (cell_run found).symm.trans run
    exact ⟨rfl, rfl⟩

theorem refCount?_drain : ∀ {fuel : Nat} {pending : List ObjectId} {heap : Heap},
    heap.refCount? id = some 0 → drain fuel pending heap = .ok () heap' →
      heap'.refCount? id = some 0
  | fuel, [], heap, unreferenced, run => by
    unfold drain at run
    cases run
    exact unreferenced
  | 0, _ :: _, heap, _, run => by
    unfold drain at run
    cases run
  | fuel + 1, other :: pending, heap, unreferenced, run => by
    unfold drain at run
    obtain ⟨cell, between, read, rest⟩ := bind_eq_ok run
    obtain ⟨rfl, found⟩ := cell_eq_ok read
    have different (positive : cell.references ≠ 0) : other ≠ id := by
      rintro rfl
      exact positive (by simpa [refCount?, found] using unreferenced)
    generalize count : cell.references = references at rest
    obtain _ | _ | remaining := references
    case zero => cases rest
    case succ.zero =>
      obtain ⟨_, heap, changed, last⟩ := bind_eq_ok rest
      cases changed
      refine refCount?_drain ?_ last
      refine (congrArg (Option.map (·.references)) (cell?_forget between other id)).trans ?_
      rw [if_neg (different (by omega))]
      exact unreferenced
    case succ.succ =>
      obtain ⟨_, heap, changed, last⟩ := bind_eq_ok rest
      cases changed
      refine refCount?_drain ?_ last
      refine (congrArg (Option.map (·.references)) (cell?_modifyCell between other id _)).trans ?_
      rw [if_neg (different (by omega))]
      exact unreferenced

theorem refCount?_release {other : ObjectId} (unreferenced : heap.refCount? id = some 0)
    (run : release other heap = .ok () heap') : heap'.refCount? id = some 0 := by
  obtain ⟨_, _, read, run⟩ := bind_eq_ok run
  cases read
  cases closed : heap.closed with
  | true =>
    rw [closed, if_pos rfl] at run
    cases run
    exact unreferenced
  | false =>
    rw [closed, if_neg Bool.false_ne_true] at run
    exact refCount?_drain unreferenced run

theorem refCount?_addRef {other : ObjectId} (unreferenced : heap.refCount? id = some 0)
    (different : id ≠ other) (run : addRef other heap = .ok () heap') :
    heap'.refCount? id = some 0 := by
  obtain ⟨_, _, read, run⟩ := bind_eq_ok run
  cases read
  cases closed : heap.closed with
  | true =>
    rw [closed, if_pos rfl] at run
    cases run
    exact unreferenced
  | false =>
    rw [closed, if_neg Bool.false_ne_true] at run
    obtain ⟨_, _, read, run⟩ := bind_eq_ok run
    cases read
    cases live : heap.contains other with
    | false =>
      rw [live, if_neg Bool.false_ne_true] at run
      cases run
    | true =>
      rw [live, if_pos rfl] at run
      cases run
      refine (congrArg (Option.map (·.references)) (cell?_modifyCell heap other id _)).trans ?_
      rw [if_neg (Ne.symm different)]
      exact unreferenced

theorem value_eq_ok {other : ObjectId} {value : Value} (run : Heap.value other heap = .ok value heap') :
    heap' = heap := by
  obtain ⟨cell, between, read, last⟩ := bind_eq_ok run
  cases last
  exact (cell_eq_ok read).1

theorem keyOf_eq_ok {other : ObjectId} {key : ArrayKey} (run : keyOf other heap = .ok key heap') :
    heap' = heap := by
  obtain ⟨value, between, read, last⟩ := bind_eq_ok run
  cases last
  exact value_eq_ok read

theorem arrayAt_eq_ok (run : arrayAt array heap = .ok items heap') : heap' = heap := by
  obtain ⟨value, between, read, last⟩ := bind_eq_ok run
  cases value_eq_ok read
  cases value <;> cases last
  rfl

theorem refCount?_modifyArray {change : ScriptArray → ScriptArray}
    (unreferenced : heap.refCount? id = some 0)
    (run : modifyArray array change heap = .ok () heap') : heap'.refCount? id = some 0 := by
  obtain ⟨_, _, read, last⟩ := bind_eq_ok run
  cases read
  cases live : heap.contains array with
  | false =>
    rw [live, if_neg Bool.false_ne_true] at last
    cases last
  | true =>
    rw [live, if_pos rfl] at last
    cases last
    refine (congrArg (Option.map (·.references)) (cell?_modifyCell heap array id _)).trans ?_
    split
    · simpa [refCount?, Option.map_map] using unreferenced
    · exact unreferenced

theorem refCount?_setEntry {key value : ObjectId} (unreferenced : heap.refCount? id = some 0)
    (notKey : id ≠ key) (notValue : id ≠ value)
    (run : setEntry array key value heap = .ok () heap') : heap'.refCount? id = some 0 := by
  obtain ⟨arrayKey, _, read, afterKey⟩ := bind_eq_ok run
  cases keyOf_eq_ok read
  obtain ⟨_, _, keyCounted, afterKeyCount⟩ := bind_eq_ok afterKey
  have unreferenced := refCount?_addRef unreferenced notKey keyCounted
  obtain ⟨_, _, valueCounted, afterValueCount⟩ := bind_eq_ok afterKeyCount
  have unreferenced := refCount?_addRef unreferenced notValue valueCounted
  obtain ⟨items, _, found, afterArray⟩ := bind_eq_ok afterValueCount
  cases arrayAt_eq_ok found
  obtain ⟨_, _, stored, afterStore⟩ := bind_eq_ok afterArray
  have unreferenced := refCount?_modifyArray unreferenced stored
  cases replaced : items.get? arrayKey with
  | none =>
    rw [replaced] at afterStore
    cases afterStore
    exact unreferenced
  | some old =>
    rw [replaced] at afterStore
    obtain ⟨_, _, keyReleased, valueReleased⟩ := bind_eq_ok afterStore
    exact refCount?_release (refCount?_release unreferenced keyReleased) valueReleased

/-- Appending to an array leaves an object without references alone, unless it is the value. -/
theorem refCount?_pushBack {value : ObjectId} (unreferenced : heap.refCount? id = some 0)
    (notValue : id ≠ value) (run : pushBack array value heap = .ok () heap') :
    heap'.refCount? id = some 0 := by
  obtain ⟨items, _, found, afterArray⟩ := bind_eq_ok run
  cases arrayAt_eq_ok found
  cases next : items.nextIntegerKey with
  | error breach =>
    rw [next] at afterArray
    cases afterArray
  | ok number =>
    rw [next] at afterArray
    obtain ⟨key, _, registered, stored⟩ := bind_eq_ok afterArray
    cases registered
    obtain ⟨cell, live, none⟩ := Option.map_eq_some_iff.1 unreferenced
    have notKey : id ≠ heap.cells.size := Nat.ne_of_lt (lt_size_of_cell? live)
    refine refCount?_setEntry ?_ notKey notValue stored
    rw [refCount?, cell?_register, if_neg notKey]
    exact unreferenced

end Unreferenced

end Heap

end Terrain
