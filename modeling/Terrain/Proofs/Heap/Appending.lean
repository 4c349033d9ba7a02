import Terrain.Native.Dispatch
import Terrain.Proofs.Heap.Histories
import Terrain.Proofs.Number.Values

/-!
# Appending to arrays

The next key of an array is one more than the greatest whole number that was ever a key. After any
history no whole number among the keys is greater than that one, so the next key is new as long as its
float is exact.

* `ScriptArray.Bounded` — the greatest whole number is kept.
* `ScriptArray.nextKey`, `ScriptArray.Bounded.get?_nextKey` — the key of the next element.
* `Heap.Reached.bounded` — every array of a heap, after any history.
* `Heap.exists_pushBack_eq_ok`, `Heap.exists_pushBack_of_present` — a new key and one that is there.
-/

namespace Terrain

namespace ScriptArray

variable {array : ScriptArray} {key : ArrayKey} {entry : Entry}

/-! ## The greatest whole number -/

/-- No whole number among the keys is greater than the one that is kept. -/
structure Bounded (array : ScriptArray) : Prop where
  least : -1 ≤ array.maxIntegerKey
  most : array.maxIntegerKey ≤ wideMax
  keys : ∀ number entry, array.get? (.number number) = some entry → Number.isWhole number →
    Number.truncateTo wideMin wideMax number ≤ array.maxIntegerKey

theorem bounded_empty : empty.Bounded := ⟨le_refl _, by decide, nofun⟩

theorem maxIntegerKey_insert (array : ScriptArray) (key : ArrayKey) (entry : Entry) :
    (array.insert key entry).maxIntegerKey = array.raiseIntegerKey key := rfl

theorem maxIntegerKey_le_raiseIntegerKey (array : ScriptArray) (key : ArrayKey) :
    array.maxIntegerKey ≤ array.raiseIntegerKey key := by
  unfold raiseIntegerKey
  cases key with
  | number n =>
    dsimp only
    split
    · exact le_max_left _ _
    · exact le_refl _
  | _ => exact le_refl _

theorem Bounded.insert (bounded : array.Bounded) (key : ArrayKey) (entry : Entry) :
    (array.insert key entry).Bounded where
  least := bounded.least.trans (maxIntegerKey_le_raiseIntegerKey array key)
  most := by
    rw [maxIntegerKey_insert]
    unfold raiseIntegerKey
    cases key with
    | number n =>
      dsimp only
      split
      · exact max_le bounded.most (Number.narrowBy_mem _ _ _ n (by decide) (by decide)).2
      · exact bounded.most
    | _ => exact bounded.most
  keys number stored found whole := by
    rw [maxIntegerKey_insert]
    rw [get?_insert] at found
    split at found
    case isTrue same =>
      rw [same, raiseIntegerKey, if_pos whole]
      exact le_max_right _ _
    case isFalse =>
      exact (bounded.keys number stored found whole).trans
        (maxIntegerKey_le_raiseIntegerKey array key)

theorem Bounded.erase (bounded : array.Bounded) (key : ArrayKey) : (array.erase key).Bounded := by
  have same : (array.erase key).maxIntegerKey = array.maxIntegerKey := by
    unfold ScriptArray.erase
    split <;> rfl
  refine ⟨same ▸ bounded.least, same ▸ bounded.most, fun number stored found whole => ?_⟩
  rw [get?_erase] at found
  split at found
  · cases found
  · exact same ▸ bounded.keys number stored found whole

theorem Bounded.foldl_erase (keys : List ArrayKey) : ∀ {array : ScriptArray}, array.Bounded →
    (keys.foldl ScriptArray.erase array).Bounded := by
  induction keys with
  | nil => exact id
  | cons key keys ih => exact fun bounded => ih (bounded.erase key)

theorem Bounded.dropPair (bounded : array.Bounded) (pair : Option (ArrayKey × Entry)) :
    (array.dropPair pair).Bounded := by
  cases pair with
  | none => exact bounded
  | some pair => exact bounded.erase pair.1

theorem Bounded.reorder (bounded : array.Bounded) (order : Array ArrayKey) :
    { array with order }.Bounded :=
  ⟨bounded.least, bounded.most, bounded.keys⟩

/-! ## The next key -/

def nextKey (array : ScriptArray) : Float := Float.ofInt (array.maxIntegerKey + 1)

theorem exists_nextIntegerKey_iff :
    (∃ next, array.nextIntegerKey = .ok next) ↔ array.maxIntegerKey < wideMax := by
  unfold nextIntegerKey
  split
  case isTrue room => exact iff_of_true ⟨_, rfl⟩ room
  case isFalse full => exact iff_of_false (fun ⟨_, made⟩ => nomatch made) full

/-- Up to 53 bits the next key is exact, so it is greater than every whole number among the keys. -/
theorem Bounded.isValue_nextKey (bounded : array.Bounded) (small : array.maxIntegerKey < 2 ^ 53) :
    Number.IsValue array.nextKey (array.maxIntegerKey + 1 : ℤ) := by
  have least := bounded.least
  exact Number.isValue_ofInt (by omega)

theorem Bounded.truncateTo_nextKey (bounded : array.Bounded)
    (small : array.maxIntegerKey < 2 ^ 53) :
    Number.truncateTo wideMin wideMax array.nextKey = array.maxIntegerKey + 1 := by
  have least := bounded.least
  rw [(bounded.isValue_nextKey small).truncateTo, Number.truncated_intCast]
  exact Number.clampInt_of_mem (by unfold wideMin; omega) (by unfold wideMax; omega)

theorem Bounded.get?_nextKey (bounded : array.Bounded) (small : array.maxIntegerKey < 2 ^ 53) :
    array.get? (.number array.nextKey) = none := by
  cases found : array.get? (.number array.nextKey) with
  | none => rfl
  | some entry =>
    have whole := (bounded.isValue_nextKey small).isWhole_iff.2 ⟨_, rfl⟩
    have le := bounded.keys _ entry found whole
    rw [bounded.truncateTo_nextKey small] at le
    omega

theorem Bounded.maxIntegerKey_nextKey (bounded : array.Bounded)
    (small : array.maxIntegerKey < 2 ^ 53) (entry : Entry) :
    (array.insert (.number array.nextKey) entry).maxIntegerKey = array.maxIntegerKey + 1 := by
  have whole := (bounded.isValue_nextKey small).isWhole_iff.2 ⟨_, rfl⟩
  rw [ScriptArray.maxIntegerKey_insert, raiseIntegerKey, if_pos whole, bounded.truncateTo_nextKey small]
  exact max_eq_right (by omega)

/-! ## New pairs at the end -/

theorem pairs_insert_of_new (inStep : array.InStep) (new : array.get? key = none) (entry : Entry) :
    (array.insert key entry).pairs = array.pairs ++ [(key, entry)] := by
  rw [pairs_insert inStep, Pairs.store, if_neg]
  rw [inStep.mem_keys]
  exact notMem_entries.2 new

end ScriptArray

namespace Heap

variable {heap after : Heap} {held : Multiset ObjectId} {array id : ObjectId}
  {items items' : ScriptArray}

/-! ## Every array of a heap -/

def ArraysBounded (heap : Heap) : Prop :=
  ∀ array items, heap.value? array = some (.array items) → items.Bounded

theorem ArraysBounded.remains (bounded : heap.ArraysBounded)
    (values : ∀ id value, after.value? id = some value → heap.value? id = some value) :
    after.ArraysBounded :=
  fun array items stored => bounded array items (values array _ stored)

theorem ArraysBounded.adding (bounded : heap.ArraysBounded) (value : Value)
    (blank : ∀ items, value = .array items → items = .empty) :
    (heap.adding value).ArraysBounded := by
  intro array items stored
  rw [value?_adding] at stored
  split at stored
  case isTrue =>
    rw [Option.some.injEq] at stored
    rw [blank items stored]
    exact ScriptArray.bounded_empty
  case isFalse => exact bounded array items stored

theorem ArraysBounded.leaves (bounded : heap.ArraysBounded)
    (leaves : heap.Leaves after held array items) (own : items.Bounded) : after.ArraysBounded := by
  intro other content stored
  by_cases same : other = array
  · subst same
    cases leaves.own _ stored
    exact own
  · exact bounded other content (leaves.others other _ same stored)

theorem Command.gives_bounded (counted : heap.Counted held) (arrays : heap.ArraysInStep)
    (bounded : heap.ArraysBounded) (found : heap.value? array = some (.array items))
    (command : Command) (live : ∀ id ∈ command.operands, heap.contains id) :
    Gives (command.run array heap) (fun _ after => after.ArraysBounded) True := by
  obtain ⟨inStep, -⟩ := arrays array items found
  have own := bounded array items found
  cases command with
  | set key value =>
    obtain ⟨arrayKey, keyFound⟩ := exists_key? (live key (by simp [operands]))
    have valueLive := live value (by simp [operands])
    refine Gives.bind ((gives_setEntry counted found keyFound valueLive).imp ?_ id)
    intro _ after leaves
    exact bounded.leaves leaves (own.insert _ _)
  | pushBack value =>
    have valueLive := live value (by simp [operands])
    cases next : items.nextIntegerKey with
    -- without a next key nothing is appended
    | error => exact Gives.bind (Gives.bind_of_eq_ok (arrayAt_run found) (by rw [next]; trivial))
    | ok number =>
      obtain ⟨counted, -⟩ := arrays.adding counted (.number number) (by rintro _ ⟨⟩)
      refine Gives.bind ((gives_append counted found valueLive next).imp ?_ id)
      intro _ after leaves
      exact (bounded.adding (.number number) (by rintro _ ⟨⟩)).leaves leaves (own.insert _ _)
  | removeKey key =>
    obtain ⟨arrayKey, keyFound⟩ := exists_key? (live key (by simp [operands]))
    refine Gives.bind (Gives.bind_of_eq_ok (keyOf_eq_ok_of_key? keyFound) ?_)
    refine (gives_eraseKey counted found arrayKey).imp ?_ id
    rintro there after ⟨-, leaves⟩
    exact bounded.leaves leaves (own.erase _)
  | removeValue value =>
    have valueLive := live value (by simp [operands])
    refine Gives.bind ((gives_removeValue counted inStep found valueLive).imp ?_ fun _ => trivial)
    rintro count after ⟨-, leaves⟩
    exact bounded.leaves leaves (.foldl_erase _ own)
  | popFront =>
    refine Gives.bind ((gives_popFront? counted inStep found).imp ?_ id)
    rintro taken after ⟨-, leaves⟩
    exact bounded.leaves leaves (own.dropPair _)
  | popBack =>
    refine Gives.bind ((gives_popBack? counted inStep found).imp ?_ id)
    rintro taken after ⟨-, leaves⟩
    exact bounded.leaves leaves (own.dropPair _)
  | sortByKeys =>
    refine Gives.bind (Gives.bind_of_eq_ok (arrayAt_run found) ?_)
    refine (gives_reorder counted found items.reorders_sortByKeys).imp ?_ id
    intro _ after leaves
    exact bounded.leaves leaves (own.reorder _)
  | sortByValues =>
    apply Gives.bind
    rw [sortByValues_eq counted inStep found]
    refine (gives_reorder counted found (heap.reorders_sortByRank items)).imp ?_ id
    intro _ after leaves
    exact bounded.leaves leaves (own.reorder _)
  | shuffle random =>
    refine Gives.bind (Gives.bind_of_eq_ok (arrayAt_run found) ?_)
    refine Gives.bind ((gives_reorder counted found (items.reorders_shuffle random)).imp ?_ id)
    intro _ after leaves
    exact bounded.leaves leaves (own.reorder _)

/-- No history gives an array a whole number for a key that is greater than the one that is kept. -/
theorem Reached.bounded (reached : Reached heap held) : heap.ArraysBounded := by
  induction reached with
  | empty => exact nofun
  | register _ blank run ih =>
    cases run
    exact ih.adding _ blank
  | addRef reached run ih =>
    obtain ⟨-, values⟩ := (gives_addRef reached.sound.1).of_eq_ok run
    exact ih.remains (by simp [values])
  | release reached run ih =>
    obtain ⟨-, remains⟩ := (gives_release reached.sound.1).of_eq_ok run
    exact ih.remains remains.values
  | destroy reached run ih =>
    obtain ⟨-, values⟩ := (gives_destroy reached.sound.1).of_eq_ok run
    exact ih.remains values
  | operate reached found live run ih =>
    obtain ⟨counted, arrays⟩ := reached.sound
    exact (Command.gives_bounded counted arrays ih found _ live).of_eq_ok run

/-! ## A new key -/

/-- The next object of a heap has a name that none has yet. -/
theorem ne_size_of_value? {value : Value} (found : heap.value? id = some value) :
    id ≠ heap.cells.size := by
  obtain ⟨cell, there, -⟩ := Option.map_eq_some_iff.1 found
  exact Nat.ne_of_lt (lt_size_of_cell? there)

/-- A value under a key that was not there. -/
theorem exists_setEntry_eq_ok {key value : ObjectId} {arrayKey : ArrayKey}
    (counted : heap.Counted held) (found : heap.value? array = some (.array items))
    (keyFound : heap.key? key = some arrayKey) (valueLive : heap.contains value)
    (new : items.get? arrayKey = none) :
    ∃ after, setEntry array key value heap = .ok () after ∧ after.Counted held ∧
      after.value? array = some (.array (items.insert arrayKey ⟨key, value⟩)) ∧
      ∀ id, id ≠ array → after.value? id = heap.value? id := by
  -- key and value are counted before the entry is stored
  have givesFirst := @gives_addRef heap held key counted
  obtain ⟨_, first, runFirst⟩ := givesFirst.exists_eq_ok (not_not.2 (contains_of_key? keyFound))
  obtain ⟨counted, keptFirst⟩ := givesFirst.of_eq_ok runFirst
  have valueLive : first.contains value := by
    simpa only [contains_iff_value?, keptFirst] using valueLive
  have givesSecond := @gives_addRef first _ value counted
  obtain ⟨_, second, runSecond⟩ := givesSecond.exists_eq_ok (not_not.2 valueLive)
  obtain ⟨counted, keptSecond⟩ := givesSecond.of_eq_ok runSecond
  have values : second.value? = heap.value? := keptSecond.trans keptFirst
  rw [← values] at found
  obtain ⟨after, run, own, others, -⟩ :=
    exists_modifyArray_eq_ok found (·.insert arrayKey ⟨key, value⟩)
  have exchange := items.exchange_insert arrayKey ⟨key, value⟩ held
  rw [new, Option.map_none, Option.getD_none, zero_add] at exchange
  have gives := @gives_modifyArray _ _ _ _ _ False counted found (·.insert arrayKey ⟨key, value⟩)
    exchange
  have leaves := gives.of_eq_ok run
  refine ⟨after, ?_, leaves.counted, own, fun id different => ?_⟩
  · rw [setEntry, bind_of_eq_ok (keyOf_eq_ok_of_key? keyFound), bind_of_eq_ok runFirst,
      bind_of_eq_ok runSecond, bind_of_eq_ok (arrayAt_run found), new]
    exact bind_of_eq_ok run
  · rw [others id different, values]

/-- A value is appended: its pair follows all others, under a key that was not there, and nothing else
changes but for the new object of the key. -/
structure Appends (before after : Heap) (array value : ObjectId) (items other : ScriptArray) :
    Prop where
  own : after.value? array = some (.array other)
  key : after.value? before.cells.size = some (.number items.nextKey)
  others : ∀ id, id ≠ array → id ≠ before.cells.size → after.value? id = before.value? id
  new : .number items.nextKey ∉ items.pairs.keys
  pairs : other.pairs = items.pairs ++ [(.number items.nextKey, ⟨before.cells.size, value⟩)]
  size : other.size = items.size + 1
  back : other.back? = some ⟨before.cells.size, value⟩
  positions : ∀ index < items.size, other.entryAt? index = items.entryAt? index
  lookups : ∀ key ∈ items.pairs.keys, other.get? key = items.get? key

/-- Nothing goes when a value is appended. -/
theorem Appends.contains {value : ObjectId} (appends : heap.Appends after array value items items')
    (live : heap.contains id) : after.contains id := by
  obtain ⟨content, stored⟩ := contains_iff_value?.1 live
  by_cases same : id = array
  · rw [same]
    exact contains_iff_value?.2 ⟨_, appends.own⟩
  · have kept := appends.others id same (ne_size_of_value? stored)
    exact contains_iff_value?.2 ⟨content, kept.trans stored⟩

theorem exists_pushBack_eq_ok {value : ObjectId} (counted : heap.Counted held)
    (inStep : items.InStep) (found : heap.value? array = some (.array items))
    (valueLive : heap.contains value) (room : items.maxIntegerKey < wideMax)
    (new : items.get? (.number items.nextKey) = none) :
    ∃ after, pushBack array value heap = .ok () after ∧ after.Counted held ∧
      heap.Appends after array value items
        (items.insert (.number items.nextKey) ⟨heap.cells.size, value⟩) := by
  have next : items.nextIntegerKey = .ok items.nextKey := if_pos room
  have stored := value?_adding_of_eq_some found (.number items.nextKey)
  obtain ⟨after, run, counted, own, others⟩ := exists_setEntry_eq_ok (counted.adding rfl) stored
    (key?_adding heap _) (contains_adding valueLive _) new
  set other := items.insert (.number items.nextKey) ⟨heap.cells.size, value⟩
  have pairs := ScriptArray.pairs_insert_of_new inStep new ⟨heap.cells.size, value⟩
  have reads := (inStep.insert (.number items.nextKey) ⟨heap.cells.size, value⟩).readsAs
  rw [pairs] at reads
  have length : items.size = items.pairs.length := inStep.readsAs.size
  refine ⟨after, ?_, counted, ?_⟩
  · rw [pushBack, bind_of_eq_ok (arrayAt_run found), next]
    exact (bind_of_eq_ok (register_run heap (.number items.nextKey))).trans run
  constructor
  case own => exact own
  case key => rw [others _ (ne_size_of_value? found).symm, value?_adding, if_pos rfl]
  case others =>
    intro id notArray notKey
    rw [others id notArray, value?_adding, if_neg notKey]
  case new =>
    rw [inStep.mem_keys]
    exact ScriptArray.notMem_entries.2 new
  case pairs => exact pairs
  case size => rw [reads.size, List.length_append, length, List.length_singleton]
  case back => rw [reads.back?, List.getLast?_append_cons, List.getLast?_singleton, Option.map_some]
  case positions =>
    intro index inside
    rw [reads.entryAt?, List.getElem?_append_left (length ▸ inside), inStep.entryAt?_eq]
  case lookups =>
    intro key member
    have different : ArrayKey.number items.nextKey ≠ key := by
      rintro rfl
      rw [inStep.mem_keys] at member
      exact ScriptArray.notMem_entries.2 new member
    rw [ScriptArray.get?_insert, if_neg different]

/-- The entry under the next key is replaced if there is one, and nothing is appended. -/
theorem exists_pushBack_of_present {value : ObjectId} (counted : heap.Counted held)
    (inStep : items.InStep) (found : heap.value? array = some (.array items)) (kept : array ∈ held)
    (valueLive : heap.contains value) (room : items.maxIntegerKey < wideMax)
    (present : ArrayKey.number items.nextKey ∈ items.pairs.keys) :
    ∃ after other, pushBack array value heap = .ok () after ∧
      after.value? array = some (.array other) ∧ other.size = items.size ∧
      other.get? (.number items.nextKey) = some ⟨heap.cells.size, value⟩ := by
  have next : items.nextIntegerKey = .ok items.nextKey := if_pos room
  have gives := @gives_append _ _ _ _ _ _ False (counted.adding rfl) found valueLive next
  obtain ⟨_, after, run⟩ := gives.exists_eq_ok id
  have leaves := gives.of_eq_ok run
  obtain ⟨content, stored⟩ := contains_iff_value?.1 (leaves.counted.contains kept)
  rw [leaves.own content stored] at stored
  refine ⟨after, _, run, stored, ?_, ?_⟩
  · rw [ScriptArray.size, ← Array.length_toList, ScriptArray.order_insert,
      if_pos (inStep.mem_keys.1 present), Array.length_toList, ScriptArray.size]
  · exact (ScriptArray.get?_insert _ _ _ _).trans (if_pos rfl)

end Heap

end Terrain
