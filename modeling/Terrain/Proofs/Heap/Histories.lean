import Terrain.Proofs.Heap.Updates

/-!
# Histories of arrays

A heap starts empty and changes by the operations of the heap and of its arrays. Whatever was done
before, every array of the heap is an ordered map: its two parts are in step, every key object still
compares by the key it is stored under, and each operation makes of the pairs what it should.

An operation may drop the last reference to the array itself, if nobody outside holds one. So the
statements speak of arrays that are still there afterwards; an array held from outside always is.

* `Heap.Command`, `Heap.Command.Meets` — the operations on an array, and what each has to do.
* `Heap.ArraysInStep` — every array is in step, kept by each operation in `Heap.Command.gives_run`.
* `Heap.Reached` — the heaps a history leads to, with `Heap.Reached.ordered_map` for their arrays.
-/

namespace Terrain.Heap

variable {heap after : Heap} {held : Multiset ObjectId} {array id : ObjectId}
  {items items' : ScriptArray}

/-! ## Commands -/

inductive Command where
  | set (key value : ObjectId)
  | pushBack (value : ObjectId)
  | removeKey (key : ObjectId)
  | removeValue (value : ObjectId)
  | popFront
  | popBack
  | sortByKeys
  | sortByValues
  | shuffle (random : RandomSequence)

inductive Answer where
  | done
  | removed (there : Bool)
  | count (count : Nat)
  | taken (entry : Option Entry)
  | source (random : RandomSequence)

def Answer.references : Answer → Multiset ObjectId
  | taken entry => (entry.map Entry.held).getD 0
  | _ => 0

namespace Command

def operands : Command → List ObjectId
  | set key value => [key, value]
  | pushBack value | removeValue value => [value]
  | removeKey key => [key]
  | _ => []

def run (array : ObjectId) : Command → HeapM Answer
  | set key value => do
    setEntry array key value
    return .done
  | pushBack value => do
    Heap.pushBack array value
    return .done
  | removeKey key => return .removed (← Heap.removeKey array key)
  | removeValue value => return .count (← Heap.removeValue array value)
  | popFront => return .taken (← popFront? array)
  | popBack => return .taken (← popBack? array)
  | sortByKeys => do
    Heap.sortByKeys array
    return .done
  | sortByValues => do
    Heap.sortByValues array
    return .done
  | shuffle random => return .source (← Heap.shuffle array random)

/-- Appending needs a key beyond the greatest one. -/
def Fits (items : ScriptArray) : Command → Prop
  | pushBack _ => items.maxIntegerKey < wideMax
  | _ => True

/-- What an operation has to make of the pairs of an array, and what it has to answer. An appended
value is stored under a new object. -/
def Meets (heap : Heap) (before after : ScriptArray) : Command → Answer → Prop
  | set key value, .done => ∃ arrayKey, heap.key? key = some arrayKey ∧
    after.pairs = before.pairs.store arrayKey ⟨key, value⟩
  | pushBack value, .done => ∃ next, before.nextIntegerKey = .ok next ∧
    after.pairs = before.pairs.store (.number next) ⟨heap.cells.size, value⟩
  | removeKey key, .removed there => ∃ arrayKey, heap.key? key = some arrayKey ∧
    (there ↔ arrayKey ∈ before.pairs.keys) ∧ after.pairs = before.pairs.without arrayKey
  | removeValue value, .count count => count = before.pairs.countP (heap.hasValue value) ∧
    after.pairs = before.pairs.filter (!heap.hasValue value ·)
  | popFront, .taken entry => entry = before.pairs.head?.map (·.2) ∧
    after.pairs = before.pairs.tail
  | popBack, .taken entry => entry = before.pairs.getLast?.map (·.2) ∧
    after.pairs = before.pairs.dropLast
  | sortByKeys, .done | sortByValues, .done | shuffle _, .source _ =>
    after.pairs.Perm before.pairs
  | _, _ => False

end Command

/-! ## Every array of a heap -/

def KeyedBy (heap : Heap) (items : ScriptArray) : Prop :=
  ∀ key entry, items.get? key = some entry → heap.key? entry.key = some key

theorem keyedBy_empty (heap : Heap) : heap.KeyedBy .empty := by
  intro key entry found
  cases found

def ArraysInStep (heap : Heap) : Prop :=
  ∀ array items, heap.value? array = some (.array items) → items.InStep ∧ heap.KeyedBy items

/-- Objects that stay keep their keys, so it is enough to know the keys from before. -/
theorem ArraysInStep.of_keys (heap : Heap) (counted : after.Counted held)
    (kept : ∀ id, after.contains id → heap.contains id → after.key? id = heap.key? id)
    (arrays : ∀ array items, after.value? array = some (.array items) →
      items.InStep ∧ heap.KeyedBy items) : after.ArraysInStep := by
  intro array items found
  obtain ⟨inStep, keyed⟩ := arrays array items found
  refine ⟨inStep, fun key entry stored => ?_⟩
  have before := keyed key entry stored
  rw [kept entry.key (counted.entry_live found stored).1 (contains_of_key? before), before]

theorem ArraysInStep.leaves (arrays : heap.ArraysInStep)
    (found : heap.value? array = some (.array items)) (leaves : heap.Leaves after held array items')
    (inStep : items'.InStep) (keyed : heap.KeyedBy items') : after.ArraysInStep := by
  apply ArraysInStep.of_keys heap leaves.counted
  · intro id live _
    exact leaves.key? found live
  · intro other content stored
    by_cases same : other = array
    · subst same
      cases leaves.own _ stored
      exact ⟨inStep, keyed⟩
    · exact arrays other content (leaves.others other _ same stored)

/-- Whatever goes, what stays is as it was. -/
theorem ArraysInStep.remains (arrays : heap.ArraysInStep) (counted : after.Counted held)
    (values : ∀ id value, after.value? id = some value → heap.value? id = some value) :
    after.ArraysInStep := by
  have kept (id : ObjectId) (live : after.contains id) : after.key? id = heap.key? id := by
    obtain ⟨value, stored⟩ := contains_iff_value?.1 live
    rw [key?, key?, stored, values id value stored]
  apply ArraysInStep.of_keys heap counted fun id live _ => kept id live
  intro array items stored
  exact arrays array items (values array _ stored)

theorem KeyedBy.erase (keyed : heap.KeyedBy items) (key : ArrayKey) :
    heap.KeyedBy (items.erase key) := by
  intro other entry stored
  rw [ScriptArray.get?_erase] at stored
  split at stored
  · cases stored
  · exact keyed other entry stored

theorem KeyedBy.dropPair (keyed : heap.KeyedBy items) (pair : Option (ArrayKey × Entry)) :
    heap.KeyedBy (items.dropPair pair) := by
  cases pair with
  | none => exact keyed
  | some pair => exact keyed.erase pair.1

theorem KeyedBy.reorders (keyed : heap.KeyedBy items) (reorders : items.Reorders items') :
    heap.KeyedBy items' := by
  intro key entry stored
  rw [reorders.get?] at stored
  exact keyed key entry stored

theorem KeyedBy.insert (keyed : heap.KeyedBy items) {key value : ObjectId} {arrayKey : ArrayKey}
    (found : heap.key? key = some arrayKey) :
    heap.KeyedBy (items.insert arrayKey ⟨key, value⟩) := by
  intro other entry stored
  rw [ScriptArray.get?_insert] at stored
  split at stored
  case isTrue same =>
    cases stored
    rw [← same]
    exact found
  case isFalse => exact keyed other entry stored

/-! ## What a command does -/

namespace Command

/-- After an operation the counts are exact, all arrays are in step, and the operation did to its
array what it has to do. -/
structure Outcome (command : Command) (heap : Heap) (held : Multiset ObjectId) (array : ObjectId)
    (items : ScriptArray) (answer : Answer) (after : Heap) : Prop where
  counted : after.Counted (answer.references + held)
  arrays : after.ArraysInStep
  meets : ∀ value, after.value? array = some value →
    ∃ items', value = .array items' ∧ command.Meets heap items items' answer

variable {command : Command} {answer : Answer}

theorem Outcome.of_leaves (arrays : heap.ArraysInStep)
    (found : heap.value? array = some (.array items))
    (leaves : heap.Leaves after (answer.references + held) array items') (inStep : items'.InStep)
    (keyed : heap.KeyedBy items') (meets : command.Meets heap items items' answer) :
    command.Outcome heap held array items answer after where
  counted := leaves.counted
  arrays := arrays.leaves found leaves inStep keyed
  meets value stored := ⟨items', leaves.own value stored, meets⟩

theorem Outcome.of_reorders (arrays : heap.ArraysInStep)
    (found : heap.value? array = some (.array items)) (reorders : items.Reorders items')
    (leaves : heap.Leaves after (answer.references + held) array items')
    (meets : items'.pairs.Perm items.pairs → command.Meets heap items items' answer) :
    command.Outcome heap held array items answer after := by
  obtain ⟨inStep, keyed⟩ := arrays array items found
  exact .of_leaves arrays found leaves (reorders.inStep inStep) (keyed.reorders reorders)
    (meets reorders.pairs)

end Command

abbrev adding (heap : Heap) (value : Value) : Heap :=
  { heap with cells := heap.cells.push (some ⟨0, value⟩) }

theorem value?_adding (heap : Heap) (value : Value) (id : ObjectId) :
    (heap.adding value).value? id =
      if id = heap.cells.size then some value else heap.value? id := by
  rw [value?, cell?_register]
  split <;> rfl

theorem value?_adding_of_live (live : heap.contains id) (value : Value) :
    (heap.adding value).value? id = heap.value? id := by
  obtain ⟨cell, found⟩ := Option.isSome_iff_exists.1 live
  rw [value?_adding, if_neg (Nat.ne_of_lt (lt_size_of_cell? found))]

theorem value?_adding_of_eq_some {content : Value} (stored : heap.value? id = some content)
    (value : Value) : (heap.adding value).value? id = some content := by
  rw [value?_adding_of_live (contains_iff_value?.2 ⟨content, stored⟩), stored]

theorem contains_adding (live : heap.contains id) (value : Value) :
    (heap.adding value).contains id := by
  obtain ⟨content, stored⟩ := contains_iff_value?.1 live
  exact contains_iff_value?.2 ⟨content, value?_adding_of_eq_some stored value⟩

theorem key?_adding (heap : Heap) (value : Value) :
    (heap.adding value).key? heap.cells.size = some (value.key heap.cells.size) := by
  rw [key?, value?_adding, if_pos rfl]
  rfl

theorem Counted.adding (counted : heap.Counted held) {value : Value} (leaf : value.children = []) :
    (heap.adding value).Counted held :=
  (counted.register leaf (fun _ _ => id) (fun _ _ => trivial) (Nat.zero_le _)).mono
    (Set.subset_univ _)

/-- A new object changes no other, and a new array is empty. -/
theorem ArraysInStep.adding (arrays : heap.ArraysInStep) (counted : heap.Counted held)
    (value : Value) (blank : ∀ items, value = .array items → items = .empty) :
    (heap.adding value).Counted held ∧ (heap.adding value).ArraysInStep := by
  have leaf : value.children = [] := by
    cases value with
    | array items =>
      rw [blank items rfl]
      rfl
    | _ => rfl
  have counted := counted.adding leaf
  refine ⟨counted, .of_keys heap counted (fun id _ before => ?_) fun array items stored => ?_⟩
  · rw [key?, key?, value?_adding_of_live before]
  · rw [value?_adding] at stored
    split at stored
    case isTrue =>
      rw [Option.some.injEq] at stored
      rw [blank items stored]
      exact ⟨ScriptArray.inStep_empty, heap.keyedBy_empty⟩
    case isFalse => exact arrays array items stored

/-- A value is appended under a new object with the next key. -/
theorem gives_append {value : ObjectId} {number : Float} {fails : Prop}
    (counted : (heap.adding (.number number)).Counted held)
    (found : heap.value? array = some (.array items)) (valueLive : heap.contains value)
    (next : items.nextIntegerKey = .ok number) :
    Gives (pushBack array value heap)
      (fun _ after => (heap.adding (.number number)).Leaves after held array
        (items.insert (.number number) ⟨heap.cells.size, value⟩)) fails := by
  have stored := value?_adding_of_eq_some found (.number number)
  apply Gives.bind_of_eq_ok (arrayAt_run found)
  rw [next]
  apply Gives.bind_of_eq_ok (register_run heap (.number number))
  exact gives_setEntry counted stored (key?_adding heap _) (contains_adding valueLive _)

namespace Command

theorem gives_set {key value : ObjectId} (counted : heap.Counted held) (arrays : heap.ArraysInStep)
    (found : heap.value? array = some (.array items)) (keyLive : heap.contains key)
    (valueLive : heap.contains value) {fails : Prop} :
    Gives ((set key value).run array heap) ((set key value).Outcome heap held array items)
      fails := by
  obtain ⟨inStep, keyed⟩ := arrays array items found
  obtain ⟨arrayKey, keyFound⟩ := exists_key? keyLive
  refine Gives.bind ((gives_setEntry counted found keyFound valueLive).imp ?_ id)
  intro _ after leaves
  refine .of_leaves arrays found (leaves.of_eq (zero_add held).symm) (inStep.insert _ _)
    (keyed.insert keyFound) ?_
  exact ⟨arrayKey, keyFound, ScriptArray.pairs_insert inStep _ _⟩

theorem gives_pushBack {value : ObjectId} (counted : heap.Counted held) (arrays : heap.ArraysInStep)
    (found : heap.value? array = some (.array items)) (valueLive : heap.contains value) :
    Gives ((pushBack value).run array heap) ((pushBack value).Outcome heap held array items)
      (¬items.maxIntegerKey < wideMax) := by
  by_cases room : items.maxIntegerKey < wideMax
  case neg =>
    refine Gives.bind (Gives.bind_of_eq_ok (arrayAt_run found) ?_)
    rw [ScriptArray.nextIntegerKey, if_neg room]
    exact room
  case pos =>
    have next : items.nextIntegerKey = .ok (Float.ofInt (items.maxIntegerKey + 1)) := if_pos room
    generalize Float.ofInt (items.maxIntegerKey + 1) = number at next
    obtain ⟨counted, added⟩ := arrays.adding counted (.number number) (by rintro _ ⟨⟩)
    have stored := value?_adding_of_eq_some found (.number number)
    obtain ⟨inStep, keyed⟩ := added array items stored
    refine Gives.bind ((gives_append counted found valueLive next).imp ?_ id)
    intro _ after leaves
    -- the key was not there before, so the change is one of the heap with the new object
    constructor
    case counted => exact leaves.counted.of_eq (zero_add held).symm
    case arrays =>
      exact added.leaves stored leaves (inStep.insert _ _) (keyed.insert (key?_adding heap _))
    case meets =>
      intro content kept
      exact ⟨_, leaves.own content kept, number, next, ScriptArray.pairs_insert inStep _ _⟩

theorem gives_run (counted : heap.Counted held) (arrays : heap.ArraysInStep)
    (found : heap.value? array = some (.array items)) (command : Command)
    (live : ∀ id ∈ command.operands, heap.contains id) :
    Gives (command.run array heap) (command.Outcome heap held array items)
      (array ∉ held ∨ ¬command.Fits items) := by
  obtain ⟨inStep, keyed⟩ := arrays array items found
  cases command with
  | set key value =>
    have keyLive := live key (by simp [operands])
    have valueLive := live value (by simp [operands])
    exact gives_set counted arrays found keyLive valueLive
  | pushBack value =>
    have valueLive := live value (by simp [operands])
    exact (gives_pushBack counted arrays found valueLive).imp (fun _ _ => id) .inr
  | removeKey key =>
    obtain ⟨arrayKey, keyFound⟩ := exists_key? (live key (by simp [operands]))
    refine Gives.bind (Gives.bind_of_eq_ok (keyOf_eq_ok_of_key? keyFound) ?_)
    refine (gives_eraseKey counted found arrayKey).imp ?_ id
    rintro there after ⟨answer, leaves⟩
    refine .of_leaves arrays found (leaves.of_eq (zero_add held).symm) (inStep.erase _)
      (keyed.erase _) ⟨arrayKey, keyFound, ?_, ScriptArray.pairs_erase inStep _⟩
    rw [answer, inStep.mem_keys, ScriptArray.mem_entries, Option.isSome_iff_exists]
  | removeValue value =>
    have valueLive := live value (by simp [operands])
    refine Gives.bind ((gives_removeValue counted inStep found valueLive).imp ?_ .inl)
    rintro count after ⟨answer, leaves⟩
    obtain ⟨kept, pairs⟩ := ScriptArray.inStep_foldl_erase _ inStep
    refine .of_leaves arrays found (leaves.of_eq (zero_add held).symm) kept ?_ ⟨answer, ?_⟩
    · intro key entry stored
      exact keyed key entry (ScriptArray.get?_foldl_erase stored)
    · rw [pairs, inStep.filter_notMem_keys]
  | popFront =>
    refine Gives.bind ((gives_popFront? counted inStep found).imp ?_ id)
    rintro taken after ⟨answer, leaves⟩
    exact .of_leaves arrays found leaves (inStep.dropPair _) (keyed.dropPair _)
      ⟨answer, ScriptArray.pairs_dropPair_head inStep⟩
  | popBack =>
    refine Gives.bind ((gives_popBack? counted inStep found).imp ?_ id)
    rintro taken after ⟨answer, leaves⟩
    exact .of_leaves arrays found leaves (inStep.dropPair _) (keyed.dropPair _)
      ⟨answer, ScriptArray.pairs_dropPair_last inStep⟩
  | sortByKeys =>
    have reorders := items.reorders_sortByKeys
    refine Gives.bind (Gives.bind_of_eq_ok (arrayAt_run found) ?_)
    refine (gives_reorder counted found reorders).imp ?_ id
    intro _ after leaves
    exact .of_reorders arrays found reorders (leaves.of_eq (zero_add held).symm) id
  | sortByValues =>
    refine Gives.bind ((gives_sortByValues counted inStep found).imp ?_ id)
    rintro - after ⟨sorted, reorders, leaves⟩
    exact .of_reorders arrays found reorders (leaves.of_eq (zero_add held).symm) id
  | shuffle random =>
    have reorders := items.reorders_shuffle random
    refine Gives.bind (Gives.bind_of_eq_ok (arrayAt_run found) ?_)
    refine Gives.bind ((gives_reorder counted found reorders).imp ?_ id)
    intro _ after leaves
    exact .of_reorders arrays found reorders (leaves.of_eq (zero_add held).symm) id

end Command

/-! ## Histories -/

/-- A heap is reached from the empty one by its own operations and those on its arrays. The
references in `held` are held outside of the heap: they were added and not yet released, or handed
over with an entry. -/
inductive Reached : Heap → Multiset ObjectId → Prop where
  | empty : Reached .empty 0
  | register {heap after : Heap} {held : Multiset ObjectId} {value : Value} {id : ObjectId}
      (reached : Reached heap held) (blank : ∀ items, value = .array items → items = .empty)
      (run : register value heap = .ok id after) : Reached after held
  | addRef {heap after : Heap} {held : Multiset ObjectId} {id : ObjectId}
      (reached : Reached heap held) (run : addRef id heap = .ok () after) :
      Reached after (id ::ₘ held)
  | release {heap after : Heap} {held : Multiset ObjectId} {id : ObjectId}
      (reached : Reached heap (id ::ₘ held)) (run : release id heap = .ok () after) :
      Reached after held
  | destroy {heap after : Heap} {held : Multiset ObjectId} {id : ObjectId}
      (reached : Reached heap held) (run : destroy id heap = .ok () after) : Reached after held
  | operate {heap after : Heap} {held : Multiset ObjectId} {array : ObjectId} {items : ScriptArray}
      {command : Command} {answer : Answer} (reached : Reached heap held)
      (found : heap.value? array = some (.array items))
      (live : ∀ id ∈ command.operands, heap.contains id)
      (run : command.run array heap = .ok answer after) :
      Reached after (answer.references + held)

theorem gives_destroy (counted : heap.Counted held) :
    Gives (destroy id heap)
      (fun _ after => after.Counted held ∧
        ∀ other value, after.value? other = some value → heap.value? other = some value)
      (heap.refCount? id ≠ some 0) := by
  cases found : heap.cell? id with
  | none =>
    have unknown : heap.refCount? id ≠ some 0 := by simp [refCount?, found]
    exact Gives.bind (gives_cell_of_none found unknown)
  | some cell =>
    apply Gives.bind_of_eq_ok (cell_run found)
    by_cases unreferenced : cell.references = 0
    case neg =>
      have referenced : heap.refCount? id ≠ some 0 := by simpa [refCount?, found] using unreferenced
      rw [if_neg unreferenced]
      exact referenced
    case pos =>
      have forgotten : (heap.forget id).Counted (held + ↑cell.value.children) :=
        counted.forget found (by rw [unreferenced, Multiset.replicate_zero, add_zero])
          (by rw [unreferenced, add_zero])
      obtain ⟨after, run, counted, remains⟩ :=
        drops_releaseAll cell.value.children _ _ _ _ (forgotten.of_eq (add_comm _ _))
      rw [if_pos unreferenced]
      change Gives (releaseAll cell.value.children (heap.forget id)) _ _
      rw [run]
      refine ⟨counted, fun other value stored => ?_⟩
      have kept := remains.values other value stored
      rw [value?_forget] at kept
      split at kept
      · cases kept
      · exact kept

/-- Every step of a history keeps the counts exact and the arrays in step. -/
theorem Reached.sound (reached : Reached heap held) : heap.Counted held ∧ heap.ArraysInStep := by
  induction reached with
  | empty => exact ⟨(accounted_empty _ rfl).mono (Set.subset_univ _), nofun⟩
  | register _ blank run ih =>
    cases run
    exact ih.2.adding ih.1 _ blank
  | addRef _ run ih =>
    obtain ⟨counted, values⟩ := (gives_addRef ih.1).of_eq_ok run
    exact ⟨counted, ih.2.remains counted (by simp [values])⟩
  | release _ run ih =>
    obtain ⟨counted, remains⟩ := (gives_release ih.1).of_eq_ok run
    exact ⟨counted, ih.2.remains counted remains.values⟩
  | destroy _ run ih =>
    obtain ⟨counted, values⟩ := (gives_destroy ih.1).of_eq_ok run
    exact ⟨counted, ih.2.remains counted values⟩
  | operate _ found live run ih =>
    have outcome := (Command.gives_run ih.1 ih.2 found _ live).of_eq_ok run
    exact ⟨outcome.counted, outcome.arrays⟩

/-- Every array of a heap is an ordered map, after any history. -/
theorem Reached.ordered_map (reached : Reached heap held)
    (found : heap.value? array = some (.array items)) :
    (items.order.toList.Nodup ∧ ∀ key, key ∈ items.order ↔ key ∈ items.entries) ∧
    (∀ key entry, items.get? key = some entry → keyOf entry.key heap = .ok key heap) ∧
    items.ReadsAs items.pairs ∧
    (∀ id key, keyOf id heap = .ok key heap →
      entryOf? array id heap = .ok (items.pairs.entry? key) heap) ∧
    ∀ command : Command, (∀ id ∈ command.operands, heap.contains id) →
      (∀ answer after, command.run array heap = .ok answer after → ∀ items',
        after.value? array = some (.array items') → command.Meets heap items items' answer) ∧
      (array ∈ held → command.Fits items → ∃ answer after items',
        command.run array heap = .ok answer after ∧ after.value? array = some (.array items')) := by
  obtain ⟨counted, arrays⟩ := reached.sound
  obtain ⟨inStep, keyed⟩ := arrays array items found
  refine ⟨⟨inStep.nodup, inStep.mem_order⟩, ?_, inStep.readsAs, ?_, ?_⟩
  · intro key entry stored
    exact keyOf_eq_ok_of_key? (keyed key entry stored)
  · intro id key run
    rw [entryOf?, bind_of_eq_ok run, bind_of_eq_ok (arrayAt_run found), inStep.get?_eq]
    rfl
  · intro command live
    have gives := Command.gives_run counted arrays found command live
    constructor
    · intro answer after run items' stored
      obtain ⟨_, same, meets⟩ := (gives.of_eq_ok run).meets _ stored
      cases same
      exact meets
    · intro kept room
      have sure : ¬(array ∉ held ∨ ¬command.Fits items) := by simp [kept, room]
      obtain ⟨answer, after, run⟩ := gives.exists_eq_ok sure
      have outcome := gives.of_eq_ok run
      have live := outcome.counted.contains (Multiset.mem_add.2 (.inr kept))
      obtain ⟨value, stored⟩ := contains_iff_value?.1 live
      obtain ⟨items', rfl, -⟩ := outcome.meets value stored
      exact ⟨answer, after, items', run, stored⟩

def shelf : ScriptArray := ScriptArray.empty.insert (.boolean true) ⟨1, 2⟩

def shelved : Heap :=
  ⟨#[some ⟨1, .array shelf⟩, some ⟨1, .boolean true⟩, some ⟨1, .null⟩], 3, false⟩

theorem shelved_reached : Reached shelved {0} := by
  have array : Reached ⟨#[some ⟨0, .array .empty⟩], 0, false⟩ 0 :=
    .register .empty (fun _ same => by cases same; rfl) rfl
  have kept : Reached ⟨#[some ⟨1, .array .empty⟩], 1, false⟩ {0} := .addRef array rfl
  have key : Reached ⟨#[some ⟨1, .array .empty⟩, some ⟨0, .boolean true⟩], 1, false⟩ {0} :=
    @Reached.register _ _ _ (.boolean true) 1 kept nofun rfl
  have value : Reached ⟨#[some ⟨1, .array .empty⟩, some ⟨0, .boolean true⟩, some ⟨0, .null⟩], 1,
      false⟩ {0} := @Reached.register _ _ _ .null 2 key nofun rfl
  have stored : (Command.set 1 2).run 0 ⟨#[some ⟨1, .array .empty⟩, some ⟨0, .boolean true⟩,
      some ⟨0, .null⟩], 1, false⟩ = .ok .done shelved := rfl
  exact .operate value rfl (by decide) stored

def shelfOfTwo : ScriptArray := shelf.insert .null ⟨2, 1⟩

def shelvedTwo : Heap :=
  ⟨#[some ⟨1, .array shelfOfTwo⟩, some ⟨2, .boolean true⟩, some ⟨2, .null⟩], 5, false⟩

theorem shelvedTwo_reached : Reached shelvedTwo {0} := by
  have stored : (Command.set 2 1).run 0 shelved = .ok .done shelvedTwo := rfl
  exact .operate shelved_reached rfl (by decide) stored

/-- The entry that was put in first is the first to be taken, though its key is the greater one. -/
theorem shelvedTwo_ordered_map : shelfOfTwo.pairs = [(.boolean true, ⟨1, 2⟩), (.null, ⟨2, 1⟩)] ∧
    ∃ after rest, Command.popFront.run 0 shelvedTwo = .ok (.taken (some ⟨1, 2⟩)) after ∧
      after.value? 0 = some (.array rest) ∧ rest.pairs = [(.null, ⟨2, 1⟩)] := by
  have found : shelvedTwo.value? 0 = some (.array shelfOfTwo) := rfl
  obtain ⟨-, -, -, -, commands⟩ := shelvedTwo_reached.ordered_map found
  obtain ⟨meets, succeeds⟩ := commands .popFront (by decide)
  obtain ⟨answer, after, rest, run, stored⟩ := succeeds (by decide) trivial
  have met := meets answer after run rest stored
  cases answer with
  | taken entry =>
    obtain ⟨first, others⟩ := met
    cases first
    exact ⟨rfl, after, rest, run, stored, others⟩
  | _ => cases met

end Terrain.Heap
