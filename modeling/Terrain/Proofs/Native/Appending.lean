import Terrain.Proofs.Heap.Appending
import Terrain.Proofs.Machine.References
import Terrain.Proofs.Native.Arguments

/-!
# Appending by scripts

Scripts append to an array by an assignment without a key and by a method of the array, and they make
an array of the arguments of a call. All three append value by value under the next keys.

* `Native.callGlobal_append`, `Native.callMember_append` — one value.
* `Native.exists_callMember_fromList_eq_ok` — an array of values in order.
* `Heap.Reached.appends` — arrays after any history.
-/

namespace Terrain

namespace Native

open Machine

variable {program : Program} {machine : Machine} {location : Location} {array value : ObjectId}
  {items : ScriptArray} {after : Heap} {held : Multiset ObjectId}

theorem query_indexed (found : machine.heap.value? array = some (.array items)) {call : NativeCall}
    (first : call.object 0 program machine = .ok array) :
    indexed call program machine = .ok (array, items) := by
  rw [indexed, Query.bind_of_eq_ok first, Query.bind_of_eq_ok (Query.value_eq_ok found)]
  rfl

/-- An assignment without a key appends. -/
theorem callGlobal_append (found : machine.heap.value? array = some (.array items))
    (run : Heap.pushBack array value machine.heap = .ok () after) :
    callGlobal ⟨location, "[]=", [array, value]⟩ program machine =
      .ok value { machine with heap := after } := by
  set call : NativeCall := ⟨location, "[]=", [array, value]⟩
  have expected : call.expect 2 3 program machine = .ok () := rfl
  have assignment : indexAssignment call program machine = .ok (array, none, value) := by
    rw [indexAssignment, Query.bind_of_eq_ok expected, Query.bind_of_eq_ok (query_indexed found rfl)]
    rfl
  change setIndex call program machine = _
  rw [setIndex, run_inspect_bind assignment]
  exact run_onHeap_bind run

/-- A method of the array appends. -/
theorem callMember_append (found : machine.heap.value? array = some (.array items))
    (run : Heap.pushBack array value machine.heap = .ok () after) :
    callMember array ⟨location, "PushBack", [value]⟩ program machine =
      .ok array { machine with heap := after } := by
  set call : NativeCall := ⟨location, "PushBack", [value]⟩
  have probed : probe call program machine = .ok value := rfl
  rw [callMember, run_inspect_bind (Query.value_eq_ok found)]
  change (do onHeap (Heap.pushBack array (← inspect (probe call))); return array : MachineM ObjectId)
    program machine = _
  rw [run_inspect_bind probed]
  exact run_onHeap_bind run

/-! ## Arrays of lists -/

theorem exists_forM_pushBack_eq_ok : ∀ (values : List ObjectId) {machine : Machine}
    {items : ScriptArray}, machine.heap.Counted held → items.InStep → items.Bounded →
      machine.heap.value? array = some (.array items) →
      (∀ value ∈ values, machine.heap.contains value) →
      items.maxIntegerKey + values.length ≤ 2 ^ 53 →
      ∃ after other, values.forM (fun value => onHeap (Heap.pushBack array value)) program machine =
          .ok () { machine with heap := after } ∧
        after.value? array = some (.array other) ∧
        other.pairs.map (fun pair => (pair.1, pair.2.value)) =
          items.pairs.map (fun pair => (pair.1, pair.2.value)) ++ values.mapIdx fun index value =>
            (.number (Float.ofInt (items.maxIntegerKey + 1 + index)), value) := by
  intro values
  -- the array changes with every value, so the induction is over all arrays with room for the rest
  induction values with
  | nil =>
    intro machine items counted inStep bounded found _ _
    exact ⟨machine.heap, items, rfl, found, by simp⟩
  | cons value values ih =>
    intro machine items counted inStep bounded found live room
    rw [List.length_cons] at room
    have small : items.maxIntegerKey < 2 ^ 53 := by omega
    have wide : items.maxIntegerKey < wideMax := by unfold wideMax; omega
    obtain ⟨between, run, counted, appends⟩ := Heap.exists_pushBack_eq_ok counted inStep found
      (live value List.mem_cons_self) wide (bounded.get?_nextKey small)
    set next := items.insert (.number items.nextKey) ⟨machine.heap.cells.size, value⟩
    have greatest := bounded.maxIntegerKey_nextKey small ⟨machine.heap.cells.size, value⟩
    have stillLive (other : ObjectId) (member : other ∈ values) : between.contains other :=
      appends.contains (live other (List.mem_cons_of_mem _ member))
    obtain ⟨after, other, rest, own, pairs⟩ := @ih { machine with heap := between } next counted
      (inStep.insert _ _) (bounded.insert _ _) appends.own stillLive
      (by rw [greatest]; omega)
    refine ⟨after, other, (run_onHeap_bind run).trans rest, own, ?_⟩
    rw [pairs, appends.pairs, greatest, List.map_append, List.append_assoc, List.mapIdx_cons]
    congr 1
    refine List.cons_eq_cons.2 ⟨?_, ?_⟩
    · simp [ScriptArray.nextKey]
    · apply List.mapIdx_eq_mapIdx_iff.2
      intro index inside
      push_cast
      ring_nf

/-- A static function of arrays makes one of its arguments. -/
theorem exists_callMember_fromList_eq_ok {type : ObjectId} {values : List ObjectId}
    (counted : machine.heap.Counted held) (found : machine.heap.value? type = some (.type "Array"))
    (live : ∀ value ∈ values, machine.heap.contains value) (room : values.length ≤ 2 ^ 53) :
    ∃ after other, callMember type ⟨location, "FromList", values⟩ program machine =
        .ok machine.heap.cells.size { machine with heap := after } ∧
      after.value? machine.heap.cells.size = some (.array other) ∧
      other.pairs.map (fun pair => (pair.1, pair.2.value)) = values.mapIdx fun index value =>
        (.number (Float.ofInt index), value) := by
  have new : (machine.heap.adding (.array .empty)).value? machine.heap.cells.size =
      some (.array .empty) := by
    rw [Heap.value?_adding, if_pos rfl]
  obtain ⟨after, other, run, own, pairs⟩ := @exists_forM_pushBack_eq_ok program _ held values
    { machine with heap := machine.heap.adding (.array .empty) } .empty (counted.adding rfl)
    ScriptArray.inStep_empty ScriptArray.bounded_empty new
    (fun value member => Heap.contains_adding (live value member) _)
    (by change -1 + _ ≤ _; omega)
  refine ⟨after, other, ?_, own, ?_⟩
  · rw [callMember, run_inspect_bind (Query.value_eq_ok found)]
    change arrayOfList values program machine = _
    rw [arrayOfList, run_onHeap_bind (Heap.register_run _ _)]
    exact run_bind_of_eq_ok run
  · rw [pairs]
    simp [ScriptArray.empty, ScriptArray.pairs]

end Native

/-! ## After any history -/

variable {machine : Machine} {held : Multiset ObjectId} {array value : ObjectId} {items : ScriptArray}

/-- Appending to an array after any history. A value is appended whenever the next key is new, and it
is new as long as whole numbers among the keys stay below `2 ^ 53`. -/
theorem Heap.Reached.appends (reached : Heap.Reached machine.heap held)
    (found : machine.heap.value? array = some (.array items))
    (valueLive : machine.heap.contains value) (program : Program) (location : Location) :
    ((∃ next, items.nextIntegerKey = .ok next) ↔ items.maxIntegerKey < wideMax) ∧
    (items.maxIntegerKey < 2 ^ 53 → items.nextIntegerKey = .ok items.nextKey ∧
      ArrayKey.number items.nextKey ∉ items.pairs.keys) ∧
    (items.nextIntegerKey = .ok items.nextKey →
      ArrayKey.number items.nextKey ∉ items.pairs.keys → ∃ after other,
        Heap.pushBack array value machine.heap = .ok () after ∧
        machine.heap.Appends after array value items other ∧
        Native.callGlobal ⟨location, "[]=", [array, value]⟩ program machine =
          .ok value { machine with heap := after } ∧
        Native.callMember array ⟨location, "PushBack", [value]⟩ program machine =
          .ok array { machine with heap := after }) ∧
    (array ∈ held → items.nextIntegerKey = .ok items.nextKey →
      ArrayKey.number items.nextKey ∈ items.pairs.keys → ∃ after other,
        Heap.pushBack array value machine.heap = .ok () after ∧
        after.value? array = some (.array other) ∧ other.size = items.size ∧
        other.get? (.number items.nextKey) = some ⟨machine.heap.cells.size, value⟩) ∧
    ∀ type values, machine.heap.value? type = some (.type "Array") →
      (∀ value ∈ values, machine.heap.contains value) → values.length ≤ 2 ^ 53 → ∃ after other,
        Native.callMember type ⟨location, "FromList", values⟩ program machine =
          .ok machine.heap.cells.size { machine with heap := after } ∧
        after.value? machine.heap.cells.size = some (.array other) ∧
        other.pairs.map (fun pair => (pair.1, pair.2.value)) = values.mapIdx fun index value =>
          (.number (Float.ofInt index), value) := by
  obtain ⟨counted, arrays⟩ := reached.sound
  obtain ⟨inStep, -⟩ := arrays array items found
  have bounded := reached.bounded array items found
  refine ⟨ScriptArray.exists_nextIntegerKey_iff, ?_, ?_, ?_, ?_⟩
  · intro small
    refine ⟨if_pos (by unfold wideMax; omega), ?_⟩
    rw [inStep.mem_keys]
    exact ScriptArray.notMem_entries.2 (bounded.get?_nextKey small)
  · intro made new
    rw [inStep.mem_keys] at new
    have room := ScriptArray.exists_nextIntegerKey_iff.1 ⟨_, made⟩
    obtain ⟨after, run, -, appends⟩ := Heap.exists_pushBack_eq_ok counted inStep found valueLive room
      (ScriptArray.notMem_entries.1 new)
    exact ⟨after, _, run, appends, Native.callGlobal_append found run,
      Native.callMember_append found run⟩
  · intro kept made present
    have room := ScriptArray.exists_nextIntegerKey_iff.1 ⟨_, made⟩
    exact Heap.exists_pushBack_of_present counted inStep found kept valueLive room present
  · intro type values typeFound live room
    exact Native.exists_callMember_fromList_eq_ok counted typeFound live room

/-- A value is appended to an array with one entry, which keeps its place. -/
theorem Heap.shelved_appends : ∃ after other,
    Heap.pushBack 0 2 Heap.shelved = .ok () after ∧ after.value? 0 = some (.array other) ∧
      other.pairs = [(.boolean true, ⟨1, 2⟩), (.number (Float.ofInt 0), ⟨3, 2⟩)] := by
  obtain ⟨-, new, appends, -, -⟩ := @Heap.Reached.appends
    { Machine.blank Machine.idle with heap := Heap.shelved } {0} 0 2 Heap.shelf Heap.shelved_reached rfl
    (by decide) Machine.idle default
  have least : Heap.shelf.maxIntegerKey < 2 ^ 53 := by decide
  obtain ⟨after, other, run, appended, -⟩ := appends (new least).1 (new least).2
  exact ⟨after, other, run, appended.own, appended.pairs⟩

/-! ## Beyond 53 bits -/

namespace Heap

def lastExact : Float := Float.ofInt 9007199254740992

def brimful : ScriptArray := ScriptArray.empty.insert (.number lastExact) ⟨1, 2⟩

def brimming : Heap :=
  ⟨#[some ⟨1, .array brimful⟩, some ⟨1, .number lastExact⟩, some ⟨1, .null⟩], 3, false⟩

theorem brimming_reached : Reached brimming {0} := by
  have array : Reached ⟨#[some ⟨0, .array .empty⟩], 0, false⟩ 0 :=
    .register .empty (fun _ same => by cases same; rfl) rfl
  have kept : Reached ⟨#[some ⟨1, .array .empty⟩], 1, false⟩ {0} := .addRef array rfl
  have key : Reached ⟨#[some ⟨1, .array .empty⟩, some ⟨0, .number lastExact⟩], 1, false⟩ {0} :=
    @Reached.register _ _ _ (.number lastExact) 1 kept nofun rfl
  have value : Reached ⟨#[some ⟨1, .array .empty⟩, some ⟨0, .number lastExact⟩, some ⟨0, .null⟩], 1,
      false⟩ {0} := @Reached.register _ _ _ .null 2 key nofun rfl
  have stored : (Command.set 1 2).run 0 ⟨#[some ⟨1, .array .empty⟩, some ⟨0, .number lastExact⟩,
      some ⟨0, .null⟩], 1, false⟩ = .ok .done brimming := rfl
  exact .operate value rfl (by decide) stored

theorem maxIntegerKey_brimful : brimful.maxIntegerKey = 9007199254740992 := by
  have isValue : Number.IsValue lastExact (9007199254740992 : ℤ) := Number.isValue_ofInt (by decide)
  rw [brimful, ScriptArray.maxIntegerKey_insert, ScriptArray.raiseIntegerKey,
    if_pos (isValue.isWhole_iff.2 ⟨_, rfl⟩), isValue.truncateTo, Number.truncated_intCast,
    Number.clampInt_of_mem (by decide) (by decide)]
  exact max_eq_right (by unfold ScriptArray.empty; decide)

/-- The next key is rounded to the greatest one, so a value that is appended takes the place of the
only entry. -/
theorem brimming_overwritten : Reached brimming {0} ∧
    brimming.value? 0 = some (.array brimful) ∧ brimming.contains 2 ∧
    brimful.get? (.number lastExact) = some ⟨1, 2⟩ ∧ ∃ after other,
      pushBack 0 2 brimming = .ok () after ∧ after.value? 0 = some (.array other) ∧
        other.size = brimful.size ∧ other.get? (.number lastExact) = some ⟨3, 2⟩ := by
  have found : brimming.value? 0 = some (.array brimful) := rfl
  have stored : brimful.get? (.number lastExact) = some ⟨1, 2⟩ :=
    (ScriptArray.get?_insert _ _ _ _).trans (if_pos rfl)
  refine ⟨brimming_reached, found, rfl, stored, ?_⟩
  obtain ⟨counted, arrays⟩ := brimming_reached.sound
  obtain ⟨inStep, -⟩ := arrays 0 brimful found
  have rounded : brimful.nextKey = lastExact := by
    rw [ScriptArray.nextKey, maxIntegerKey_brimful]
    exact Number.eq_of_toBits_eq (by decide +kernel)
  have room : brimful.maxIntegerKey < wideMax := by
    rw [maxIntegerKey_brimful]
    decide
  have present : ArrayKey.number brimful.nextKey ∈ brimful.pairs.keys := by
    rw [rounded, inStep.mem_keys]
    exact ScriptArray.mem_entries.2 ⟨_, stored⟩
  have live : brimming.contains 2 := rfl
  obtain ⟨after, other, run, own, size, replaced⟩ := exists_pushBack_of_present counted inStep found
    (Multiset.mem_singleton_self 0) live room present
  rw [rounded] at replaced
  exact ⟨after, other, run, own, size, replaced⟩

end Heap

end Terrain
