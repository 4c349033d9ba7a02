import Terrain.Native.Dispatch
import Terrain.Proofs.Native.Arguments

/-!
# Soundness of native functions

A native call leaves the counts exact. It answers an object that is live and may be the only one
without references; references it takes out of an array are handed over to the machine.

* `Machine.Delivers` — the outcome of a native call.
* `Native.delivers_callGlobal`, `Native.delivers_callMember`, `Native.answers_member`.
-/

namespace Terrain

/-! ## New values -/

namespace Value

theorem isPlain_number (value : Float) : (number value).IsPlain := ⟨rfl, by simp⟩

theorem isPlain_boolean (value : Bool) : (boolean value).IsPlain := ⟨rfl, by simp⟩

theorem isPlain_text (value : String) : (text value).IsPlain := ⟨rfl, by simp⟩

theorem isPlain_point (x y : Float) : (point x y).IsPlain := ⟨rfl, by simp⟩

theorem isPlain_enum (typeName : String) (value : Int) : (enum typeName value).IsPlain := ⟨rfl, by simp⟩

end Value

namespace Machine

variable {program : Program} {machine : Machine} {ledger : Ledger} {extra : Multiset ObjectId}

/-- A native call ends with a live object, and only that one may be without references. -/
def Delivers (action : MachineM ObjectId) (program : Program) (machine : Machine) (ledger : Ledger)
    (extra : Multiset ObjectId) : Prop :=
  Ends (action program machine)
    (fun result machine => machine.Grown ledger extra {result} ∧ machine.heap.contains result)
    (fun machine => machine.Grown ledger extra ∅)

/-- A call that answers an object it was given changes nothing. -/
theorem delivers_inspect {query : Query ObjectId} (sound : machine.Sound ledger extra ∅)
    (answers : Answers (query program machine) fun id => machine.heap.contains id) :
    Delivers (inspect query) program machine ledger extra :=
  ends_inspect (answers.imp fun _ live => ⟨(sound.mono (Set.empty_subset _)).grown, live⟩) sound.grown

/-- A call that makes a new object. -/
theorem delivers_register {value : Value} (sound : machine.Sound ledger extra ∅)
    (plain : value.IsPlain) :
    Delivers (onHeap (Heap.register value)) program machine ledger extra := by
  refine (ends_register sound plain).then ?_
  rintro id machine ⟨sound, stored⟩
  exact ⟨(sound.mono (by simp)).grown, Heap.contains_of_cell? stored⟩

theorem delivers_registerAnswer {query : Query Value} (sound : machine.Sound ledger extra ∅)
    (answers : Answers (query program machine) Value.IsPlain) :
    Delivers (do onHeap (Heap.register (← inspect query))) program machine ledger extra :=
  ends_bind (ends_inspect (answers.imp fun _ plain => delivers_register sound plain) sound.grown)

end Machine

/-! ## Operators -/

namespace NativeCall

variable {call : NativeCall} {program : Program} {machine : Machine}

theorem answers_checkNumber (value : Float) (isNonzero : Bool) :
    Answers (call.checkNumber value isNonzero program machine) fun _ => True := by
  unfold checkNumber
  split
  · trivial
  split
  · trivial
  split <;> trivial

namespace Readable

variable (readable : call.Readable machine)

include readable

theorem numberOperand (index : Nat) :
    Answers (call.numberOperand index program machine) fun _ => True :=
  .seq (readable.value index) fun value _ => by cases value <;> trivial

theorem booleanOperand (index : Nat) :
    Answers (call.booleanOperand index program machine) fun _ => True :=
  .seq (readable.value index) fun value _ => by cases value <;> trivial

end Readable

end NativeCall

namespace Native

open Machine NativeCall

variable {call : NativeCall} {program : Program} {machine : Machine}

section Values

variable (readable : call.Readable machine)

include readable

theorem answers_add : Answers (add call program machine) Value.IsPlain := by
  refine .seq (answers_expect 2 2) fun _ _ => .seq (readable.value 0) fun left _ => ?_
  refine .seq (readable.value 1) fun right _ => ?_
  have sum : Answers ((do
      let sum := (← call.numberOperand 0) + (← call.numberOperand 1)
      return .number (← call.checkNumber sum false) : Query Value) program machine)
      Value.IsPlain :=
    .seq (readable.numberOperand 0) fun _ _ => .seq (readable.numberOperand 1) fun _ _ =>
      .seq (answers_checkNumber _ _) fun _ _ => .pure (Value.isPlain_number _)
  cases left with
  | text left => exact .pure (Value.isPlain_text _)
  | _ => cases right with
    | text right => exact .pure (Value.isPlain_text _)
    | _ => exact sum

theorem answers_subtract : Answers (subtract call program machine) Value.IsPlain := by
  refine .seq (answers_expect 1 2) fun _ _ => .seq (readable.numberOperand 0) fun _ _ => ?_
  split
  · exact .seq (answers_checkNumber _ _) fun _ _ => .pure (Value.isPlain_number _)
  · exact .seq (readable.numberOperand 1) fun _ _ => .seq (answers_checkNumber _ _) fun _ _ =>
      .pure (Value.isPlain_number _)

theorem answers_multiply : Answers (multiply call program machine) Value.IsPlain :=
  .seq (answers_expect 2 2) fun _ _ => .seq (readable.numberOperand 0) fun _ _ =>
    .seq (readable.numberOperand 1) fun _ _ => .seq (answers_checkNumber _ _) fun _ _ =>
    .pure (Value.isPlain_number _)

theorem answers_quotientOperands : Answers (quotientOperands call program machine) fun _ => True := by
  refine .seq (answers_expect 2 2) fun _ _ => .seq (readable.numberOperand 0) fun _ _ => ?_
  refine .seq (readable.numberOperand 1) fun _ _ => ?_
  split <;> trivial

theorem answers_divide : Answers (divide call program machine) Value.IsPlain :=
  .seq (answers_quotientOperands readable) fun _ _ => .seq (answers_checkNumber _ _) fun _ _ =>
    .pure (Value.isPlain_number _)

theorem answers_remainder : Answers (remainder call program machine) Value.IsPlain :=
  .seq (answers_quotientOperands readable) fun _ _ => .seq (answers_checkNumber _ _) fun _ _ =>
    .pure (Value.isPlain_number _)

theorem answers_equal : Answers (equal call program machine) fun _ => True :=
  .seq (answers_expect 2 2) fun _ _ => .seq (answers_object 0) fun _ first =>
    .seq (answers_object 1) fun _ second =>
    .seq (answers_value (readable.live_of_getElem? first)) fun _ _ =>
    .seq (answers_value (readable.live_of_getElem? second)) fun _ _ => .pure trivial

theorem answers_compare (relation : Float → Float → Bool) :
    Answers (compare relation call program machine) Value.IsPlain :=
  .seq (answers_expect 2 2) fun _ _ => .seq (readable.numberOperand 0) fun _ _ =>
    .seq (readable.numberOperand 1) fun _ _ => .pure (Value.isPlain_boolean _)

theorem answers_combine (connective : Bool → Bool → Bool) :
    Answers (combine connective call program machine) Value.IsPlain :=
  .seq (answers_expect 2 2) fun _ _ => .seq (readable.booleanOperand 0) fun _ _ =>
    .seq (readable.booleanOperand 1) fun _ _ => .pure (Value.isPlain_boolean _)

theorem answers_valueOperator {query : Query Value} (found : valueOperator? call = some query) :
    Answers (query program machine) Value.IsPlain := by
  have equality (change : Bool → Bool) : Answers ((do
      return .boolean (change (← equal call)) : Query Value) program machine) Value.IsPlain :=
    .seq (answers_equal readable) fun _ _ => .pure (Value.isPlain_boolean _)
  unfold valueOperator? at found
  split at found <;> cases found
  case h_1 => exact answers_add readable
  case h_2 => exact answers_subtract readable
  case h_3 => exact answers_multiply readable
  case h_4 => exact answers_divide readable
  case h_5 => exact answers_remainder readable
  case h_6 => exact equality id
  case h_7 => exact equality not
  case h_8 => exact answers_compare readable _
  case h_9 => exact answers_compare readable _
  case h_10 => exact answers_compare readable _
  case h_11 => exact answers_compare readable _
  case h_12 => exact answers_combine readable _
  case h_13 => exact answers_combine readable _
  case h_14 =>
    exact .seq (answers_expect 1 1) fun _ _ => .seq (readable.booleanOperand 0) fun _ _ =>
      .pure (Value.isPlain_boolean _)

/-! ## Elementary functions -/

theorem answers_select (choose : Float → Float → Float) :
    Answers (select choose call program machine) Value.IsPlain :=
  .seq (answers_expect _ _) fun _ _ => .seq (readable.number 0) fun _ _ =>
    .seq (.mapM fun index _ => readable.number (index + 1)) fun _ _ => .pure (Value.isPlain_number _)

theorem answers_unary (isDefined : Float → Bool) (f : Float → Float) :
    Answers (unary isDefined f call program machine) Value.IsPlain := by
  refine .seq (answers_expect 1 1) fun _ _ => .seq (readable.number 0) fun _ _ => ?_
  split
  · trivial
  · exact .seq (answers_checkNumber _ _) fun _ _ => .pure (Value.isPlain_number _)

theorem answers_valueFunction {query : Query Value} (found : valueFunction? call = some query) :
    Answers (query program machine) Value.IsPlain := by
  unfold valueFunction? at found
  split at found <;> cases found
  case h_1 =>
    exact .seq (answers_expect 2 2) fun _ _ => .seq (readable.number 0) fun _ _ =>
      .seq (readable.number 1) fun _ _ => .pure (Value.isPlain_point _ _)
  case h_2 => exact answers_select readable _
  case h_3 => exact answers_select readable _
  case h_12 =>
    exact .seq (answers_expect 2 2) fun _ _ => .seq (readable.number 0) fun _ _ =>
      .seq (readable.number 1) fun _ _ => .seq (answers_checkNumber _ _) fun _ _ =>
      .pure (Value.isPlain_number _)
  all_goals exact answers_unary readable _ _

end Values

section Actions

variable {ledger : Ledger} {extra : Multiset ObjectId} {receiver : ObjectId}

/-! ## Increments -/

theorem answers_incrementOperand {delta : Float} (sound : machine.Sound ledger extra ∅)
    (readable : call.Readable machine) :
    Answers (incrementOperand delta call program machine) fun _ => True := by
  refine .seq (answers_expect 1 1) fun _ _ => .seq (readable.value 0) fun value _ => ?_
  cases value with
  | reference target =>
    refine .seq answers_binding fun binding found => ?_
    refine .seq (answers_value (sound.binding_live found)) fun value _ => ?_
    cases value with
    | number old => exact .seq (answers_checkNumber _ _) fun _ _ => .pure trivial
    | _ => trivial
  | _ => trivial

/-- The number that is stored is held until the variable has it. -/
theorem delivers_increment {delta : Float} {answersNew : Bool} (sound : machine.Sound ledger extra ∅)
    (readable : call.Readable machine) :
    Delivers (increment delta answersNew call) program machine ledger extra := by
  refine ends_bind (ends_inspect ((answers_incrementOperand sound readable).imp ?_) sound.grown)
  rintro ⟨target, old, new⟩ -
  refine ends_bind ((ends_register sound (Value.isPlain_number new)).then ?_)
  rintro stored machine ⟨sound, found⟩
  refine ends_bind ((ends_addRef sound (Heap.contains_of_cell? found)).then fun _ machine sound => ?_)
  have settled : machine.Sound ledger (stored ::ₘ extra) ∅ := sound.mono (by simp)
  refine ends_bind (ends_andFinally
    ((ends_assign settled (settled.live (Multiset.mem_cons_self _ _))).imp ?_ ?_))
  · intro _ machine sound
    refine (ends_release sound).then fun _ machine sound => ?_
    exact delivers_register sound (Value.isPlain_number _)
  · intro machine sound
    exact (ends_release sound).then fun _ machine sound => sound.grown

/-! ## Indexing -/

theorem answers_indexed (readable : call.Readable machine) :
    Answers (indexed call program machine) fun found => found.1 ∈ call.arguments ∧
      machine.heap.value? found.1 = some (.array found.2) := by
  refine .seq (answers_object 0) fun id argument => ?_
  refine .seq (answers_value (readable.live_of_getElem? argument)) fun value stored => ?_
  cases value with
  | array items => exact .pure ⟨List.mem_of_getElem? argument, stored⟩
  | _ => trivial

theorem answers_getIndex (sound : machine.Sound ledger extra ∅) (readable : call.Readable machine) :
    Answers (getIndex call program machine) fun id => machine.heap.contains id := by
  refine .seq (answers_expect 2 2) fun _ _ => .seq (answers_indexed readable) ?_
  rintro ⟨array, items⟩ ⟨-, stored⟩
  refine .seq (answers_object 1) fun key argument => ?_
  refine .seq (answers_value (readable.live_of_getElem? argument)) fun value _ => ?_
  cases found : items.get? (value.key key) with
  | none => trivial
  | some entry => exact .pure (sound.accounted.entry_live stored found).2

theorem answers_indexAssignment (readable : call.Readable machine) :
    Answers (indexAssignment call program machine) fun (array, key?, value) =>
      array ∈ call.arguments ∧ (∀ key, key? = some key → key ∈ call.arguments) ∧
        value ∈ call.arguments := by
  refine .seq (answers_expect 2 3) fun _ _ => .seq (answers_indexed readable) ?_
  rintro ⟨array, items⟩ ⟨member, -⟩
  split
  · refine .seq (answers_object 1) fun value argument => .pure ⟨member, ?_, ?_⟩
    · exact fun _ absent => absurd absent (Option.some_ne_none _).symm
    · exact List.mem_of_getElem? argument
  · refine .seq (answers_object 1) fun key keyArgument => .seq (answers_object 2) ?_
    intro value argument
    refine .pure ⟨member, fun other same => ?_, List.mem_of_getElem? argument⟩
    cases same
    exact List.mem_of_getElem? keyArgument

/-- A change of the heap that keeps the counts, answered with an object that is held. -/
theorem delivers_change {α : Type} {action : HeapM α} {result : ObjectId}
    (sound : machine.Sound ledger extra ∅) (owned : result ∈ extra)
    (ends : Ends (action machine.heap)
      (fun _ heap => heap.Accounted (machine.held + extra) ∅ machine.handles) (fun _ => False)) :
    Delivers (do let _ ← onHeap action; return result) program machine ledger extra := by
  refine ends_bind (ends_onHeap (ends.weaken.then fun _ heap accounted => ?_))
  have kept : ({ machine with heap } : Machine).Sound ledger extra ∅ := sound.withHeap accounted
  exact ends_pure ⟨(kept.mono (Set.empty_subset _)).grown, kept.live owned⟩

theorem delivers_setIndex (sound : machine.Sound ledger extra ∅)
    (owned : ∀ id ∈ call.arguments, id ∈ extra) :
    Delivers (setIndex call) program machine ledger extra := by
  have readable := sound.readable owned
  refine ends_bind (ends_inspect ((answers_indexAssignment readable).imp ?_) sound.grown)
  rintro ⟨array, key?, value⟩ ⟨arrayArgument, keyArgument, argument⟩
  have arrayLive := readable.live array arrayArgument
  have valueLive := readable.live value argument
  cases key? with
  | none =>
    refine delivers_change sound (owned value argument) ?_
    exact (Heap.ends_pushBack sound.accounted arrayLive valueLive).then fun _ _ accounted =>
      accounted.mono (by simp)
  | some key =>
    refine delivers_change sound (owned value argument) ?_
    have keyLive := readable.live key (keyArgument key rfl)
    exact (Heap.ends_setEntry sound.accounted arrayLive keyLive valueLive).then
      fun _ _ accounted => accounted.mono (by simp)

theorem delivers_operator {action : MachineM ObjectId} (sound : machine.Sound ledger extra ∅)
    (owned : ∀ id ∈ call.arguments, id ∈ extra) (found : operator? call = some action) :
    Delivers action program machine ledger extra := by
  have readable := sound.readable owned
  unfold operator? at found
  cases query : valueOperator? call with
  | some query' =>
    rw [query] at found
    cases found
    exact delivers_registerAnswer sound (answers_valueOperator readable query)
  | none =>
    rw [query] at found
    dsimp only at found
    split at found <;> cases found
    case h_5 => exact delivers_inspect sound (answers_getIndex sound readable)
    case h_6 => exact delivers_setIndex sound owned
    all_goals exact delivers_increment sound readable

/-! ## Arrays -/

theorem answers_array (live : machine.heap.contains receiver) :
    Answers (Query.array receiver program machine) fun items =>
      machine.heap.value? receiver = some (.array items) := by
  refine .seq (answers_value live) fun value found => ?_
  cases value with
  | array items => exact .pure found
  | _ => exact rfl

/-- The array being filled has no references yet, so nothing that is released takes it away. -/
theorem ends_fill {array : ObjectId} {refused : Machine → Prop} : ∀ (values : List ObjectId)
    (machine : Machine), machine.Sound ledger extra {array} → (∀ value ∈ values, value ∈ extra) →
      machine.heap.refCount? array = some 0 →
      Ends ((values.forM fun value => onHeap (Heap.pushBack array value)) program machine)
        (fun _ machine => machine.Sound ledger extra {array} ∧
          machine.heap.refCount? array = some 0) refused
  | [], machine, sound, _, unreferenced => ends_pure ⟨sound, unreferenced⟩
  | value :: values, machine, sound, owned, unreferenced => by
    obtain ⟨cell, found, none⟩ := Option.map_eq_some_iff.1 unreferenced
    have inExtra : value ∈ extra := owned value List.mem_cons_self
    have notValue : array ≠ value := by
      rintro rfl
      obtain ⟨other, same, positive⟩ := sound.accounted.live (Multiset.mem_add.2 (.inr inExtra))
      cases found.symm.trans same
      omega
    have ends := Heap.ends_pushBack sound.accounted (Heap.contains_of_cell? found) (sound.live inExtra)
    refine ends_bind (ends_onHeap ((ends.and fun _ heap run =>
      Heap.refCount?_pushBack unreferenced notValue run).weaken.then ?_))
    rintro - heap ⟨accounted, unreferenced⟩
    refine ends_fill values _ (sound.withHeap (accounted.mono Set.sdiff_subset)) ?_ unreferenced
    exact fun other member => owned other (List.mem_cons_of_mem _ member)

theorem delivers_arrayOfList {values : List ObjectId} (sound : machine.Sound ledger extra ∅)
    (owned : ∀ value ∈ values, value ∈ extra) :
    Delivers (arrayOfList values) program machine ledger extra := by
  have plain : (Value.array .empty).IsPlain := ⟨rfl, by simp⟩
  refine ends_bind ((ends_register sound plain).then ?_)
  rintro id machine ⟨sound, stored⟩
  have unreferenced : machine.heap.refCount? id = some 0 := by rw [Heap.refCount?, stored]; rfl
  refine ends_bind ((ends_fill values machine (sound.mono (by simp)) owned unreferenced).then ?_)
  rintro - machine ⟨sound, unreferenced⟩
  obtain ⟨cell, found, -⟩ := Option.map_eq_some_iff.1 unreferenced
  exact ends_pure ⟨sound.grown, Heap.contains_of_cell? found⟩

theorem answers_endEntry {choose : ScriptArray → Option Entry}
    (live : machine.heap.contains receiver) :
    Answers (endEntry receiver choose call program machine) fun entry =>
      ∃ items, machine.heap.value? receiver = some (.array items) ∧ choose items = some entry := by
  refine .seq (answers_expect 0 0) fun _ _ => .seq (answers_array live) fun items stored => ?_
  cases chosen : choose items with
  | none => trivial
  | some entry => exact .pure ⟨items, stored, chosen⟩

/-- The two references of the entry that is taken out are handed over. -/
theorem delivers_popEntry {choose : ScriptArray → Option Entry}
    {remove : ObjectId → HeapM (Option Entry)} (sound : machine.Sound ledger extra ∅)
    (owned : receiver ∈ extra)
    (removes : ∀ items, machine.heap.value? receiver = some (.array items) →
      Ends (remove receiver machine.heap)
        (fun taken heap => taken = choose items ∧ heap.Accounted
          ((taken.map Entry.held).getD 0 + (machine.held + extra)) ∅ machine.handles)
        (fun _ => False)) :
    Delivers (popEntry receiver choose remove call) program machine ledger extra := by
  refine ends_bind (ends_inspect ((answers_endEntry (sound.live owned)).imp ?_) sound.grown)
  rintro entry ⟨items, stored, chosen⟩
  refine ends_bind (ends_discard (ends_onHeap ((removes items stored).weaken.then ?_)))
  rintro taken heap ⟨rfl, accounted⟩
  rw [chosen] at accounted
  refine ends_modify (ends_pure ?_)
  have handed : ({ machine with
      heap, pending := machine.pending ++ [entry.key, entry.value] } : Machine).Sound
      { ledger with pending := ledger.pending ++ [entry.key, entry.value] } extra ∅ := by
    refine { sound with accounted := accounted.of_eq ?_, pending := by rw [sound.pending] }
    simp only [Option.map_some, Option.getD_some, held, ← Multiset.coe_add]
    have pair : entry.held = ↑[entry.key, entry.value] := rfl
    rw [pair]
    abel
  refine ⟨⟨{ ledger with pending := ledger.pending ++ [entry.key, entry.value] }, .inl rfl,
    handed.mono (Set.empty_subset _)⟩, handed.live_of_mem_held ?_⟩
  simp [held]

theorem answers_entryAt (sound : machine.Sound ledger extra ∅) (readable : call.Readable machine)
    (live : machine.heap.contains receiver) :
    Answers (entryAt receiver call program machine) fun entry =>
      machine.heap.contains entry.key ∧ machine.heap.contains entry.value := by
  refine .seq (answers_expect 1 1) fun _ _ => .seq (readable.position 0) fun index _ => ?_
  refine .seq (answers_array live) fun items stored => ?_
  cases found : items.entryAt? index with
  | none => trivial
  | some entry =>
    obtain ⟨key, -, found⟩ := Option.bind_eq_some_iff.1 found
    exact .pure (sound.accounted.entry_live stored found)

theorem answers_probe : Answers (probe call program machine) fun id => id ∈ call.arguments :=
  .seq (answers_expect 1 1) fun _ _ => (answers_object 0).imp fun _ => List.mem_of_getElem?

theorem delivers_removeKey (sound : machine.Sound ledger extra ∅)
    (owned : ∀ id ∈ call.arguments, id ∈ extra) (ownReceiver : receiver ∈ extra) :
    Delivers (removeKey receiver call) program machine ledger extra := by
  refine ends_bind (ends_inspect (answers_probe.imp fun key member => ?_) sound.grown)
  have keyLive := sound.live (owned key member)
  have removed : Ends (Heap.removeKey receiver key machine.heap)
      (fun _ heap => heap.Accounted (machine.held + extra) ∅ machine.handles) (fun _ => False) :=
    Heap.ends_removeKey sound.accounted (sound.live ownReceiver) keyLive
  refine ends_bind (ends_onHeap (removed.weaken.then fun wasThere heap accounted => ?_))
  have kept : ({ machine with heap } : Machine).Sound ledger extra ∅ := sound.withHeap accounted
  cases wasThere with
  | true => exact ends_pure ⟨(kept.mono (Set.empty_subset _)).grown, kept.live ownReceiver⟩
  | false =>
    refine ends_bind (ends_inspect ((answers_value (kept.live (owned key member))).imp ?_) kept.grown)
    exact fun _ _ => ends_raise kept.grown

theorem delivers_arrayStatic {action : MachineM ObjectId} (sound : machine.Sound ledger extra ∅)
    (owned : ∀ id ∈ call.arguments, id ∈ extra) (found : arrayStatic? call = some action) :
    Delivers action program machine ledger extra := by
  unfold arrayStatic? at found
  split at found <;> cases found
  case h_1 =>
    refine ends_bind (ends_inspect ((answers_expect 0 0).imp fun _ _ => ?_) sound.grown)
    exact delivers_arrayOfList sound fun _ member => absurd member List.not_mem_nil
  case h_2 => exact delivers_arrayOfList sound owned

/-- Reading the heap in place and answering a new value. -/
theorem delivers_read {α : Type} {action : HeapM α} {value : α → Value}
    (sound : machine.Sound ledger extra ∅) (reads : Heap.Reads action machine.heap)
    (plain : ∀ answer, (value answer).IsPlain) :
    Delivers (do
      let answer ← onHeap action
      onHeap (Heap.register (value answer))) program machine ledger extra := by
  refine ends_bind (ends_onHeap (Ends.then (Ends.weaken reads) ?_))
  rintro answer _ rfl
  exact delivers_register sound (plain answer)

theorem delivers_arrayMethod {action : MachineM ObjectId} (sound : machine.Sound ledger extra ∅)
    (owned : ∀ id ∈ call.arguments, id ∈ extra) (ownReceiver : receiver ∈ extra)
    (found : arrayMethod? receiver call = some action) :
    Delivers action program machine ledger extra := by
  have readable := sound.readable owned
  have live := sound.live ownReceiver
  have argumentLive (id : ObjectId) (member : id ∈ call.arguments) := sound.live (owned id member)
  -- methods without arguments that only reorder the array
  have reordered {change : HeapM Unit} (ends : Ends (change machine.heap)
      (fun _ heap => heap.Accounted (machine.held + extra) ∅ machine.handles) (fun _ => False)) :
      Delivers (do inspect (call.expect 0 0); onHeap change; return receiver) program machine ledger
        extra :=
    ends_bind (ends_inspect ((answers_expect 0 0).imp fun _ _ =>
      delivers_change sound ownReceiver ends) sound.grown)
  unfold arrayMethod? at found
  split at found <;> cases found
  case h_1 =>
    refine ends_bind (ends_inspect ((answers_expect 0 0).imp fun _ _ => ?_) sound.grown)
    refine ends_bind (ends_inspect ((answers_array live).imp fun items _ => ?_) sound.grown)
    exact delivers_register sound (Value.isPlain_number _)
  case h_2 =>
    refine delivers_inspect sound (.seq (answers_endEntry live) fun entry known => ?_)
    obtain ⟨items, stored, first⟩ := known
    obtain ⟨key, -, first⟩ := Option.bind_eq_some_iff.1 first
    exact .pure (sound.accounted.entry_live stored first).2
  case h_3 =>
    refine delivers_inspect sound (.seq (answers_endEntry live) fun entry known => ?_)
    obtain ⟨items, stored, last⟩ := known
    rw [Heap.back?_eq] at last
    obtain ⟨key, -, last⟩ := Option.bind_eq_some_iff.1 last
    exact .pure (sound.accounted.entry_live stored last).2
  case h_4 =>
    refine ends_bind (ends_inspect (answers_probe.imp fun value member => ?_) sound.grown)
    refine delivers_change sound ownReceiver ?_
    exact (Heap.ends_pushBack sound.accounted live (argumentLive value member)).then
      fun _ _ accounted => accounted.mono Set.sdiff_subset
  case h_5 =>
    exact delivers_popEntry sound ownReceiver fun _ stored => Heap.ends_popFront? sound.accounted stored
  case h_6 =>
    exact delivers_popEntry sound ownReceiver fun _ stored => Heap.ends_popBack? sound.accounted stored
  case h_7 =>
    refine ends_bind (ends_inspect (answers_probe.imp fun key member => ?_) sound.grown)
    exact delivers_read sound (Heap.reads_entryOf? live (argumentLive key member))
      fun _ => Value.isPlain_boolean _
  case h_8 =>
    refine ends_bind (ends_inspect (answers_probe.imp fun value member => ?_) sound.grown)
    exact delivers_read sound (Heap.reads_containsValue sound.accounted live (argumentLive value member))
      fun _ => Value.isPlain_boolean _
  case h_9 => exact delivers_removeKey sound owned ownReceiver
  case h_10 =>
    refine ends_bind (ends_inspect (answers_probe.imp fun value member => ?_) sound.grown)
    have removed := Heap.ends_removeValue sound.accounted (Multiset.mem_add.2 (.inr ownReceiver))
      (argumentLive value member)
    refine ends_bind (ends_discard (ends_onHeap (removed.weaken.then fun _ heap accounted => ?_)))
    have kept : ({ machine with heap } : Machine).Sound ledger extra ∅ := sound.withHeap accounted
    exact ends_pure ⟨(kept.mono (Set.empty_subset _)).grown, kept.live ownReceiver⟩
  case h_11 =>
    exact delivers_inspect sound (.seq (answers_entryAt sound readable live) fun _ live => .pure live.1)
  case h_12 =>
    exact delivers_inspect sound (.seq (answers_entryAt sound readable live) fun _ live => .pure live.2)
  case h_13 => exact reordered (Heap.ends_sortByKeys sound.accounted live)
  case h_14 => exact reordered (Heap.ends_sortByValues sound.accounted live)
  case h_15 =>
    refine ends_bind (ends_inspect ((answers_expect 0 0).imp fun _ _ => ends_get ?_) sound.grown)
    refine ends_bind (ends_onHeap ((Heap.ends_shuffle sound.accounted live _).weaken.then ?_))
    intro random heap accounted
    have kept : ({ machine with heap, random } : Machine).Sound ledger extra ∅ :=
      { sound with accounted }
    exact ends_modify (ends_pure ⟨(kept.mono (Set.empty_subset _)).grown, kept.live ownReceiver⟩)

/-! ## Random numbers and printing -/

theorem answers_randomBounds (readable : call.Readable machine) :
    Answers (randomBounds call program machine) fun _ => True := by
  refine .seq (answers_expect 0 2) fun _ _ => ?_
  split
  · trivial
  · refine .seq (answers_expect 2 2) fun _ _ => .seq (readable.number 0) fun _ _ => ?_
    refine .seq (readable.number 1) fun _ _ => ?_
    split <;> trivial

theorem delivers_random (sound : machine.Sound ledger extra ∅) (readable : call.Readable machine) :
    Delivers (random call) program machine ledger extra := by
  refine ends_bind (ends_inspect ((answers_randomBounds readable).imp fun bounds _ => ?_) sound.grown)
  have drawn (random : RandomSequence) : ({ machine with random } : Machine).Sound ledger extra ∅ :=
    { sound with }
  cases bounds with
  | none => exact ends_get (ends_modify (delivers_register (drawn _) (Value.isPlain_number _)))
  | some bounds =>
    refine ends_get (ends_modify ?_)
    -- bounds too far apart are a breach, but not one of the bookkeeping
    dsimp only [RandomSequence.nextInt, pickChecked]
    split
    case isTrue => exact rfl
    case isFalse =>
      split
      case isTrue => exact rfl
      case isFalse => exact delivers_register (drawn _) (Value.isPlain_number _)

theorem answers_message (readable : call.Readable machine) :
    Answers (message call program machine) fun _ => True :=
  .seq (answers_expect _ _) fun _ _ => .seq (readable.text 0) fun _ _ =>
    .seq (.mapM fun index _ => .seq (readable.value (index + 1)) fun _ _ => .pure trivial) fun _ _ =>
    .pure trivial

theorem delivers_print (sound : machine.Sound ledger extra ∅) (readable : call.Readable machine) :
    Delivers (print call) program machine ledger extra := by
  refine ends_bind (ends_inspect ((answers_message readable).imp fun message _ => ?_) sound.grown)
  have printed : ({ machine with messages := machine.messages.push message } : Machine).Sound ledger
      extra ∅ := { sound with }
  exact ends_modify (ends_get (ends_pure
    ⟨(printed.mono (Set.empty_subset _)).grown, printed.null_live⟩))

theorem delivers_function {action : MachineM ObjectId} (sound : machine.Sound ledger extra ∅)
    (owned : ∀ id ∈ call.arguments, id ∈ extra) (found : function? call = some action) :
    Delivers action program machine ledger extra := by
  have readable := sound.readable owned
  unfold function? at found
  cases query : valueFunction? call with
  | some query' =>
    rw [query] at found
    cases found
    exact delivers_registerAnswer sound (answers_valueFunction readable query)
  | none =>
    rw [query] at found
    dsimp only at found
    split at found <;> cases found
    case h_1 => exact delivers_random sound readable
    case h_2 => exact delivers_print sound readable

/-! ## Dispatch -/

theorem delivers_callGlobal (sound : machine.Sound ledger extra ∅)
    (owned : ∀ id ∈ call.arguments, id ∈ extra) :
    Delivers (callGlobal call) program machine ledger extra := by
  unfold callGlobal
  cases operator : operator? call with
  | some action => exact delivers_operator sound owned operator
  | none =>
    cases function : function? call with
    | some action => exact delivers_function sound owned function
    | none => exact ends_raise sound.grown

theorem answers_enumStatic {script : Script} {typeName : String} {query : Query Value}
    (readable : call.Readable machine) (found : enumStatic? script typeName call = some query) :
    Answers (query program machine) Value.IsPlain := by
  obtain ⟨type, -, found⟩ := Option.bind_eq_some_iff.1 found
  split at found <;> cases found
  refine .seq (answers_expect 1 1) fun _ _ => .seq (readable.number 0) fun _ _ => ?_
  exact .ite (fun _ => .pure (Value.isPlain_enum _ _)) fun _ => trivial

theorem delivers_staticFunction {script : Script} {typeName : String} {action : MachineM ObjectId}
    (sound : machine.Sound ledger extra ∅) (owned : ∀ id ∈ call.arguments, id ∈ extra)
    (found : staticFunction? script typeName call = some action) :
    Delivers action program machine ledger extra := by
  have readable := sound.readable owned
  have made {action : Action} {arguments : List Slot} {machine : Machine}
      (sound : machine.Sound ledger extra ∅) (maker : action.isMaker = true)
      (reads : Reads machine action arguments) :
      Delivers (make action arguments call.location) program machine ledger extra :=
    (ends_make sound maker reads.arity reads.filled).then fun _ _ delivered => by simpa using delivered
  unfold staticFunction? at found
  split at found
  case h_1 =>
    obtain ⟨query, known, rfl⟩ := Option.map_eq_some_iff.1 found
    exact ends_bind (ends_inspect ((answers_mapMaker readable known).imp fun _ reads =>
      made sound rfl reads) sound.grown)
  case h_2 =>
    obtain ⟨query, known, rfl⟩ := Option.map_eq_some_iff.1 found
    exact ends_bind (ends_inspect ((answers_profileMaker readable known).imp fun _ reads =>
      made sound rfl reads) sound.grown)
  case h_3 => exact delivers_arrayStatic sound owned found
  case h_4 =>
    obtain ⟨query, known, rfl⟩ := Option.map_eq_some_iff.1 found
    exact delivers_registerAnswer sound (answers_enumStatic readable known)

theorem delivers_edit {action : Action} {arguments : List Slot} (sound : machine.Sound ledger extra ∅)
    (edits : action.isMaker = false)
    (found : machine.heap.value? receiver = some (.raster action.kind))
    (reads : Reads machine action arguments) :
    Delivers (edit receiver action arguments call.location) program machine ledger extra :=
  (ends_edit sound edits found reads.arity reads.filled).then fun _ _ ⟨⟨after, grows, sound⟩, live⟩ =>
    ⟨⟨after, grows, sound.mono (Set.empty_subset _)⟩, live⟩

theorem delivers_memberFunction {script : Script} {value : Value} {action : MachineM ObjectId}
    (sound : machine.Sound ledger extra ∅) (owned : ∀ id ∈ call.arguments, id ∈ extra)
    (ownReceiver : receiver ∈ extra) (stored : machine.heap.value? receiver = some value)
    (found : memberFunction? script receiver value call = some action) :
    Delivers action program machine ledger extra := by
  have readable := sound.readable owned
  unfold memberFunction? at found
  split at found
  case h_1 => exact delivers_staticFunction sound owned found
  case h_2 =>
    obtain ⟨query, known, rfl⟩ := Option.map_eq_some_iff.1 found
    exact ends_bind (ends_inspect ((answers_mapEdit readable known).imp fun _ reads =>
      delivers_edit sound rfl stored reads) sound.grown)
  case h_3 =>
    obtain ⟨query, known, rfl⟩ := Option.map_eq_some_iff.1 found
    exact ends_bind (ends_inspect ((answers_profileEdit readable known).imp fun _ reads =>
      delivers_edit sound rfl stored reads) sound.grown)
  case h_4 => exact delivers_arrayMethod sound owned ownReceiver found
  case h_5 => cases found

theorem delivers_callMember (sound : machine.Sound ledger extra ∅)
    (owned : ∀ id ∈ call.arguments, id ∈ extra) (ownReceiver : receiver ∈ extra) :
    Delivers (callMember receiver call) program machine ledger extra := by
  refine ends_bind (ends_inspect ((answers_value (sound.live ownReceiver)).imp ?_) sound.grown)
  intro value stored
  cases value with
  | null => exact ends_raise sound.grown
  | _ =>
    refine ends_read ?_
    cases found : memberFunction? program.script receiver _ call with
    | some action => exact delivers_memberFunction sound owned ownReceiver stored found
    | none => exact ends_raise sound.grown

theorem isPlain_parameterValue (parameter : Parameter) : (parameterValue parameter).IsPlain := by
  unfold parameterValue
  split
  · exact Value.isPlain_boolean _
  · exact Value.isPlain_number _
  · exact Value.isPlain_enum _ _

theorem isPlain_parameterMember {parameters : Parameters} {name : String} {value : Value}
    (found : parameterMember? parameters name = some value) : value.IsPlain := by
  unfold parameterMember? at found
  split at found
  case h_8 =>
    obtain ⟨parameter, -, rfl⟩ := Option.map_eq_some_iff.1 found
    exact isPlain_parameterValue parameter
  all_goals
    cases found
    exact Value.isPlain_number _

theorem answers_member {name : String} {location : Location}
    (live : machine.heap.contains receiver) :
    Answers (member receiver name location program machine) Value.IsPlain := by
  refine .read (.seq (answers_value live) fun value _ => ?_)
  cases value with
  | type typeName =>
    dsimp only
    cases found : enumMember? program.script typeName name location with
    | none => trivial
    | some result =>
      obtain ⟨type, -, found⟩ := Option.bind_eq_some_iff.1 found
      split at found <;> cases found
      · exact .pure (Value.isPlain_enum _ _)
      · trivial
  | parameters =>
    dsimp only
    cases found : parameterMember? program.parameters name with
    | none => trivial
    | some value => exact .pure (isPlain_parameterMember found)
  | _ => trivial

end Actions

end Native

end Terrain
