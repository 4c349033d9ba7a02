import Terrain.Native.Noise
import Terrain.Native.Profiles
import Terrain.Native.Maps
import Terrain.Proofs.Heap.Arrays
import Terrain.Proofs.Machine.Recording

/-!
# Reading arguments

The arguments of a native call are live while it runs, and so are the objects in the arrays among
them; raster handles have slots. Reading them therefore ends with a value or with an error of the
script, and a slot that is read was filled by a recorded step.

* `NativeCall.Readable` — what readers rely on.
* `NativeCall.Readable.map`, `NativeCall.Readable.noiseTable`, … — one lemma for each reader.
* `Native.answers_mapEdit`, … — the slots in what maps and profiles record were filled.
-/

namespace Terrain

/-- The arguments are live, arrays hold live objects, and raster handles have slots that were filled. -/
structure NativeCall.Readable (call : NativeCall) (machine : Machine) : Prop where
  live : ∀ id ∈ call.arguments, machine.heap.contains id
  entries : ∀ id items, machine.heap.value? id = some (.array items) → ∀ entry ∈ items.toList,
    machine.heap.contains entry.key ∧ machine.heap.contains entry.value
  slots : ∀ (program : Program) id kind, machine.heap.value? id = some (.raster kind) →
    Answers (Query.slot id program machine) fun slot => Makes machine.sequence.steps.toList slot kind

theorem Machine.Sound.entries_live {machine : Machine} {ledger : Machine.Ledger}
    {extra : Multiset ObjectId} {fresh : Set ObjectId} {id : ObjectId} {items : ScriptArray}
    (sound : machine.Sound ledger extra fresh) (found : machine.heap.value? id = some (.array items))
    (entry : Entry) (member : entry ∈ items.toList) :
    machine.heap.contains entry.key ∧ machine.heap.contains entry.value := by
  obtain ⟨key, -, stored⟩ := List.mem_filterMap.1 member
  exact sound.accounted.entry_live found stored

theorem Machine.Sound.readable {machine : Machine} {ledger : Machine.Ledger}
    {extra : Multiset ObjectId} {fresh : Set ObjectId} {call : NativeCall}
    (sound : machine.Sound ledger extra fresh) (owned : ∀ id ∈ call.arguments, id ∈ extra) :
    call.Readable machine where
  live id member := sound.live (owned id member)
  entries _ _ found := sound.entries_live found
  slots _ _ _ found := sound.answers_slot found

theorem Query.value_eq_ok {program : Program} {machine : Machine} {id : ObjectId} {content : Value}
    (found : machine.heap.value? id = some content) :
    Query.value id program machine = .ok content := by
  obtain ⟨cell, stored, shape⟩ := Option.map_eq_some_iff.1 found
  rw [Query.value, stored, ← shape]

namespace NativeCall

variable {call : NativeCall} {program : Program} {machine : Machine} {α : Type}

theorem answers_expect (low high : Nat) :
    Answers (call.expect low high program machine) fun _ => True := by
  unfold expect
  split <;> trivial

theorem answers_object (index : Nat) :
    Answers (call.object index program machine) fun id => call.arguments[index]? = some id := by
  unfold object
  cases found : call.arguments[index]? with
  | none => trivial
  | some id => exact rfl

theorem answers_toHeight (value : Float) :
    Answers (call.toHeight value program machine) fun _ => True := by
  unfold toHeight
  cases numberToHeight? value <;> trivial

theorem answers_toCoordinate (value : Float) :
    Answers (call.toCoordinate value program machine) fun _ => True := by
  unfold toCoordinate
  cases numberToCoordinate? value <;> trivial

theorem answers_component (value : Float) :
    Answers (call.component value program machine) fun _ => True := by
  unfold component
  cases numberToCoordinate? value <;> trivial

theorem answers_wave (waveLength amplitude : Float) :
    Answers (call.wave waveLength amplitude program machine) fun _ => True := by
  unfold wave
  split
  · trivial
  · cases numberToHeight? amplitude with
    | none => trivial
    | some height =>
      dsimp only
      split <;> trivial

namespace Readable

variable (readable : call.Readable machine)

include readable

theorem live_of_getElem? {index : Nat} {id : ObjectId} (found : call.arguments[index]? = some id) :
    machine.heap.contains id :=
  readable.live id (List.mem_of_getElem? found)

theorem value (index : Nat) :
    Answers (call.value index program machine) fun value =>
      ∃ id, call.arguments[index]? = some id ∧ machine.heap.value? id = some value :=
  .seq (answers_object index) fun id found =>
    (Machine.answers_value (readable.live_of_getElem? found)).imp fun _ stored => ⟨id, found, stored⟩

/-! ## Plain values -/

theorem number (index : Nat) : Answers (call.number index program machine) fun _ => True :=
  .seq (readable.value index) fun value _ => by cases value <;> trivial

theorem boolean (index : Nat) : Answers (call.boolean index program machine) fun _ => True :=
  .seq (readable.value index) fun value _ => by cases value <;> trivial

theorem text (index : Nat) : Answers (call.text index program machine) fun _ => True :=
  .seq (readable.value index) fun value _ => by cases value <;> trivial

omit readable in
theorem optional {index : Nat} {default : α} {reader : Nat → Query α}
    (answers : Answers (reader index program machine) fun _ => True) :
    Answers (call.optional index default reader program machine) fun _ => True := by
  unfold NativeCall.optional
  split
  · exact answers
  · trivial

/-! ## Numbers with a range -/

theorem height (index : Nat) : Answers (call.height index program machine) fun _ => True :=
  .seq (readable.number index) fun value _ => answers_toHeight value

theorem coordinate (index : Nat) : Answers (call.coordinate index program machine) fun _ => True :=
  .seq (readable.number index) fun value _ => answers_toCoordinate value

theorem extent (index : Nat) : Answers (call.extent index program machine) fun _ => True :=
  .seq (readable.number index) fun value _ => by cases numberToExtent? value <;> trivial

theorem scale (index : Nat) : Answers (call.scale index program machine) fun _ => True :=
  .seq (readable.number index) fun value _ => by cases numberToScale? value <;> trivial

theorem position (index : Nat) : Answers (call.position index program machine) fun _ => True :=
  .seq (readable.number index) fun value _ => by split <;> trivial

theorem heightRange (first : Nat) : Answers (call.heightRange first program machine) fun _ => True :=
  .seq (readable.height first) fun low _ => .seq (readable.height (first + 1)) fun high _ => by
    split <;> trivial

/-! ## Points and axes -/

theorem point (index : Nat) : Answers (call.point index program machine) fun _ => True := by
  refine .seq (readable.value index) fun value _ => ?_
  cases value with
  | point x y =>
    exact .seq (answers_component x) fun _ _ => .seq (answers_component y) fun _ _ => .pure trivial
  | _ => trivial

theorem rectangle (first : Nat) : Answers (call.rectangle first program machine) fun _ => True :=
  .seq (readable.point first) fun _ _ => .seq (readable.point (first + 1)) fun _ _ => .pure trivial

theorem interval (first : Nat) : Answers (call.interval first program machine) fun _ => True :=
  .seq (readable.coordinate first) fun _ _ =>
    .seq (readable.coordinate (first + 1)) fun _ _ => .pure trivial

theorem direction (index : Nat) : Answers (call.direction index program machine) fun _ => True := by
  refine .seq (readable.value index) fun value _ => ?_
  cases value with
  | enum typeName value =>
    dsimp only
    split
    · trivial
    · cases Direction.ofNumber? value <;> trivial
  | _ => trivial

/-! ## Handles -/

/-- A map that is read was made by a recorded step. -/
theorem map (index : Nat) : Answers (call.map index program machine) fun slot =>
    Makes machine.sequence.steps.toList slot .map := by
  refine .seq (readable.value index) fun value known => ?_
  obtain ⟨id, found, stored⟩ := known
  cases value with
  | raster kind =>
    cases kind with
    | map =>
      refine .seq (answers_object index) fun other again => ?_
      cases found.symm.trans again
      exact readable.slots program id .map stored
    | profile => trivial
  | _ => trivial

/-- A profile that is read was made by a recorded step. -/
theorem profile (index : Nat) : Answers (call.profile index program machine) fun slot =>
    Makes machine.sequence.steps.toList slot .profile := by
  refine .seq (readable.value index) fun value known => ?_
  obtain ⟨id, found, stored⟩ := known
  cases value with
  | raster kind =>
    cases kind with
    | map => trivial
    | profile =>
      refine .seq (answers_object index) fun other again => ?_
      cases found.symm.trans again
      exact readable.slots program id .profile stored
  | _ => trivial

theorem array (index : Nat) : Answers (call.array index program machine) fun items =>
    ∀ entry ∈ items.toList, machine.heap.contains entry.key ∧ machine.heap.contains entry.value := by
  refine .seq (readable.value index) fun value known => ?_
  obtain ⟨id, -, stored⟩ := known
  cases value with
  | array items => exact .pure (readable.entries id items stored)
  | _ => trivial

/-! ## Noise -/

theorem layer : Answers (call.layer program machine) fun _ => True :=
  .seq (readable.number 0) fun _ _ => .seq (readable.number 1) fun _ _ => answers_wave _ _

omit readable in
theorem tableEntry {entry : Entry} (keyLive : machine.heap.contains entry.key)
    (valueLive : machine.heap.contains entry.value) :
    Answers (call.tableEntry entry program machine) fun _ => True := by
  refine .seq (Machine.answers_value keyLive) fun key _ => ?_
  cases key with
  | number waveLength =>
    refine .bind (.pure (.seq (Machine.answers_value valueLive) fun value _ => ?_))
    cases value with
    | number amplitude => exact .bind (.pure (answers_wave waveLength amplitude))
    | _ => trivial
  | _ => trivial

theorem noiseTable (index : Nat) : Answers (call.noiseTable index program machine) fun _ => True := by
  unfold NativeCall.noiseTable
  split
  · trivial
  · refine .seq (readable.value index) fun value _ => ?_
    cases value with
    | null => trivial
    | _ =>
      refine .seq (readable.array index) fun items live => ?_
      exact .seq (.mapM fun entry member => tableEntry (live entry member).1 (live entry member).2)
        fun _ _ => .pure trivial

theorem seed (index : Nat) : Answers (call.seed index program machine) fun _ => True :=
  .seq (optional (readable.number index)) fun inner _ => by split <;> trivial

end Readable

end NativeCall

/-! ## What maps and profiles record -/

namespace Native

variable {call : NativeCall} {program : Program} {machine : Machine}

/-- There are as many slots as an action reads, filled with rasters of the kind it expects. -/
structure Reads (machine : Machine) (action : Action) (arguments : List Slot) : Prop where
  arity : arguments.length = action.arity
  filled : ∀ slot ∈ arguments, Makes machine.sequence.steps.toList slot action.argumentKind

theorem reads_nil {action : Action} (arity : 0 = action.arity) : Reads machine action [] :=
  ⟨arity, nofun⟩

theorem reads_one {action : Action} {slot : Slot} (arity : 1 = action.arity)
    (made : Makes machine.sequence.steps.toList slot action.argumentKind) :
    Reads machine action [slot] :=
  ⟨arity, List.forall_mem_singleton.2 made⟩

theorem reads_two {action : Action} {first second : Slot} (arity : 2 = action.arity)
    (firstMade : Makes machine.sequence.steps.toList first action.argumentKind)
    (secondMade : Makes machine.sequence.steps.toList second action.argumentKind) :
    Reads machine action [first, second] :=
  ⟨arity, List.forall_mem_cons.2 ⟨firstMade, List.forall_mem_singleton.2 secondMade⟩⟩

-- every function reads its arguments one after the other; the slots among them are known to be filled

theorem answers_mapMaker (readable : call.Readable machine) {query : Query (MapMaker × List Slot)}
    (found : mapMaker? call = some query) :
    Answers (query program machine) fun maker => Reads machine (.makeMap maker.1) maker.2 := by
  unfold mapMaker? at found
  split at found <;> cases found
  case h_1 =>
    exact .seq (NativeCall.answers_expect 0 1) fun _ _ =>
      .seq (NativeCall.Readable.optional (readable.height 0)) fun _ _ => .pure (reads_nil rfl)
  case h_2 =>
    exact .seq (NativeCall.answers_expect 0 2) fun _ _ => .seq (readable.noiseTable 0) fun _ _ =>
      .seq (readable.seed 1) fun _ _ => .pure (reads_nil rfl)
  case h_3 =>
    exact .seq (NativeCall.answers_expect 4 4) fun _ _ => .seq (readable.point 0) fun _ _ =>
      .seq (readable.point 1) fun _ _ => .seq (readable.height 2) fun _ _ =>
      .seq (readable.height 3) fun _ _ => .pure (reads_nil rfl)
  case h_4 =>
    exact .seq (NativeCall.answers_expect 4 4) fun _ _ => .seq (readable.point 0) fun _ _ =>
      .seq (readable.extent 1) fun _ _ => .seq (readable.height 2) fun _ _ =>
      .seq (readable.height 3) fun _ _ => .pure (reads_nil rfl)
  case h_5 =>
    exact .seq (NativeCall.answers_expect 2 2) fun _ _ => .seq (readable.profile 0) fun _ made =>
      .seq (readable.direction 1) fun _ _ => .pure (reads_one rfl made)
  case h_6 =>
    exact .seq (NativeCall.answers_expect 1 1) fun _ _ => .seq (readable.map 0) fun _ made =>
      .pure (reads_one rfl made)

theorem answers_mapAddMasked (readable : call.Readable machine) :
    Answers (mapAddMasked call program machine) fun edit => Reads machine (.editMap edit.1) edit.2 := by
  refine .seq (NativeCall.answers_expect 2 2) fun _ _ => .seq (readable.map 1) fun mask made => ?_
  refine .seq (readable.value 0) fun value _ => ?_
  have withMap : Answers ((do return (.addMapMasked, [← call.map 0, mask]) :
      Query (MapEdit × List Slot)) program machine) fun edit => Reads machine (.editMap edit.1) edit.2 :=
    .seq (readable.map 0) fun _ addend => .pure (reads_two rfl addend made)
  cases value with
  | number _ => exact .seq (readable.height 0) fun _ _ => .pure (reads_one rfl made)
  | _ => exact withMap

theorem answers_mapTransform (readable : call.Readable machine) :
    Answers (mapTransform call program machine) fun edit => Reads machine (.editMap edit.1) edit.2 := by
  refine .seq (NativeCall.answers_expect 4 4) fun _ _ => .seq (readable.number 0) fun _ _ => ?_
  refine .seq (readable.number 1) fun _ _ => .seq (readable.number 2) fun _ _ => ?_
  refine .seq (readable.number 3) fun _ _ => ?_
  exact .ite (fun _ => .pure (reads_nil rfl)) fun _ => trivial

theorem answers_mapEdit (readable : call.Readable machine) {query : Query (MapEdit × List Slot)}
    (found : mapEdit? call = some query) :
    Answers (query program machine) fun edit => Reads machine (.editMap edit.1) edit.2 := by
  unfold mapEdit? at found
  split at found <;> cases found
  case h_1 =>
    exact .seq (NativeCall.answers_expect 0 0) fun _ _ => .pure (reads_nil rfl)
  case h_2 =>
    exact .seq (NativeCall.answers_expect 1 1) fun _ _ => .seq (readable.height 0) fun _ _ =>
      .pure (reads_nil rfl)
  case h_3 =>
    exact .seq (NativeCall.answers_expect 1 1) fun _ _ => .seq (readable.map 0) fun _ made =>
      .pure (reads_one rfl made)
  case h_4 => exact answers_mapAddMasked readable
  case h_5 =>
    exact .seq (NativeCall.answers_expect 1 1) fun _ _ => .seq (readable.extent 0) fun _ _ =>
      .pure (reads_nil rfl)
  case h_6 =>
    exact .seq (NativeCall.answers_expect 2 2) fun _ _ => .seq (readable.heightRange 0) fun _ _ =>
      .pure (reads_nil rfl)
  case h_7 =>
    exact .seq (NativeCall.answers_expect 2 2) fun _ _ => .seq (readable.map 0) fun _ first =>
      .seq (readable.map 1) fun _ second => .pure (reads_two rfl first second)
  case h_8 =>
    exact .seq (NativeCall.answers_expect 1 1) fun _ _ => .seq (readable.extent 0) fun _ _ =>
      .pure (reads_nil rfl)
  case h_9 =>
    exact .seq (NativeCall.answers_expect 2 3) fun _ _ => .seq (readable.rectangle 0) fun _ _ =>
      .seq (NativeCall.Readable.optional (readable.height 2)) fun _ _ => .pure (reads_nil rfl)
  case h_10 =>
    exact .seq (NativeCall.answers_expect 2 3) fun _ _ => .seq (readable.heightRange 0) fun _ _ =>
      .seq (NativeCall.Readable.optional (readable.height 2)) fun _ _ => .pure (reads_nil rfl)
  case h_11 =>
    exact .seq (NativeCall.answers_expect 1 1) fun _ _ => .seq (readable.extent 0) fun _ _ =>
      .pure (reads_nil rfl)
  case h_12 =>
    exact .seq (NativeCall.answers_expect 3 3) fun _ _ => .seq (readable.map 0) fun _ first =>
      .seq (readable.map 1) fun _ second => .seq (readable.extent 2) fun _ _ =>
      .pure (reads_two rfl first second)
  case h_13 =>
    exact .seq (NativeCall.answers_expect 3 3) fun _ _ => .seq (readable.point 0) fun _ _ =>
      .seq (readable.point 1) fun _ _ => .seq (readable.height 2) fun _ _ => .pure (reads_nil rfl)
  case h_14 =>
    exact .seq (NativeCall.answers_expect 3 3) fun _ _ => .seq (readable.rectangle 0) fun _ _ =>
      .seq (readable.height 2) fun _ _ => .pure (reads_nil rfl)
  case h_15 =>
    exact .seq (NativeCall.answers_expect 1 1) fun _ _ => .seq (readable.map 0) fun _ made =>
      .pure (reads_one rfl made)
  case h_16 =>
    exact .seq (NativeCall.answers_expect 0 0) fun _ _ => .pure (reads_nil rfl)
  case h_17 =>
    exact .seq (NativeCall.answers_expect 1 1) fun _ _ => .seq (readable.point 0) fun _ _ =>
      .pure (reads_nil rfl)
  case h_18 =>
    exact .seq (NativeCall.answers_expect 1 1) fun _ _ => .seq (readable.number 0) fun _ _ =>
      .pure (reads_nil rfl)
  case h_19 =>
    exact .seq (NativeCall.answers_expect 1 1) fun _ _ => .seq (readable.map 0) fun _ made =>
      .pure (reads_one rfl made)
  case h_20 =>
    exact .seq (NativeCall.answers_expect 2 4) fun _ _ => .seq readable.layer fun _ _ =>
      .seq (NativeCall.Readable.optional (readable.boolean 2)) fun _ _ =>
      .seq (readable.seed 3) fun _ _ => .pure (reads_nil rfl)
  case h_21 =>
    exact .seq (NativeCall.answers_expect 3 3) fun _ _ => .seq (readable.map 0) fun _ made =>
      .seq (readable.rectangle 1) fun _ _ => .pure (reads_one rfl made)
  case h_22 =>
    exact .seq (NativeCall.answers_expect 1 2) fun _ _ => .seq (readable.scale 0) fun _ _ =>
      .seq (NativeCall.Readable.optional (readable.scale 1)) fun _ _ => .pure (reads_nil rfl)
  case h_23 =>
    exact .seq (NativeCall.answers_expect 2 3) fun _ _ => .seq (readable.rectangle 0) fun _ _ =>
      .seq (NativeCall.Readable.optional (readable.height 2)) fun _ _ => .pure (reads_nil rfl)
  case h_24 =>
    exact .seq (NativeCall.answers_expect 3 3) fun _ _ => .seq (readable.profile 0) fun _ made =>
      .seq (readable.extent 1) fun _ _ => .seq (readable.direction 2) fun _ _ =>
      .pure (reads_one rfl made)
  case h_25 => exact answers_mapTransform readable
  case h_26 =>
    exact .seq (NativeCall.answers_expect 3 5) fun _ _ => .seq (readable.profile 0) fun _ made =>
      .seq (readable.interval 1) fun _ _ =>
      .seq (NativeCall.Readable.optional (readable.height 3)) fun _ _ =>
      .seq (NativeCall.Readable.optional (readable.height 4)) fun _ _ => .pure (reads_one rfl made)
  case h_27 =>
    exact .seq (NativeCall.answers_expect 1 1) fun _ _ => .seq (readable.map 0) fun _ made =>
      .pure (reads_one rfl made)

theorem answers_controlPoints (readable : call.Readable machine) :
    Answers (controlPoints call program machine) fun _ => True := by
  refine .seq (readable.array 0) fun items live => ?_
  refine .seq (.mapM fun entry member => ?_) fun _ _ => .pure trivial
  refine .seq (Machine.answers_value (live entry member).1) fun key _ => ?_
  refine .seq (Machine.answers_value (live entry member).2) fun value _ => ?_
  cases key with
  | number key =>
    cases value with
    | number value =>
      exact .seq (NativeCall.answers_toCoordinate key) fun _ _ =>
        .seq (NativeCall.answers_toHeight value) fun _ _ => .pure trivial
    | _ => trivial
  | _ => trivial

theorem answers_profileMaker (readable : call.Readable machine) {query : Query (ProfileMaker × List Slot)}
    (found : profileMaker? call = some query) :
    Answers (query program machine) fun maker => Reads machine (.makeProfile maker.1) maker.2 := by
  unfold profileMaker? at found
  split at found <;> cases found
  case h_1 =>
    exact .seq (NativeCall.answers_expect 0 1) fun _ _ =>
      .seq (NativeCall.Readable.optional (readable.height 0)) fun _ _ => .pure (reads_nil rfl)
  case h_2 =>
    exact .seq (NativeCall.answers_expect 4 4) fun _ _ => .seq (readable.coordinate 0) fun _ _ =>
      .seq (readable.coordinate 1) fun _ _ => .seq (readable.height 2) fun _ _ =>
      .seq (readable.height 3) fun _ _ => .pure (reads_nil rfl)
  case h_3 =>
    exact .seq (NativeCall.answers_expect 1 1) fun _ _ =>
      .seq (answers_controlPoints readable) fun _ _ => .pure (reads_nil rfl)
  case h_4 =>
    exact .seq (NativeCall.answers_expect 0 2) fun _ _ => .seq (readable.noiseTable 0) fun _ _ =>
      .seq (readable.seed 1) fun _ _ => .pure (reads_nil rfl)
  case h_5 =>
    exact .seq (NativeCall.answers_expect 3 3) fun _ _ => .seq (readable.map 0) fun _ made =>
      .seq (readable.direction 1) fun _ _ => .seq (readable.coordinate 2) fun _ _ =>
      .pure (reads_one rfl made)
  case h_6 =>
    exact .seq (NativeCall.answers_expect 1 1) fun _ _ => .seq (readable.profile 0) fun _ made =>
      .pure (reads_one rfl made)

theorem answers_profileAddMasked (readable : call.Readable machine) :
    Answers (profileAddMasked call program machine) fun edit => Reads machine (.editProfile edit.1) edit.2 := by
  refine .seq (NativeCall.answers_expect 2 2) fun _ _ => .seq (readable.profile 1) fun mask made => ?_
  refine .seq (readable.value 0) fun value _ => ?_
  have withProfile : Answers ((do return (.addProfileMasked, [← call.profile 0, mask]) :
      Query (ProfileEdit × List Slot)) program machine) fun edit => Reads machine (.editProfile edit.1) edit.2 :=
    .seq (readable.profile 0) fun _ addend => .pure (reads_two rfl addend made)
  cases value with
  | number _ => exact .seq (readable.height 0) fun _ _ => .pure (reads_one rfl made)
  | _ => exact withProfile

theorem answers_profileEdit (readable : call.Readable machine) {query : Query (ProfileEdit × List Slot)}
    (found : profileEdit? call = some query) :
    Answers (query program machine) fun edit => Reads machine (.editProfile edit.1) edit.2 := by
  unfold profileEdit? at found
  split at found <;> cases found
  case h_1 =>
    exact .seq (NativeCall.answers_expect 0 0) fun _ _ => .pure (reads_nil rfl)
  case h_2 =>
    exact .seq (NativeCall.answers_expect 1 1) fun _ _ => .seq (readable.height 0) fun _ _ =>
      .pure (reads_nil rfl)
  case h_3 =>
    exact .seq (NativeCall.answers_expect 1 1) fun _ _ => .seq (readable.profile 0) fun _ made =>
      .pure (reads_one rfl made)
  case h_4 => exact answers_profileAddMasked readable
  case h_5 =>
    exact .seq (NativeCall.answers_expect 1 1) fun _ _ => .seq (readable.extent 0) fun _ _ =>
      .pure (reads_nil rfl)
  case h_6 =>
    exact .seq (NativeCall.answers_expect 2 2) fun _ _ => .seq (readable.heightRange 0) fun _ _ =>
      .pure (reads_nil rfl)
  case h_7 =>
    exact .seq (NativeCall.answers_expect 2 2) fun _ _ => .seq (readable.profile 0) fun _ first =>
      .seq (readable.profile 1) fun _ second => .pure (reads_two rfl first second)
  case h_8 =>
    exact .seq (NativeCall.answers_expect 2 3) fun _ _ => .seq (readable.interval 0) fun _ _ =>
      .seq (NativeCall.Readable.optional (readable.height 2)) fun _ _ => .pure (reads_nil rfl)
  case h_9 =>
    exact .seq (NativeCall.answers_expect 2 3) fun _ _ => .seq (readable.heightRange 0) fun _ _ =>
      .seq (NativeCall.Readable.optional (readable.height 2)) fun _ _ => .pure (reads_nil rfl)
  case h_10 =>
    exact .seq (NativeCall.answers_expect 3 3) fun _ _ => .seq (readable.interval 0) fun _ _ =>
      .seq (readable.height 2) fun _ _ => .pure (reads_nil rfl)
  case h_11 =>
    exact .seq (NativeCall.answers_expect 0 0) fun _ _ => .pure (reads_nil rfl)
  case h_12 =>
    exact .seq (NativeCall.answers_expect 1 1) fun _ _ => .seq (readable.profile 0) fun _ made =>
      .pure (reads_one rfl made)
  case h_13 =>
    exact .seq (NativeCall.answers_expect 0 0) fun _ _ => .pure (reads_nil rfl)
  case h_14 =>
    exact .seq (NativeCall.answers_expect 1 1) fun _ _ => .seq (readable.coordinate 0) fun _ _ =>
      .pure (reads_nil rfl)
  case h_15 =>
    exact .seq (NativeCall.answers_expect 1 1) fun _ _ => .seq (readable.number 0) fun _ _ =>
      .pure (reads_nil rfl)
  case h_16 =>
    exact .seq (NativeCall.answers_expect 1 1) fun _ _ => .seq (readable.profile 0) fun _ made =>
      .pure (reads_one rfl made)
  case h_17 =>
    exact .seq (NativeCall.answers_expect 2 3) fun _ _ => .seq readable.layer fun _ _ =>
      .seq (readable.seed 2) fun _ _ => .pure (reads_nil rfl)
  case h_18 =>
    exact .seq (NativeCall.answers_expect 3 3) fun _ _ => .seq (readable.profile 0) fun _ made =>
      .seq (readable.interval 1) fun _ _ => .pure (reads_one rfl made)
  case h_19 =>
    exact .seq (NativeCall.answers_expect 1 1) fun _ _ => .seq (readable.scale 0) fun _ _ =>
      .pure (reads_nil rfl)
  case h_20 =>
    exact .seq (NativeCall.answers_expect 2 3) fun _ _ => .seq (readable.interval 0) fun _ _ =>
      .seq (NativeCall.Readable.optional (readable.height 2)) fun _ _ => .pure (reads_nil rfl)
  case h_21 =>
    exact .seq (NativeCall.answers_expect 1 1) fun _ _ => .seq (readable.profile 0) fun _ made =>
      .pure (reads_one rfl made)

end Native

end Terrain
