import Terrain.Proofs.Machine.Quiet

/-!
# What can be recorded

Steps come from native functions of maps and profiles and from yields. So whatever a script does, and
whether it ends or fails, each action it records is the answer of one of the queries behind these
functions, and a fact about all actions of a sequence is a fact about the answers of queries. A step of
the machine records once at most, and it does so before it changes the heap in any other way.

* `Native.Recordable` — the answers of queries, and yields.
* `Machine.Effect` — what a step of the machine does to the sequence and to the slots.
* `Machine.effects_step` — a step does nothing else to them.
* `Machine.Reachable.recordable` — nothing but what can be recorded is recorded in a run.
-/

namespace Terrain

/-- The actions that native functions and yields of a program record. -/
inductive Native.Recordable (program : Program) : Action → Prop where
  | makeMap {call : NativeCall} {query : Query (MapMaker × List Slot)} {machine : Machine}
      {maker : MapMaker} {arguments : List Slot} (found : mapMaker? call = some query)
      (answered : query program machine = .ok (maker, arguments)) : Recordable program (.makeMap maker)
  | editMap {call : NativeCall} {query : Query (MapEdit × List Slot)} {machine : Machine}
      {edit : MapEdit} {arguments : List Slot} (found : mapEdit? call = some query)
      (answered : query program machine = .ok (edit, arguments)) : Recordable program (.editMap edit)
  | yield (name : String) : Recordable program (.yield name program.parameters.window)
  | makeProfile {call : NativeCall} {query : Query (ProfileMaker × List Slot)} {machine : Machine}
      {maker : ProfileMaker} {arguments : List Slot} (found : profileMaker? call = some query)
      (answered : query program machine = .ok (maker, arguments)) :
      Recordable program (.makeProfile maker)
  | editProfile {call : NativeCall} {query : Query (ProfileEdit × List Slot)} {machine : Machine}
      {edit : ProfileEdit} {arguments : List Slot} (found : profileEdit? call = some query)
      (answered : query program machine = .ok (edit, arguments)) :
      Recordable program (.editProfile edit)

namespace Machine

open Native (Recordable)

variable {program : Program} {α β : Type}

/-- Every step was recorded by a native function or a yield. -/
def AllRecordable (program : Program) (machine : Machine) : Prop :=
  ∀ step ∈ machine.sequence.steps, Recordable program step.action

/-- What becomes of the sequence and of the slots behind raster handles. At most one step is recorded.
One that makes a raster comes with a new handle, which gets a slot of its own; if the sequence has no
room for it, the slot is reserved all the same. -/
inductive Effect (program : Program) (before after : Machine) : Prop where
  | none (sequence : after.sequence = before.sequence) (slots : after.slots = before.slots)
  | reserved (sequence : after.sequence = before.sequence.reserve.2) (slots : after.slots = before.slots)
  | edited (step : Step) (recordable : Recordable program step.action)
      (sequence : after.sequence = before.sequence.push step) (slots : after.slots = before.slots)
  | made (location : Location) (action : Action) (arguments : List Slot)
      (recordable : Recordable program action) (maker : action.isMaker = true)
      (sequence : after.sequence =
        before.sequence.reserve.2.push ⟨location, action, arguments, before.sequence.slotCount⟩)
      (assigned : before.slots.assign before.heap.cells.size before.sequence.slotCount
        { before.heap with cells := before.heap.cells.push (some ⟨0, .raster action.kind⟩) } =
          .ok after.slots)

/-- An action that leaves the sequence, the slots and the heap as they were. -/
abbrev Still (action : MachineM α) : Prop :=
  Preserves (fun machine => (machine.sequence, machine.slots, machine.heap)) action

/-- An action that has no other effect on the sequence and the slots. -/
def Effects (program : Program) (action : MachineM α) : Prop :=
  ∀ machine, After (action program machine) (Effect program machine)

/-! ## Combinators -/

theorem Effect.then_quiet {before between after : Machine} (effect : Effect program before between)
    (same : (after.sequence, after.slots) = (between.sequence, between.slots)) :
    Effect program before after := by
  obtain ⟨sequence, slots⟩ := Prod.mk.inj same
  cases effect with
  | none sequence' slots' => exact .none (sequence.trans sequence') (slots.trans slots')
  | reserved sequence' slots' => exact .reserved (sequence.trans sequence') (slots.trans slots')
  | edited step recordable sequence' slots' =>
    exact .edited step recordable (sequence.trans sequence') (slots.trans slots')
  | made location action arguments recordable maker sequence' assigned =>
    exact .made location action arguments recordable maker (sequence.trans sequence') (slots ▸ assigned)

theorem Effect.after_still {before between after : Machine} (effect : Effect program between after)
    (same : (between.sequence, between.slots, between.heap) =
      (before.sequence, before.slots, before.heap)) : Effect program before after := by
  simp only [Prod.mk.injEq] at same
  obtain ⟨sequence, slots, heap⟩ := same
  cases effect with
  | none sequence' slots' => exact .none (sequence'.trans sequence) (slots'.trans slots)
  | reserved sequence' slots' => exact .reserved (sequence ▸ sequence') (slots'.trans slots)
  | edited step recordable sequence' slots' =>
    exact .edited step recordable (sequence ▸ sequence') (slots'.trans slots)
  | made location action arguments recordable maker sequence' assigned =>
    rw [slots, sequence, heap] at assigned
    exact .made location action arguments recordable maker (sequence ▸ sequence') assigned

theorem Preserves.effects {action : MachineM α} (quiet : Quiet action) : Effects program action :=
  fun machine => (quiet program machine).imp fun _ same =>
    .none (Prod.mk.inj same).1 (Prod.mk.inj same).2

/-- After an action with an effect there may be others that have none. -/
theorem Effects.bind {action : MachineM α} {next : α → MachineM β} (first : Effects program action)
    (second : ∀ value, Quiet (next value)) : Effects program (action >>= next) :=
  fun machine => (first machine).bind
    (fun value between effect => (second value program between).imp fun _ => effect.then_quiet)
    fun _ => id

/-- Before an action with an effect nothing changes that the effect depends on. -/
theorem Still.bind {action : MachineM α} {next : α → MachineM β} (first : Still action)
    (second : ∀ value, Effects program (next value)) : Effects program (action >>= next) :=
  fun machine => (first program machine).bind
    (fun value between same => (second value between).imp fun _ effect => effect.after_still same)
    fun _ same => (Effect.none rfl rfl).after_still same

theorem Effects.andFinally {action : MachineM α} {afterwards : MachineM Unit}
    (first : Effects program action) (second : Quiet afterwards) :
    Effects program (andFinally action afterwards) :=
  fun machine => (first machine).andFinally
    fun between effect => (second program between).imp fun _ => effect.then_quiet

theorem Effects.onError {action : MachineM α} {afterwards : MachineM Unit}
    (first : Effects program action) (second : Quiet afterwards) :
    Effects program (onError action afterwards) :=
  fun machine => (first machine).onError
    fun between effect => (second program between).imp fun _ => effect.then_quiet

/-- The program that is read is the one that runs. -/
theorem effects_read {next : Program → MachineM β} (rest : Effects program (next program)) :
    Effects program (read >>= next) := rest

/-- An answer that is needed for what comes next. -/
theorem effects_answer {query : Query α} {next : α → MachineM β}
    (rest : ∀ machine value, query program machine = .ok value → Effects program (next value)) :
    Effects program (inspect query >>= next) := by
  intro machine
  have looked : Still (inspect query) := preserves_inspect query
  have failed := looked program machine
  change After (EStateM.bind (inspect query program) (fun value => next value program) machine) _
  unfold EStateM.bind inspect at *
  cases answered : query program machine with
  | ok value => exact rest machine value answered machine
  | error failure =>
    cases failure with
    | error error => exact .none rfl rfl
    | breach breach => trivial

theorem Effects.ite {condition : Prop} [Decidable condition] {action other : MachineM α}
    (first : Effects program action) (second : Effects program other) :
    Effects program (if condition then action else other) := by
  split
  · exact first
  · exact second

theorem effects_unless {condition : Prop} [Decidable condition] {error : Error}
    {next : PUnit → MachineM α} (rest : Effects program (next ⟨⟩)) :
    Effects program (if condition then raise error >>= next else next ⟨⟩) := by
  split
  · exact fun _ => .none rfl rfl
  · exact rest

/-! ## Recording -/

theorem record_run (step : Step) (machine : Machine) : record step program machine =
    match machine.sequence.check step with
    | .ok _ => .ok () { machine with sequence := machine.sequence.push step }
    | .error failure => .error failure machine := by
  change (match machine.sequence.check step with
    | .ok _ => modify fun machine => { machine with sequence := machine.sequence.push step }
    | .error failure => throw failure : MachineM Unit) program machine = _
  cases machine.sequence.check step <;> rfl

theorem assignSlot_run (id : ObjectId) (slot : Slot) (machine : Machine) :
    assignSlot id slot program machine =
      match machine.slots.assign id slot machine.heap with
      | .ok slots => .ok () { machine with slots }
      | .error breach => .error (.breach breach) machine := by
  change (match machine.slots.assign id slot machine.heap with
    | .ok slots => set { machine with slots }
    | .error breach => throw (.breach breach) : MachineM Unit) program machine = _
  cases machine.slots.assign id slot machine.heap <;> rfl

theorem effects_record {step : Step} (recordable : Recordable program step.action) :
    Effects program (record step) := by
  intro machine
  rw [record_run]
  cases machine.sequence.check step with
  | ok _ => exact .edited step recordable rfl rfl
  | error failure =>
    cases failure with
    | error error => exact .none rfl rfl
    | breach breach => trivial

/-- The handle of the new raster is the next object of the heap. -/
theorem effects_make {action : Action} (recordable : Recordable program action)
    (maker : action.isMaker = true) (arguments : List Slot) (location : Location) :
    Effects program (make action arguments location) := by
  intro machine
  -- a slot is reserved, the step is recorded, and a handle is registered and given the slot
  let reserved := { machine with sequence := machine.sequence.reserve.2 }
  let step : Step := ⟨location, action, arguments, machine.sequence.slotCount⟩
  change After (EStateM.bind (record step program) (fun _ =>
    (do let id ← onHeap (Heap.register (.raster action.kind))
        assignSlot id machine.sequence.slotCount
        return id : MachineM ObjectId) program) reserved) _
  unfold EStateM.bind
  rw [record_run]
  cases reserved.sequence.check step with
  | error failure =>
    cases failure with
    | error error => exact .reserved rfl rfl
    | breach breach => trivial
  | ok _ =>
    let heap := { machine.heap with cells := machine.heap.cells.push (some ⟨0, .raster action.kind⟩) }
    let registered := { reserved with sequence := reserved.sequence.push step, heap }
    change After (EStateM.bind (assignSlot machine.heap.cells.size machine.sequence.slotCount program)
      (fun _ => (pure machine.heap.cells.size : MachineM ObjectId) program) registered) _
    unfold EStateM.bind
    rw [assignSlot_run]
    cases assigned : registered.slots.assign machine.heap.cells.size machine.sequence.slotCount heap with
    | ok slots => exact .made location action arguments recordable maker rfl assigned
    | error breach => trivial

theorem effects_edit {action : Action} (recordable : Recordable program action) (receiver : ObjectId)
    (arguments : List Slot) (location : Location) :
    Effects program (edit receiver action arguments location) :=
  Still.bind (preserves_inspect _) fun _ => (effects_record recordable).bind fun _ => preserves_pure _

theorem effects_yieldObject (name : String) (id : ObjectId) (location : Location) :
    Effects program (yieldObject name id location) := by
  refine effects_read (Still.bind (preserves_inspect _) fun value => ?_)
  -- only maps are recorded, with the window of the parameters
  split
  case h_2 => exact (preserves_raise _).effects
  case h_1 =>
    refine effects_unless (Still.bind (preserves_modify fun _ => rfl) fun _ => ?_)
    refine Effects.ite ?_ (preserves_pure ()).effects
    exact Still.bind (preserves_inspect _) fun _ => effects_record (.yield name)

end Machine

/-! ## Native functions -/

namespace Native

open Machine

variable {program : Program}

/-- The functions of maps and profiles record the answers of their queries. -/
theorem effects_memberFunction {script : Script} {receiver : ObjectId} {value : Value}
    {call : NativeCall} {action : MachineM ObjectId}
    (found : memberFunction? script receiver value call = some action) : Effects program action := by
  unfold memberFunction? staticFunction? at found
  split at found
  -- the functions of the types: makers of maps and of profiles, arrays, and enumerations
  case h_1 =>
    split at found
    case h_1 =>
      obtain ⟨query, maker, rfl⟩ := Option.map_eq_some_iff.1 found
      exact effects_answer fun _ _ answered => effects_make (.makeMap maker answered) rfl _ _
    case h_2 =>
      obtain ⟨query, maker, rfl⟩ := Option.map_eq_some_iff.1 found
      exact effects_answer fun _ _ answered => effects_make (.makeProfile maker answered) rfl _ _
    case h_3 =>
      unfold arrayStatic? at found
      split at found <;> cases found
      · exact ((preserves_inspect _).bind fun _ => quiet_arrayOfList _).effects
      · exact (quiet_arrayOfList _).effects
    case h_4 =>
      obtain ⟨query, -, rfl⟩ := Option.map_eq_some_iff.1 found
      exact ((preserves_inspect _).bind fun _ => quiet_onHeap _).effects
  case h_2 =>
    obtain ⟨query, edit, rfl⟩ := Option.map_eq_some_iff.1 found
    exact effects_answer fun _ _ answered => effects_edit (.editMap edit answered) _ _ _
  case h_3 =>
    obtain ⟨query, edit, rfl⟩ := Option.map_eq_some_iff.1 found
    exact effects_answer fun _ _ answered => effects_edit (.editProfile edit answered) _ _ _
  case h_4 => exact (quiet_arrayMethod found).effects
  case h_5 => cases found

theorem effects_callMember (receiver : ObjectId) (call : NativeCall) :
    Effects program (callMember receiver call) := by
  refine Still.bind (preserves_inspect _) fun value => ?_
  cases value with
  | null => exact (preserves_raise _).effects
  | _ =>
    refine effects_read ?_
    split
    case h_1 _ found => exact effects_memberFunction found
    case h_2 => exact (preserves_raise _).effects

end Native

/-! ## Steps and runs -/

namespace Machine

open Native (Recordable)

variable {program : Program}

theorem effects_finishNative {native : MachineM ObjectId} (effects : Effects program native)
    (arguments : List ObjectId) (location : Location) :
    Effects program (finishNative native arguments location) := by
  refine Effects.andFinally (effects.bind fun _ => (quiet_push _ _).onError (quiet_onHeap _)) ?_
  exact (quiet_onHeap _).bind fun _ => preserves_get.bind fun _ =>
    Preserves.bind (preserves_modify fun _ => rfl) fun _ => quiet_onHeap _

theorem effects_callGlobal (location : Location) (name : String) (count : Nat) :
    Effects program (callGlobal location name count) := by
  refine Still.bind (preserves_take (fun _ _ => rfl) count) fun arguments => effects_read ?_
  split
  · exact ((quiet_callFunction _ _ _ _).andFinally (quiet_onHeap _)).effects
  · exact effects_finishNative (Native.quiet_callGlobal _).effects _ _

theorem effects_callMember (location : Location) (name : String) (count : Nat) :
    Effects program (callMember location name count) := by
  refine Still.bind (preserves_pop fun _ _ => rfl) fun receiver => ?_
  refine Effects.andFinally ?_ (quiet_onHeap _)
  exact Still.bind (preserves_take (fun _ _ => rfl) count) fun _ =>
    effects_finishNative (Native.effects_callMember _ _) _ _

theorem effects_yieldTop (location : Location) (name : String) :
    Effects program (execute.yieldTop location name) :=
  Still.bind (preserves_pop fun _ _ => rfl) fun _ =>
    (effects_yieldObject _ _ _).andFinally (quiet_onHeap _)

theorem effects_execute (location : Location) (operation : Operation) :
    Effects program (execute location operation) := by
  cases operation with
  | loadNumber value => exact (quiet_pushNew _ _).effects
  | loadText value => exact (quiet_pushNew _ _).effects
  | loadBoolean value => exact (quiet_pushNew _ _).effects
  | loadNull => exact (preserves_get.bind fun _ => quiet_push _ _).effects
  | loadVariable name =>
    exact ((preserves_inspect _).bind fun _ => (preserves_inspect _).bind fun _ =>
      quiet_push _ _).effects
  | loadReference name => exact ((preserves_inspect _).bind fun _ => quiet_pushNew _ _).effects
  | loadMember name =>
    refine (quiet_pop.bind fun _ => Preserves.andFinally ?_ (quiet_onHeap _)).effects
    exact Preserves.bind ((preserves_inspect _).bind fun _ => quiet_onHeap _) fun _ => quiet_push _ _
  | storeVariable name =>
    exact (preserves_get.bind fun _ => (preserves_orRaise _).bind fun _ =>
      (preserves_inspect _).bind fun _ => quiet_assign _ _ _).effects
  | declareLocal name isConst => exact (quiet_declareLocal _ _ _).effects
  | declareGlobal name isConst =>
    exact (quiet_pop.bind fun _ => (quiet_declareGlobal _ _ _ _).andFinally (quiet_onHeap _)).effects
  | callGlobal name count => exact effects_callGlobal _ _ _
  | callMember name count => exact effects_callMember _ _ _
  | pop => exact (quiet_pop.bind fun _ => quiet_onHeap _).effects
  | ifElse thenBranch elseBranch =>
    exact ((quiet_popCondition _).bind fun _ => quiet_enterBlock _ _ _).effects
  | loop body => exact (quiet_enterBlock _ _ _).effects
  | block body => exact (quiet_enterBlock _ _ _).effects
  | breakLoop depth => exact ((preserves_inspect _).bind fun _ => quiet_leaveBlocks _).effects
  | continueLoop depth =>
    exact ((preserves_inspect _).bind fun _ => (quiet_leaveBlocks _).bind fun _ =>
      quiet_restartBlock).effects
  | returnCall => exact (quiet_leaveCall _).effects
  | yieldNamed name => exact effects_yieldTop _ _
  | yieldMain => exact effects_yieldTop _ _

theorem effects_advance : Effects program advance := by
  refine Still.bind (preserves_fetch fun _ _ => rfl) fun fetched => ?_
  have rest : Quiet (do unwindFor (← get).depth) :=
    preserves_get.bind fun _ => quiet_unwindFor _
  cases fetched with
  | none => exact rest.effects
  | some instruction => exact (effects_execute _ _).bind fun _ => rest

theorem effects_step : Effects program step :=
  Still.bind preserves_get fun _ => effects_unless <|
    effects_advance.onError (preserves_modify fun _ => rfl)

theorem Effect.allRecordable {before after : Machine} (effect : Effect program before after)
    (all : before.AllRecordable program) : after.AllRecordable program := by
  have pushed {step : Step} (recordable : Recordable program step.action) :
      ∀ other ∈ before.sequence.steps.push step, Recordable program other.action := by
    intro other member
    rcases Array.mem_push.1 member with earlier | same
    · exact all other earlier
    · exact same ▸ recordable
  unfold AllRecordable at all ⊢
  cases effect with
  | none sequence _ => rwa [sequence]
  | reserved sequence _ => rwa [sequence]
  | edited step recordable sequence _ =>
    rw [sequence]
    exact pushed recordable
  | made location action arguments recordable _ sequence _ =>
    rw [sequence]
    exact @pushed ⟨location, action, arguments, before.sequence.slotCount⟩ recordable

/-- What happens in a step that leads from one state of a run to the next. -/
theorem effect_of_step {machine after : Machine} {progress : Progress}
    (stepped : step program machine = .ok progress after) : Effect program machine after := by
  have effects := @effects_step program machine
  rw [stepped] at effects
  exact effects

theorem effect_of_failed {machine after : Machine} {error : Error}
    (stepped : step program machine = .error (.error error) after) : Effect program machine after := by
  have effects := @effects_step program machine
  rw [stepped] at effects
  exact effects

/-- The machine before the first step has recorded nothing and knows no raster handles. -/
theorem quiet_of_start {machine : Machine} (started : start program = .ok machine) :
    machine.sequence = (blank program).sequence ∧ machine.slots = (blank program).slots := by
  generalize initial : blank program = first
  have booted : After (boot program first) fun after =>
      (after.sequence, after.slots) = (first.sequence, first.slots) := quiet_boot program first
  rw [← initial, boot_of_start started, initial] at booted
  exact Prod.mk.inj booted

/-- In every state of a run, each recorded action is the answer of a query or a yield. -/
theorem Reachable.recordable {machine : Machine} (reached : Reachable program machine) :
    machine.AllRecordable program := by
  induction reached with
  | start started =>
    unfold AllRecordable
    rw [(quiet_of_start started).1]
    exact fun step member => absurd member (Array.not_mem_empty step)
  | step _ stepped before => exact (effect_of_step stepped).allRecordable before
  | failed _ stepped before => exact (effect_of_failed stepped).allRecordable before

end Machine

end Terrain
