import Terrain.Proofs.Control.Transfers
import Terrain.Proofs.Native.Recordable

/-!
# Stacks within their limits

The calls, the blocks of each call, the operands and the recorded steps each have a limit, which is set
when the machine starts. Whatever a machine does, and whether it ends or fails, they stay within it.

* `Machine.Within` — everything that has a limit is within it.
* `Machine.Confined` — an action that stays within the limits.
* `Machine.confined_execute`, `Machine.confined_step` — all operations and all steps do.
* `Machine.Reachable.within` — so every state of a run is within the limits.
-/

namespace Terrain

/-! ## Limits -/

def CallStack.layout (stack : CallStack) : List (Nat × Nat) :=
  stack.entries.map fun call => (call.blocks.limit, call.blocks.size)

structure CallStack.Within (stack : CallStack) (limits : Limits) : Prop where
  limit : stack.limit = limits.calls
  size : stack.layout.length ≤ limits.calls
  blocks : ∀ frame ∈ stack.layout, frame.1 = limits.blocks ∧ frame.2 ≤ limits.blocks

structure OperandStack.Within (stack : OperandStack) (most : Nat) : Prop where
  limit : stack.limit = most
  size : stack.size ≤ most

structure Sequence.Within (sequence : Sequence) (most : Nat) : Prop where
  limit : sequence.limit = most
  size : sequence.size ≤ most

structure Machine.Within (machine : Machine) (limits : Limits) : Prop where
  calls : machine.calls.Within limits
  operands : machine.operands.Within limits.operands
  sequence : machine.sequence.Within limits.steps

namespace CallStack

variable {stack : CallStack} {limits : Limits} {call : Call} {rest : List Call}

theorem length_layout (stack : CallStack) : stack.layout.length = stack.size := List.length_map _

theorem layout_cons (entries : stack.entries = call :: rest) :
    stack.layout = (call.blocks.limit, call.blocks.size) ::
      rest.map fun call => (call.blocks.limit, call.blocks.size) := by
  rw [layout, entries, List.map_cons]

theorem Within.of_layout {other : CallStack} (within : stack.Within limits)
    (limit : other.limit = stack.limit) (layout : other.layout = stack.layout) : other.Within limits where
  limit := limit.trans within.limit
  size := layout ▸ within.size
  blocks := layout ▸ within.blocks

/-- The blocks of the innermost call are replaced by others within the limit. -/
theorem Within.setTopBlocks {blocks : BlockStack} (within : stack.Within limits)
    (entries : stack.entries = call :: rest) (limit : blocks.limit = call.blocks.limit)
    (size : blocks.size ≤ limits.blocks) : (stack.setTopBlocks blocks).Within limits := by
  have length := within.size
  have frames := within.blocks
  rw [layout_cons entries] at length frames
  have layout : (stack.setTopBlocks blocks).layout = (blocks.limit, blocks.size) ::
      rest.map fun call => (call.blocks.limit, call.blocks.size) := by
    simp [CallStack.setTopBlocks, entries, CallStack.layout]
  rw [List.forall_mem_cons] at frames
  refine ⟨?_, by rwa [layout], ?_⟩
  · rw [CallStack.setTopBlocks, entries]
    exact within.limit
  · rw [layout, List.forall_mem_cons]
    exact ⟨⟨limit.trans frames.1.1, size⟩, frames.2⟩

/-- Replacing the innermost block changes no sizes. -/
theorem Within.setTopBlock {old : Block} (within : stack.Within limits)
    (top : stack.topBlock? = some old) (block : Block) : (stack.setTopBlock block).Within limits := by
  unfold topBlock? BlockStack.top? at top
  cases entries : stack.entries with
  | nil => simp [entries] at top
  | cons call rest =>
    cases inner : call.blocks.entries with
    | nil => simp [entries, inner] at top
    | cons first others =>
      refine within.of_layout ?_ ?_
      · simp [CallStack.setTopBlock, entries]
      · simp [CallStack.setTopBlock, entries, layout, BlockStack.setTop, BlockStack.size, inner]

theorem Within.tail (within : stack.Within limits) (entries : stack.entries = call :: rest) :
    CallStack.Within { stack with entries := rest } limits := by
  have length := within.size
  have frames := within.blocks
  rw [layout_cons entries] at length frames
  rw [List.forall_mem_cons] at frames
  exact ⟨within.limit, Nat.le_of_succ_le length, frames.2⟩

theorem Within.push {pushed : CallStack} (within : stack.Within limits)
    (limit : call.blocks.limit = limits.blocks) (size : call.blocks.size ≤ limits.blocks)
    (run : stack.push call = .ok pushed) : pushed.Within limits := by
  unfold CallStack.push at run
  split at run
  case isTrue => cases run
  case isFalse room =>
    cases run
    have room : stack.layout.length < limits.calls := by
      rw [length_layout, ← within.limit]
      exact Nat.not_le.1 room
    exact ⟨within.limit, room, List.forall_mem_cons.2 ⟨⟨limit, size⟩, within.blocks⟩⟩

end CallStack

theorem BlockStack.size_of_push {stack pushed : BlockStack} {block : Block}
    (run : stack.push block = .ok pushed) :
    pushed.limit = stack.limit ∧ pushed.size ≤ stack.limit := by
  unfold push at run
  split at run
  case isTrue => cases run
  case isFalse room =>
    cases run
    exact ⟨rfl, Nat.not_le.1 room⟩

theorem BlockStack.size_of_pop {stack popped : BlockStack} {heap after : Heap}
    (run : stack.pop heap = .ok popped after) :
    popped.limit = stack.limit ∧ popped.size ≤ stack.size := by
  unfold pop at run
  cases entries : stack.entries with
  | nil =>
    rw [entries] at run
    cases run
  | cons block others =>
    rw [entries] at run
    obtain ⟨_, _, -, ended⟩ := bind_eq_ok run
    cases ended
    refine ⟨rfl, ?_⟩
    simp [size, entries]

namespace OperandStack

variable {stack after : OperandStack} {limit : Nat} {id : ObjectId} {heap heap' : Heap}

theorem Within.push {location : Location} (within : stack.Within limit)
    (run : stack.push id location heap = .ok after heap') : after.Within limit := by
  unfold OperandStack.push at run
  split at run
  case isTrue => cases run
  case isFalse room =>
    obtain ⟨_, _, -, ended⟩ := bind_eq_ok run
    cases ended
    exact ⟨within.limit, within.limit ▸ Nat.not_le.1 room⟩

/-- Fewer operands stay within the limit. -/
theorem Within.drop (within : stack.Within limit) (count : Nat) :
    OperandStack.Within { stack with items := stack.items.drop count } limit where
  limit := within.limit
  size := by
    have size := within.size
    unfold OperandStack.size at size ⊢
    rw [List.length_drop]
    omega

theorem Within.pop (within : stack.Within limit) (run : stack.pop = .ok (id, after)) :
    after.Within limit := by
  unfold OperandStack.pop at run
  split at run
  case h_1 id' items shape =>
    cases run
    have fewer := within.drop 1
    rwa [shape] at fewer
  case h_2 => cases run

theorem Within.take {count : Nat} {ids : List ObjectId} (within : stack.Within limit)
    (run : stack.take count = .ok (ids, after)) : after.Within limit := by
  unfold OperandStack.take checkSize at run
  split at run
  case isTrue => cases run
  case isFalse =>
    cases run
    exact within.drop count

theorem Within.truncate {height : Nat} (within : stack.Within limit)
    (run : stack.truncate height heap = .ok after heap') : after.Within limit := by
  obtain ⟨_, _, -, ended⟩ := bind_eq_ok run
  cases ended
  exact within.drop _

end OperandStack

/-- A step for which there is room may be recorded. -/
theorem Sequence.Within.push {sequence : Sequence} {limit : Nat} {step : Step}
    (within : sequence.Within limit) (room : sequence.check step = .ok ()) :
    (sequence.push step).Within limit := by
  unfold Sequence.check at room
  split at room
  case isTrue => cases room
  case isFalse free =>
    refine ⟨within.limit, ?_⟩
    have more : (sequence.push step).size = sequence.size + 1 := Array.size_push _
    rw [more, ← within.limit]
    exact Nat.not_le.1 free

namespace Machine

variable {α β : Type} {program : Program} {machine : Machine} {location : Location}

/-! ## Confined actions -/

/-- Whether it ends or fails, an action stays within the limits of the program. -/
def Confined (program : Program) (action : MachineM α) : Prop :=
  ∀ machine : Machine, machine.Within program.limits →
    After (action program machine) (·.Within program.limits)

/-- All that limits are about, and what they are. -/
def room (machine : Machine) : Nat × List (Nat × Nat) × OperandStack × Sequence :=
  (machine.calls.limit, machine.calls.layout, machine.operands, machine.sequence)

theorem Within.of_room {limits : Limits} {other : Machine} (within : machine.Within limits)
    (same : other.room = machine.room) : other.Within limits := by
  simp only [room, Prod.mk.injEq] at same
  obtain ⟨limit, layout, operands, sequence⟩ := same
  exact ⟨within.calls.of_layout limit layout, operands ▸ within.operands, sequence ▸ within.sequence⟩

theorem Preserves.confined {action : MachineM α} (preserves : Preserves room action) :
    Confined program action :=
  fun machine within => (preserves program machine).imp fun _ same => within.of_room same

/-- A second action starts from what the first one has come to. -/
theorem After.bind_of_eq_ok {action : MachineM α} {next : α → MachineM β} {holds : Machine → Prop}
    (first : After (action program machine) holds)
    (second : ∀ value between, action program machine = .ok value between → holds between →
      After (next value program between) holds) :
    After ((action >>= next) program machine) holds := by
  change After (EStateM.bind (action program) (fun value => next value program) machine) holds
  unfold EStateM.bind
  cases outcome : action program machine with
  | ok value between =>
    rw [outcome] at first
    exact second value between outcome first
  | error failure between =>
    rw [outcome] at first
    cases failure with
    | error error => exact first
    | breach breach => trivial

theorem Confined.bind {action : MachineM α} {next : α → MachineM β} (first : Confined program action)
    (second : ∀ value, Confined program (next value)) : Confined program (action >>= next) :=
  fun machine within => (first machine within).bind_of_eq_ok fun value between _ => second value between

theorem Confined.andFinally {action : MachineM α} {afterwards : MachineM Unit}
    (first : Confined program action) (second : Confined program afterwards) :
    Confined program (andFinally action afterwards) :=
  fun machine within => (first machine within).andFinally second

theorem Confined.onError {action : MachineM α} {afterwards : MachineM Unit}
    (first : Confined program action) (second : Confined program afterwards) :
    Confined program (onError action afterwards) :=
  fun machine within => (first machine within).onError second

theorem Confined.ite {condition : Prop} [Decidable condition] {action other : MachineM α}
    (first : Confined program action) (second : Confined program other) :
    Confined program (if condition then action else other) := by
  split
  · exact first
  · exact second

theorem confined_pure (value : α) : Confined program (pure value) := (preserves_pure value).confined

theorem confined_raise (error : Error) : Confined program (raise error : MachineM α) :=
  (preserves_raise error).confined

theorem confined_unless {condition : Prop} [Decidable condition] {error : Error}
    {next : PUnit → MachineM α} (rest : Confined program (next ⟨⟩)) :
    Confined program (if condition then raise error >>= next else next ⟨⟩) := by
  split
  · exact fun _ within => within
  · exact rest

/-- What is read of the machine is within the limits. -/
theorem confined_get {next : Machine → MachineM α}
    (rest : ∀ machine, machine.Within program.limits → Confined program (next machine)) :
    Confined program (get >>= next) :=
  fun machine within => rest machine within machine within

theorem confined_read {next : Program → MachineM α} (rest : Confined program (next program)) :
    Confined program (read >>= next) := rest

theorem confined_modify {change : Machine → Machine}
    (kept : ∀ machine, machine.Within program.limits → (change machine).Within program.limits) :
    Confined program (modify change : MachineM PUnit) :=
  fun machine within => kept machine within

theorem confined_inspect (query : Query α) : Confined program (inspect query) :=
  (preserves_inspect query).confined

theorem confined_orRaise {result : Except Error α} {next : α → MachineM β}
    (rest : ∀ value, result = .ok value → Confined program (next value)) :
    Confined program (orRaise result >>= next) := by
  cases result with
  | ok value => exact rest value rfl
  | error error => exact fun _ within => within

theorem preserves_room_onHeap (action : HeapM α) : Preserves room (onHeap action) :=
  preserves_onHeap (fun _ _ => rfl) action

theorem confined_onHeap (action : HeapM α) : Confined program (onHeap action) :=
  (preserves_room_onHeap action).confined

/-- An answer of the heap that is needed for what comes next. -/
theorem confined_onHeap_bind {action : HeapM α} {next : α → MachineM β}
    (rest : ∀ heap value after, action heap = .ok value after → Confined program (next value)) :
    Confined program (onHeap action >>= next) := by
  intro machine within
  refine (confined_onHeap action machine within).bind_of_eq_ok fun value between run => ?_
  obtain ⟨heap, ended, -⟩ := onHeap_eq_ok run
  exact rest _ _ _ ended between

/-! ## Operands and variables -/

theorem confined_push (id : ObjectId) (location : Location) : Confined program (push id location) :=
  confined_get fun _ within => confined_onHeap_bind fun _ _ _ pushed =>
    confined_modify fun _ others => { others with operands := within.operands.push pushed }

theorem confined_pop : Confined program pop :=
  confined_get fun _ within => confined_orRaise fun ⟨_, _⟩ popped =>
    Confined.bind (confined_modify fun _ others => { others with operands := within.operands.pop popped })
      fun _ => confined_pure _

theorem confined_take (count : Nat) : Confined program (take count) :=
  confined_get fun _ within => confined_orRaise fun ⟨_, _⟩ taken =>
    Confined.bind (confined_modify fun _ others => { others with operands := within.operands.take taken })
      fun _ => confined_pure _

theorem confined_truncate (height : Nat) : Confined program (truncate height) :=
  confined_get fun _ within => confined_onHeap_bind fun _ _ _ truncated =>
    confined_modify fun _ others => { others with operands := within.operands.truncate truncated }

theorem confined_pushNew (value : Value) (location : Location) :
    Confined program (pushNew value location) :=
  (confined_onHeap _).bind fun _ => (confined_push _ _).onError (confined_onHeap _)

theorem room_setScope (machine : Machine) (bindings : Bindings) (target : Target) :
    (machine.setScope bindings target).room = machine.room := by
  cases target with
  | global name => rfl
  | inBlock callHeight blockHeight name =>
    unfold setScope
    dsimp only
    split
    case h_1 => rfl
    case h_2 call inCalls =>
      split
      case h_1 => rfl
      case h_2 block inBlocks =>
        have layout := @map_setFromEnd _ _ (fun call : Call => (call.blocks.limit, call.blocks.size))
          machine.calls.entries callHeight call
          { call with blocks := call.blocks.setAt blockHeight { block with locals := bindings } } inCalls
          (by simp [BlockStack.setAt, BlockStack.size])
        exact Prod.ext rfl (Prod.ext layout rfl)

theorem isAside_room : IsAside room where
  heap _ _ := rfl
  scope := room_setScope
  random _ _ := rfl
  messages _ _ := rfl
  pending _ _ := rfl

theorem preserves_room_declareGlobal (location : Location) (name : String) (value : ObjectId)
    (isConst : Bool) : Preserves room (declareGlobal location name value isConst) := by
  refine preserves_get.bind fun _ => (preserves_room_onHeap _).bind fun declared => ?_
  cases declared with
  | none => exact (preserves_room_onHeap _).bind fun _ => preserves_raise _
  | some globals => exact preserves_modify fun _ => rfl

/-! ## Blocks and calls -/

theorem confined_enterBlock (location : Location) (code : CodeBlock) (looping : Bool) :
    Confined program (enterBlock location code looping) := by
  refine confined_get fun machine within => ?_
  dsimp only
  cases entries : machine.calls.entries with
  | nil => exact confined_raise _
  | cons call rest =>
    refine confined_orRaise fun blocks pushed => confined_modify fun _ others => { others with calls := ?_ }
    have limit := (within.calls.blocks _ (CallStack.layout_cons entries ▸ List.mem_cons_self)).1
    obtain ⟨same, size⟩ := BlockStack.size_of_push pushed
    exact within.calls.setTopBlocks entries same (size.trans_eq limit)

theorem confined_leaveBlock : Confined program leaveBlock := by
  refine confined_get fun machine within => ?_
  dsimp only
  cases entries : machine.calls.entries with
  | nil => exact confined_raise _
  | cons call rest =>
    refine confined_onHeap_bind fun _ blocks _ popped => confined_modify fun _ others =>
      { others with calls := ?_ }
    have size := (within.calls.blocks _ (CallStack.layout_cons entries ▸ List.mem_cons_self)).2
    obtain ⟨same, fewer⟩ := BlockStack.size_of_pop popped
    exact within.calls.setTopBlocks entries same (fewer.trans size)

theorem confined_leaveBlocks : ∀ count, Confined program (leaveBlocks count)
  | 0 => confined_pure ()
  | count + 1 => confined_leaveBlock.bind fun _ => confined_leaveBlocks count

theorem confined_restartBlock : Confined program restartBlock := by
  refine confined_get fun machine within => ?_
  dsimp only
  cases top : machine.calls.topBlock? with
  | none => exact confined_pure _
  | some block =>
    exact (confined_onHeap _).bind fun _ => confined_modify fun _ others =>
      { others with calls := within.calls.setTopBlock top _ }

theorem confined_enterCall (location : Location) (function : String) (code : CodeBlock) :
    Confined program (enterCall location function code) := by
  refine confined_read (confined_orRaise fun blocks started => ?_)
  refine confined_get fun _ _ => confined_get fun _ within => confined_orRaise fun calls pushed =>
    confined_modify fun _ others => { others with calls := ?_ }
  obtain ⟨limit, size⟩ := BlockStack.size_of_push started
  exact within.calls.push limit size pushed

theorem confined_takeResult (base : Nat) (explicit : Bool) :
    Confined program (takeResult base explicit) :=
  confined_get fun _ _ => Confined.ite confined_pop <|
    confined_get fun _ _ => (confined_onHeap _).bind fun _ => confined_pure _

theorem confined_leaveCall (explicit : Bool) : Confined program (leaveCall explicit) := by
  refine confined_get fun machine within => ?_
  dsimp only
  cases entries : machine.calls.entries with
  | nil => exact confined_raise _
  | cons call callers =>
    refine Confined.bind (confined_modify fun _ others =>
      { others with calls := within.calls.tail entries }) fun _ => (confined_takeResult _ _).bind fun _ => ?_
    refine (confined_truncate _).bind fun _ => (confined_onHeap _).bind fun _ => ?_
    exact Confined.andFinally (Confined.ite (confined_pure ()) (confined_push _ _)) (confined_onHeap _)

theorem confined_declareLocal (location : Location) (name : String) (isConst : Bool) :
    Confined program (declareLocal location name isConst) := by
  refine confined_pop.bind fun value => confined_get fun machine within => ?_
  dsimp only
  cases top : machine.calls.topBlock? with
  | none => exact (confined_onHeap _).bind fun _ => confined_raise _
  | some block =>
    refine (confined_onHeap _).bind fun declared => ?_
    cases declared with
    | none => exact (confined_onHeap _).bind fun _ => confined_raise _
    | some locals =>
      exact Confined.bind (confined_modify fun _ others =>
        { others with calls := within.calls.setTopBlock top _ }) fun _ => confined_onHeap _

theorem confined_popCondition (location : Location) : Confined program (popCondition location) := by
  refine confined_pop.bind fun condition => (confined_inspect _).bind fun value => ?_
  refine (confined_onHeap _).bind fun _ => ?_
  cases value with
  | boolean taken => exact confined_pure taken
  | _ => exact confined_raise _

/-- Parameters are bound in a block that is there. -/
theorem within_bindParameters (function : String) {block top : Block}
    {parameters : List (String × ObjectId)} (within : machine.Within program.limits)
    (entered : machine.calls.topBlock? = some top) :
    After (bindParameters function block parameters program machine) (·.Within program.limits) := by
  induction parameters generalizing block top machine with
  | nil => exact within
  | cons first rest ih =>
    obtain ⟨parameter, argument⟩ := first
    refine (confined_onHeap _ machine within).bind_of_eq_ok fun declared between run within => ?_
    have keeps : Keeps (fun _ calls _ => calls) (onHeap (block.locals.declare? parameter argument false)) :=
      keeps_onHeap _
    have same : between.calls = machine.calls := keeps _ _ _ _ run
    rw [← same] at entered
    cases declared with
    | none => exact within
    | some locals =>
      exact ih { within with calls := within.calls.setTopBlock entered _ }
        (topBlock?_setTopBlock entered)

theorem confined_callFunction (location : Location) (name : String) (function : ScriptFunction)
    (arguments : List ObjectId) : Confined program (callFunction location name function arguments) := by
  unfold callFunction
  refine confined_unless fun machine within => ?_
  refine (confined_enterCall _ _ _ machine within).bind_of_eq_ok fun _ between run within => ?_
  obtain ⟨_, top, -⟩ := CallStack.topBlock?_of_control (control_of_enterCall run)
  exact within_bindParameters name within top

/-! ## Recording -/

theorem confined_record (step : Step) : Confined program (record step) := by
  intro machine within
  rw [record_run]
  cases checked : machine.sequence.check step with
  | ok _ => exact { within with sequence := within.sequence.push checked }
  | error failure =>
    cases failure with
    | error error => exact within
    | breach breach => trivial

theorem confined_make (action : Action) (arguments : List Slot) (location : Location) :
    Confined program (make action arguments location) := by
  have reserves : Confined program reserve := fun machine within =>
    { within with sequence := ⟨within.sequence.limit, within.sequence.size⟩ }
  have assigns (id : ObjectId) (slot : Slot) : Confined program (assignSlot id slot) := by
    intro machine within
    rw [assignSlot_run]
    cases machine.slots.assign id slot machine.heap with
    | ok slots => exact { within with }
    | error breach => trivial
  exact reserves.bind fun _ => (confined_record _).bind fun _ => (confined_onHeap _).bind fun _ =>
    (assigns _ _).bind fun _ => confined_pure _

theorem confined_edit (receiver : ObjectId) (action : Action) (arguments : List Slot)
    (location : Location) : Confined program (edit receiver action arguments location) :=
  (confined_inspect _).bind fun _ => (confined_record _).bind fun _ => confined_pure _

theorem confined_yieldObject (name : String) (id : ObjectId) (location : Location) :
    Confined program (yieldObject name id location) := by
  refine confined_read ((confined_inspect _).bind fun value => ?_)
  split
  case h_2 => exact confined_raise _
  case h_1 =>
    refine confined_unless (Confined.bind (confined_modify fun _ within => { within with }) fun _ => ?_)
    exact Confined.ite ((confined_inspect _).bind fun _ => confined_record _) (confined_pure ())

end Machine

/-! ## Native functions -/

namespace Native

open Machine

variable {program : Program}

theorem confined_memberFunction {script : Script} {receiver : ObjectId} {value : Value}
    {call : NativeCall} {action : MachineM ObjectId}
    (found : memberFunction? script receiver value call = some action) : Confined program action := by
  unfold memberFunction? staticFunction? at found
  split at found
  case h_1 =>
    split at found
    case h_1 =>
      obtain ⟨query, -, rfl⟩ := Option.map_eq_some_iff.1 found
      exact (confined_inspect _).bind fun _ => confined_make _ _ _
    case h_2 =>
      obtain ⟨query, -, rfl⟩ := Option.map_eq_some_iff.1 found
      exact (confined_inspect _).bind fun _ => confined_make _ _ _
    case h_3 =>
      unfold arrayStatic? at found
      split at found <;> cases found
      · exact (confined_inspect _).bind fun _ => (preserves_arrayOfList isAside_room _).confined
      · exact (preserves_arrayOfList isAside_room _).confined
    case h_4 =>
      obtain ⟨query, -, rfl⟩ := Option.map_eq_some_iff.1 found
      exact (confined_inspect _).bind fun _ => confined_onHeap _
  case h_2 =>
    obtain ⟨query, -, rfl⟩ := Option.map_eq_some_iff.1 found
    exact (confined_inspect _).bind fun _ => confined_edit _ _ _ _
  case h_3 =>
    obtain ⟨query, -, rfl⟩ := Option.map_eq_some_iff.1 found
    exact (confined_inspect _).bind fun _ => confined_edit _ _ _ _
  case h_4 => exact (preserves_arrayMethod isAside_room found).confined
  case h_5 => cases found

theorem confined_callMember (receiver : ObjectId) (call : NativeCall) :
    Confined program (callMember receiver call) := by
  refine (confined_inspect _).bind fun value => ?_
  cases value with
  | null => exact confined_raise _
  | _ =>
    refine confined_read ?_
    split
    case h_1 _ found => exact confined_memberFunction found
    case h_2 => exact confined_raise _

end Native

/-! ## Steps and runs -/

namespace Machine

variable {program : Program} {machine : Machine}

theorem confined_finishNative {native : MachineM ObjectId} (confined : Confined program native)
    (arguments : List ObjectId) (location : Location) :
    Confined program (finishNative native arguments location) := by
  refine Confined.andFinally
    (confined.bind fun _ => (confined_push _ _).onError (confined_onHeap _)) ?_
  exact (confined_onHeap _).bind fun _ => confined_get fun _ _ =>
    Confined.bind (confined_modify fun _ within => { within with }) fun _ => confined_onHeap _

theorem confined_callGlobal (location : Location) (name : String) (count : Nat) :
    Confined program (callGlobal location name count) := by
  refine (confined_take count).bind fun arguments => confined_read ?_
  split
  · exact (confined_callFunction _ _ _ _).andFinally (confined_onHeap _)
  · exact confined_finishNative (Native.preserves_callGlobal isAside_room _).confined _ _

theorem confined_callMember (location : Location) (name : String) (count : Nat) :
    Confined program (callMember location name count) := by
  refine confined_pop.bind fun receiver => Confined.andFinally ?_ (confined_onHeap _)
  exact (confined_take count).bind fun _ => confined_finishNative (Native.confined_callMember _ _) _ _

theorem confined_yieldTop (location : Location) (name : String) :
    Confined program (execute.yieldTop location name) :=
  confined_pop.bind fun _ => (confined_yieldObject _ _ _).andFinally (confined_onHeap _)

/-- Every operation stays within the limits. -/
theorem confined_execute (location : Location) (operation : Operation) :
    Confined program (execute location operation) := by
  cases operation with
  | loadNumber value => exact confined_pushNew _ _
  | loadText value => exact confined_pushNew _ _
  | loadBoolean value => exact confined_pushNew _ _
  | loadNull => exact confined_get fun _ _ => confined_push _ _
  | loadVariable name =>
    exact (confined_inspect _).bind fun _ => (confined_inspect _).bind fun _ => confined_push _ _
  | loadReference name => exact (confined_inspect _).bind fun _ => confined_pushNew _ _
  | loadMember name =>
    refine confined_pop.bind fun _ => Confined.andFinally ?_ (confined_onHeap _)
    exact Confined.bind ((confined_inspect _).bind fun _ => confined_onHeap _) fun _ => confined_push _ _
  | storeVariable name =>
    exact confined_get fun _ _ => confined_orRaise fun _ _ => (confined_inspect _).bind fun _ =>
      (preserves_assign isAside_room _ _ _).confined
  | declareLocal name isConst => exact confined_declareLocal _ _ _
  | declareGlobal name isConst =>
    exact confined_pop.bind fun _ =>
      (preserves_room_declareGlobal _ _ _ _).confined.andFinally (confined_onHeap _)
  | callGlobal name count => exact confined_callGlobal _ _ _
  | callMember name count => exact confined_callMember _ _ _
  | pop => exact confined_pop.bind fun _ => confined_onHeap _
  | ifElse thenBranch elseBranch =>
    exact (confined_popCondition _).bind fun _ => confined_enterBlock _ _ _
  | loop body => exact confined_enterBlock _ _ _
  | block body => exact confined_enterBlock _ _ _
  | breakLoop depth => exact (confined_inspect _).bind fun _ => confined_leaveBlocks _
  | continueLoop depth =>
    exact (confined_inspect _).bind fun _ => (confined_leaveBlocks _).bind fun _ => confined_restartBlock
  | returnCall => exact confined_leaveCall _
  | yieldNamed name => exact confined_yieldTop _ _
  | yieldMain => exact confined_yieldTop _ _

theorem confined_fetch : Confined program fetch := by
  refine confined_get fun machine within => ?_
  dsimp only
  cases top : machine.calls.topBlock? with
  | none => exact confined_pure _
  | some block =>
    dsimp only
    cases block.code[block.cursor]? with
    | none => exact confined_pure _
    | some instruction =>
      exact Confined.bind (confined_modify fun _ others =>
        { others with calls := within.calls.setTopBlock top _ }) fun _ => confined_pure _

theorem confined_finish : Confined program finish :=
  (confined_truncate 0).bind fun _ => confined_read <| confined_get fun _ _ =>
    confined_unless <| confined_modify fun _ within => { within with }

theorem confined_unwindFor : ∀ fuel, Confined program (unwindFor fuel)
  | 0 => confined_pure _
  | fuel + 1 => by
    refine confined_get fun machine _ => ?_
    split
    · exact confined_finish.bind fun _ => confined_pure _
    · split
      · exact (confined_leaveCall _).bind fun _ => confined_unwindFor fuel
      · refine Confined.ite (confined_pure _) (Confined.ite ?_ ?_)
        · exact confined_restartBlock.bind fun _ => confined_pure _
        · exact confined_leaveBlock.bind fun _ => confined_unwindFor fuel

/-- A step stays within the limits, also when it fails. -/
theorem confined_step : Confined program step := by
  have rest : Confined program (do unwindFor (← get).depth) :=
    confined_get fun _ _ => confined_unwindFor _
  have advances : Confined program advance := by
    refine confined_fetch.bind fun fetched => ?_
    cases fetched with
    | none => exact rest
    | some instruction => exact (confined_execute _ _).bind fun _ => rest
  exact confined_get fun _ _ => confined_unless <|
    advances.onError (confined_modify fun _ within => { within with })

theorem confined_boot : Confined program boot := by
  have declares (name : String) (value : Value) (isConst : Bool) :
      Preserves room (declareNew name value isConst) :=
    (preserves_room_onHeap _).bind fun _ => preserves_room_declareGlobal _ _ _ _
  refine confined_read ((confined_onHeap _).bind fun _ => (confined_onHeap _).bind fun _ => ?_)
  refine Confined.bind (confined_modify fun _ within => { within with }) fun _ => ?_
  refine (preserves_forM (fun _ => declares _ _ _) _).confined.bind fun _ =>
    (declares _ _ _).confined.bind fun _ => ?_
  exact (preserves_forM (fun _ => declares _ _ _) _).confined.bind fun _ => confined_enterCall _ _ _

theorem within_blank (program : Program) : (blank program).Within program.limits where
  calls := ⟨rfl, Nat.zero_le _, nofun⟩
  operands := ⟨rfl, Nat.zero_le _⟩
  sequence := ⟨rfl, Nat.zero_le _⟩

/-- Every state of a run is within the limits. -/
theorem Reachable.within (reached : Reachable program machine) : machine.Within program.limits := by
  induction reached with
  | start started =>
    have fresh := within_blank program
    have booted := boot_of_start started
    generalize blank program = first at fresh booted
    have after := confined_boot first fresh
    rw [booted] at after
    exact after
  | step _ stepped before =>
    have after := confined_step _ before
    rw [stepped] at after
    exact after
  | failed _ stepped before =>
    have after := confined_step _ before
    rw [stepped] at after
    exact after

end Machine

end Terrain
