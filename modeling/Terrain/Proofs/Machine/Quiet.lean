import Terrain.Proofs.Machine.Run

/-!
# What actions preserve

Most actions of the machine touch neither the recorded steps nor the slots behind raster handles: they
move operands, blocks and bindings about and change the heap. Here an action is said to preserve a part
of the machine if it does so whether it ends or fails.

* `Machine.After` — what is left when an action ends or fails, broken invariants apart.
* `Machine.Preserves` — an action that leaves a part of the machine as it was.
* `Machine.Quiet` — an action that leaves the sequence and the slots as they were.
* `Machine.IsAside` — a part of the machine that native functions leave alone unless they record.
* `Native.preserves_callGlobal`, `Native.preserves_arrayMethod`, … — native functions that record nothing.
-/

namespace Terrain

namespace Machine

variable {α β γ : Type} {part : Machine → γ}

/-- The machine that an action leaves behind, whether it ends or fails. -/
def After (result : EStateM.Result Failure Machine α) (holds : Machine → Prop) : Prop :=
  match result with
  | .ok _ machine | .error (.error _) machine => holds machine
  | .error (.breach _) _ => True

theorem After.imp {result : EStateM.Result Failure Machine α} {holds holds' : Machine → Prop}
    (after : After result holds) (weaker : ∀ machine, holds machine → holds' machine) :
    After result holds' := by
  match result with
  | .ok _ machine => exact weaker machine after
  | .error (.error _) machine => exact weaker machine after
  | .error (.breach _) _ => exact after

/-- A second action starts from what the first one leaves if it ends. -/
theorem After.bind {action : MachineM α} {next : α → MachineM β} {program : Program}
    {machine : Machine} {between holds : Machine → Prop} (first : After (action program machine) between)
    (second : ∀ value machine, between machine → After (next value program machine) holds)
    (failed : ∀ machine, between machine → holds machine) :
    After ((action >>= next) program machine) holds := by
  change After (EStateM.bind (action program) (fun value => next value program) machine) holds
  unfold EStateM.bind
  cases outcome : action program machine with
  | ok value after =>
    rw [outcome] at first
    exact second value after first
  | error failure after =>
    rw [outcome] at first
    cases failure with
    | error error => exact failed after first
    | breach breach => trivial

/-- What comes of an action once another one has come after it, which passes its result on. -/
theorem After.pass {afterwards : EStateM.Result Failure Machine Unit}
    {result : Machine → EStateM.Result Failure Machine α} {holds : Machine → Prop}
    (last : After afterwards holds) (passes : ∀ machine, holds machine → After (result machine) holds) :
    After (match afterwards with
      | .ok _ machine => result machine
      | .error failure machine => .error failure machine) holds := by
  match afterwards with
  | .ok _ machine => exact passes machine last
  | .error (.error _) machine => exact last
  | .error (.breach _) _ => trivial

/-- An action that comes afterwards starts from what is left in either case. -/
theorem After.andFinally {action : MachineM α} {afterwards : MachineM Unit} {program : Program}
    {machine : Machine} {between holds : Machine → Prop} (first : After (action program machine) between)
    (second : ∀ machine, between machine → After (afterwards program machine) holds) :
    After (andFinally action afterwards program machine) holds := by
  unfold Machine.andFinally
  cases outcome : action program machine with
  | ok value middle =>
    rw [outcome] at first
    exact (second middle first).pass fun _ => id
  | error failure middle =>
    rw [outcome] at first
    cases failure with
    | breach breach => trivial
    | error error => exact (second middle first).pass fun _ => id

theorem After.onError {action : MachineM α} {afterwards : MachineM Unit} {program : Program}
    {machine : Machine} {holds : Machine → Prop} (first : After (action program machine) holds)
    (second : ∀ machine, holds machine → After (afterwards program machine) holds) :
    After (onError action afterwards program machine) holds := by
  unfold Machine.onError
  cases outcome : action program machine with
  | ok value middle =>
    rw [outcome] at first
    exact first
  | error failure middle =>
    rw [outcome] at first
    cases failure with
    | breach breach => trivial
    | error error => exact (second middle first).pass fun _ => id

def Preserves (part : Machine → γ) (action : MachineM α) : Prop :=
  ∀ program machine, After (action program machine) fun after => part after = part machine

abbrev Quiet (action : MachineM α) : Prop :=
  Preserves (fun machine => (machine.sequence, machine.slots)) action

/-! ## Combinators -/

theorem Preserves.bind {action : MachineM α} {next : α → MachineM β} (first : Preserves part action)
    (second : ∀ value, Preserves part (next value)) : Preserves part (action >>= next) :=
  fun program machine => (first program machine).bind
    (fun value between same => (second value program between).imp fun _ same' => same'.trans same)
    fun _ => id

theorem preserves_pure (value : α) : Preserves part (pure value) := fun _ _ => rfl

theorem preserves_get : Preserves part (get : MachineM Machine) := fun _ _ => rfl

theorem preserves_read {next : Program → MachineM β} (rest : ∀ program, Preserves part (next program)) :
    Preserves part (read >>= next) :=
  fun program machine => rest program program machine

theorem preserves_modify {change : Machine → Machine}
    (same : ∀ machine, part (change machine) = part machine) :
    Preserves part (modify change : MachineM PUnit) :=
  fun _ machine => same machine

theorem preserves_throw (failure : Failure) : Preserves part (throw failure : MachineM α) := by
  intro program machine
  cases failure with
  | error error => exact rfl
  | breach breach => trivial

theorem preserves_raise (error : Error) : Preserves part (raise error : MachineM α) := fun _ _ => rfl

theorem preserves_orRaise (result : Except Error α) : Preserves part (orRaise result) := by
  cases result with
  | ok value => exact preserves_pure value
  | error error => exact preserves_raise error

theorem preserves_inspect (query : Query α) : Preserves part (inspect query) := by
  intro program machine
  unfold inspect
  cases query program machine with
  | ok value => exact rfl
  | error failure =>
    cases failure with
    | error error => exact rfl
    | breach breach => trivial

theorem preserves_onHeap (apart : ∀ machine heap, part { machine with heap } = part machine)
    (action : HeapM α) : Preserves part (onHeap action) := by
  intro program machine
  unfold onHeap
  dsimp only
  cases action machine.heap with
  | ok value heap => exact apart machine heap
  | error failure heap =>
    cases failure with
    | error error => exact apart machine heap
    | breach breach => trivial

theorem quiet_onHeap (action : HeapM α) : Quiet (onHeap action) := preserves_onHeap (fun _ _ => rfl) action

theorem Preserves.andFinally {action : MachineM α} {afterwards : MachineM Unit}
    (first : Preserves part action) (second : Preserves part afterwards) :
    Preserves part (andFinally action afterwards) :=
  fun program machine => (first program machine).andFinally
    fun between same => (second program between).imp fun _ same' => same'.trans same

theorem Preserves.onError {action : MachineM α} {afterwards : MachineM Unit}
    (first : Preserves part action) (second : Preserves part afterwards) :
    Preserves part (onError action afterwards) :=
  fun program machine => (first program machine).onError
    fun between same => (second program between).imp fun _ same' => same'.trans same

theorem Preserves.discard {action : MachineM α} (preserves : Preserves part action) :
    Preserves part (discard action) := by
  intro program machine
  have after := preserves program machine
  change After (EStateM.map (fun _ => PUnit.unit) (action program) machine) _
  unfold EStateM.map
  cases outcome : action program machine with
  | ok value after' =>
    rw [outcome] at after
    exact after
  | error failure after' =>
    rw [outcome] at after
    cases failure <;> exact after

theorem Preserves.ite {condition : Prop} [Decidable condition] {action other : MachineM α}
    (first : Preserves part action) (second : Preserves part other) :
    Preserves part (if condition then action else other) := by
  split
  · exact first
  · exact second

/-- An error that ends an action early. -/
theorem preserves_unless {condition : Prop} [Decidable condition] {error : Error}
    {next : PUnit → MachineM α} (rest : Preserves part (next ⟨⟩)) :
    Preserves part (if condition then raise error >>= next else next ⟨⟩) := by
  split
  · exact fun _ _ => rfl
  · exact rest

theorem preserves_forM {action : β → MachineM PUnit} (each : ∀ item, Preserves part (action item)) :
    ∀ items : List β, Preserves part (items.forM action)
  | [] => preserves_pure ()
  | item :: items => (each item).bind fun _ => preserves_forM each items

/-! ## Operands, variables, blocks and calls -/

theorem quiet_push (id : ObjectId) (location : Location) : Quiet (push id location) :=
  preserves_get.bind fun _ => (quiet_onHeap _).bind fun _ => preserves_modify fun _ => rfl

theorem preserves_pop (apart : ∀ machine operands, part { machine with operands } = part machine) :
    Preserves part pop :=
  preserves_get.bind fun _ => (preserves_orRaise _).bind fun ⟨_, _⟩ =>
    Preserves.bind (preserves_modify fun _ => apart _ _) fun _ => preserves_pure _

theorem preserves_take (apart : ∀ machine operands, part { machine with operands } = part machine)
    (count : Nat) : Preserves part (take count) :=
  preserves_get.bind fun _ => (preserves_orRaise _).bind fun ⟨_, _⟩ =>
    Preserves.bind (preserves_modify fun _ => apart _ _) fun _ => preserves_pure _

theorem quiet_pop : Quiet pop := preserves_pop fun _ _ => rfl

theorem quiet_truncate (height : Nat) : Quiet (truncate height) :=
  preserves_get.bind fun _ => (quiet_onHeap _).bind fun _ => preserves_modify fun _ => rfl

theorem quiet_pushNew (value : Value) (location : Location) : Quiet (pushNew value location) :=
  (quiet_onHeap _).bind fun _ => (quiet_push _ _).onError (quiet_onHeap _)

theorem recorded_setScope (machine : Machine) (bindings : Bindings) (target : Target) :
    ((machine.setScope bindings target).sequence, (machine.setScope bindings target).slots) =
      (machine.sequence, machine.slots) := by
  cases target with
  | global name => rfl
  | inBlock callHeight blockHeight name =>
    unfold setScope
    dsimp only
    split
    · rfl
    · split <;> rfl

/-- A part of the machine apart from all that native functions change which record nothing: the heap, the
values of bindings, the random sequence, the messages and the references handed over. -/
structure IsAside (part : Machine → γ) : Prop where
  heap : ∀ machine heap, part { machine with heap } = part machine
  scope : ∀ machine bindings target, part (machine.setScope bindings target) = part machine
  random : ∀ machine random, part { machine with random } = part machine
  messages : ∀ machine messages, part { machine with messages } = part machine
  pending : ∀ machine pending, part { machine with pending } = part machine

theorem isAside_recorded : IsAside fun machine => (machine.sequence, machine.slots) where
  heap _ _ := rfl
  scope := recorded_setScope
  random _ _ := rfl
  messages _ _ := rfl
  pending _ _ := rfl

theorem preserves_assign (aside : IsAside part) (target : Target) (value : ObjectId)
    (location : Location) : Preserves part (assign target value location) := by
  refine (preserves_inspect _).bind fun binding => preserves_get.bind fun _ =>
    (preserves_onHeap aside.heap _).bind ?_
  intro rebound
  cases rebound with
  | none => exact preserves_raise _
  | some bindings => exact preserves_modify fun machine => aside.scope machine bindings target

theorem quiet_assign (target : Target) (value : ObjectId) (location : Location) :
    Quiet (assign target value location) :=
  preserves_assign isAside_recorded target value location

theorem quiet_declareGlobal (location : Location) (name : String) (value : ObjectId)
    (isConst : Bool) : Quiet (Machine.declareGlobal location name value isConst) := by
  refine preserves_get.bind fun _ => (quiet_onHeap _).bind fun declared => ?_
  cases declared with
  | none => exact (quiet_onHeap _).bind fun _ => preserves_raise _
  | some globals => exact preserves_modify fun _ => rfl

theorem quiet_enterBlock (location : Location) (code : CodeBlock) (looping : Bool) :
    Quiet (enterBlock location code looping) := by
  refine preserves_get.bind fun machine => ?_
  dsimp only
  split
  · exact preserves_raise _
  · exact (preserves_orRaise _).bind fun _ => preserves_modify fun _ => rfl

theorem quiet_leaveBlock : Quiet leaveBlock := by
  refine preserves_get.bind fun machine => ?_
  dsimp only
  split
  · exact preserves_raise _
  · exact (quiet_onHeap _).bind fun _ => preserves_modify fun _ => rfl

theorem quiet_leaveBlocks : ∀ count, Quiet (leaveBlocks count)
  | 0 => preserves_pure ()
  | count + 1 => quiet_leaveBlock.bind fun _ => quiet_leaveBlocks count

theorem quiet_restartBlock : Quiet restartBlock := by
  refine preserves_get.bind fun machine => ?_
  dsimp only
  split
  · exact preserves_pure ()
  · exact (quiet_onHeap _).bind fun _ => preserves_modify fun _ => rfl

theorem quiet_enterCall (location : Location) (function : String) (code : CodeBlock) :
    Quiet (enterCall location function code) :=
  preserves_read fun _ => (preserves_orRaise _).bind fun _ => preserves_get.bind fun _ =>
    preserves_get.bind fun _ => (preserves_orRaise _).bind fun _ => preserves_modify fun _ => rfl

theorem quiet_takeResult (base : Nat) (explicit : Bool) : Quiet (takeResult base explicit) :=
  preserves_get.bind fun _ => Preserves.ite quiet_pop <|
    preserves_get.bind fun _ => (quiet_onHeap _).bind fun _ => preserves_pure _

theorem quiet_leaveCall (explicit : Bool) : Quiet (leaveCall explicit) := by
  refine preserves_get.bind fun machine => ?_
  dsimp only
  split
  · exact preserves_raise _
  · refine Preserves.bind (preserves_modify fun _ => rfl) fun _ => (quiet_takeResult _ _).bind fun _ => ?_
    refine (quiet_truncate _).bind fun _ => (quiet_onHeap _).bind fun _ => ?_
    exact Preserves.andFinally (Preserves.ite (preserves_pure ()) (quiet_push _ _)) (quiet_onHeap _)

theorem quiet_declareLocal (location : Location) (name : String) (isConst : Bool) :
    Quiet (declareLocal location name isConst) := by
  refine quiet_pop.bind fun value => preserves_get.bind fun machine => ?_
  dsimp only
  split
  · exact (quiet_onHeap _).bind fun _ => preserves_raise _
  · refine (quiet_onHeap _).bind fun declared => ?_
    cases declared with
    | none => exact (quiet_onHeap _).bind fun _ => preserves_raise _
    | some locals => exact Preserves.bind (preserves_modify fun _ => rfl) fun _ => quiet_onHeap _

theorem quiet_popCondition (location : Location) : Quiet (popCondition location) := by
  refine quiet_pop.bind fun condition => (preserves_inspect _).bind fun value => ?_
  refine (quiet_onHeap _).bind fun _ => ?_
  cases value with
  | boolean taken => exact preserves_pure taken
  | _ => exact preserves_raise _

theorem quiet_bindParameters (function : String) (block : Block) :
    ∀ parameters : List (String × ObjectId), Quiet (bindParameters function block parameters)
  | [] => preserves_pure ()
  | (parameter, argument) :: rest => by
    refine (quiet_onHeap _).bind fun declared => ?_
    cases declared with
    | none => exact preserves_raise _
    | some locals =>
      exact Preserves.bind (preserves_modify fun _ => rfl) fun _ => quiet_bindParameters function _ rest

theorem quiet_callFunction (location : Location) (name : String) (function : ScriptFunction)
    (arguments : List ObjectId) : Quiet (callFunction location name function arguments) := by
  unfold callFunction
  exact preserves_unless ((quiet_enterCall _ _ _).bind fun _ => quiet_bindParameters _ _ _)

end Machine

/-! ## Native functions -/

namespace Native

open Machine

variable {γ : Type} {part : Machine → γ} {program : Program}

theorem preserves_increment (aside : IsAside part) (delta : Float) (answersNew : Bool)
    (call : NativeCall) : Preserves part (increment delta answersNew call) := by
  have onHeap {α : Type} (action : HeapM α) := preserves_onHeap aside.heap action
  exact (preserves_inspect _).bind fun ⟨_, _, _⟩ => (onHeap _).bind fun _ => (onHeap _).bind fun _ =>
    ((preserves_assign aside _ _ _).andFinally (onHeap _)).bind fun _ => onHeap _

theorem preserves_setIndex (aside : IsAside part) (call : NativeCall) :
    Preserves part (setIndex call) := by
  refine (preserves_inspect _).bind fun ⟨array, key?, value⟩ => ?_
  cases key? with
  | none => exact (preserves_onHeap aside.heap _).bind fun _ => preserves_pure _
  | some key => exact (preserves_onHeap aside.heap _).bind fun _ => preserves_pure _

theorem preserves_operator (aside : IsAside part) {call : NativeCall} {action : MachineM ObjectId}
    (found : operator? call = some action) : Preserves part action := by
  unfold operator? at found
  split at found
  case h_1 =>
    cases found
    exact (preserves_inspect _).bind fun _ => preserves_onHeap aside.heap _
  case h_2 =>
    split at found <;> cases found
    case h_5 => exact preserves_inspect _
    case h_6 => exact preserves_setIndex aside call
    all_goals exact preserves_increment aside _ _ call

theorem preserves_random (aside : IsAside part) (call : NativeCall) :
    Preserves part (random call) := by
  refine (preserves_inspect _).bind fun bounds => ?_
  cases bounds with
  | none =>
    refine preserves_get.bind fun machine => ?_
    rcases machine.random.nextUnit with ⟨value, random⟩
    exact Preserves.bind (preserves_modify fun _ => aside.random _ _) fun _ =>
      preserves_onHeap aside.heap _
  | some bounds =>
    refine preserves_get.bind fun machine => ?_
    rcases machine.random.nextInt bounds.1 bounds.2 with ⟨value, random⟩
    refine Preserves.bind (preserves_modify fun _ => aside.random _ _) fun _ => ?_
    cases value with
    | ok value => exact preserves_onHeap aside.heap _
    | error breach => exact preserves_throw _

theorem preserves_function (aside : IsAside part) {call : NativeCall} {action : MachineM ObjectId}
    (found : function? call = some action) : Preserves part action := by
  unfold function? at found
  split at found
  case h_1 =>
    cases found
    exact (preserves_inspect _).bind fun _ => preserves_onHeap aside.heap _
  case h_2 =>
    split at found <;> cases found
    case h_1 => exact preserves_random aside call
    case h_2 =>
      exact (preserves_inspect _).bind fun _ =>
        Preserves.bind (preserves_modify fun _ => aside.messages _ _) fun _ =>
          preserves_get.bind fun _ => preserves_pure _

theorem preserves_callGlobal (aside : IsAside part) (call : NativeCall) :
    Preserves part (callGlobal call) := by
  unfold callGlobal
  cases operator : operator? call with
  | some action => exact preserves_operator aside operator
  | none =>
    cases function : function? call with
    | some action => exact preserves_function aside function
    | none => exact preserves_raise _

theorem preserves_arrayOfList (aside : IsAside part) (values : List ObjectId) :
    Preserves part (arrayOfList values) :=
  (preserves_onHeap aside.heap _).bind fun _ =>
    (preserves_forM (fun _ => preserves_onHeap aside.heap _) values).bind fun _ => preserves_pure _

theorem preserves_popEntry (aside : IsAside part) (receiver : ObjectId)
    (choose : ScriptArray → Option Entry) (remove : ObjectId → HeapM (Option Entry))
    (call : NativeCall) : Preserves part (popEntry receiver choose remove call) :=
  (preserves_inspect _).bind fun _ => (preserves_onHeap aside.heap _).discard.bind fun _ =>
    Preserves.bind (preserves_modify fun _ => aside.pending _ _) fun _ => preserves_pure _

theorem preserves_removeKey (aside : IsAside part) (receiver : ObjectId) (call : NativeCall) :
    Preserves part (removeKey receiver call) :=
  (preserves_inspect _).bind fun _ => (preserves_onHeap aside.heap _).bind fun _ =>
    Preserves.ite (preserves_pure _) ((preserves_inspect _).bind fun _ => preserves_raise _)

theorem preserves_arrayMethod (aside : IsAside part) {receiver : ObjectId} {call : NativeCall}
    {action : MachineM ObjectId} (found : arrayMethod? receiver call = some action) :
    Preserves part action := by
  have onHeap {α : Type} (action : HeapM α) := preserves_onHeap aside.heap action
  have probed {α : Type} {change : ObjectId → HeapM α} {answer : α → MachineM ObjectId}
      (answers : ∀ value, Preserves part (answer value)) :
      Preserves part (do answer (← Machine.onHeap (change (← inspect (probe call))))) :=
    (preserves_inspect _).bind fun _ => (onHeap _).bind answers
  have reordered (change : HeapM Unit) :
      Preserves part (do inspect (call.expect 0 0); Machine.onHeap change; return receiver) :=
    (preserves_inspect _).bind fun _ => (onHeap _).bind fun _ => preserves_pure _
  unfold arrayMethod? at found
  split at found <;> cases found
  case h_1 =>
    exact (preserves_inspect _).bind fun _ => (preserves_inspect _).bind fun _ => onHeap _
  case h_2 => exact preserves_inspect _
  case h_3 => exact preserves_inspect _
  case h_4 => exact probed fun _ => preserves_pure _
  case h_5 => exact preserves_popEntry aside _ _ _ _
  case h_6 => exact preserves_popEntry aside _ _ _ _
  case h_7 => exact probed fun _ => onHeap _
  case h_8 => exact probed fun _ => onHeap _
  case h_9 => exact preserves_removeKey aside receiver call
  case h_10 =>
    exact (preserves_inspect _).bind fun _ => (onHeap _).discard.bind fun _ => preserves_pure _
  case h_11 => exact preserves_inspect _
  case h_12 => exact preserves_inspect _
  case h_13 => exact reordered _
  case h_14 => exact reordered _
  case h_15 =>
    exact (preserves_inspect _).bind fun _ => preserves_get.bind fun _ => (onHeap _).bind fun _ =>
      Preserves.bind (preserves_modify fun _ => aside.random _ _) fun _ => preserves_pure _

theorem quiet_callGlobal (call : NativeCall) : Quiet (callGlobal call) :=
  preserves_callGlobal isAside_recorded call

theorem quiet_arrayOfList (values : List ObjectId) : Quiet (arrayOfList values) :=
  preserves_arrayOfList isAside_recorded values

theorem quiet_arrayMethod {receiver : ObjectId} {call : NativeCall} {action : MachineM ObjectId}
    (found : arrayMethod? receiver call = some action) : Quiet action :=
  preserves_arrayMethod isAside_recorded found

end Native

/-! ## Steps -/

namespace Machine

variable {γ : Type} {part : Machine → γ}

theorem preserves_fetch (apart : ∀ machine calls, part { machine with calls } = part machine) :
    Preserves part fetch := by
  refine preserves_get.bind fun machine => ?_
  dsimp only
  split
  · exact preserves_pure _
  · split
    · exact preserves_pure _
    · exact Preserves.bind (preserves_modify fun _ => apart _ _) fun _ => preserves_pure _

theorem quiet_finish : Quiet finish :=
  (quiet_truncate 0).bind fun _ => preserves_read fun _ => preserves_get.bind fun _ =>
    preserves_unless <| preserves_modify fun _ => rfl

theorem quiet_unwindFor : ∀ fuel, Quiet (unwindFor fuel)
  | 0 => preserves_pure _
  | fuel + 1 => by
    refine preserves_get.bind fun machine => ?_
    split
    · exact quiet_finish.bind fun _ => preserves_pure _
    · split
      · exact (quiet_leaveCall _).bind fun _ => quiet_unwindFor fuel
      · refine Preserves.ite (preserves_pure _) (Preserves.ite ?_ ?_)
        · exact quiet_restartBlock.bind fun _ => preserves_pure _
        · exact quiet_leaveBlock.bind fun _ => quiet_unwindFor fuel

theorem quiet_boot : Quiet boot := by
  have declares (name : String) (value : Value) (isConst : Bool) :
      Quiet (declareNew name value isConst) :=
    (quiet_onHeap _).bind fun _ => quiet_declareGlobal _ _ _ _
  refine preserves_read fun _ => (quiet_onHeap _).bind fun _ => (quiet_onHeap _).bind fun _ => ?_
  refine Preserves.bind (preserves_modify fun _ => rfl) fun _ => ?_
  refine (preserves_forM (fun _ => declares _ _ _) _).bind fun _ => (declares _ _ _).bind fun _ => ?_
  exact (preserves_forM (fun _ => declares _ _ _) _).bind fun _ => quiet_enterCall _ _ _

end Machine

end Terrain
