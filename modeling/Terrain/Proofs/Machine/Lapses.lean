import Terrain.Proofs.Control.Ticks
import Terrain.Proofs.Native.Refusals

/-!
# Lapses of the bookkeeping

What the machine does on its own account can break invariants of the bookkeeping at most: an object
that is gone, a reference too few. In a state of a run those hold, so that nothing is broken. Other
invariants are the business of native functions.

* `Bookkept`, `Machine.Upright` — actions that break no other invariants.
* `Operation.isNative` — operations that call a native function.
* `Machine.upright_execute`, `Machine.upright_unwindFor` — all other operations, and unwinding.
-/

namespace Terrain

/-! ## Actions -/

/-- The only invariants that the action can break are those of the bookkeeping. -/
def Bookkept {σ α : Type} (action : EStateM Failure σ α) : Prop :=
  ∀ state breach after, action state = .error (.breach breach) after → breach.isBookkeeping = true

section Bookkept

variable {σ α β : Type}

theorem Bookkept.bind {action : EStateM Failure σ α} {next : α → EStateM Failure σ β}
    (first : Bookkept action) (second : ∀ value, Bookkept (next value)) :
    Bookkept (action >>= next) := by
  intro state breach after run
  rcases bind_eq_error run with broken | ⟨middle, between, -, broken⟩
  · exact first _ _ _ broken
  · exact second _ _ _ _ broken

theorem bookkept_pure (value : α) : Bookkept (pure value : EStateM Failure σ α) := nofun

theorem bookkept_get : Bookkept (get : EStateM Failure σ σ) := nofun

theorem bookkept_modify (change : σ → σ) : Bookkept (modify change : EStateM Failure σ PUnit) :=
  nofun

theorem bookkept_raise (error : Error) : Bookkept (raise error : EStateM Failure σ α) := nofun

theorem Bookkept.ite {condition : Prop} [Decidable condition] {action other : EStateM Failure σ α}
    (first : Bookkept action) (second : Bookkept other) :
    Bookkept (if condition then action else other) := by
  split
  · exact first
  · exact second

theorem bookkept_forM {action : β → EStateM Failure σ PUnit} (each : ∀ item, Bookkept (action item)) :
    ∀ items : List β, Bookkept (items.forM action)
  | [] => bookkept_pure ()
  | item :: items => (each item).bind fun _ => bookkept_forM each items

end Bookkept

/-! ## The heap -/

namespace Heap

theorem bookkept_fail {α : Type} {breach : Breach} (bookkeeping : breach.isBookkeeping = true) :
    Bookkept (fail breach : HeapM α) := by
  intro heap other after run
  cases run
  exact bookkeeping

theorem bookkept_register (value : Value) : Bookkept (register value) := nofun

theorem bookkept_cell (id : ObjectId) : Bookkept (cell id) := by
  refine bookkept_get.bind fun heap => ?_
  cases heap.cell? id with
  | none => exact bookkept_fail rfl
  | some cell => exact bookkept_pure cell

theorem bookkept_addRef (id : ObjectId) : Bookkept (addRef id) :=
  bookkept_get.bind fun _ => .ite (bookkept_pure _)
    (bookkept_get.bind fun _ => .ite (bookkept_modify _) (bookkept_fail rfl))

theorem bookkept_drain : ∀ (fuel : Nat) (pending : List ObjectId), Bookkept (drain fuel pending)
  | 0, [] | _ + 1, [] => by
    unfold drain
    exact bookkept_pure _
  | 0, _ :: _ => by
    unfold drain
    exact bookkept_fail rfl
  | fuel + 1, id :: pending => by
    unfold drain
    refine (bookkept_cell id).bind fun cell => ?_
    obtain _ | _ | count := cell.references
    · exact bookkept_fail rfl
    · exact (bookkept_modify _).bind fun _ => bookkept_drain fuel _
    · exact (bookkept_modify _).bind fun _ => bookkept_drain fuel _

theorem bookkept_release (id : ObjectId) : Bookkept (release id) :=
  bookkept_get.bind fun _ => .ite (bookkept_pure _) (bookkept_drain _ _)

theorem bookkept_releaseAll (ids : List ObjectId) : Bookkept (releaseAll ids) :=
  bookkept_forM bookkept_release ids

theorem bookkept_destroy (id : ObjectId) : Bookkept (destroy id) :=
  (bookkept_cell id).bind fun _ => .ite
    ((bookkept_modify _).bind fun _ => bookkept_releaseAll _) (bookkept_fail rfl)

theorem bookkept_destroyIfUnreferenced (id : ObjectId) : Bookkept (destroyIfUnreferenced id) :=
  bookkept_get.bind fun _ => .ite (bookkept_destroy id) (bookkept_pure _)

end Heap

open Heap

/-! ## Scopes and stacks -/

theorem Bindings.bookkept_declare? (bindings : Bindings) (name : String) (value : ObjectId)
    (isConst : Bool) : Bookkept (bindings.declare? name value isConst) :=
  .ite (bookkept_pure _) ((bookkept_addRef _).bind fun _ => bookkept_pure _)

theorem Bindings.bookkept_rebind? (bindings : Bindings) (name : String) (binding : Binding)
    (value : ObjectId) : Bookkept (bindings.rebind? name binding value) :=
  .ite (bookkept_pure _) <| .ite (bookkept_pure _) <|
    (bookkept_addRef _).bind fun _ => (bookkept_release _).bind fun _ => bookkept_pure _

theorem Bindings.bookkept_releaseAll (bindings : Bindings) : Bookkept bindings.releaseAll :=
  Heap.bookkept_releaseAll _

theorem OperandStack.bookkept_push (stack : OperandStack) (id : ObjectId) (location : Location) :
    Bookkept (stack.push id location) := by
  unfold OperandStack.push
  split
  · exact (bookkept_raise _).bind fun _ => (bookkept_addRef _).bind fun _ => bookkept_pure _
  · exact (bookkept_addRef _).bind fun _ => bookkept_pure _

theorem OperandStack.bookkept_truncate (stack : OperandStack) (height : Nat) :
    Bookkept (stack.truncate height) :=
  (Heap.bookkept_releaseAll _).bind fun _ => bookkept_pure _

theorem Block.bookkept_restart (block : Block) : Bookkept block.restart :=
  (Bindings.bookkept_releaseAll _).bind fun _ => bookkept_pure _

theorem BlockStack.bookkept_pop (stack : BlockStack) : Bookkept stack.pop := by
  unfold BlockStack.pop
  split
  · exact (Bindings.bookkept_releaseAll _).bind fun _ => bookkept_pure _
  · exact bookkept_raise _

theorem BlockStack.bookkept_releaseAll (stack : BlockStack) : Bookkept stack.releaseAll :=
  bookkept_forM (fun _ => Bindings.bookkept_releaseAll _) _

/-! ## The machine -/

/-- Whether an operation calls a native function. Functions of the script come first. -/
def Operation.isNative (script : Script) : Operation → Bool
  | .callGlobal name _ => (script.functions.get? name).isNone
  | .callMember .. => true
  | _ => false

namespace Machine

variable {α β : Type}

/-- The only invariants that the action can break are those of the bookkeeping. -/
def Upright (program : Program) (action : MachineM α) : Prop := Bookkept (action program)

variable {program : Program}

theorem Upright.bind {action : MachineM α} {next : α → MachineM β} (first : Upright program action)
    (second : ∀ value, Upright program (next value)) : Upright program (action >>= next) :=
  @Bookkept.bind _ _ _ (action program) (fun value => next value program) first second

theorem upright_pure (value : α) : Upright program (pure value) := bookkept_pure value

theorem upright_get : Upright program (get : MachineM Machine) := bookkept_get

theorem upright_modify (change : Machine → Machine) :
    Upright program (modify change : MachineM PUnit) := bookkept_modify change

theorem upright_raise (error : Error) : Upright program (raise error : MachineM α) :=
  bookkept_raise error

theorem upright_read {next : Program → MachineM α} (rest : Upright program (next program)) :
    Upright program (read >>= next) := rest

theorem upright_unless {condition : Prop} [Decidable condition] {error : Error}
    {next : PUnit → MachineM α} (rest : Upright program (next ⟨⟩)) :
    Upright program (if condition then raise error >>= next else next ⟨⟩) := by
  split
  · exact (upright_raise error).bind fun _ => rest
  · exact rest

theorem Upright.ite {condition : Prop} [Decidable condition] {action other : MachineM α}
    (first : Upright program action) (second : Upright program other) :
    Upright program (if condition then action else other) := by
  split
  · exact first
  · exact second

theorem upright_orRaise (result : Except Error α) : Upright program (orRaise result) := by
  cases result with
  | ok value => exact upright_pure value
  | error error => exact upright_raise error

theorem upright_onHeap {action : HeapM α} (bookkept : Bookkept action) :
    Upright program (onHeap action) := by
  intro machine breach after run
  unfold onHeap at run
  dsimp only at run
  split at run
  case h_1 => cases run
  case h_2 outcome =>
    cases run
    exact bookkept _ _ _ outcome

theorem Upright.andFinally {action : MachineM α} {afterwards : MachineM Unit}
    (first : Upright program action) (second : Upright program afterwards) :
    Upright program (andFinally action afterwards) := by
  intro machine breach after run
  unfold Machine.andFinally at run
  split at run
  case h_1 =>
    split at run <;> cases run
    case h_2.refl broken => exact second _ _ _ broken
  case h_2 =>
    split at run <;> cases run
    case h_2.refl broken => exact second _ _ _ broken
  case h_3 broken =>
    cases run
    exact first _ _ _ broken

theorem Upright.onError {action : MachineM α} {afterwards : MachineM Unit}
    (first : Upright program action) (second : Upright program afterwards) :
    Upright program (onError action afterwards) := by
  intro machine breach after run
  unfold Machine.onError at run
  split at run
  case h_1 =>
    split at run <;> cases run
    case h_2.refl broken => exact second _ _ _ broken
  case h_2 => exact first _ _ _ run

/-! ### Queries -/

theorem upright_inspect {query : Query α}
    (breaches : ∀ machine breach, query program machine = .error (.breach breach) →
      breach.isBookkeeping = true) : Upright program (inspect query) := by
  intro machine breach after run
  unfold inspect at run
  split at run <;> cases run
  case h_2.refl broken => exact breaches _ _ broken

theorem upright_value (id : ObjectId) : Upright program (inspect (Query.value id)) := by
  refine upright_inspect fun machine breach broken => ?_
  unfold Query.value at broken
  split at broken <;> cases broken
  rfl

theorem upright_slot (id : ObjectId) : Upright program (inspect (Query.slot id)) := by
  refine upright_inspect fun machine breach broken => ?_
  unfold Query.slot SlotTable.slotOf at broken
  cases found : machine.slots.get? id with
  | none =>
    rw [found] at broken
    cases broken
    rfl
  | some slot =>
    rw [found] at broken
    cases broken

theorem upright_target (name : String) (location : Location) :
    Upright program (inspect (Query.target name location)) := by
  refine upright_inspect fun machine breach broken => ?_
  unfold Query.target at broken
  split at broken <;> cases broken

theorem upright_binding (target : Target) : Upright program (inspect (Query.binding target)) := by
  refine upright_inspect fun machine breach broken => ?_
  unfold Query.binding at broken
  split at broken <;> cases broken

theorem upright_checkLoop (depth : Nat) : Upright program (inspect (checkLoop depth)) := by
  refine upright_inspect fun machine breach broken => ?_
  unfold checkLoop at broken
  split at broken
  · cases broken
  · dsimp only at broken
    split at broken
    · cases broken
    · split at broken <;> cases broken

/-! ### Operands and variables -/

theorem upright_push (id : ObjectId) (location : Location) : Upright program (push id location) :=
  upright_get.bind fun _ => (upright_onHeap (OperandStack.bookkept_push _ _ _)).bind fun _ =>
    upright_modify _

theorem upright_pop : Upright program pop :=
  upright_get.bind fun _ => (upright_orRaise _).bind fun _ => (upright_modify _).bind fun _ =>
    upright_pure _

theorem upright_take (count : Nat) : Upright program (take count) :=
  upright_get.bind fun _ => (upright_orRaise _).bind fun _ => (upright_modify _).bind fun _ =>
    upright_pure _

theorem upright_truncate (height : Nat) : Upright program (truncate height) :=
  upright_get.bind fun _ => (upright_onHeap (OperandStack.bookkept_truncate _ _)).bind fun _ =>
    upright_modify _

theorem upright_pushNew (value : Value) (location : Location) :
    Upright program (pushNew value location) :=
  (upright_onHeap (bookkept_register _)).bind fun _ =>
    (upright_push _ _).onError (upright_onHeap (bookkept_destroy _))

theorem upright_release (id : ObjectId) : Upright program (onHeap (Heap.release id)) :=
  upright_onHeap (Heap.bookkept_release id)

theorem upright_assign (target : Target) (value : ObjectId) (location : Location) :
    Upright program (assign target value location) := by
  refine (upright_binding target).bind fun binding => upright_get.bind fun machine => ?_
  refine (upright_onHeap (Bindings.bookkept_rebind? _ _ _ _)).bind fun rebound => ?_
  cases rebound with
  | none => exact upright_raise _
  | some bindings => exact upright_modify _

theorem upright_declareGlobal (location : Location) (name : String) (value : ObjectId)
    (isConst : Bool) : Upright program (declareGlobal location name value isConst) := by
  refine upright_get.bind fun machine => ?_
  refine (upright_onHeap (Bindings.bookkept_declare? _ _ _ _)).bind fun declared => ?_
  cases declared with
  | none =>
    exact (upright_onHeap (bookkept_destroyIfUnreferenced _)).bind fun _ => upright_raise _
  | some globals => exact upright_modify _

/-! ### Blocks and calls -/

theorem upright_enterBlock (location : Location) (code : CodeBlock) (looping : Bool) :
    Upright program (enterBlock location code looping) := by
  refine upright_get.bind fun machine => ?_
  dsimp only
  split
  · exact upright_raise _
  · exact (upright_orRaise _).bind fun _ => upright_modify _

theorem upright_leaveBlock : Upright program leaveBlock := by
  refine upright_get.bind fun machine => ?_
  dsimp only
  split
  · exact upright_raise _
  · exact (upright_onHeap (BlockStack.bookkept_pop _)).bind fun _ => upright_modify _

theorem upright_leaveBlocks : ∀ count, Upright program (leaveBlocks count)
  | 0 => upright_pure ()
  | count + 1 => upright_leaveBlock.bind fun _ => upright_leaveBlocks count

theorem upright_restartBlock : Upright program restartBlock := by
  refine upright_get.bind fun machine => ?_
  dsimp only
  split
  · exact upright_pure _
  · exact (upright_onHeap (Block.bookkept_restart _)).bind fun _ => upright_modify _

theorem upright_enterCall (location : Location) (function : String) (code : CodeBlock) :
    Upright program (enterCall location function code) :=
  upright_read <| (upright_orRaise _).bind fun _ => upright_get.bind fun _ =>
    upright_get.bind fun _ => (upright_orRaise _).bind fun _ => upright_modify _

theorem upright_takeResult (base : Nat) (explicit : Bool) :
    Upright program (takeResult base explicit) :=
  upright_get.bind fun _ => .ite upright_pop <|
    upright_get.bind fun _ => (upright_onHeap (bookkept_addRef _)).bind fun _ => upright_pure _

theorem upright_leaveCall (explicit : Bool) : Upright program (leaveCall explicit) := by
  refine upright_get.bind fun machine => ?_
  dsimp only
  split
  · exact upright_raise _
  · refine (upright_modify _).bind fun _ => (upright_takeResult _ _).bind fun result => ?_
    refine (upright_truncate _).bind fun _ => ?_
    refine (upright_onHeap (BlockStack.bookkept_releaseAll _)).bind fun _ => ?_
    exact (Upright.ite (upright_pure ()) (upright_push _ _)).andFinally (upright_release result)

theorem upright_declareLocal (location : Location) (name : String) (isConst : Bool) :
    Upright program (declareLocal location name isConst) := by
  refine upright_pop.bind fun value => upright_get.bind fun machine => ?_
  dsimp only
  split
  · exact (upright_release _).bind fun _ => upright_raise _
  · refine (upright_onHeap (Bindings.bookkept_declare? _ _ _ _)).bind fun declared => ?_
    cases declared with
    | none => exact (upright_release _).bind fun _ => upright_raise _
    | some locals => exact (upright_modify _).bind fun _ => upright_release _

theorem upright_popCondition (location : Location) : Upright program (popCondition location) := by
  refine upright_pop.bind fun condition => (upright_value _).bind fun value => ?_
  refine (upright_release _).bind fun _ => ?_
  cases value with
  | boolean taken => exact upright_pure taken
  | _ => exact upright_raise _

theorem upright_bindParameters (function : String) : ∀ (parameters : List (String × ObjectId))
    (block : Block), Upright program (bindParameters function block parameters)
  | [], _ => upright_pure _
  | (parameter, argument) :: rest, block => by
    refine (upright_onHeap (Bindings.bookkept_declare? _ _ _ _)).bind fun declared => ?_
    cases declared with
    | none => exact upright_raise _
    | some locals => exact (upright_modify _).bind fun _ => upright_bindParameters function rest _

theorem upright_callFunction (location : Location) (name : String) (function : ScriptFunction)
    (arguments : List ObjectId) : Upright program (callFunction location name function arguments) := by
  unfold callFunction
  exact upright_unless <| (upright_enterCall _ _ _).bind fun _ => upright_bindParameters _ _ _

/-! ### Recording -/

theorem upright_record (step : Step) : Upright program (record step) := by
  refine upright_get.bind fun machine => ?_
  cases checked : machine.sequence.check step with
  | ok _ => exact upright_modify _
  | error failure =>
    intro _ breach _ run
    cases run
    unfold Sequence.check at checked
    split at checked
    · cases checked
    · split at checked <;> cases checked
      rfl

theorem upright_yieldObject (name : String) (id : ObjectId) (location : Location) :
    Upright program (yieldObject name id location) := by
  refine upright_read ((upright_value _).bind fun value => ?_)
  split
  case h_2 => exact upright_raise _
  case h_1 =>
    refine upright_unless ((upright_modify _).bind fun _ => ?_)
    exact .ite ((upright_slot _).bind fun _ => upright_record _) (upright_pure ())

theorem upright_yieldTop (location : Location) (name : String) :
    Upright program (execute.yieldTop location name) :=
  upright_pop.bind fun _ => (upright_yieldObject _ _ _).andFinally (upright_release _)

/-! ## Operations -/

theorem upright_loadMember (receiver : ObjectId) (name : String) (location : Location) :
    Upright program (Native.loadMember receiver name location) := by
  refine Upright.bind (upright_inspect fun machine breach broken => ?_) fun _ =>
    upright_onHeap (bookkept_register _)
  have start (next : Program → Query Value) :
      (read >>= next) program machine = next program program machine := rfl
  unfold Native.member at broken
  rw [start] at broken
  cases found : machine.heap.cell? receiver with
  | none =>
    have gone : Query.value receiver program machine = .error (.breach (.notRegistered receiver)) := by
      rw [Query.value, found]
    rw [Query.bind_of_eq_error gone] at broken
    cases broken
    rfl
  | some cell =>
    have live : Query.value receiver program machine = .ok cell.value := by rw [Query.value, found]
    rw [Query.bind_of_eq_ok live] at broken
    -- what is there either has the member or raises an error
    cases shape : cell.value with
    | type typeName =>
      simp only [shape] at broken
      cases known : Native.enumMember? program.script typeName name location with
      | none => rw [known] at broken; cases broken
      | some result =>
        rw [known] at broken
        cases result <;> cases broken
    | parameters =>
      simp only [shape] at broken
      cases known : Native.parameterMember? program.parameters name with
      | none => rw [known] at broken; cases broken
      | some value => rw [known] at broken; cases broken
    | _ =>
      rw [shape] at broken
      cases broken

/-- An operation that calls no native function breaks no other invariants. -/
theorem upright_execute {operation : Operation} (own : operation.isNative program.script = false)
    (location : Location) : Upright program (execute location operation) := by
  cases operation with
  | loadNumber value => exact upright_pushNew _ _
  | loadText value => exact upright_pushNew _ _
  | loadBoolean value => exact upright_pushNew _ _
  | loadNull => exact upright_get.bind fun _ => upright_push _ _
  | loadVariable name =>
    exact (upright_target _ _).bind fun _ => (upright_binding _).bind fun _ => upright_push _ _
  | loadReference name => exact (upright_target _ _).bind fun _ => upright_pushNew _ _
  | loadMember name =>
    refine upright_pop.bind fun _ => Upright.andFinally ?_ (upright_release _)
    exact (upright_loadMember _ _ _).bind fun _ => upright_push _ _
  | storeVariable name =>
    exact upright_get.bind fun _ => (upright_orRaise _).bind fun _ =>
      (upright_target _ _).bind fun _ => upright_assign _ _ _
  | declareLocal name isConst => exact upright_declareLocal _ _ _
  | declareGlobal name isConst =>
    exact upright_pop.bind fun _ => (upright_declareGlobal _ _ _ _).andFinally (upright_release _)
  | callGlobal name count =>
    refine (upright_take count).bind fun arguments => upright_read ?_
    have known : (program.script.functions.get? name).isSome := by simpa [Operation.isNative] using own
    obtain ⟨function, known⟩ := Option.isSome_iff_exists.1 known
    rw [known]
    exact (upright_callFunction _ _ _ _).andFinally (upright_onHeap (Heap.bookkept_releaseAll _))
  | callMember name count => cases own
  | pop => exact upright_pop.bind fun _ => upright_release _
  | ifElse thenBranch elseBranch =>
    exact (upright_popCondition _).bind fun _ => upright_enterBlock _ _ _
  | loop body => exact upright_enterBlock _ _ _
  | block body => exact upright_enterBlock _ _ _
  | breakLoop depth => exact (upright_checkLoop _).bind fun _ => upright_leaveBlocks _
  | continueLoop depth =>
    exact (upright_checkLoop _).bind fun _ => (upright_leaveBlocks _).bind fun _ =>
      upright_restartBlock
  | returnCall => exact upright_leaveCall _
  | yieldNamed name => exact upright_yieldTop _ _
  | yieldMain => exact upright_yieldTop _ _

theorem upright_finish : Upright program finish :=
  (upright_truncate 0).bind fun _ => upright_read <| upright_get.bind fun _ =>
    upright_unless (upright_modify _)

theorem upright_unwindFor : ∀ fuel, Upright program (unwindFor fuel)
  | 0 => upright_pure _
  | fuel + 1 => by
    refine upright_get.bind fun machine => ?_
    split
    · exact upright_finish.bind fun _ => upright_pure _
    · split
      · exact (upright_leaveCall _).bind fun _ => upright_unwindFor fuel
      · refine .ite (upright_pure _) (.ite ?_ ?_)
        · exact upright_restartBlock.bind fun _ => upright_pure _
        · exact upright_leaveBlock.bind fun _ => upright_unwindFor fuel

end Machine

end Terrain
