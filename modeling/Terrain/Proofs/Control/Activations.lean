import Terrain.Proofs.Control.Callers

/-!
# Activations of blocks

A block is active from the moment it is entered, or starts another round, until it is left or starts
the next round, and its locals are bound for as long. From outside a local is known by its place, which
is the height of its call, the height of its block in the call, and its name. The place says nothing of
the activation: when it is free again, another block can take it.

* `Scopes` — the locals of all blocks; `Machine.binding?_eq_scopes` looks them up by place.
* `Machine.Deactivates` — the next tick ends the activation of a block.
* `Machine.declared` — the places of the locals that the next tick declares.
* `Scopes.Follows`, `Machine.follows_tick` — what becomes of every place in a tick.
-/

namespace Terrain

abbrev Scopes := List (List Bindings)

def CallStack.scopes (stack : CallStack) : Scopes :=
  stack.entries.map fun call => call.blocks.entries.map (·.locals)

theorem CallStack.scopes_cons {stack : CallStack} {call : Call} {rest : List Call}
    (entries : stack.entries = call :: rest) :
    stack.scopes = call.blocks.entries.map (·.locals) :: rest.map fun call =>
      call.blocks.entries.map (·.locals) := by
  rw [scopes, entries, List.map_cons]

theorem CallStack.exists_of_scopes {stack : CallStack} {top : List Bindings} {callers : Scopes}
    (shape : stack.scopes = top :: callers) :
    ∃ call rest, stack.entries = call :: rest ∧ call.blocks.entries.map (·.locals) = top ∧
      rest.map (fun call => call.blocks.entries.map (·.locals)) = callers :=
  List.map_eq_cons_iff.1 shape

/-! ## Places -/

/-- What is at a height of a stack that has grown by one. -/
theorem getElem?_reverse_cons {α : Type} (item : α) (items : List α) (index : Nat) :
    (item :: items).reverse[index]? =
      if index = items.length then some item else items.reverse[index]? := by
  rw [List.reverse_cons]
  by_cases top : index = items.length
  case pos => simp [top]
  case neg =>
    rw [if_neg top]
    rcases Nat.lt_or_gt_of_ne top with below | above
    · rw [List.getElem?_append_left (by simpa using below)]
    · rw [List.getElem?_eq_none (by simp; omega), List.getElem?_eq_none (by simp; omega)]

/-- What is at a height of a stack the top of which has been exchanged. -/
theorem getElem?_reverse_exchange {α : Type} (put items : List α) (taken index : Nat) :
    (put ++ items.drop taken).reverse[index]? =
      if index + taken < items.length then items.reverse[index]?
      else put.reverse[index - (items.length - taken)]? := by
  have below : (items.drop taken).reverse = items.reverse.take (items.length - taken) := by
    rw [List.reverse_drop]
  rw [List.reverse_append, below]
  split
  case isTrue low =>
    rw [List.getElem?_append_left (by simp; omega), List.getElem?_take_of_lt (by omega)]
  case isFalse high =>
    rw [List.getElem?_append_right (by simp; omega)]
    simp

namespace Scopes

variable {scopes callers before after : Scopes} {top outer fresh : List Bindings} {locals : Bindings}
  {height index count : Nat} {name : String} {declared : List Target}

/-- The binding of a name at a place; heights are counted from the outermost call and block. -/
def binding? (scopes : Scopes) (height index : Nat) (name : String) : Option Binding := do
  let blocks ← scopes.reverse[height]?
  let locals ← blocks.reverse[index]?
  locals.get? name

def inCall? (blocks : List Bindings) (index : Nat) (name : String) : Option Binding :=
  blocks.reverse[index]?.bind (·.get? name)

theorem binding?_cons : binding? (top :: callers) height index name =
    if height = callers.length then inCall? top index name
    else binding? callers height index name := by
  unfold binding?
  rw [getElem?_reverse_cons]
  split <;> rfl

theorem binding?_eq_none (above : scopes.length ≤ height) :
    scopes.binding? height index name = none := by
  unfold binding?
  rw [List.getElem?_eq_none (by simpa using above)]
  rfl

theorem inCall?_cons : inCall? (locals :: outer) index name =
    if index = outer.length then locals.get? name else inCall? outer index name := by
  unfold inCall?
  rw [getElem?_reverse_cons]
  split <;> rfl

theorem lt_of_inCall? {binding : Binding} (bound : inCall? top index name = some binding) :
    index < top.length := by
  obtain ⟨locals, found, -⟩ := Option.bind_eq_some_iff.1 bound
  simpa using (List.getElem?_eq_some_iff.1 found).1

/-- Blocks that are new have no locals. -/
theorem inCall?_exchange (empty : ∀ locals ∈ fresh, locals = .empty) :
    inCall? (fresh ++ top.drop count) index name =
      if index + count < top.length then inCall? top index name else none := by
  unfold inCall?
  rw [getElem?_reverse_exchange]
  split
  case isTrue => rfl
  case isFalse =>
    -- either the place is above the stack, or a block there has just been entered
    cases found : fresh.reverse[index - (top.length - count)]? with
    | none => rfl
    | some locals =>
      rw [empty locals (List.mem_reverse.1 (List.mem_of_getElem? found))]
      rfl

/-- The block at a place is one of so many innermost blocks of the innermost call. -/
def IsInnermost (count : Nat) (scopes : Scopes) (height index : Nat) : Prop :=
  scopes.length = height + 1 ∧ index < (scopes.headD []).length ∧
    (scopes.headD []).length ≤ index + count

instance : Decidable (IsInnermost count scopes height index) :=
  inferInstanceAs (Decidable (_ ∧ _ ∧ _))

theorem not_isInnermost_zero : ¬IsInnermost 0 scopes height index :=
  fun ⟨_, inside, outside⟩ => absurd inside (Nat.not_lt.2 outside)

theorem isInnermost_cons : IsInnermost count (top :: callers) height index ↔
    height = callers.length ∧ index < top.length ∧ top.length ≤ index + count := by
  simp [IsInnermost, eq_comm]

/-! ## What becomes of places -/

/-- So many innermost blocks of the innermost call end, and some places get new names. All other
variables live on, though they may be bound to other objects. -/
structure Follows (count : Nat) (declared : List Target) (before after : Scopes) : Prop where
  ends : ∀ height index name, IsInnermost count before height index →
    after.binding? height index name = none
  lives : ∀ height index name binding, ¬IsInnermost count before height index →
    before.binding? height index name = some binding →
      ∃ value, after.binding? height index name = some { binding with value }
  free : ∀ height index name, .inBlock height index name ∉ declared →
    before.binding? height index name = none → after.binding? height index name = none

/-- Nothing ends, and only what is declared changes. -/
theorem Follows.of_same
    (same : ∀ height index name, .inBlock height index name ∉ declared →
      after.binding? height index name = before.binding? height index name)
    (new : ∀ height index name, .inBlock height index name ∈ declared →
      before.binding? height index name = none) : Follows 0 declared before after where
  ends _ _ _ innermost := absurd innermost not_isInnermost_zero
  lives height index name binding _ bound := by
    refine ⟨binding.value, (same _ _ _ fun member => ?_).trans bound⟩
    rw [new _ _ _ member] at bound
    cases bound
  free height index name old unbound := (same _ _ _ old).trans unbound

theorem Follows.refl (scopes : Scopes) : Follows 0 [] scopes scopes :=
  .of_same (fun _ _ _ _ => rfl) (fun _ _ _ member => nomatch member)

/-- Blocks are left, and empty ones are entered. -/
theorem Follows.exchange (empty : ∀ locals ∈ fresh, locals = .empty) :
    Follows count [] (top :: callers) ((fresh ++ top.drop count) :: callers) where
  ends height index name innermost := by
    obtain ⟨rfl, -, outside⟩ := isInnermost_cons.1 innermost
    rw [binding?_cons, if_pos rfl, inCall?_exchange empty, if_neg (by omega)]
  lives height index name binding other bound := by
    refine ⟨binding.value, ?_⟩
    rw [binding?_cons] at bound ⊢
    split
    case isFalse lower => rwa [if_neg lower] at bound
    case isTrue same =>
      rw [if_pos same] at bound
      have inside := lt_of_inCall? bound
      -- a block that is there and not among those that end is below them
      have stays : index + count < top.length :=
        Nat.lt_of_not_le fun outside => other (isInnermost_cons.2 ⟨same, inside, outside⟩)
      rwa [inCall?_exchange empty, if_pos stays]
  free height index name _ unbound := by
    rw [binding?_cons] at unbound ⊢
    split
    case isFalse lower => rwa [if_neg lower] at unbound
    case isTrue same =>
      rw [if_pos same] at unbound
      rw [inCall?_exchange empty]
      split
      · exact unbound
      · rfl

/-- A call is left with all its blocks. -/
theorem Follows.leave (whole : top.length ≤ count) : Follows count [] (top :: callers) callers where
  ends height index name innermost := by
    obtain ⟨rfl, -⟩ := isInnermost_cons.1 innermost
    exact binding?_eq_none (Nat.le_refl _)
  lives height index name binding other bound := by
    refine ⟨binding.value, ?_⟩
    rw [binding?_cons] at bound
    split at bound
    case isFalse => exact bound
    case isTrue same =>
      -- no block of the call that is left outlives it
      have inside := lt_of_inCall? bound
      exact absurd (isInnermost_cons.2 ⟨same, inside, by omega⟩) other
  free height index name _ unbound := by
    by_cases same : height = callers.length
    case pos => exact binding?_eq_none (Nat.le_of_eq same.symm)
    case neg => rwa [binding?_cons, if_neg same] at unbound

/-- A name is declared in the innermost block. -/
theorem Follows.declare {binding : Binding} (free : locals.get? name = none) :
    Follows 0 [.inBlock callers.length outer.length name] ((locals :: outer) :: callers)
      ((locals.insert name binding :: outer) :: callers) := by
  refine .of_same (fun height index other old => ?_) fun height index other member => ?_
  · rw [binding?_cons, binding?_cons, inCall?_cons, inCall?_cons]
    split
    case isFalse => rfl
    case isTrue sameCall =>
      split
      case isFalse => rfl
      case isTrue sameBlock =>
        refine (Dictionary.get?_insert _ _ _ _).trans (if_neg fun sameName => old ?_)
        rw [sameCall, sameBlock, sameName]
        exact List.mem_singleton_self _
  · cases List.mem_singleton.1 member
    rw [binding?_cons, if_pos rfl, inCall?_cons, if_pos rfl, free]

/-- A function is called; its parameters are bound in its block. -/
theorem Follows.call {parameters : List String}
    (names : ∀ name, locals.get? name ≠ none → name ∈ parameters) :
    Follows 0 (parameters.map (.inBlock scopes.length 0 ·)) scopes ([locals] :: scopes) := by
  refine .of_same (fun height index name old => ?_) fun height index name member => ?_
  · rw [binding?_cons]
    split
    case isFalse => rfl
    case isTrue same =>
      subst same
      rw [binding?_eq_none (Nat.le_refl _), inCall?_cons]
      split
      case isFalse => rfl
      case isTrue single =>
        -- a name that is bound in the new block is a parameter
        refine not_not.1 fun bound => old ?_
        rw [single]
        exact List.mem_map.2 ⟨name, names name bound, rfl⟩
  · obtain ⟨parameter, -, same⟩ := List.mem_map.1 member
    cases same
    exact binding?_eq_none (Nat.le_refl _)

end Scopes

namespace Machine

open Scopes

variable {program : Program} {machine after : Machine} {location : Location}

/-- A local that is known by its place. -/
theorem binding?_eq_scopes (machine : Machine) (height index : Nat) (name : String) :
    machine.binding? (.inBlock height index name) = machine.calls.scopes.binding? height index name := by
  simp only [binding?, scope?, Target.name, Scopes.binding?, CallStack.scopes, CallStack.at?,
    BlockStack.at?, ← List.map_reverse, List.getElem?_map, Option.bind_eq_bind]
  cases machine.calls.entries.reverse[height]? with
  | none => rfl
  | some call =>
    simp only [Option.bind_some, Option.map_some, ← List.map_reverse, List.getElem?_map]
    cases call.blocks.entries.reverse[index]? <;> rfl

/-- A variable that is bound anew keeps its place, and so do all others. -/
theorem Rebinds.follows {target : Target} (rebinds : Rebinds target machine.calls after.calls) :
    Follows 0 [] machine.calls.scopes after.calls.scopes where
  ends _ _ _ innermost := absurd innermost not_isInnermost_zero
  lives height index name binding _ bound := by
    rw [← binding?_eq_scopes] at bound ⊢
    obtain ⟨value, rebound⟩ := rebinds.binding? height index name
    rw [rebound, bound]
    split
    · exact ⟨value, rfl⟩
    · exact ⟨binding.value, rfl⟩
  free height index name _ unbound := by
    rw [← binding?_eq_scopes] at unbound ⊢
    obtain ⟨value, rebound⟩ := rebinds.binding? height index name
    rw [rebound, unbound]
    split <;> rfl

/-! ## Blocks -/

theorem scopes_of_enterBlock {code : CodeBlock} {looping : Bool}
    (run : enterBlock location code looping program machine = .ok () after) :
    ∃ top callers, machine.calls.scopes = top :: callers ∧
      after.calls.scopes = (.empty :: top) :: callers := by
  obtain ⟨_, _, read, run⟩ := run_bind_eq_ok run
  cases read
  dsimp only at run
  cases entries : machine.calls.entries with
  | nil =>
    rw [entries] at run
    cases run
  | cons call rest =>
    rw [entries] at run
    obtain ⟨blocks, pushed, run⟩ := orRaise_bind_eq_ok run
    cases run
    refine ⟨_, _, CallStack.scopes_cons entries, ?_⟩
    unfold BlockStack.push at pushed
    split at pushed
    case isTrue => cases pushed
    case isFalse =>
      cases pushed
      simp only [CallStack.scopes, CallStack.setTopBlocks, entries, List.map_cons]
      rfl

theorem scopes_of_leaveBlock (run : leaveBlock program machine = .ok () after) :
    ∃ locals outer callers, machine.calls.scopes = (locals :: outer) :: callers ∧
      after.calls.scopes = outer :: callers := by
  obtain ⟨_, _, read, run⟩ := run_bind_eq_ok run
  cases read
  dsimp only at run
  cases entries : machine.calls.entries with
  | nil =>
    rw [entries] at run
    cases run
  | cons call rest =>
    rw [entries] at run
    obtain ⟨blocks, heap, popped, run⟩ := onHeap_bind_eq_ok run
    cases run
    cases inner : call.blocks.entries with
    | nil =>
      unfold BlockStack.pop at popped
      rw [inner] at popped
      cases popped
    | cons block others =>
      have shape := CallStack.scopes_cons entries
      rw [inner, List.map_cons] at shape
      refine ⟨_, _, _, shape, ?_⟩
      simp only [CallStack.scopes, CallStack.setTopBlocks, entries, List.map_cons,
        entries_of_pop inner popped]

theorem scopes_of_leaveBlocks {top : List Bindings} {callers : Scopes} {count : Nat}
    (shape : machine.calls.scopes = top :: callers)
    (run : leaveBlocks count program machine = .ok () after) :
    after.calls.scopes = top.drop count :: callers := by
  induction count generalizing machine top with
  | zero =>
    cases run
    exact shape
  | succ count ih =>
    obtain ⟨_, between, left, run⟩ := run_bind_eq_ok run
    obtain ⟨locals, outer, _, start, left⟩ := scopes_of_leaveBlock left
    -- the blocks are the ones of `top`, since leaving one succeeded
    rw [shape] at start
    cases start
    exact ih left run

theorem scopes_setTopBlock {stack : CallStack} {locals : Bindings} {outer : List Bindings}
    {callers : Scopes} (shape : stack.scopes = (locals :: outer) :: callers) (block : Block) :
    (stack.setTopBlock block).scopes = (block.locals :: outer) :: callers := by
  obtain ⟨call, rest, entries, inner, others⟩ := CallStack.exists_of_scopes shape
  obtain ⟨first, blocks, inner, -, outside⟩ := List.map_eq_cons_iff.1 inner
  simp only [CallStack.scopes, CallStack.setTopBlock, entries, BlockStack.setTop, inner,
    List.map_cons, List.drop_succ_cons, List.drop_zero, outside, others]

theorem scopes_of_topBlock? {stack : CallStack} {block : Block} (top : stack.topBlock? = some block) :
    ∃ outer callers, stack.scopes = (block.locals :: outer) :: callers := by
  obtain ⟨call, rest, outer, entries, inner⟩ := CallStack.topBlock?_eq_some top
  have shape := CallStack.scopes_cons entries
  rw [inner, List.map_cons] at shape
  exact ⟨_, _, shape⟩

theorem topBlock?_of_scopes {stack : CallStack} {locals : Bindings} {outer : List Bindings}
    {callers : Scopes} (shape : stack.scopes = (locals :: outer) :: callers) :
    ∃ block, stack.topBlock? = some block := by
  obtain ⟨call, rest, entries, inner, -⟩ := CallStack.exists_of_scopes shape
  obtain ⟨block, blocks, inner, -⟩ := List.map_eq_cons_iff.1 inner
  exact ⟨block, by simp [CallStack.topBlock?, entries, BlockStack.top?, inner]⟩

theorem scopes_of_restartBlock {locals : Bindings} {outer : List Bindings} {callers : Scopes}
    (shape : machine.calls.scopes = (locals :: outer) :: callers)
    (run : restartBlock program machine = .ok () after) :
    after.calls.scopes = (.empty :: outer) :: callers := by
  obtain ⟨block, top⟩ := topBlock?_of_scopes shape
  obtain ⟨_, _, read, run⟩ := run_bind_eq_ok run
  cases read
  dsimp only at run
  rw [top] at run
  obtain ⟨restarted, heap, starts, run⟩ := onHeap_bind_eq_ok run
  cases run
  obtain ⟨_, _, -, ended⟩ := bind_eq_ok starts
  cases ended
  exact scopes_setTopBlock shape _

theorem scopes_advanced (machine : Machine) :
    machine.advanced.calls.scopes = machine.calls.scopes := by
  unfold advanced
  split
  case h_1 block top =>
    obtain ⟨outer, callers, shape⟩ := scopes_of_topBlock? top
    rw [shape]
    exact scopes_setTopBlock shape _
  case h_2 => rfl

/-- A jump stays in its call and starts or leaves a block that is there. -/
theorem checkLoop_eq_ok {depth : Nat} (run : checkLoop depth program machine = .ok ()) :
    ∃ top callers, machine.calls.scopes = top :: callers ∧ 0 < depth ∧ depth ≤ top.length := by
  unfold checkLoop at run
  split at run
  case h_1 => cases run
  case h_2 call rest entries =>
    dsimp only at run
    split at run
    case isTrue => cases run
    case isFalse inside =>
      refine ⟨_, _, CallStack.scopes_cons entries, ?_⟩
      rw [List.length_map]
      change ¬(depth = 0 ∨ call.blocks.entries.length < depth) at inside
      omega

theorem scopes_of_declareLocal {name : String} {isConst : Bool}
    (run : declareLocal location name isConst program machine = .ok () after) :
    ∃ locals outer callers binding, machine.calls.scopes = (locals :: outer) :: callers ∧
      locals.get? name = none ∧
      after.calls.scopes = (locals.insert name binding :: outer) :: callers := by
  obtain ⟨value, between, popped, run⟩ := run_bind_eq_ok run
  have calls : between.calls = machine.calls := by rw [(pop_eq_ok popped).2]
  obtain ⟨_, _, read, run⟩ := run_bind_eq_ok run
  cases read
  dsimp only at run
  rw [calls] at run
  cases top : machine.calls.topBlock? with
  | none =>
    rw [top] at run
    obtain ⟨_, _, -, raised⟩ := run_bind_eq_ok run
    cases raised
  | some block =>
    rw [top] at run
    obtain ⟨outer, callers, shape⟩ := scopes_of_topBlock? top
    obtain ⟨declared, heap, declares, run⟩ := onHeap_bind_eq_ok run
    cases declared with
    | none =>
      obtain ⟨_, _, -, raised⟩ := run_bind_eq_ok run
      cases raised
    | some locals =>
      obtain ⟨free, rfl⟩ := declare?_eq_some declares
      obtain ⟨_, _, changed, run⟩ := run_bind_eq_ok run
      cases changed
      obtain ⟨_, -, rfl⟩ := onHeap_eq_ok run
      exact ⟨block.locals, outer, callers, _, shape, free, scopes_setTopBlock shape _⟩

/-! ## Operations -/

end Machine

/-- How many of the innermost blocks of its call an operation leaves or starts again, out of so many. -/
def Operation.ended (blocks : Nat) : Operation → Nat
  | .breakLoop depth | .continueLoop depth => depth
  | .returnCall => blocks
  | _ => 0

/-- The places of the locals that an operation declares. -/
def Operation.declared (script : Script) (scopes : Scopes) : Operation → List Target
  | .declareLocal name _ => [.inBlock (scopes.length - 1) ((scopes.headD []).length - 1) name]
  | .callGlobal name _ =>
    ((script.functions.get? name).elim [] (·.parameters)).map (.inBlock scopes.length 0 ·)
  | _ => []

namespace Machine

open Scopes

variable {program : Program} {machine after : Machine} {location : Location}

theorem follows_of_leaveCall {explicit : Bool} {count : Nat}
    (whole : (machine.calls.scopes.headD []).length ≤ count)
    (run : leaveCall explicit program machine = .ok () after) :
    Follows count [] machine.calls.scopes after.calls.scopes := by
  cases entries : machine.calls.entries with
  | nil =>
    obtain ⟨_, _, read, run⟩ := run_bind_eq_ok run
    cases read
    dsimp only at run
    rw [entries] at run
    cases run
  | cons call rest =>
    rw [CallStack.scopes_cons entries] at whole ⊢
    rw [calls_of_leaveCall entries run]
    exact .leave whole

theorem follows_of_enterBlock {code : CodeBlock} {looping : Bool}
    (run : enterBlock location code looping program machine = .ok () after) :
    Follows 0 [] machine.calls.scopes after.calls.scopes := by
  obtain ⟨top, callers, before, after⟩ := scopes_of_enterBlock run
  rw [before, after]
  exact @Follows.exchange callers top [.empty] 0 (by simp)

theorem follows_of_breakLoop {depth : Nat} (run : breakLoop depth program machine = .ok () after) :
    Follows depth [] machine.calls.scopes after.calls.scopes := by
  obtain ⟨_, inside, run⟩ := inspect_bind_eq_ok run
  obtain ⟨top, callers, shape, -⟩ := checkLoop_eq_ok inside
  rw [shape, scopes_of_leaveBlocks shape run]
  exact @Follows.exchange callers top [] depth (by simp)

theorem follows_of_continueLoop {depth : Nat}
    (run : continueLoop depth program machine = .ok () after) :
    Follows depth [] machine.calls.scopes after.calls.scopes := by
  obtain ⟨_, inside, run⟩ := inspect_bind_eq_ok run
  obtain ⟨top, callers, shape, positive, within⟩ := checkLoop_eq_ok inside
  obtain ⟨_, between, left, run⟩ := run_bind_eq_ok run
  have left := scopes_of_leaveBlocks shape left
  -- the block that starts again is the outermost of those that end
  rw [List.drop_eq_getElem_cons (by omega), Nat.sub_add_cancel positive] at left
  rw [shape, scopes_of_restartBlock left run]
  exact @Follows.exchange callers top [.empty] depth (by simp)

theorem follows_of_callGlobal {name : String} {count : Nat}
    (run : callGlobal location name count program machine = .ok () after) :
    Follows 0 ((Operation.callGlobal name count).declared program.script machine.calls.scopes)
      machine.calls.scopes after.calls.scopes := by
  simp only [Operation.declared]
  rcases calls_of_callGlobal_eq_ok run with
    ⟨function, frame, block, known, entries, single, names, -⟩ | ⟨native, kept | rebinds⟩
  · -- a function of the script
    rw [known, CallStack.scopes_cons entries, single]
    exact .call names
  · -- a native function
    rw [native, kept]
    exact .refl _
  · -- an increment
    obtain ⟨-, _, target, -, -, rebinds⟩ := rebinds
    rw [native]
    exact rebinds.follows

/-- What an operation does to the locals of all calls. -/
theorem follows_execute {operation : Operation}
    (run : execute location operation program machine = .ok () after) :
    Follows (operation.ended (machine.calls.scopes.headD []).length)
      (operation.declared program.script machine.calls.scopes)
      machine.calls.scopes after.calls.scopes := by
  by_cases plain : operation.isPlain
  case pos =>
    have kept : Keeps (fun _ calls _ => calls) (execute location operation) := keeps_execute plain _
    have same : after.calls = machine.calls := kept _ _ _ _ run
    rw [same]
    cases operation <;> first | exact .refl _ | cases plain
  -- what is left binds locals or transfers control
  cases operation with
  | storeVariable name =>
    obtain ⟨target, -, rebinds⟩ := rebinds_of_storeVariable run
    exact rebinds.follows
  | declareLocal name isConst =>
    obtain ⟨locals, outer, callers, binding, before, free, after⟩ := scopes_of_declareLocal run
    rw [before, after]
    exact .declare free
  | callGlobal name count => exact follows_of_callGlobal run
  | ifElse thenBranch elseBranch =>
    obtain ⟨taken, between, popped, run⟩ := run_bind_eq_ok run
    have kept : Keeps (fun _ calls _ => calls) (popCondition location) := keeps_popCondition _
    have same : between.calls = machine.calls := kept _ _ _ _ popped
    rw [← same]
    exact follows_of_enterBlock run
  | loop body => exact follows_of_enterBlock run
  | block body => exact follows_of_enterBlock run
  | breakLoop depth => exact follows_of_breakLoop run
  | continueLoop depth => exact follows_of_continueLoop run
  | returnCall => exact follows_of_leaveCall (Nat.le_refl _) run
  | _ => exact absurd rfl plain

/-! ## Ticks -/

/-- How many of the innermost blocks of the current call the next tick leaves or starts again. Without
an instruction it is the innermost block, which has come to its end. -/
def ended (machine : Machine) : Nat :=
  machine.pending?.elim 1 fun instruction =>
    instruction.2.ended (machine.calls.scopes.headD []).length

/-- The places of the locals that the next tick declares. -/
def declared (program : Program) (machine : Machine) : List Target :=
  machine.pending?.elim [] fun instruction =>
    instruction.2.declared program.script machine.calls.scopes

/-- The next tick ends the activation of the block at a place: the block is left, alone or with its
call, or starts another round. -/
def Deactivates (machine : Machine) (height index : Nat) : Prop :=
  IsInnermost machine.ended machine.calls.scopes height index

instance (height index : Nat) : Decidable (machine.Deactivates height index) :=
  inferInstanceAs (Decidable (IsInnermost _ _ _ _))

theorem keeps_finish {γ : Type} {view : CallStack → γ} : Keeps (fun _ calls _ => view calls) finish := by
  refine (keeps_truncate 0).bind fun _ => keeps_read.bind fun program => keeps_get.bind fun machine => ?_
  have ends : Keeps (fun _ calls _ => view calls) (modify fun machine : Machine =>
    { machine with status := .finished }) := keeps_modify fun _ => rfl
  split
  · exact (keeps_raise _).bind fun _ => ends
  · exact ends

/-- What a tick does to the locals of all calls. -/
theorem follows_tick (run : tick program machine = .ok () after) :
    Follows machine.ended (machine.declared program) machine.calls.scopes after.calls.scopes := by
  unfold tick at run
  split at run
  case h_1 location operation pending =>
    -- counting the instruction moves a block on and leaves its locals alone
    have follows := follows_execute run
    rw [scopes_advanced] at follows
    simpa only [ended, declared, pending, Option.elim_some] using follows
  case h_2 idle =>
    simp only [ended, declared, idle, Option.elim_none]
    split at run
    case h_1 none =>
      -- the run is over
      have kept : Keeps (fun _ calls _ => calls) finish := keeps_finish
      have same : after.calls = machine.calls := kept _ _ _ _ run
      have empty : machine.calls.scopes = [] := by rw [CallStack.scopes, none, List.map_nil]
      rw [same, empty]
      exact ⟨fun _ _ _ _ => rfl, fun _ _ _ _ _ => nofun, fun _ _ _ _ _ => rfl⟩
    case h_2 call rest entries =>
      split at run
      case h_1 none =>
        refine follows_of_leaveCall ?_ run
        rw [CallStack.scopes_cons entries, List.head?_eq_none_iff.1 none]
        exact Nat.zero_le 1
      case h_2 block top =>
        obtain ⟨outer, callers, shape⟩ := scopes_of_topBlock?
          (show machine.calls.topBlock? = some block by simp [CallStack.topBlock?, entries, top])
        split at run
        case isTrue =>
          rw [shape, scopes_of_restartBlock shape run]
          exact @Follows.exchange callers (block.locals :: outer) [.empty] 1 (by simp)
        case isFalse =>
          obtain ⟨_, _, _, same, left⟩ := scopes_of_leaveBlock run
          rw [shape] at same
          cases same
          rw [shape, left]
          exact @Follows.exchange callers (block.locals :: outer) [] 1 (by simp)

end Machine

end Terrain
