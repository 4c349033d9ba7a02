import Terrain.Proofs.Control.Activations
import Terrain.Proofs.Control.Isolation
import Terrain.Proofs.Native.Refusals

/-!
# What references designate

A reference names a local by its place, and an increment through it acts on the variable that is bound
there. While the activation that the reference was made in lasts, this is the variable it was made from.
Once the activation has ended the place is free, and an increment finds the reference dangling. But the
place can be taken again: when another activation declares the same name at the same heights, the
increment acts on a variable that the reference was not made from.

* `Machine.Passes` — ticks from a state on; `Machine.Passes.binding?` follows a place along them.
* `Machine.Applying` — the next tick applies an increment to a reference.
* `Machine.reference_designates` — what an increment does if the place was not taken again.
* `Machine.revisit_misdirected` — what it does otherwise.
-/

namespace Terrain

/-- Counting a reference changes no value. -/
theorem Heap.value?_of_addRef {id other : ObjectId} {heap counted : Heap}
    (run : Heap.addRef id heap = .ok () counted) : counted.value? other = heap.value? other := by
  obtain ⟨_, _, read, run⟩ := bind_eq_ok run
  cases read
  split at run
  · cases run
    rfl
  obtain ⟨_, _, read, run⟩ := bind_eq_ok run
  cases read
  split at run
  · cases run
    refine (congrArg (Option.map (·.value)) (Heap.cell?_modifyCell _ _ _ _)).trans ?_
    split
    · cases found : heap.cell? other <;> simp [Heap.value?, found]
    · rfl
  · cases run

namespace Machine

variable {program : Program} {machine after start : Machine} {path : List Machine}
  {location place : Location} {name operator : String} {height index : Nat} {target : Target}
  {reference : ObjectId} {rest : List ObjectId}

/-! ## Places along a run -/

inductive Passes (program : Program) (start : Machine) : List Machine → Machine → Prop
  | here : Passes program start [] start
  | tick {path : List Machine} {machine after : Machine}
      (before : Passes program start path machine) (run : tick program machine = .ok () after) :
      Passes program start (machine :: path) after

theorem Passes.sound {steps : Array Step} (sound : start.Sound ⟨[], steps⟩ 0 ∅)
    (run : Passes program start path machine) : ∃ steps, machine.Sound ⟨[], steps⟩ 0 ∅ := by
  induction run with
  | here => exact ⟨steps, sound⟩
  | tick before run ih =>
    obtain ⟨_, sound⟩ := ih
    exact sound.tick run

/-- A variable is bound at its place until its activation ends. Then the place is free until the name
is declared there again. -/
theorem Passes.binding? {binding : Binding} (run : Passes program start path machine)
    (bound : start.binding? (.inBlock height index name) = some binding)
    (untaken : ∀ state ∈ path, .inBlock height index name ∉ state.declared program) :
    if ∃ state ∈ path, state.Deactivates height index then
      machine.binding? (.inBlock height index name) = none
    else ∃ value, machine.binding? (.inBlock height index name) = some { binding with value } := by
  -- every tick keeps a free place free and a bound one bound, unless it ends the activation
  induction run with
  | here =>
    rw [if_neg (by simp)]
    exact ⟨binding.value, bound⟩
  | @tick path machine after before run ih =>
    have follows := follows_tick run
    have earlier := ih fun state member => untaken state (.tail _ member)
    simp only [binding?_eq_scopes] at earlier ⊢
    by_cases past : ∃ state ∈ path, state.Deactivates height index
    case pos =>
      obtain ⟨state, member, ends⟩ := past
      rw [if_pos ⟨state, member, ends⟩] at earlier
      rw [if_pos ⟨state, .tail _ member, ends⟩]
      exact follows.free _ _ _ (untaken machine (.head _)) earlier
    case neg =>
      rw [if_neg past] at earlier
      obtain ⟨value, earlier⟩ := earlier
      by_cases ends : machine.Deactivates height index
      case pos =>
        rw [if_pos ⟨machine, .head _, ends⟩]
        exact follows.ends _ _ _ ends
      case neg =>
        rw [if_neg]
        · obtain ⟨next, later⟩ := follows.lives _ _ _ _ ends earlier
          exact ⟨next, later⟩
        · rintro ⟨state, member, otherEnds⟩
          rcases List.mem_cons.1 member with rfl | member
          · exact ends otherEnds
          · exact past ⟨state, member, otherEnds⟩

/-- All variables are where they were. -/
theorem binding?_congr (scopes : after.calls.scopes = machine.calls.scopes)
    (globals : after.globals = machine.globals) (target : Target) :
    after.binding? target = machine.binding? target := by
  cases target with
  | global name => simp only [binding?, scope?, globals]
  | inBlock height index name => rw [binding?_eq_scopes, binding?_eq_scopes, scopes]

/-! ## Making a reference -/

/-- Which variable a name means depends on the names in the blocks only. -/
theorem targetIn?_congr : ∀ {blocks others : List Block},
    blocks.map (·.locals) = others.map (·.locals) →
      targetIn? height name blocks = targetIn? height name others
  | [], [], _ => rfl
  | [], _ :: _, same => nomatch same
  | _ :: _, [], same => nomatch same
  | block :: outer, other :: rest, same => by
    obtain ⟨first, same⟩ := List.cons.inj same
    have first : block.locals = other.locals := first
    have sizes : outer.length = rest.length := by simpa using congrArg List.length same
    unfold targetIn?
    rw [first, sizes, targetIn?_congr same]

theorem target?_advanced (machine : Machine) (name : String) :
    machine.advanced.target? name = machine.target? name := by
  unfold advanced
  split
  case h_2 => rfl
  case h_1 block top =>
    obtain ⟨call, rest, outer, entries, inner⟩ := CallStack.topBlock?_eq_some top
    have moved : targetIn? rest.length name
        ({ block with cursor := block.cursor + 1 } :: outer) =
          targetIn? rest.length name (block :: outer) := targetIn?_congr rfl
    simp [target?, CallStack.setTopBlock, CallStack.size, entries, BlockStack.setTop, inner, moved]

/-- The block that a name is found in has it. -/
theorem inCall?_of_targetIn? : ∀ {blocks : List Block},
    targetIn? height name blocks = some (.inBlock height index name) →
      ∃ binding, Scopes.inCall? (blocks.map (·.locals)) index name = some binding
  | [], found => nomatch found
  | block :: outer, found => by
    unfold targetIn? at found
    rw [List.map_cons, Scopes.inCall?_cons, List.length_map]
    split at found
    case isTrue has =>
      cases found
      rw [if_pos rfl]
      exact Option.isSome_iff_exists.1 has
    case isFalse =>
      -- the name is further out, so below this block
      obtain ⟨binding, bound⟩ := inCall?_of_targetIn? found
      have inside := Scopes.lt_of_inCall? bound
      rw [List.length_map] at inside
      exact ⟨binding, by rwa [if_neg (Nat.ne_of_lt inside)]⟩

theorem exists_binding_of_target? (found : machine.target? name = some (.inBlock height index name)) :
    ∃ binding, machine.binding? (.inBlock height index name) = some binding := by
  obtain isGlobal | ⟨_, same⟩ := target?_eq_some found
  · cases isGlobal
  cases same
  unfold target? at found
  rcases (Option.orElse_eq_some _ _ _).1 found with inCall | ⟨-, isGlobal⟩
  · obtain ⟨call, first, found⟩ := Option.bind_eq_some_iff.1 inCall
    obtain ⟨rest, entries⟩ := List.head?_eq_some_iff.1 first
    obtain ⟨binding, bound⟩ := inCall?_of_targetIn? found
    refine ⟨binding, ?_⟩
    rw [binding?_eq_scopes, CallStack.scopes_cons entries, Scopes.binding?_cons, if_pos]
    · exact bound
    · simp [CallStack.size, entries]
  · split at isGlobal <;> cases isGlobal

/-- A new object is on top and has its value. -/
theorem pushNew_eq_ok {value : Value} (run : pushNew value location program machine = .ok () after) :
    ∃ id, after.operands.items = id :: machine.operands.items ∧ after.heap.value? id = some value := by
  obtain ⟨id, heap, registered, run⟩ := onHeap_bind_eq_ok run
  obtain ⟨counted, counts, rfl⟩ := push_eq_ok (onError_eq_ok run)
  cases (Heap.register_run machine.heap value).symm.trans registered
  refine ⟨_, rfl, (Heap.value?_of_addRef counts).trans ?_⟩
  exact congrArg (Option.map (·.value)) ((Heap.cell?_register _ _ _).trans (if_pos rfl))

/-- A reference is made to the variable that its name means. -/
theorem tick_loadReference (pending : machine.pending? = some (location, .loadReference name))
    (found : machine.target? name = some target) (run : tick program machine = .ok () after) :
    ∃ object, after.operands.items = object :: machine.operands.items ∧
      after.heap.value? object = some (.reference target) := by
  unfold tick at run
  rw [pending] at run
  obtain ⟨made, known, run⟩ := inspect_bind_eq_ok run
  unfold Query.target at known
  rw [target?_advanced, found] at known
  cases known
  obtain ⟨object, operands, value⟩ := pushNew_eq_ok run
  obtain ⟨calls, moved, -⟩ := advanced_eq machine
  rw [moved] at operands
  exact ⟨object, operands, value⟩

/-! ## Increments -/

structure Applying (program : Program) (machine : Machine) (place : Location) (operator : String)
    (reference : ObjectId) (rest : List ObjectId) (target : Target) : Prop where
  pending : machine.pending? = some (place, .callGlobal operator 1)
  increments : operator ∈ Native.increments
  native : program.script.functions.get? operator = none
  operands : machine.operands.items = reference :: rest
  refers : machine.heap.value? reference = some (.reference target)

/-- The machine when an instruction calls a native function: the instruction is counted, and the
arguments are off the stack. -/
def calling (machine : Machine) (rest : List ObjectId) : Machine :=
  { machine.advanced with operands := { machine.operands with items := rest } }

theorem calling_eq (machine : Machine) (rest : List ObjectId) :
    ∃ calls, machine.calling rest =
        { machine with calls, operands := { machine.operands with items := rest } } ∧
      calls.scopes = machine.calls.scopes := by
  obtain ⟨calls, moved, -⟩ := advanced_eq machine
  have scopes := scopes_advanced machine
  rw [moved] at scopes
  refine ⟨calls, ?_, scopes⟩
  unfold calling
  rw [moved]

theorem binding?_calling (machine : Machine) (rest : List ObjectId) (target : Target) :
    (machine.calling rest).binding? target = machine.binding? target := by
  obtain ⟨calls, same, scopes⟩ := calling_eq machine rest
  rw [same]
  refine binding?_congr ?_ ?_ target
  · exact scopes
  · rfl

theorem Applying.tick_eq (applying : Applying program machine place operator reference rest target) :
    tick program machine = finishNative (Native.callGlobal ⟨place, operator, [reference]⟩) [reference]
      place program (machine.calling rest) := by
  have enough : ¬(reference :: rest).length < 1 := by simp
  -- the argument is the operand on top
  have taken : take 1 program machine.advanced = .ok [reference] (machine.calling rest) := by
    obtain ⟨calls, moved, -⟩ := advanced_eq machine
    change (orRaise (machine.advanced.operands.take 1) >>= _ : MachineM _) program _ = _
    unfold OperandStack.take OperandStack.checkSize OperandStack.size calling
    simp only [moved, applying.operands, if_neg enough]
    rfl
  unfold tick
  rw [applying.pending]
  refine (run_bind_of_eq_ok taken).trans ?_
  refine (run_bind_of_eq_ok (show (read : MachineM Program) program _ = .ok program _ from rfl)).trans ?_
  rw [applying.native]

/-- An increment through a reference to nothing is refused before anything happens. -/
theorem incrementOperand_of_dangling {delta : Float} {call : NativeCall}
    (single : call.arguments = [reference])
    (refers : machine.heap.value? reference = some (.reference target))
    (dangling : machine.binding? target = none) :
    Native.incrementOperand delta call program machine =
      .error (.error (.intermediateCode s!"dangling reference {target.fields}")) := by
  have expected : call.expect 1 1 program machine = .ok () := by
    simp [NativeCall.expect, NativeCall.count, single, pure, ReaderT.pure, Except.pure]
  have first : call.object 0 program machine = .ok reference := by
    simp [NativeCall.object, single, pure, ReaderT.pure, Except.pure]
  have value : call.value 0 program machine = .ok (.reference target) := by
    refine (Query.bind_of_eq_ok first).trans ?_
    obtain ⟨cell, found, stored⟩ := Option.map_eq_some_iff.1 refers
    simp only [Query.value, found, stored]
  have unbound : Query.binding target program machine =
      .error (.error (.intermediateCode s!"dangling reference {target.fields}")) := by
    simp only [Query.binding, dangling]
  -- the variable is looked up before its number is
  refine (Query.bind_of_eq_ok expected).trans ((Query.bind_of_eq_ok value).trans ?_)
  exact Query.bind_of_eq_error unbound

/-- The arguments of a native call that fails are given back. -/
theorem finishNative_of_error {native : MachineM ObjectId} {arguments : List ObjectId} {error : Error}
    {heap : Heap} (failed : native program machine = .error (.error error) after)
    (released : Heap.releaseAll arguments after.heap = .ok () heap) (settled : after.pending = []) :
    finishNative native arguments location program machine =
      .error (.error error) { after with heap } := by
  have first : (native >>= fun result =>
      onError (push result location) (onHeap (Heap.destroyIfUnreferenced result))) program machine =
        .error (.error error) after := by
    rw [Upshot.run_bind, failed]
    rfl
  have last : (do
      onHeap (Heap.releaseAll arguments)
      let pending := (← get).pending
      modify fun machine => { machine with pending := [] }
      onHeap (Heap.releaseAll pending) : MachineM Unit) program after =
        .ok () { after with heap } := by
    refine (run_onHeap_bind released).trans ?_
    change onHeap (Heap.releaseAll after.pending) program { after with heap, pending := [] } = _
    rw [settled]
    obtain ⟨⟩ := after
    cases settled
    rfl
  unfold finishNative andFinally
  rw [first]
  dsimp only
  rw [last]

/-- Nothing is bound where the reference points to. -/
theorem Applying.tick_of_dangling {steps : Array Step} (sound : machine.Sound ⟨[], steps⟩ 0 ∅)
    (applying : Applying program machine place operator reference rest target)
    (dangling : machine.binding? target = none) :
    ∃ after, tick program machine =
        .error (.error (.intermediateCode s!"dangling reference {target.fields}")) after ∧
      ∀ other, after.binding? other = machine.binding? other := by
  obtain ⟨delta, answersNew, same⟩ :=
    @callGlobal_of_increments ⟨place, operator, [reference]⟩ applying.increments
  obtain ⟨calls, moved, scopes⟩ := calling_eq machine rest
  have refers : (machine.calling rest).heap.value? reference = some (.reference target) := by
    rw [moved]
    exact applying.refers
  have refused : Native.callGlobal ⟨place, operator, [reference]⟩ program (machine.calling rest) =
      .error (.error (.intermediateCode s!"dangling reference {target.fields}"))
        (machine.calling rest) := by
    have looked := @incrementOperand_of_dangling program _ _ _ delta ⟨place, operator, [reference]⟩ rfl
      refers ((binding?_calling _ _ _).trans dangling)
    rw [same]
    change EStateM.bind (inspect (Native.incrementOperand delta _) program) _ _ = _
    simp only [EStateM.bind, inspect, looked]
  -- the reference was held by the operand that is gone
  have accounted : machine.heap.Accounted (↑[reference] + (↑rest + (machine.calls.held +
      machine.globals.held + ↑machine.pending + {machine.null}))) ∅ machine.handles := by
    refine sound.accounted.of_eq ?_
    rw [held, applying.operands, ← Multiset.cons_coe, Multiset.coe_singleton,
      ← Multiset.singleton_add]
    abel
  obtain ⟨heap, released, -⟩ := Heap.drops_releaseAll _ _ _ _ _ accounted
  have settled : (machine.calling rest).pending = [] := by
    rw [moved]
    exact sound.pending
  have stored : (machine.calling rest).heap = machine.heap := by rw [moved]
  refine ⟨_, applying.tick_eq.trans (finishNative_of_error refused (stored ▸ released) settled), ?_⟩
  exact fun other => binding?_calling machine rest other

theorem globals_of_assign {value : ObjectId}
    (run : assign (.inBlock height index name) value location program machine = .ok () after) :
    after.globals = machine.globals := by
  obtain ⟨binding, -, run⟩ := inspect_bind_eq_ok run
  obtain ⟨_, _, read, run⟩ := run_bind_eq_ok run
  cases read
  obtain ⟨rebound, heap, -, run⟩ := onHeap_bind_eq_ok run
  cases rebound with
  | none => cases run
  | some bindings =>
    cases run
    simp only [setScope]
    split
    · rfl
    · split <;> rfl

/-- An increment that ends has bound its variable anew, and no other. -/
theorem Applying.binding?_of_ok
    (applying : Applying program machine place operator reference rest (.inBlock height index name))
    (run : tick program machine = .ok () after) :
    (∃ value, after.binding? (.inBlock height index name) =
        (machine.binding? (.inBlock height index name)).map ({ · with value })) ∧
      ∀ other, other ≠ .inBlock height index name →
        after.binding? other = machine.binding? other := by
  rw [applying.tick_eq] at run
  obtain ⟨id, between, _, _, called, rfl⟩ := finishNative_eq_ok run
  obtain ⟨delta, answersNew, same⟩ :=
    @callGlobal_of_increments ⟨place, operator, [reference]⟩ applying.increments
  rw [same] at called
  obtain ⟨_, target, value, heap, assigned, _, single, refers, assigns, rfl⟩ := increment_eq_ok called
  obtain ⟨calls, moved, scopes⟩ := calling_eq machine rest
  rw [moved] at refers assigns
  -- the variable that is bound anew is the one of the reference
  cases single
  cases Option.some.inj (refers.symm.trans applying.refers)
  have rebinds := rebinds_of_assign assigns
  have globals := globals_of_assign assigns
  have before (other : Target) : { machine with
      heap, calls, operands := { machine.operands with items := rest } }.binding? other =
        machine.binding? other := by
    refine binding?_congr ?_ ?_ other
    · exact scopes
    · rfl
  have bound := @Rebinds.binding? _ _ _ rebinds
  simp only [before] at bound
  constructor
  · obtain ⟨value, bound⟩ := bound height index name
    rw [if_pos rfl] at bound
    exact ⟨value, bound⟩
  · intro other different
    cases other with
    | global other =>
      simp only [binding?, scope?]
      rw [globals]
    | inBlock otherHeight otherIndex otherName =>
      obtain ⟨_, bound⟩ := bound otherHeight otherIndex otherName
      rwa [if_neg (Ne.symm different)] at bound

/-- A push onto a stack with room does not fail. -/
theorem push_ne_error {id : ObjectId} {error : Error}
    (room : machine.operands.size < machine.operands.limit) :
    push id location program machine ≠ .error (.error error) after := by
  intro failed
  obtain failed | ⟨_, _, read, failed⟩ := run_bind_eq_error failed
  · cases failed
  cases read
  obtain failed | ⟨_, _, -, failed⟩ := run_bind_eq_error failed
  · refine sure_onHeap ?_ program _ _ _ failed
    unfold OperandStack.push
    rw [if_neg (Nat.not_le.2 room)]
    exact (Heap.unfailing_addRef id).bind fun _ => unfailing_pure _
  · cases failed

/-- An increment that fails has bound nothing. -/
theorem Applying.binding?_of_error {steps : Array Step} {error : Error}
    (sound : machine.Sound ⟨[], steps⟩ 0 ∅)
    (applying : Applying program machine place operator reference rest target)
    (failed : tick program machine = .error (.error error) after) (other : Target) :
    after.binding? other = machine.binding? other := by
  obtain ⟨calls, moved, -⟩ := calling_eq machine rest
  rw [applying.tick_eq] at failed
  have givesBack : Sure (do
      onHeap (Heap.releaseAll [reference])
      let pending := (← get).pending
      modify fun machine => { machine with pending := [] }
      onHeap (Heap.releaseAll pending) : MachineM Unit) :=
    (sure_onHeap (Heap.unfailing_releaseAll _)).bind fun _ => sure_get.bind fun _ =>
      (sure_modify _).bind fun _ => sure_onHeap (Heap.unfailing_releaseAll _)
  obtain ⟨between, first, last⟩ := andFinally_eq_error givesBack failed
  -- the error is the one of the native call, since its result has room
  have untouched : (machine.calling rest).Untouched between := by
    obtain refused | ⟨id, called, native, full⟩ := run_bind_eq_error first
    · refine Native.cautious_callGlobal _ program _ _ _ ?_ refused
      rw [moved]
      exact sound.accounted.isOpen
    · have kept : Keeps (fun operands _ _ => operands)
          (Native.callGlobal ⟨place, operator, [reference]⟩) :=
        Native.keeps_callGlobal fun _ => keeps_operands_assign
      have operands : called.operands = (machine.calling rest).operands := kept _ _ _ _ native
      have room : called.operands.size < called.operands.limit := by
        -- the reference took that place before
        have size := sound.room
        rw [OperandStack.size, applying.operands, List.length_cons] at size
        rw [operands, moved]
        exact size
      unfold onError at full
      split at full
      case h_1 overflow => exact absurd overflow (push_ne_error room)
      case h_2 => exact absurd full (push_ne_error room)
  obtain ⟨heap, rfl⟩ := giveBack_eq_ok last
  refine Eq.trans ?_ (binding?_calling machine rest other)
  refine binding?_congr ?_ untouched.globals other
  exact congrArg CallStack.scopes untouched.calls

/-! ## Runs -/

/-- The next tick binds one variable anew and no other. If it fails it binds none. -/
structure ActsOn (program : Program) (machine : Machine) (target : Target) : Prop where
  done : ∀ after, tick program machine = .ok () after →
    (∃ value, after.binding? target = (machine.binding? target).map ({ · with value })) ∧
      ∀ other, other ≠ target → after.binding? other = machine.binding? other
  refused : ∀ error after, tick program machine = .error (.error error) after →
    ∀ other, after.binding? other = machine.binding? other

/-- A reference is made to a local, and later an increment is applied to a reference to that place. If
the name was not declared there again, the increment acts on the variable that the reference was made
from while the activation lasts, and finds the reference dangling once it has ended. -/
theorem reference_designates {made : Machine} (reached : Reachable program made)
    (making : made.pending? = some (location, .loadReference name))
    (found : made.target? name = some (.inBlock height index name))
    (makes : tick program made = .ok () start) (run : Passes program start path machine)
    (untaken : ∀ state ∈ path, .inBlock height index name ∉ state.declared program)
    (applying :
      Applying program machine place operator reference rest (.inBlock height index name)) :
    (∃ object, start.operands.items = object :: made.operands.items ∧
        start.heap.value? object = some (.reference (.inBlock height index name))) ∧
      if ∃ state ∈ path, state.Deactivates height index then
        ∃ after, tick program machine = .error (.error (.intermediateCode
            s!"dangling reference {(Target.inBlock height index name).fields}")) after ∧
          ∀ other, after.binding? other = machine.binding? other
      else ∃ binding value, made.binding? (.inBlock height index name) = some binding ∧
        machine.binding? (.inBlock height index name) = some { binding with value } ∧
        ActsOn program machine (.inBlock height index name) := by
  refine ⟨tick_loadReference making found makes, ?_⟩
  obtain ⟨_, sound⟩ := reached.sound.tick makes
  obtain ⟨_, sound⟩ := run.sound sound
  obtain ⟨binding, bound⟩ := exists_binding_of_target? found
  -- making a reference ends no activation
  have lasts : ¬made.Deactivates height index := by
    have none : made.ended = 0 := by simp only [ended, making, Option.elim_some, Operation.ended]
    rw [Deactivates, none]
    exact Scopes.not_isInnermost_zero
  obtain ⟨value, started⟩ := (follows_tick makes).lives height index name binding lasts
    ((binding?_eq_scopes _ _ _ _).symm.trans bound)
  rw [← binding?_eq_scopes] at started
  have along := run.binding? started untaken
  by_cases past : ∃ state ∈ path, state.Deactivates height index
  case pos =>
    rw [if_pos past] at along ⊢
    exact applying.tick_of_dangling sound along
  case neg =>
    rw [if_neg past] at along ⊢
    obtain ⟨value, along⟩ := along
    refine ⟨binding, value, bound, along, ?_, ?_⟩
    · exact fun after run => applying.binding?_of_ok run
    · exact fun error after failed => applying.binding?_of_error sound failed

/-! ## A place that is taken again -/

/-- A program that makes a reference to a local of a block and increments it in the next one, which
may have a local of the same name. -/
def revisit (again : Bool) : Program where
  script := { idle.script with
    main := [
      (.start, .block [(.start, .loadNumber 1.0), (.start, .declareLocal "x" false),
        (.start, .loadReference "x"), (.start, .declareGlobal "r" false)]),
      (.start, .block ((if again then
          [(.start, .loadNumber 10.0), (.start, .declareLocal "x" false)] else []) ++
        [(.start, .loadVariable "r"), (.start, .callGlobal "++pre" 1)]))] }
  parameters := idle.parameters
  limits := {}

/-- So many ticks, with the states that they start from. -/
def ticks (program : Program) (machine : Machine) : Nat → Option (List Machine × Machine)
  | 0 => some ([], machine)
  | count + 1 =>
    match ticks program machine count with
    | none => none
    | some (path, last) =>
      match tick program last with
      | .ok _ after => some (last :: path, after)
      | .error .. => none

theorem passes_of_ticks {count : Nat} (ran : ticks program start count = some (path, machine)) :
    Passes program start path machine := by
  induction count generalizing path machine with
  | zero =>
    cases ran
    exact .here
  | succ count ih =>
    unfold ticks at ran
    split at ran
    · cases ran
    case h_2 before =>
      split at ran
      case h_1 run =>
        cases ran
        exact .tick (ih before) run
      case h_2 => cases ran

/-- The states before and after the reference is made, those on the way to the increment, and the one
before the increment. -/
def revisitStates (again : Bool) : Option (Machine × Machine × List Machine × Machine) :=
  match Machine.start (revisit again) with
  | .error _ => none
  | .ok first =>
    match runFor (revisit again) 3 first with
    | .error .. => none
    | .ok _ made =>
      match tick (revisit again) made with
      | .error .. => none
      | .ok _ start =>
        match ticks (revisit again) start (if again then 6 else 4) with
        | none => none
        | some (path, machine) => some (made, start, path, machine)

def revisitChecks : Machine × Machine × List Machine × Machine → Bool :=
  fun (made, start, path, machine) =>
    (made.pending?.any fun instruction =>
      match instruction.2 with
      | .loadReference "x" => true
      | _ => false) &&
    made.target? "x" == some (.inBlock 0 1 "x") && path.any (fun state => state.Deactivates 0 1) &&
    (machine.pending?.any fun instruction =>
      match instruction.2 with
      | .callGlobal "++pre" 1 => true
      | _ => false) &&
    machine.operands.items.any fun reference =>
      machine.operands.items == [reference] && start.operands.items.head? == some reference &&
      match machine.heap.value? reference with
      | some (.reference target) => target == .inBlock 0 1 "x"
      | _ => false

/-- A reference is made to a local, the block of the local is left, and then an increment is applied to
the reference. -/
structure Revisiting (again : Bool) (made start machine : Machine) (path : List Machine)
    (location place : Location) (reference : ObjectId) : Prop where
  reached : Reachable (revisit again) made
  making : made.pending? = some (location, .loadReference "x")
  found : made.target? "x" = some (.inBlock 0 1 "x")
  makes : tick (revisit again) made = .ok () start
  top : start.operands.items.head? = some reference
  run : Passes (revisit again) start path machine
  ends : ∃ state ∈ path, state.Deactivates 0 1
  applying : Applying (revisit again) machine place "++pre" reference [] (.inBlock 0 1 "x")

theorem exists_revisiting {again : Bool} {more : List Machine × Machine → Bool}
    (checked : (revisitStates again).any (fun states =>
      revisitChecks states && more states.2.2) = true) :
    ∃ made start machine path location place reference,
      Revisiting again made start machine path location place reference ∧
        more (path, machine) = true := by
  obtain ⟨⟨made, start, path, machine⟩, states, checked⟩ := (Option.any_eq_true _ _).1 checked
  simp only [revisitChecks, Bool.and_eq_true, beq_iff_eq, List.any_eq_true, decide_eq_true_eq]
    at checked
  obtain ⟨⟨⟨⟨⟨making, found⟩, ends⟩, increments⟩, operand⟩, more⟩ := checked
  obtain ⟨⟨location, making'⟩, pending, making⟩ := (Option.any_eq_true _ _).1 making
  obtain ⟨⟨place, increments'⟩, calls, increments⟩ := (Option.any_eq_true _ _).1 increments
  obtain ⟨reference, -, ⟨operands, top⟩, refers⟩ := operand
  refine ⟨made, start, machine, path, location, place, reference, ?_, more⟩
  unfold revisitStates at states
  split at states
  case h_1 => cases states
  case h_2 started =>
    split at states
    case h_1 => cases states
    case h_2 ran =>
      split at states
      case h_1 => cases states
      case h_2 makes =>
        split at states
        case h_1 => cases states
        case h_2 passes =>
          cases states
          dsimp only at making increments
          split at making
          case h_2 => cases making
          split at increments
          case h_2 => cases increments
          split at refers
          case h_2 => cases refers
          case h_1 target stored =>
            rw [beq_iff_eq] at refers
            subst refers
            exact ⟨.runFor (.start started) ran, pending, found, makes, top, passes_of_ticks passes,
              ends, calls, by decide, rfl, operands, stored⟩

def revisited : Target := .inBlock 0 1 "x"

/-- Without another local of the name the reference is dangling. -/
theorem revisit_dangling : ∃ (machine after : Machine), tick (revisit false) machine =
      .error (.error (.intermediateCode s!"dangling reference {revisited.fields}")) after ∧
    ∀ other, after.binding? other = machine.binding? other := by
  obtain ⟨made, start, machine, path, location, place, reference, revisiting, untaken⟩ :=
    @exists_revisiting false
      (fun (path, _) => path.all fun state => .inBlock 0 1 "x" ∉ state.declared (revisit false))
      (by decide +kernel)
  have designates := reference_designates revisiting.reached revisiting.making revisiting.found
    revisiting.makes revisiting.run (by simpa using untaken) revisiting.applying
  rw [if_pos revisiting.ends] at designates
  obtain ⟨-, after, failed, kept⟩ := designates
  exact ⟨machine, after, failed, kept⟩

/-- With another local of the name the increment acts on that one, though the block that the reference
was made in has been left. -/
theorem revisit_misdirected :
    ∃ (made start machine after : Machine) (path : List Machine) (location place : Location)
      (reference : ObjectId), Revisiting true made start machine path location place reference ∧
      tick (revisit true) machine = .ok () after ∧
      after.binding? (.inBlock 0 1 "x") ≠ machine.binding? (.inBlock 0 1 "x") := by
  obtain ⟨made, start, machine, path, location, place, reference, revisiting, acts⟩ :=
    @exists_revisiting true (fun (_, machine) => match tick (revisit true) machine with
      | .ok _ after => after.binding? (.inBlock 0 1 "x") != machine.binding? (.inBlock 0 1 "x")
      | .error .. => false) (by decide +kernel)
  dsimp only at acts
  split at acts
  case h_1 after done =>
    exact ⟨made, start, machine, after, path, location, place, reference, revisiting, done,
      bne_iff_ne.1 acts⟩
  case h_2 => cases acts

end Machine

end Terrain
