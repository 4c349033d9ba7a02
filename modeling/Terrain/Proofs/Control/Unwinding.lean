import Terrain.Proofs.Control.Ticks

/-!
# Unwinding

After an instruction the machine leaves what has come to its end, turn by turn. A turn that goes on
leaves a block or a call, so that there are no more turns than blocks and calls, and one for the end of
the run. What the turns come to is a machine that has ended or one that can go on: no call is without
blocks, and no call rests on a loop.

* `Grounded`, `Founded` — blocks that rest on one that is not a loop.
* `Machine.founded_execute` — instructions keep to that.
* `Machine.turn`, `Machine.Unwinds` — turns, without a bound on their number.
* `Machine.Settled`, `Machine.Loose` — what the turns come to, and what they start from.
* `Machine.Loose.exists_unwinds` — how unwinding ends, and after how many turns.
-/

namespace Terrain

/-! ## Blocks of a call -/

/-- Blocks that rest on one that is not a loop. -/
def Grounded (blocks : List Spot) : Prop :=
  ∃ ground, blocks.getLast? = some ground ∧ ground.looping = false

def Founded (control : List (List Spot)) : Prop := ∀ blocks ∈ control, Grounded blocks

namespace Grounded

variable {spot moved : Spot} {blocks outer : List Spot}

theorem single (code : CodeBlock) (cursor : Nat) : Grounded [⟨code, cursor, false⟩] :=
  ⟨_, rfl, rfl⟩

theorem cons (grounded : Grounded blocks) (spot : Spot) : Grounded (spot :: blocks) := by
  obtain ⟨ground, last, still⟩ := grounded
  exact ⟨ground, by rw [List.getLast?_cons, last]; rfl, still⟩

/-- The innermost block may move on. -/
theorem move (grounded : Grounded (spot :: outer)) (same : moved.looping = spot.looping) :
    Grounded (moved :: outer) := by
  obtain ⟨ground, last, still⟩ := grounded
  cases outer with
  | nil =>
    cases last
    exact ⟨moved, rfl, same.trans still⟩
  | cons next outer => exact ⟨ground, last, still⟩

theorem tail (grounded : Grounded (spot :: outer)) : outer = [] ∨ Grounded outer := by
  obtain ⟨ground, last, still⟩ := grounded
  cases outer with
  | nil => exact .inl rfl
  | cons next outer => exact .inr ⟨ground, last, still⟩

/-- There are blocks around a loop. -/
theorem drop {depth : Nat} (grounded : Grounded blocks) (found : blocks[depth]? = some spot)
    (looping : spot.looping = true) : Grounded (blocks.drop (depth + 1)) := by
  obtain ⟨ground, last, still⟩ := grounded
  have inside := (List.getElem?_eq_some_iff.1 found).1
  have further : ¬ blocks.length ≤ depth + 1 := by
    intro outermost
    rw [List.getLast?_eq_getElem?, show blocks.length - 1 = depth by omega, found] at last
    cases last
    rw [looping] at still
    cases still
  exact ⟨ground, by rw [List.getLast?_drop, if_neg further, last], still⟩

end Grounded

/-- The loop that so many blocks can be left for. -/
theorem exists_of_checkDepth {blocks : List Spot} {depth : Nat}
    (inside : checkDepth (blocks.map Spot.looping) depth = .ok ()) :
    ∃ before spot, depth = before + 1 ∧ blocks[before]? = some spot ∧ spot.looping = true := by
  unfold checkDepth at inside
  split at inside
  case isTrue => cases inside
  case isFalse within =>
    split at inside
    case isFalse => cases inside
    case isTrue loops =>
      obtain ⟨before, rfl⟩ := Nat.exists_eq_succ_of_ne_zero fun zero => within (.inl zero)
      rw [Nat.succ_sub_one, List.getElem?_map] at loops
      cases found : blocks[before]? with
      | none => simp [found] at loops
      | some spot => exact ⟨before, spot, rfl, found, by simpa [found] using loops⟩

namespace Machine

open Upshot

variable {program : Program} {machine after : Machine} {spot : Spot} {blocks outer : List Spot}
  {callers : List (List Spot)} {location : Location}

/-! ## Instructions -/

theorem Stands.leaveBlocks {count : Nat} (stands : machine.Stands blocks callers)
    (enough : count ≤ blocks.length) (run : leaveBlocks count program machine = .ok () after) :
    after.Stands (blocks.drop count) callers := by
  induction count generalizing machine blocks with
  | zero =>
    cases run
    exact stands
  | succ count ih =>
    obtain ⟨first, others, rfl⟩ := List.exists_cons_of_length_pos (Nat.zero_lt_of_lt enough)
    obtain ⟨_, between, left, rest⟩ := run_bind_eq_ok run
    exact ih (stands.leaveBlock left) (Nat.le_of_succ_le_succ enough) rest

theorem Stands.breakLoop {depth : Nat} (stands : machine.Stands blocks callers)
    (run : breakLoop depth program machine = .ok () after) :
    ∃ before spot, blocks[before]? = some spot ∧ spot.looping = true ∧
      after.Stands (blocks.drop (before + 1)) callers := by
  obtain ⟨_, between, checked, left⟩ := run_bind_eq_ok run
  obtain ⟨inside, rfl⟩ := inspect_eq_ok checked
  rw [checkLoop_eq_checkDepth stands] at inside
  cases depths : checkDepth (blocks.map Spot.looping) depth with
  | error error =>
    rw [depths] at inside
    cases inside
  | ok _ =>
    obtain ⟨before, spot, rfl, found, looping⟩ := exists_of_checkDepth depths
    exact ⟨before, spot, found, looping, stands.leaveBlocks (List.getElem?_eq_some_iff.1 found).1 left⟩

theorem Stands.continueLoop {depth : Nat} (stands : machine.Stands blocks callers)
    (run : continueLoop depth program machine = .ok () after) :
    ∃ before spot, blocks[before]? = some spot ∧ spot.looping = true ∧
      after.Stands (⟨spot.code, 0, spot.looping⟩ :: blocks.drop (before + 1)) callers := by
  obtain ⟨_, between, checked, rest⟩ := run_bind_eq_ok run
  obtain ⟨inside, rfl⟩ := inspect_eq_ok checked
  rw [checkLoop_eq_checkDepth stands] at inside
  cases depths : checkDepth (blocks.map Spot.looping) depth with
  | error error =>
    rw [depths] at inside
    cases inside
  | ok _ =>
    obtain ⟨before, spot, rfl, found, looping⟩ := exists_of_checkDepth depths
    obtain ⟨_, left, leaves, restarts⟩ := run_bind_eq_ok rest
    obtain ⟨inside, rfl⟩ := List.getElem?_eq_some_iff.1 found
    have standsLeft := stands.leaveBlocks (Nat.le_of_lt inside) leaves
    rw [List.drop_eq_getElem_cons inside] at standsLeft
    exact ⟨before, _, found, looping, standsLeft.restartBlock restarts⟩

/-- An instruction leaves every call with blocks that rest on one that is not a loop. -/
theorem founded_execute {operation : Operation} (stands : machine.Stands blocks callers)
    (founded : Founded (blocks :: callers))
    (run : execute location operation program machine = .ok () after) : Founded after.control := by
  obtain ⟨grounded, callersFounded⟩ := List.forall_mem_cons.1 founded
  have entered {code : CodeBlock} {looping : Bool} {between : Machine}
      (stands : between.Stands blocks callers)
      (run : enterBlock location code looping program between = .ok () after) :
      Founded after.control := by
    rw [(stands.enterBlock run).control]
    exact List.forall_mem_cons.2 ⟨grounded.cons _, callersFounded⟩
  cases opens : operation.opens program.script with
  | true =>
    cases operation with
    | ifElse thenBranch elseBranch =>
      obtain ⟨taken, between, chosen, run⟩ := run_bind_eq_ok run
      exact entered (stands.steady (keeps_popCondition _) chosen) run
    | loop body => exact entered stands run
    | block body => exact entered stands run
    | callGlobal name count =>
      obtain ⟨function, known⟩ := Option.isSome_iff_exists.1 opens
      rw [(stands.callGlobal known run).control]
      exact List.forall_mem_cons.2 ⟨.single _ _, founded⟩
    | _ => cases opens
  | false =>
    cases jumps : operation.jumps with
    | false =>
      have same : after.control = machine.control := congrArg Prod.fst (steady_execute opens jumps location run)
      rwa [same, stands.control]
    | true =>
      cases operation with
      | breakLoop depth =>
        obtain ⟨before, spot, found, looping, standsAfter⟩ := stands.breakLoop run
        rw [standsAfter.control]
        exact List.forall_mem_cons.2 ⟨grounded.drop found looping, callersFounded⟩
      | continueLoop depth =>
        obtain ⟨before, spot, found, looping, standsAfter⟩ := stands.continueLoop run
        rw [standsAfter.control]
        exact List.forall_mem_cons.2 ⟨(grounded.drop found looping).cons _, callersFounded⟩
      | returnCall =>
        rw [control_of_leaveCall stands.control run]
        exact callersFounded
      | _ => cases jumps

/-! ## Turns -/

/-- A turn of the unwinding. An answer ends it. -/
def turn : MachineM (Option Progress) := fun program machine =>
  match machine.calls.entries with
  | [] => andThen (finish program machine) fun _ after => .ok (some .finished) after
  | call :: _ =>
    match call.blocks.top? with
    | none => andThen (leaveCall false program machine) fun _ after => .ok none after
    | some block =>
      if !block.isFinished then .ok (some .running) machine
      else if block.looping then
        andThen (restartBlock program machine) fun _ after => .ok (some .running) after
      else andThen (leaveBlock program machine) fun _ after => .ok none after

theorem unwindFor_eq_turn (fuel : Nat) : unwindFor (fuel + 1) program machine =
    andThen (turn program machine) fun answer after =>
      match answer with
      | some progress => .ok progress after
      | none => unwindFor fuel program after := by
  rw [unwindFor_succ, turn]
  cases machine.calls.entries with
  | nil =>
    dsimp only
    rw [andThen_assoc]
    rfl
  | cons call rest =>
    dsimp only
    cases call.blocks.top? with
    | none =>
      dsimp only
      rw [andThen_assoc]
      rfl
    | some block =>
      dsimp only
      split
      · rfl
      · split <;> rw [andThen_assoc] <;> rfl

inductive Unwinds (program : Program) : Nat → Machine → Upshot Progress → Prop where
  | stop {machine after : Machine} {progress : Progress}
      (answered : turn program machine = .ok (some progress) after) :
      Unwinds program 1 machine (.ok progress after)
  | fail {machine after : Machine} {failure : Failure}
      (failed : turn program machine = .error failure after) :
      Unwinds program 1 machine (.error failure after)
  | next {machine between : Machine} {turns : Nat} {outcome : Upshot Progress}
      (left : turn program machine = .ok none between) (rest : Unwinds program turns between outcome) :
      Unwinds program (turns + 1) machine outcome

/-- There is one way to unwind. -/
theorem Unwinds.unique {turns others : Nat} {outcome other : Upshot Progress}
    (unwinds : Unwinds program turns machine outcome) (unwinds' : Unwinds program others machine other) :
    turns = others ∧ outcome = other := by
  induction unwinds generalizing others other with
  | stop answered =>
    cases unwinds' with
    | stop answered' => cases answered.symm.trans answered'; exact ⟨rfl, rfl⟩
    | fail failed => cases answered.symm.trans failed
    | next left => cases answered.symm.trans left
  | fail failed =>
    cases unwinds' with
    | stop answered => cases failed.symm.trans answered
    | fail failed' => cases failed.symm.trans failed'; exact ⟨rfl, rfl⟩
    | next left => cases failed.symm.trans left
  | next left _ ih =>
    cases unwinds' with
    | stop answered => cases left.symm.trans answered
    | fail failed => cases left.symm.trans failed
    | next left' rest =>
      cases left.symm.trans left'
      obtain ⟨rfl, same⟩ := ih rest
      exact ⟨rfl, same⟩

/-! ## What a turn comes to -/

/-- The machine can go on: there are calls, each with blocks that rest on one that is not a loop, and
the innermost block has an instruction to execute, or is a loop that has none at all. -/
structure Poised (machine : Machine) : Prop where
  ready : machine.status = .ready
  calls : machine.calls.entries ≠ []
  grounds : ∀ call ∈ machine.calls.entries, ∃ ground,
    call.blocks.entries.getLast? = some ground ∧ ground.looping = false
  top : ∃ block, machine.calls.topBlock? = some block ∧
    ((∃ instruction, block.code[block.cursor]? = some instruction) ∨
      block.looping = true ∧ block.code = [])

/-- After unwinding the machine has ended, with nothing left on its stacks, or it can go on. -/
def Settled (machine : Machine) : Progress → Prop
  | .finished => machine.status = .finished ∧ machine.calls.entries = [] ∧ machine.operands.items = []
  | .running => machine.Poised

/-- Every call has blocks, except perhaps for the innermost one, which may have left all of its own. -/
structure Loose (machine : Machine) : Prop where
  ready : machine.status = .ready
  top : ∀ blocks ∈ machine.control.head?, blocks = [] ∨ Grounded blocks
  callers : Founded machine.control.tail

theorem founded_iff : Founded machine.control ↔ ∀ call ∈ machine.calls.entries, ∃ ground,
    call.blocks.entries.getLast? = some ground ∧ ground.looping = false := by
  simp only [Founded, control, CallStack.control, List.forall_mem_map, Grounded, BlockStack.spots,
    List.getLast?_map, Option.map_eq_some_iff]
  constructor
  · intro founded call member
    obtain ⟨_, ⟨block, last, rfl⟩, still⟩ := founded call member
    exact ⟨block, last, still⟩
  · intro grounds call member
    obtain ⟨block, last, still⟩ := grounds call member
    exact ⟨_, ⟨block, last, rfl⟩, still⟩

theorem Stands.poised (stands : machine.Stands (spot :: outer) callers)
    (founded : Founded ((spot :: outer) :: callers))
    (top : spot.cursor < spot.code.length ∨ spot.looping = true ∧ spot.code = []) : machine.Poised where
  ready := stands.ready
  calls empty := by
    have shape := stands.control
    simp [Machine.control, CallStack.control, empty] at shape
  grounds := founded_iff.1 (stands.control ▸ founded)
  top := by
    obtain ⟨block, found, rfl⟩ := CallStack.topBlock?_of_control stands.control
    refine ⟨block, found, top.imp_left fun inside => ?_⟩
    exact ⟨_, List.getElem?_eq_getElem inside⟩

theorem loose_of_founded (ready : machine.status = .ready) (founded : Founded machine.control) :
    machine.Loose where
  ready := ready
  top blocks member := .inr (founded blocks (List.mem_of_head? member))
  callers blocks member := founded blocks (List.mem_of_mem_tail member)

theorem Poised.founded (poised : machine.Poised) : Founded machine.control := founded_iff.2 poised.grounds

theorem depth_eq (machine : Machine) :
    machine.depth = (machine.control.map fun blocks => blocks.length + 1).foldr (· + ·) 1 := by
  have general (calls : List Call) (total : Nat) :
      calls.foldl (fun total call => total + call.blocks.size + 1) total + 1 = total +
        ((calls.map fun call => call.blocks.spots).map fun blocks => blocks.length + 1).foldr (· + ·) 1 := by
    induction calls generalizing total with
    | nil => rfl
    | cons call calls ih =>
      have size : call.blocks.spots.length = call.blocks.size := List.length_map _
      rw [List.foldl_cons, ih, List.map_cons, List.map_cons, List.foldr_cons, size]
      omega
  have same := general machine.calls.entries 1
  unfold depth Machine.control CallStack.control
  omega

/-- What is on the stacks when a run has ended. -/
theorem settled_of_finish (noCalls : machine.calls.entries = [])
    (run : finish program machine = .ok () after) : after.Settled .finished := by
  obtain ⟨_, truncated, cleared, rest⟩ := run_bind_eq_ok run
  obtain ⟨_, _, read, rest⟩ := run_bind_eq_ok rest
  cases read
  obtain ⟨_, _, read, rest⟩ := run_bind_eq_ok rest
  cases read
  have keeps : Keeps (fun _ calls _ => calls) (truncate 0) := keeps_truncate 0
  have calls : truncated.calls = machine.calls := keeps _ _ _ _ cleared
  have items : truncated.operands.items = [] := by
    obtain ⟨_, _, read, cleared⟩ := run_bind_eq_ok cleared
    cases read
    obtain ⟨operands, heap, dropped, cleared⟩ := onHeap_bind_eq_ok cleared
    cases cleared
    obtain ⟨_, _, -, ended⟩ := bind_eq_ok dropped
    cases ended
    exact List.drop_eq_nil_of_le (Nat.le_refl _)
  split at rest
  · obtain ⟨_, _, raised, -⟩ := run_bind_eq_ok rest
    cases raised
  · cases rest
    exact ⟨rfl, calls ▸ noCalls, items⟩

theorem andThen_eq_ok {α β : Type} {outcome : Upshot α} {value other : β}
    (run : (outcome.andThen fun _ after => .ok value after) = .ok other after) :
    (∃ middle, outcome = .ok middle after) ∧ value = other := by
  cases outcome with
  | error failure after => cases run
  | ok middle between =>
    cases run
    exact ⟨⟨middle, rfl⟩, rfl⟩

/-- A call that has left its blocks is left for one whose blocks rest on one that is not a loop. -/
theorem loose_of_leaveCall (stands : machine.Stands [] callers) (founded : Founded callers)
    (run : leaveCall false program machine = .ok () after) :
    after.Loose ∧ after.depth < machine.depth := by
  have control := control_of_leaveCall stands.control run
  refine ⟨loose_of_founded ((calm_leaveCall _ _ _ _ _ run).trans stands.ready) ?_, ?_⟩
  · rw [control]
    exact founded
  · rw [depth_eq after, depth_eq machine, control, stands.control, List.map_cons, List.foldr_cons]
    omega

theorem loose_of_leaveBlock (stands : machine.Stands (spot :: outer) callers)
    (founded : Founded ((spot :: outer) :: callers))
    (run : leaveBlock program machine = .ok () after) : after.Loose ∧ after.depth < machine.depth := by
  obtain ⟨grounded, callersFounded⟩ := List.forall_mem_cons.1 founded
  have standsAfter := stands.leaveBlock run
  refine ⟨⟨standsAfter.ready, ?_, ?_⟩, ?_⟩
  · rw [standsAfter.control]
    rintro _ ⟨⟩
    exact grounded.tail
  · rw [standsAfter.control]
    exact callersFounded
  · rw [depth_eq after, depth_eq machine, standsAfter.control, stands.control]
    simp only [List.map_cons, List.foldr_cons, List.length_cons]
    omega

/-- A loop starts another round, which has an instruction unless the loop has none at all. -/
theorem poised_of_restartBlock (stands : machine.Stands (spot :: outer) callers)
    (founded : Founded ((spot :: outer) :: callers)) (looping : spot.looping = true)
    (run : restartBlock program machine = .ok () after) : after.Poised := by
  obtain ⟨grounded, callersFounded⟩ := List.forall_mem_cons.1 founded
  refine (stands.restartBlock run).poised (List.forall_mem_cons.2 ⟨grounded.move rfl, callersFounded⟩) ?_
  rcases Nat.eq_zero_or_pos spot.code.length with none | some
  · exact .inr ⟨looping, List.length_eq_zero_iff.1 none⟩
  · exact .inl some

/-- A turn that goes on leaves a block or a call, and one that answers has come to an end. -/
theorem Loose.turn_eq_ok {answer : Option Progress} (loose : machine.Loose)
    (run : turn program machine = .ok answer after) :
    match answer with
    | some progress => after.Settled progress
    | none => after.Loose ∧ after.depth < machine.depth := by
  have callersFounded := loose.callers
  have innermost := loose.top
  unfold turn at run
  cases shape : machine.control with
  | nil =>
    have noCalls : machine.calls.entries = [] := List.map_eq_nil_iff.1 shape
    rw [noCalls] at run
    obtain ⟨⟨_, finished⟩, rfl⟩ := andThen_eq_ok run
    exact settled_of_finish noCalls finished
  | cons blocks callers =>
    have stands : machine.Stands blocks callers := ⟨loose.ready, shape⟩
    rw [shape] at callersFounded innermost
    obtain ⟨call, rest, entries, rfl, -⟩ := CallStack.exists_of_control shape
    rw [entries] at run
    unfold BlockStack.spots at stands innermost
    dsimp only [BlockStack.top?] at run
    cases inner : call.blocks.entries with
    | nil =>
      rw [inner] at run stands
      obtain ⟨⟨_, left⟩, rfl⟩ := andThen_eq_ok run
      exact loose_of_leaveCall stands callersFounded left
    | cons block others =>
      rw [inner] at run stands innermost
      have grounded := (innermost _ rfl).resolve_left (List.cons_ne_nil _ _)
      have founded : Founded ((block.spot :: others.map Block.spot) :: callers) :=
        List.forall_mem_cons.2 ⟨grounded, callersFounded⟩
      dsimp only [List.head?_cons] at run
      split at run
      case isTrue unfinished =>
        cases run
        exact stands.poised founded (.inl (by simpa [Block.isFinished, Block.spot] using unfinished))
      case isFalse =>
        split at run
        case isTrue looping =>
          obtain ⟨⟨_, restarted⟩, rfl⟩ := andThen_eq_ok run
          exact poised_of_restartBlock stands founded looping restarted
        case isFalse =>
          obtain ⟨⟨_, left⟩, rfl⟩ := andThen_eq_ok run
          exact loose_of_leaveBlock stands founded left

/-- Unwinding ends, after no more turns than there are blocks and calls and one for the end of the run,
and the bound that the machine sets itself is never what ends it. -/
theorem Loose.exists_unwinds {fuel : Nat} (loose : machine.Loose) (enough : machine.depth ≤ fuel) :
    ∃ turns, turns ≤ machine.depth ∧ Unwinds program turns machine (unwindFor fuel program machine) ∧
      ∀ progress after, unwindFor fuel program machine = .ok progress after → after.Settled progress := by
  -- on the bound, which stays above the depth
  induction fuel generalizing machine with
  | zero => exact absurd machine.depth_pos (by omega)
  | succ fuel ih =>
    rw [unwindFor_eq_turn]
    cases turned : turn program machine with
    | error failure after => exact ⟨1, machine.depth_pos, .fail turned, nofun⟩
    | ok answer between =>
      have comes := loose.turn_eq_ok turned
      cases answer with
      | some progress =>
        refine ⟨1, machine.depth_pos, .stop turned, fun _ _ same => ?_⟩
        cases same
        exact comes
      | none =>
        obtain ⟨looseBetween, less⟩ := comes
        obtain ⟨turns, few, unwinds, answers⟩ := ih looseBetween (by omega)
        exact ⟨turns + 1, by omega, .next turned unwinds, answers⟩

end Machine

end Terrain
