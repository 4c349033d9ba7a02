import Terrain.Proofs.Control.Ticks

/-!
# The machine runs what evaluates

Where recursive evaluation passes a signal from block to block, the machine leaves all of the blocks
at once. What a signal stands for in the machine is therefore an action, and the code that ends with a
signal has been run, in ticks, when that action has been carried out.

* `Machine.resume` — what a signal stands for.
* `Machine.Arrives` — where code that ends with a signal leaves the machine.
* `Evaluates.meets` — what evaluates is run by the machine with the same outcome.
-/

namespace Terrain

/-! ## Depths -/

/-- A depth counts the innermost block, which must be a loop if it is the only one. -/
theorem checkDepth_cons {looping : Bool} {loops : List Bool} {depth : Nat}
    (inside : checkDepth (looping :: loops) depth = .ok ()) :
    (depth = 1 ∧ looping = true) ∨ (1 < depth ∧ checkDepth loops (depth - 1) = .ok ()) := by
  unfold checkDepth at inside
  split at inside
  case isTrue => cases inside
  case isFalse bounded =>
    split at inside
    case isFalse => cases inside
    case isTrue isLoop =>
      obtain _ | _ | depth := depth
      · exact absurd (.inl rfl) bounded
      · exact .inl ⟨rfl, isLoop⟩
      · refine .inr ⟨by omega, ?_⟩
        unfold checkDepth
        simp only [List.length_cons, not_or, Nat.not_lt] at bounded
        rw [if_neg (by omega), if_pos]
        simpa using isLoop

theorem depth_pos_of_checkDepth {loops : List Bool} {depth : Nat}
    (inside : checkDepth loops depth = .ok ()) : 0 < depth := by
  unfold checkDepth at inside
  split at inside
  case isTrue => cases inside
  case isFalse bounded => omega

namespace Machine

open Upshot

variable {program : Program} {machine between after : Machine} {signal : Signal}
  {spot : Spot} {blocks outer : List Spot} {callers : List (List Spot)}

/-! ## Signals -/

/-- What a signal stands for in the machine. -/
def resume : Signal → MachineM Unit
  | .next => return
  | .leave depth => leaveBlocks depth
  | .again depth => do
    leaveBlocks (depth - 1)
    restartBlock
  | .returned => leaveCall true

/-- The machine stands where it did before the code, or somewhere in the call that is to be left. The
blocks that are to be left are there, the outermost of them a loop. -/
def Arrives (blocks : List Spot) (callers : List (List Spot)) : Signal → Machine → Prop
  | .next, machine => machine.Stands blocks callers
  | .leave depth, machine | .again depth, machine =>
    checkDepth (blocks.map Spot.looping) depth = .ok () ∧ machine.Stands blocks callers
  | .returned, machine => ∃ inner, machine.Stands inner callers

/-- A block that is left for a loop to start again is not that loop. -/
theorem one_lt_of_again {depth : Nat}
    (inside : checkDepth ((spot :: outer).map Spot.looping) depth = .ok ())
    (ends : spot.looping = true → (Signal.again depth).repeats = false) : 1 < depth := by
  obtain ⟨rfl, looping⟩ | ⟨more, -⟩ := checkDepth_cons inside
  · cases ends looping
  · exact more

/-- What the signal of a block that is left stands for, in terms of the signal it is answered by. -/
theorem andThen_closeBlock :
    andThen (closeBlock signal program between) (fun signal after => resume signal program after) =
      match signal with
      | .next => leaveBlock program between
      | .leave depth => andThen (leaveBlock program between) fun _ after =>
        leaveBlocks (depth - 1) program after
      | .again depth =>
        andThen (leaveBlock program between) fun _ after =>
          resume (.again (depth - 1)) program after
      | .returned => leaveCall true program between := by
  cases signal with
  | next =>
    rw [closeBlock, run_bind, andThen_assoc]
    exact andThen_unit _
  | leave depth =>
    rw [closeBlock, run_bind, andThen_assoc]
    congr 1
    funext _ after
    by_cases only : depth ≤ 1
    case pos =>
      have none : depth - 1 = 0 := by omega
      simp only [only, none, ↓reduceIte]
      rfl
    case neg =>
      simp only [only, ↓reduceIte]
      rfl
  | again depth =>
    rw [closeBlock, run_bind, andThen_assoc]
    rfl
  | returned => rfl

/-- A block that ends is left by the machine as its signal says. -/
theorem exists_runTicks_eq_closeBlock (arrives : Arrives (spot :: outer) callers signal between)
    (finished : signal = .next → spot.code.length ≤ spot.cursor)
    (ends : spot.looping = true → signal.repeats = false) :
    ∃ count, (andThen (resume signal program between) fun _ after => runTicks program count after) =
      andThen (closeBlock signal program between) (fun signal after => resume signal program after) := by
  rw [andThen_closeBlock]
  cases signal with
  | next =>
    have notLoop : spot.looping = false := by
      cases looping : spot.looping with
      | false => rfl
      | true => cases ends looping
    refine ⟨1, (runTicks_one arrives.ready).trans ?_⟩
    rw [tick_finished arrives (finished rfl), notLoop]
    rfl
  | leave depth =>
    obtain ⟨rest, rfl⟩ : ∃ rest, depth = rest + 1 :=
      Nat.exists_eq_add_one.2 (depth_pos_of_checkDepth arrives.1)
    exact ⟨0, (andThen_unit _).trans run_bind⟩
  | again depth =>
    obtain ⟨rest, rfl⟩ : ∃ rest, depth = rest + 2 :=
      Nat.exists_eq_add_of_le' (one_lt_of_again arrives.1 ends)
    refine ⟨0, (andThen_unit _).trans ?_⟩
    have split : resume (.again (rest + 2)) program between =
        (leaveBlock >>= fun _ => resume (.again (rest + 1))) program between := by
      change ((leaveBlock >>= fun _ => leaveBlocks rest) >>= fun _ => restartBlock) program between = _
      rw [bind_assoc]
      rfl
    rw [split, run_bind]
    rfl
  | returned => exact ⟨0, andThen_unit _⟩

theorem arrives_of_closeBlock {answer : Signal}
    (arrives : Arrives (spot :: outer) callers signal between)
    (ends : spot.looping = true → signal.repeats = false)
    (closed : closeBlock signal program between = .ok answer after) :
    Arrives outer callers answer after := by
  cases signal with
  | next =>
    obtain ⟨_, _, left, returned⟩ := run_bind_eq_ok closed
    cases returned
    exact Stands.leaveBlock arrives left
  | leave depth =>
    obtain ⟨_, _, left, returned⟩ := run_bind_eq_ok closed
    cases returned
    have stands := arrives.2.leaveBlock left
    obtain ⟨rfl, -⟩ | ⟨more, inside⟩ := checkDepth_cons arrives.1
    · exact stands
    · rw [if_neg (by omega)]
      exact ⟨inside, stands⟩
  | again depth =>
    obtain ⟨_, _, left, returned⟩ := run_bind_eq_ok closed
    cases returned
    have stands := arrives.2.leaveBlock left
    have more := one_lt_of_again arrives.1 ends
    obtain ⟨rfl, -⟩ | ⟨-, inside⟩ := checkDepth_cons arrives.1
    · exact absurd more (Nat.lt_irrefl 1)
    · exact ⟨inside, stands⟩
  | returned =>
    cases closed
    exact arrives

/-- The end of the outermost block of a function cannot be jumped over. -/
theorem checkDepth_single (depth : Nat) : checkDepth [false] depth ≠ .ok () := by
  intro inside
  obtain ⟨-, looping⟩ | ⟨more, inside⟩ := checkDepth_cons inside
  · cases looping
  · unfold checkDepth at inside
    rw [if_pos (.inr (Nat.sub_pos_of_lt more))] at inside
    cases inside

/-- A function that ends is left by the machine, at its end or by a return. -/
theorem exists_runTicks_eq_closeCall (arrives : Arrives [spot] callers signal between)
    (notLoop : spot.looping = false) (finished : signal = .next → spot.code.length ≤ spot.cursor) :
    ∃ count, (andThen (resume signal program between) fun _ after => runTicks program count after) =
      forget (closeCall signal program between) := by
  cases signal with
  | next =>
    refine ⟨2, (runTicks_succ arrives.ready 1).trans ?_⟩
    have closes : closeCall .next = (do leaveBlock; leaveCall false; return .next) := rfl
    rw [tick_finished arrives (finished rfl), notLoop, if_neg Bool.false_ne_true, closes, run_bind,
      forget, andThen_assoc]
    cases left : leaveBlock program between with
    | error failure after => rfl
    | ok value after =>
      have stands := Stands.leaveBlock arrives left
      rw [andThen_ok, andThen_ok, runTicks_one stands.ready, tick_leaveCall stands, run_bind,
        andThen_assoc]
      exact (andThen_unit _).symm
  | leave depth =>
    have inside := arrives.1
    rw [List.map_singleton, notLoop] at inside
    exact absurd inside (checkDepth_single depth)
  | again depth =>
    have inside := arrives.1
    rw [List.map_singleton, notLoop] at inside
    exact absurd inside (checkDepth_single depth)
  | returned =>
    refine ⟨0, (andThen_unit _).trans ?_⟩
    rw [closeCall, run_bind, forget, andThen_assoc]
    exact (andThen_unit _).symm

/-- A function that is left returns to its caller, which goes on with the next instruction. -/
theorem control_of_closeCall {answer : Signal} (arrives : Arrives [spot] callers signal between)
    (notLoop : spot.looping = false) (closed : closeCall signal program between = .ok answer after) :
    answer = .next ∧ after.control = callers ∧ after.status = .ready := by
  cases signal with
  | next =>
    obtain ⟨_, inner, left, closed⟩ := run_bind_eq_ok closed
    obtain ⟨_, _, called, returned⟩ := run_bind_eq_ok closed
    cases returned
    have stands := Stands.leaveBlock arrives left
    exact ⟨rfl, control_of_leaveCall stands.control called,
      (calm_leaveCall _ _ _ _ _ called).trans stands.ready⟩
  | leave depth =>
    have inside := arrives.1
    rw [List.map_singleton, notLoop] at inside
    exact absurd inside (checkDepth_single depth)
  | again depth =>
    have inside := arrives.1
    rw [List.map_singleton, notLoop] at inside
    exact absurd inside (checkDepth_single depth)
  | returned =>
    obtain ⟨inner, stands⟩ := arrives
    obtain ⟨_, _, called, returned⟩ := run_bind_eq_ok closed
    cases returned
    exact ⟨rfl, control_of_leaveCall stands.control called,
      (calm_leaveCall _ _ _ _ _ called).trans stands.ready⟩

/-! ## Evaluation is run by the machine -/

/-- What an outcome stands for in the machine. -/
def settle (program : Program) (outcome : Upshot Signal) : Upshot Unit :=
  outcome.andThen fun signal after => resume signal program after

/-- The machine runs the task with this outcome: it takes some ticks to where the signal of the outcome
is carried out, and there it stands where it did before the task, behind the code. -/
def Meets (program : Program) : Task → Machine → Upshot Signal → Prop
  | .code loops code, machine, outcome =>
    ∀ spot outer callers, machine.Stands (spot :: outer) callers →
      spot.code.drop spot.cursor = code → (spot :: outer).map Spot.looping = loops →
      (∃ count, runTicks program count machine = settle program outcome ∧
        (outcome = .ok .next machine ∨ 0 < count)) ∧
      ∀ signal after, outcome = .ok signal after →
        ∃ cursor, (signal = .next → spot.code.length ≤ cursor) ∧
          Arrives ({ spot with cursor } :: outer) callers signal after
  | .instruction loops (location, operation), machine, outcome =>
    ∀ blocks callers, machine.Stands blocks callers → blocks.map Spot.looping = loops →
      (∃ count, (andThen (execute location operation program machine) fun _ after =>
        runTicks program count after) = settle program outcome) ∧
      ∀ signal after, outcome = .ok signal after → Arrives blocks callers signal after
  | .rounds loops body, machine, outcome =>
    ∀ outer callers, machine.Stands (⟨body, 0, true⟩ :: outer) callers →
      outer.map Spot.looping = loops →
      (∃ count, 0 < count ∧ runTicks program count machine = settle program outcome) ∧
      ∀ signal after, outcome = .ok signal after → Arrives outer callers signal after

/-- A body that has been run is left. -/
theorem runs_closeBlock {outcome : Upshot Signal} {count : Nat}
    (runs : runTicks program count machine = settle program outcome)
    (arrives : ∀ signal after, outcome = .ok signal after →
      ∃ cursor, (signal = .next → spot.code.length ≤ cursor) ∧
        Arrives ({ spot with cursor } :: outer) callers signal after)
    (ends : spot.looping = true → ∀ signal after, outcome = .ok signal after →
      signal.repeats = false) :
    (∃ more, runTicks program (count + more) machine =
      settle program (outcome.andThen fun signal after => closeBlock signal program after)) ∧
    ∀ signal after, (outcome.andThen fun signal after => closeBlock signal program after) =
      .ok signal after → Arrives outer callers signal after := by
  cases outcome with
  | error failure after => exact ⟨⟨0, runs⟩, nofun⟩
  | ok signal between =>
    obtain ⟨cursor, finished, arrives⟩ := arrives signal between rfl
    have ends (looping : spot.looping = true) := ends looping signal between rfl
    obtain ⟨more, closes⟩ := exists_runTicks_eq_closeBlock arrives finished ends
    refine ⟨⟨more, ?_⟩, fun answer after closed => arrives_of_closeBlock arrives ends closed⟩
    rw [runTicks_add, runs]
    exact closes

theorem getElem?_of_drop {code rest : CodeBlock} {cursor : Nat} {first : Instruction}
    (left : code.drop cursor = first :: rest) :
    code[cursor]? = some first ∧ code.drop (cursor + 1) = rest := by
  refine ⟨?_, ?_⟩
  · rw [← List.head?_drop, left, List.head?_cons]
  · rw [← List.tail_drop, left, List.tail_cons]

/-- An instruction is run by a tick and those after it. -/
theorem runs_instruction {location : Location} {operation : Operation} {count : Nat}
    {outcome : Upshot Unit} (stands : machine.Stands (spot :: outer) callers)
    (next : spot.code[spot.cursor]? = some (location, operation))
    (runs : (andThen (execute location operation program machine.advanced) fun _ after =>
      runTicks program count after) = outcome) :
    runTicks program (count + 1) machine = outcome := by
  rw [runTicks_succ stands.ready, tick_execute stands next, runs]

theorem meets_cons {loops : List Bool} {first : Instruction} {rest : CodeBlock}
    {outcome : Upshot Signal}
    (head : Meets program (.instruction loops first) machine.advanced (.ok .next between))
    (tail : Meets program (.code loops rest) between outcome) :
    Meets program (.code loops (first :: rest)) machine outcome := by
  intro spot outer callers stands code same
  obtain ⟨next, left⟩ := getElem?_of_drop code
  obtain ⟨⟨count, runs⟩, arrives⟩ := head _ _ stands.advanced same
  have runs := runs_instruction stands next runs
  obtain ⟨⟨more, runsRest, -⟩, arrivesRest⟩ := tail _ _ _ (arrives _ _ rfl) left same
  refine ⟨⟨count + 1 + more, ?_, .inr (by omega)⟩, arrivesRest⟩
  rw [runTicks_add, runs]
  exact runsRest

theorem meets_stop {loops : List Bool} {first : Instruction} {rest : CodeBlock}
    {outcome : Upshot Signal}
    (head : Meets program (.instruction loops first) machine.advanced outcome)
    (stops : ∀ after, outcome ≠ .ok .next after) :
    Meets program (.code loops (first :: rest)) machine outcome := by
  intro spot outer callers stands code same
  obtain ⟨next, left⟩ := getElem?_of_drop code
  obtain ⟨⟨count, runs⟩, arrives⟩ := head _ _ stands.advanced same
  refine ⟨⟨count + 1, runs_instruction stands next runs, .inr count.succ_pos⟩, ?_⟩
  intro signal after ended
  refine ⟨spot.cursor + 1, ?_, arrives signal after ended⟩
  rintro rfl
  exact absurd ended (stops after)

theorem meets_plain {loops : List Bool} {location : Location} {operation : Operation}
    (staysOpen : operation.opens program.script = false) (stays : operation.jumps = false) :
    Meets program (.instruction loops (location, operation)) machine
      (andThen (execute location operation program machine) fun _ after => .ok .next after) := by
  intro blocks callers stands same
  refine ⟨⟨0, ?_⟩, ?_⟩
  · rw [settle, andThen_assoc]
    rfl
  · intro signal after ended
    cases executed : execute location operation program machine with
    | error failure after =>
      rw [executed] at ended
      cases ended
    | ok value after =>
      rw [executed] at ended
      cases ended
      have steady := steady_execute staysOpen stays location executed
      exact ⟨(congrArg Prod.snd steady).trans stands.ready,
        (congrArg Prod.fst steady).trans stands.control⟩

/-- A block that is entered is run and left. -/
theorem meets_block {loops : List Bool} {location : Location} {operation : Operation}
    {code : CodeBlock} {inside : Machine} {outcome : Upshot Signal}
    (executed : execute location operation program machine = .ok () inside)
    (entered : ∀ blocks callers, machine.Stands blocks callers →
      inside.Stands (⟨code, 0, false⟩ :: blocks) callers)
    (body : Meets program (.code (false :: loops) code) inside outcome) :
    Meets program (.instruction loops (location, operation)) machine
      (outcome.andThen fun signal after => closeBlock signal program after) := by
  intro blocks callers stands same
  obtain ⟨⟨count, runs, -⟩, arrives⟩ :=
    body _ _ _ (entered _ _ stands) rfl (congrArg (false :: ·) same)
  obtain ⟨⟨more, closes⟩, arrives⟩ := runs_closeBlock runs arrives nofun
  refine ⟨⟨count + more, ?_⟩, arrives⟩
  rw [executed]
  exact closes

/-- A round of a loop that is followed by another one has been run when the loop starts again. -/
theorem runs_restartBlock {loops : List Bool} {body : CodeBlock}
    (round : Meets program (.code (true :: loops) body) machine (.ok signal between))
    (repeats : signal.repeats = true) (stands : machine.Stands (⟨body, 0, true⟩ :: outer) callers)
    (same : outer.map Spot.looping = loops) :
    (∃ count, 0 < count ∧ runTicks program count machine = restartBlock program between) ∧
      ∃ cursor, between.Stands (⟨body, cursor, true⟩ :: outer) callers := by
  obtain ⟨⟨count, runs, counts⟩, arrives⟩ := round _ _ _ stands rfl (congrArg (true :: ·) same)
  obtain ⟨cursor, finished, arrives⟩ := arrives signal between rfl
  cases signal with
  | next =>
    refine ⟨⟨count + 1, count.succ_pos, ?_⟩, cursor, arrives⟩
    have runs : runTicks program count machine = .ok () between := runs
    rw [runTicks_add, runs, andThen_ok, runTicks_one (Stands.ready arrives),
      tick_finished arrives (finished rfl)]
    rfl
  | again depth =>
    obtain rfl : depth = 1 :=
      Nat.le_antisymm (of_decide_eq_true repeats) (depth_pos_of_checkDepth arrives.1)
    refine ⟨⟨count, counts.resolve_left nofun, ?_⟩, cursor, arrives.2⟩
    rw [runs]
    rfl
  | leave depth => cases repeats
  | returned => cases repeats

theorem meets_again {loops : List Bool} {body : CodeBlock} {restarted : Machine}
    {outcome : Upshot Signal}
    (round : Meets program (.code (true :: loops) body) machine (.ok signal between))
    (repeats : signal.repeats = true) (restart : restartBlock program between = .ok () restarted)
    (rounds : Meets program (.rounds loops body) restarted outcome) :
    Meets program (.rounds loops body) machine outcome := by
  intro outer callers stands same
  obtain ⟨⟨count, some, runs⟩, cursor, standsBetween⟩ := runs_restartBlock round repeats stands same
  obtain ⟨⟨more, -, runsRest⟩, arrives⟩ := rounds _ _ (standsBetween.restartBlock restart) same
  refine ⟨⟨count + more, by omega, ?_⟩, arrives⟩
  rw [runTicks_add, runs, restart]
  exact runsRest

theorem meets_stuck {loops : List Bool} {body : CodeBlock} {failure : Failure}
    (round : Meets program (.code (true :: loops) body) machine (.ok signal between))
    (repeats : signal.repeats = true) (failed : restartBlock program between = .error failure after) :
    Meets program (.rounds loops body) machine (.error failure after) := by
  intro outer callers stands same
  obtain ⟨⟨count, some, runs⟩, -⟩ := runs_restartBlock round repeats stands same
  exact ⟨⟨count, some, runs.trans failed⟩, nofun⟩

theorem meets_close {loops : List Bool} {body : CodeBlock} {outcome : Upshot Signal}
    (round : Meets program (.code (true :: loops) body) machine outcome)
    (ends : ∀ signal after, outcome = .ok signal after → signal.repeats = false) :
    Meets program (.rounds loops body) machine
      (outcome.andThen fun signal after => closeBlock signal program after) := by
  intro outer callers stands same
  obtain ⟨⟨count, runs, counts⟩, arrives⟩ := round _ _ _ stands rfl (congrArg (true :: ·) same)
  have some : 0 < count := by
    refine counts.resolve_left fun ended => ?_
    cases ends _ _ ended
  obtain ⟨⟨more, closes⟩, arrives⟩ := runs_closeBlock runs arrives fun _ => ends
  exact ⟨⟨count + more, by omega, closes⟩, arrives⟩

/-- A function that has been run is left. -/
theorem runs_closeCall {outcome : Upshot Signal} {count : Nat}
    (runs : runTicks program count machine = settle program outcome)
    (arrives : ∀ signal after, outcome = .ok signal after →
      ∃ cursor, (signal = .next → spot.code.length ≤ cursor) ∧
        Arrives [{ spot with cursor }] callers signal after) (notLoop : spot.looping = false) :
    (∃ more, runTicks program (count + more) machine =
      forget (outcome.andThen fun signal after => closeCall signal program after)) ∧
    ∀ signal after, (outcome.andThen fun signal after => closeCall signal program after) =
      .ok signal after → signal = .next ∧ after.control = callers ∧ after.status = .ready := by
  cases outcome with
  | error failure after => exact ⟨⟨0, runs⟩, nofun⟩
  | ok signal between =>
    obtain ⟨cursor, finished, arrives⟩ := arrives signal between rfl
    obtain ⟨more, closes⟩ := exists_runTicks_eq_closeCall arrives notLoop finished
    refine ⟨⟨more, ?_⟩, fun answer after closed => control_of_closeCall arrives notLoop closed⟩
    rw [runTicks_add, runs]
    exact closes

theorem meets_call {loops : List Bool} {location : Location} {name : String} {count : Nat}
    {function : ScriptFunction} {inside : Machine} {outcome : Upshot Signal}
    (known : program.script.functions.get? name = some function)
    (entered : callGlobal location name count program machine = .ok () inside)
    (body : Meets program (.code [false] function.body) inside outcome) :
    Meets program (.instruction loops (location, .callGlobal name count)) machine
      (outcome.andThen fun signal after => closeCall signal program after) := by
  intro blocks callers stands same
  obtain ⟨⟨count, runs, -⟩, arrives⟩ := body _ _ _ (stands.callGlobal known entered) rfl rfl
  obtain ⟨⟨more, closes⟩, returns⟩ := runs_closeCall runs arrives rfl
  refine ⟨⟨count + more, ?_⟩, ?_⟩
  · have executed : execute location (.callGlobal name _) program machine = .ok () inside := entered
    rw [executed, andThen_ok, closes]
    cases closed : outcome.andThen fun signal after => closeCall signal program after with
    | error failure after => rfl
    | ok signal after =>
      obtain ⟨rfl, -⟩ := returns signal after closed
      rfl
  · intro signal after closed
    obtain ⟨rfl, control, ready⟩ := returns signal after closed
    exact ⟨ready, control⟩

theorem inspect_checkLoop (stands : machine.Stands blocks callers) (depth : Nat) :
    inspect (checkLoop depth) program machine =
      match checkDepth (blocks.map Spot.looping) depth with
      | .ok _ => .ok () machine
      | .error error => .error (.error error) machine := by
  unfold inspect
  rw [checkLoop_eq_checkDepth stands]
  cases checkDepth (blocks.map Spot.looping) depth <;> rfl

theorem meets_leave {loops : List Bool} {location : Location} {operation : Operation} {depth : Nat}
    (answer : Signal) (jumps : execute location operation program machine =
      (inspect (checkLoop depth) >>= fun _ => resume answer) program machine)
    (inside : checkDepth loops depth = .ok ())
    (arrives : ∀ blocks callers, blocks.map Spot.looping = loops → machine.Stands blocks callers →
      Arrives blocks callers answer machine) :
    Meets program (.instruction loops (location, operation)) machine (.ok answer machine) := by
  intro blocks callers stands same
  refine ⟨⟨0, (andThen_unit _).trans ?_⟩, ?_⟩
  · rw [jumps, run_bind, inspect_checkLoop stands, same, inside]
    rfl
  · rintro signal after ⟨⟩
    exact arrives _ _ same stands

theorem meets_leaveNothing {loops : List Bool} {location : Location} {operation : Operation}
    {depth : Nat} {error : Error} {next : MachineM Unit}
    (jumps : execute location operation program machine =
      (inspect (checkLoop depth) >>= fun _ => next) program machine)
    (outside : checkDepth loops depth = .error error) :
    Meets program (.instruction loops (location, operation)) machine
      (.error (.error error) machine) := by
  intro blocks callers stands same
  refine ⟨⟨0, (andThen_unit _).trans ?_⟩, nofun⟩
  rw [jumps, run_bind, inspect_checkLoop stands, same, outside]
  rfl

end Machine

open Machine in
/-- What evaluates is run by the machine with the same outcome. -/
theorem Evaluates.meets {program : Program} {task : Task} {machine : Machine}
    {outcome : Upshot Signal} (evaluates : Evaluates program task machine outcome) :
    Meets program task machine outcome := by
  induction evaluates with
  | nil =>
    intro spot outer callers stands code same
    refine ⟨⟨0, rfl, .inl rfl⟩, ?_⟩
    rintro signal after ⟨⟩
    exact ⟨spot.cursor, fun _ => List.drop_eq_nil_iff.1 code, stands⟩
  | cons _ _ head tail => exact meets_cons head tail
  | stop _ stops head => exact meets_stop head stops
  | plain staysOpen stays => exact meets_plain staysOpen stays
  | refused _ failed =>
    intro blocks callers stands same
    refine ⟨⟨0, ?_⟩, nofun⟩
    rw [failed]
    rfl
  | branch chosen entered _ body =>
    refine meets_block ?_ ?_ body
    · exact Upshot.run_bind.trans (by rw [chosen]; exact entered)
    · intro blocks callers stands
      exact (stands.steady (keeps_popCondition _) chosen).enterBlock entered
  | block entered _ body => exact meets_block entered (fun _ _ stands => stands.enterBlock entered) body
  | loop entered _ rounds =>
    intro blocks callers stands same
    obtain ⟨⟨count, -, runs⟩, arrives⟩ := rounds _ _ (stands.enterBlock entered) same
    refine ⟨⟨count, ?_⟩, arrives⟩
    rw [← runs]
    exact congrArg (Upshot.andThen · _) entered
  | again _ repeats restart _ round rounds => exact meets_again round repeats restart rounds
  | stuck _ repeats failed round => exact meets_stuck round repeats failed
  | close _ ends round => exact meets_close round ends
  | call known entered _ body => exact meets_call known entered body
  | breakLoop inside =>
    exact meets_leave (.leave _) rfl inside fun _ _ same stands => ⟨same ▸ inside, stands⟩
  | continueLoop inside =>
    exact meets_leave (.again _) rfl inside fun _ _ same stands => ⟨same ▸ inside, stands⟩
  | breakNothing outside => exact meets_leaveNothing rfl outside
  | continueNothing outside => exact meets_leaveNothing rfl outside
  | returnCall =>
    intro blocks callers stands same
    refine ⟨⟨0, Upshot.andThen_unit _⟩, ?_⟩
    rintro signal after ⟨⟩
    exact ⟨blocks, stands⟩

end Terrain
