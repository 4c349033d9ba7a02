import Terrain.Proofs.Control.Transfers

/-!
# Ticks

A step executes one instruction and then leaves as many blocks and calls as have come to their end. A
tick is one part of that: an instruction, a block or a call that is left, another round of a loop, or
the end of the run. A run in steps is a run in ticks that stops now and then.

* `Machine.tick`, `Machine.runTicks` — ticks and runs in ticks.
* `Upshot.IsFinal` — the run goes no further.
* `Machine.exists_runTicks_eq_runFor` — steps are made of ticks.
-/

namespace Terrain

/-! ## Outcomes -/

namespace Upshot

variable {α β γ : Type}

/-- The outcome without its value. -/
def forget (outcome : Upshot α) : Upshot Unit := outcome.andThen fun _ machine => .ok () machine

def IsFinal : Upshot α → Prop
  | .ok _ machine => machine.status ≠ .ready
  | .error _ _ => True

@[simp] theorem andThen_ok (value : α) (machine : Machine) (next : α → Machine → Upshot β) :
    andThen (.ok value machine) next = next value machine := rfl

@[simp] theorem andThen_error (failure : Failure) (machine : Machine)
    (next : α → Machine → Upshot β) :
    andThen (.error failure machine : Upshot α) next = .error failure machine := rfl

theorem andThen_assoc (outcome : Upshot α) (next : α → Machine → Upshot β)
    (last : β → Machine → Upshot γ) :
    (outcome.andThen next).andThen last =
      outcome.andThen fun value machine => (next value machine).andThen last := by
  cases outcome <;> rfl

@[simp] theorem andThen_unit (outcome : Upshot Unit) :
    (outcome.andThen fun _ machine => .ok () machine) = outcome := by
  cases outcome <;> rfl

/-- A sequence of two actions, one after the other. -/
theorem run_bind {action : MachineM α} {next : α → MachineM β} {program : Program}
    {machine : Machine} : (action >>= next) program machine =
      andThen (action program machine) fun value after => next value program after := by
  change EStateM.bind (action program) (fun value => next value program) machine = _
  unfold EStateM.bind andThen
  cases action program machine <;> rfl

end Upshot

namespace Machine

open Upshot

variable {program : Program} {machine after : Machine}

/-! ## Ticks -/

def pending? (machine : Machine) : Option Instruction :=
  machine.calls.topBlock?.bind fun block => block.code[block.cursor]?

/-- One instruction, or one thing that is left at its end. -/
def tick : MachineM Unit := fun program machine =>
  match machine.pending? with
  | some (location, operation) => execute location operation program machine.advanced
  | none =>
    match machine.calls.entries with
    | [] => finish program machine
    | call :: _ =>
      match call.blocks.top? with
      | none => leaveCall false program machine
      | some block =>
        if block.looping then restartBlock program machine else leaveBlock program machine

/-- At most so many ticks, until the machine is no longer ready. -/
def runTicks (program : Program) : Nat → Machine → Upshot Unit
  | 0, machine => .ok () machine
  | count + 1, machine =>
    if machine.status = .ready then
      andThen (tick program machine) fun _ after => runTicks program count after
    else .ok () machine

theorem runTicks_of_not_ready (stopped : machine.status ≠ .ready) (count : Nat) :
    runTicks program count machine = .ok () machine := by
  cases count with
  | zero => rfl
  | succ count => simp [runTicks, stopped]

theorem runTicks_succ (ready : machine.status = .ready) (count : Nat) :
    runTicks program (count + 1) machine =
      andThen (tick program machine) fun _ after => runTicks program count after := by
  simp [runTicks, ready]

theorem runTicks_one (ready : machine.status = .ready) :
    runTicks program 1 machine = tick program machine := by
  rw [runTicks_succ ready]
  exact andThen_unit _

theorem runTicks_add (first second : Nat) :
    runTicks program (first + second) machine =
      (runTicks program first machine).andThen fun _ after => runTicks program second after := by
  induction first generalizing machine with
  | zero => simp [runTicks]
  | succ first ih =>
    by_cases ready : machine.status = .ready
    case pos =>
      rw [Nat.add_right_comm, runTicks_succ ready, runTicks_succ ready, andThen_assoc]
      simp only [ih]
    case neg => simp [runTicks_of_not_ready ready]

/-- A run that goes no further stays as it is. -/
theorem runTicks_of_final {count more : Nat} (final : (runTicks program count machine).IsFinal)
    (le : count ≤ more) : runTicks program more machine = runTicks program count machine := by
  obtain ⟨rest, rfl⟩ := Nat.exists_eq_add_of_le le
  rw [runTicks_add]
  cases outcome : runTicks program count machine with
  | error failure after => rfl
  | ok value after =>
    rw [outcome] at final
    exact @runTicks_of_not_ready program _ final rest

/-- The rest of a run after part of it. -/
theorem runTicks_rest {count first : Nat} {between : Machine}
    (final : (runTicks program count machine).IsFinal)
    (start : runTicks program first machine = .ok () between) (ready : between.status = .ready) :
    first < count ∧ (runTicks program (count - first) between).IsFinal := by
  have less : first < count := by
    refine Nat.lt_of_not_le fun le => ?_
    rw [← runTicks_of_final final le, start] at final
    exact final ready
  obtain ⟨rest, rfl⟩ := Nat.exists_eq_add_of_le (Nat.le_of_lt less)
  rw [runTicks_add, start] at final
  rw [Nat.add_sub_cancel_left]
  exact ⟨less, final⟩

section Places

variable {spot : Spot} {outer : List Spot} {callers : List (List Spot)}

theorem pending?_of_stands (stands : machine.Stands (spot :: outer) callers) :
    machine.pending? = spot.code[spot.cursor]? := by
  obtain ⟨block, top, rfl⟩ := CallStack.topBlock?_of_control stands.control
  unfold pending?
  rw [top]
  rfl

theorem tick_execute {location : Location} {operation : Operation}
    (stands : machine.Stands (spot :: outer) callers)
    (next : spot.code[spot.cursor]? = some (location, operation)) :
    tick program machine = execute location operation program machine.advanced := by
  unfold tick
  rw [pending?_of_stands stands, next]

/-- A block at its end starts again or is left. -/
theorem tick_finished (stands : machine.Stands (spot :: outer) callers)
    (finished : spot.code.length ≤ spot.cursor) :
    tick program machine =
      if spot.looping then restartBlock program machine else leaveBlock program machine := by
  have idle : machine.pending? = none := by
    rw [pending?_of_stands stands]
    exact List.getElem?_eq_none finished
  obtain ⟨call, rest, entries, spots, -⟩ := CallStack.exists_of_control stands.control
  obtain ⟨block, others, inner, rfl, -⟩ := List.map_eq_cons_iff.1 spots
  unfold tick
  rw [idle, entries]
  simp only [BlockStack.top?, inner, List.head?_cons]
  rfl

theorem tick_leaveCall (stands : machine.Stands [] callers) :
    tick program machine = leaveCall false program machine := by
  obtain ⟨call, rest, entries, spots, -⟩ := CallStack.exists_of_control stands.control
  have inner : call.blocks.entries = [] := List.map_eq_nil_iff.1 spots
  have idle : machine.pending? = none := by
    simp [pending?, CallStack.topBlock?, entries, BlockStack.top?, inner]
  unfold tick
  rw [idle, entries]
  simp only [BlockStack.top?, inner, List.head?_nil]

theorem tick_finish (noCalls : machine.control = []) :
    tick program machine = finish program machine := by
  have entries : machine.calls.entries = [] := List.map_eq_nil_iff.1 noCalls
  have idle : machine.pending? = none := by simp [pending?, CallStack.topBlock?, entries]
  unfold tick
  rw [idle, entries]

end Places

/-! ## Steps -/

theorem unwindFor_succ (fuel : Nat) :
    unwindFor (fuel + 1) program machine =
      match machine.calls.entries with
      | [] => andThen (finish program machine) fun _ after => .ok .finished after
      | call :: _ =>
        match call.blocks.top? with
        | none => andThen (leaveCall false program machine) fun _ after => unwindFor fuel program after
        | some block =>
          if !block.isFinished then .ok .running machine
          else if block.looping then
            andThen (restartBlock program machine) fun _ after => .ok .running after
          else andThen (leaveBlock program machine) fun _ after => unwindFor fuel program after := by
  change (match machine.calls.entries with | [] => _ | call :: _ => _ : MachineM Progress)
    program machine = _
  cases machine.calls.entries with
  | nil => exact run_bind
  | cons call rest =>
    dsimp only
    cases call.blocks.top? with
    | none => exact run_bind
    | some block =>
      cases unfinished : !block.isFinished with
      | true =>
        simp only [unfinished, ↓reduceIte]
        rfl
      | false =>
        cases looping : block.looping with
        | true =>
          simp only [unfinished, looping, ↓reduceIte]
          exact run_bind
        | false =>
          simp only [unfinished, looping]
          exact run_bind

/-- A block that has an instruction left is not unwound. -/
theorem unwindFor_of_pending {instruction : Instruction}
    (pending : machine.pending? = some instruction) (fuel : Nat) :
    unwindFor fuel program machine = .ok .running machine := by
  cases fuel with
  | zero => rfl
  | succ fuel =>
    rw [unwindFor_succ]
    unfold pending? CallStack.topBlock? at pending
    cases entries : machine.calls.entries with
    | nil => simp [entries] at pending
    | cons call rest =>
      cases top : call.blocks.top? with
      | none => simp [entries, top] at pending
      | some block =>
        have inside : block.code[block.cursor]? = some instruction := by
          simpa [entries, top] using pending
        have unfinished : block.isFinished = false := by
          simpa [Block.isFinished] using (List.getElem?_eq_some_iff.1 inside).1
        simp [top, unfinished]

/-- Without an instruction to execute, unwinding starts with a tick. It goes on unless a loop starts
another round or the run ends. -/
theorem unwindFor_of_not_pending (idle : machine.pending? = none) (fuel : Nat) :
    ∃ goesOn : Bool,
      forget (unwindFor (fuel + 1) program machine) = andThen (tick program machine) (fun _ after =>
        if goesOn then forget (unwindFor fuel program after) else .ok () after) ∧
      (goesOn = true → ∀ after, tick program machine = .ok () after →
        after.status = machine.status) := by
  rw [unwindFor_succ]
  unfold tick forget
  rw [idle]
  cases entries : machine.calls.entries with
  | nil => exact ⟨false, andThen_assoc _ _ _, fun goesOn => absurd goesOn Bool.false_ne_true⟩
  | cons call rest =>
    cases top : call.blocks.top? with
    | none =>
      refine ⟨true, ?_, fun _ after run => ?_⟩
      · simp only [top, ↓reduceIte]
        exact andThen_assoc _ _ _
      · simp only [top] at run
        exact calm_leaveCall _ _ _ _ _ run
    | some block =>
      have finished : block.isFinished = true := by
        simpa [pending?, CallStack.topBlock?, entries, top, Block.isFinished] using idle
      cases looping : block.looping with
      | true =>
        refine ⟨false, ?_, fun goesOn => absurd goesOn Bool.false_ne_true⟩
        simp [top, finished, looping, andThen_assoc]
      | false =>
        refine ⟨true, ?_, fun _ after run => ?_⟩
        · simp only [top, finished, looping, Bool.not_true, Bool.false_eq_true, ↓reduceIte]
          exact andThen_assoc _ _ _
        · simp only [top, looping] at run
          exact status_of_calm keeps_leaveBlock run

/-- Unwinding is a number of ticks, at least one if no instruction is to be executed. -/
theorem exists_runTicks_eq_unwindFor (ready : machine.status = .ready) (fuel : Nat) :
    ∃ count, forget (unwindFor fuel program machine) = runTicks program count machine ∧
      (machine.pending? = none → 0 < fuel → 0 < count) := by
  induction fuel generalizing machine with
  | zero => exact ⟨0, rfl, fun _ => id⟩
  | succ fuel ih =>
    cases pending : machine.pending? with
    | some instruction =>
      rw [unwindFor_of_pending pending]
      exact ⟨0, rfl, nofun⟩
    | none =>
      obtain ⟨goesOn, start, calm⟩ := @unwindFor_of_not_pending program _ pending fuel
      rw [start]
      cases goesOn with
      | false => exact ⟨1, (andThen_unit _).trans (runTicks_one ready).symm, fun _ _ => Nat.one_pos⟩
      | true =>
        cases outcome : tick program machine with
        | error failure after =>
          refine ⟨1, ?_, fun _ _ => Nat.one_pos⟩
          rw [runTicks_one ready, outcome]
          rfl
        | ok value after =>
          obtain ⟨count, same, -⟩ := ih ((calm rfl after outcome).trans ready)
          refine ⟨count + 1, ?_, fun _ _ => count.succ_pos⟩
          rw [runTicks_succ ready, outcome]
          exact same

theorem depth_pos (machine : Machine) : 0 < machine.depth := by
  have grows (calls : List Call) (total : Nat) :
      total ≤ calls.foldl (fun total call => total + call.blocks.size + 1) total := by
    induction calls generalizing total with
    | nil => exact Nat.le_refl total
    | cons call calls ih => exact Nat.le_trans (by omega) (ih (total + call.blocks.size + 1))
  exact grows _ 1

theorem status_advanced (machine : Machine) : machine.advanced.status = machine.status := by
  unfold advanced
  split <;> rfl

theorem fetch_of_pending {instruction : Instruction}
    (pending : machine.pending? = some instruction) :
    fetch program machine = .ok (some instruction) machine.advanced := by
  obtain ⟨block, top, inside⟩ := Option.bind_eq_some_iff.1 pending
  change (match machine.calls.topBlock? with | none => _ | some block => _ :
    MachineM (Option Instruction)) program machine = _
  unfold advanced
  rw [top]
  dsimp only
  rw [inside]
  rfl

theorem fetch_of_not_pending (idle : machine.pending? = none) :
    fetch program machine = .ok none machine := by
  change (match machine.calls.topBlock? with | none => _ | some block => _ :
    MachineM (Option Instruction)) program machine = _
  cases top : machine.calls.topBlock? with
  | none => rfl
  | some block =>
    have outside : block.code[block.cursor]? = none := by simpa [pending?, top] using idle
    dsimp only
    rw [outside]
    rfl

/-- An instruction, if there is one, and then what has come to its end. -/
theorem advance_eq :
    advance program machine =
      match machine.pending? with
      | some (location, operation) =>
        andThen (execute location operation program machine.advanced) fun _ after =>
          unwindFor after.depth program after
      | none => unwindFor machine.depth program machine := by
  unfold advance
  rw [run_bind]
  cases pending : machine.pending? with
  | none =>
    rw [fetch_of_not_pending pending]
    rfl
  | some instruction =>
    rw [fetch_of_pending pending]
    exact run_bind

/-- What a step does is at least one tick. -/
theorem exists_runTicks_eq_advance (ready : machine.status = .ready) :
    ∃ count, 0 < count ∧ forget (advance program machine) = runTicks program count machine := by
  rw [advance_eq]
  cases pending : machine.pending? with
  | none =>
    obtain ⟨count, same, some⟩ := @exists_runTicks_eq_unwindFor program _ ready machine.depth
    exact ⟨count, some pending machine.depth_pos, same⟩
  | some instruction =>
    obtain ⟨location, operation⟩ := instruction
    have first : tick program machine = execute location operation program machine.advanced := by
      unfold tick
      rw [pending]
    dsimp only
    rw [← first]
    cases outcome : tick program machine with
    | error failure after =>
      refine ⟨1, Nat.one_pos, ?_⟩
      rw [runTicks_one ready, outcome]
      rfl
    | ok value after =>
      have calm : after.status = machine.advanced.status :=
        calm_execute _ _ _ _ _ _ (first.symm.trans outcome)
      have still := (calm.trans machine.status_advanced).trans ready
      obtain ⟨count, same, -⟩ := @exists_runTicks_eq_unwindFor program after still after.depth
      refine ⟨count + 1, count.succ_pos, ?_⟩
      rw [runTicks_succ ready, outcome]
      exact same

/-- A step that is taken faults the machine if it fails. -/
theorem step_eq_faulted (ready : machine.status = .ready) :
    step program machine = faulted (advance program machine) := by
  have guarded : step program machine =
      onError advance (modify fun machine => { machine with status := .faulted }) program machine := by
    change (if machine.status ≠ .ready then _ else _ : MachineM Progress) program machine = _
    rw [if_neg (not_not_intro ready)]
  rw [guarded]
  unfold onError faulted
  match advance program machine with
  | .ok value after => rfl
  | .error (.error error) after => rfl
  | .error (.breach breach) after => rfl

/-- A run in steps is a run in ticks, at least as many of them. -/
theorem exists_runTicks_eq_runFor (steps : Nat) :
    ∃ count, steps ≤ count ∧
      runFor program steps machine = faulted (runTicks program count machine) := by
  induction steps generalizing machine with
  | zero => exact ⟨0, Nat.le_refl 0, rfl⟩
  | succ steps ih =>
    unfold runFor
    by_cases ready : machine.status = .ready
    case neg =>
      refine ⟨steps + 1, Nat.le_refl _, ?_⟩
      rw [if_neg ready, runTicks_of_not_ready ready]
      rfl
    case pos =>
      obtain ⟨first, some, same⟩ := @exists_runTicks_eq_advance program _ ready
      rw [if_pos ready, step_eq_faulted ready]
      match outcome : advance program machine with
      | .ok value after =>
        rw [outcome] at same
        obtain ⟨rest, le, sameRest⟩ := @ih after
        refine ⟨first + rest, by omega, ?_⟩
        rw [runTicks_add, ← same]
        exact sameRest
      | .error (.error error) after =>
        rw [outcome] at same
        refine ⟨first + steps, by omega, ?_⟩
        rw [runTicks_add, ← same]
        rfl
      | .error (.breach breach) after =>
        rw [outcome] at same
        refine ⟨first + steps, by omega, ?_⟩
        rw [runTicks_add, ← same]
        rfl

end Machine

end Terrain
