import Terrain.Proofs.Control.Programs
import Terrain.Proofs.Control.Unwinding
import Terrain.Proofs.Machine.Lapses
import Terrain.Proofs.Machine.Occupancy
import Terrain.Proofs.Machine.References

/-!
# Progress

A step of a machine that is ready executes one instruction at most and unwinds to an end. Then the
machine has faulted, it has finished with nothing on its stacks, or it can go on. What stands in the
way of that is a native function that breaks an invariant of its own in the middle of a step.

* `Machine.Advances` — an instruction, if there is one, and the turns of the unwinding.
* `Machine.Reachable.founded` — the calls of a run rest on blocks that are not loops.
* `Machine.Reachable.exists_native_breach` — only native functions break invariants.
* `Machine.step_progresses` — what a step comes to.
-/

namespace Terrain

namespace Machine

variable {program : Program} {machine after : Machine}

/-- At most one instruction is executed. Unless it fails, the machine unwinds, in no more turns than
there are blocks and calls, and one for the end of the run. -/
inductive Advances (program : Program) (machine : Machine) : Upshot Progress → Prop where
  | unwinds {turns : Nat} {outcome : Upshot Progress} (idle : machine.pending? = none)
      (few : turns ≤ machine.depth) (unwinds : Unwinds program turns machine outcome) :
      Advances program machine outcome
  | executes {location : Location} {operation : Operation} {between : Machine} {turns : Nat}
      {outcome : Upshot Progress} (pending : machine.pending? = some (location, operation))
      (executed : execute location operation program machine.advanced = .ok () between)
      (few : turns ≤ between.depth) (unwinds : Unwinds program turns between outcome) :
      Advances program machine outcome
  | fails {location : Location} {operation : Operation} {failure : Failure} {after : Machine}
      (pending : machine.pending? = some (location, operation))
      (failed : execute location operation program machine.advanced = .error failure after) :
      Advances program machine (.error failure after)

/-! ## Faults -/

section Faults

variable {α : Type} {outcome : Upshot α}

theorem eq_ok_of_faulted {value : α} (run : faulted outcome = .ok value after) :
    outcome = .ok value after := by
  match outcome with
  | .ok value after => exact run
  | .error (.error _) _ => cases run
  | .error (.breach _) _ => cases run

theorem eq_breach_of_faulted {breach : Breach} (run : faulted outcome = .error (.breach breach) after) :
    outcome = .error (.breach breach) after := by
  match outcome with
  | .ok value after => cases run
  | .error (.error _) _ => cases run
  | .error (.breach _) _ => exact run

theorem status_of_faulted {error : Error} (run : faulted outcome = .error (.error error) after) :
    after.status = .faulted := by
  match outcome with
  | .ok value after => cases run
  | .error (.error _) _ =>
    cases run
    rfl
  | .error (.breach _) _ => cases run

end Faults

/-! ## One step -/

/-- An instruction is pending in the innermost block of the innermost call. -/
theorem exists_stands_of_pending {instruction : Instruction} (ready : machine.status = .ready)
    (pending : machine.pending? = some instruction) :
    ∃ spot outer callers, machine.Stands (spot :: outer) callers := by
  obtain ⟨block, top, -⟩ := Option.bind_eq_some_iff.1 pending
  obtain ⟨outer, callers, control⟩ := CallStack.control_of_topBlock? top
  exact ⟨_, outer, callers, ready, control⟩

/-- An instruction that is executed leaves a machine that can be unwound. -/
theorem loose_of_execute {location : Location} {operation : Operation}
    (ready : machine.status = .ready) (founded : Founded machine.control)
    (pending : machine.pending? = some (location, operation))
    (run : execute location operation program machine.advanced = .ok () after) : after.Loose := by
  obtain ⟨spot, outer, callers, stands⟩ := exists_stands_of_pending ready pending
  rw [stands.control, Founded, List.forall_mem_cons] at founded
  have moved : Founded ((⟨spot.code, spot.cursor + 1, spot.looping⟩ :: outer) :: callers) :=
    List.forall_mem_cons.2 ⟨founded.1.move rfl, founded.2⟩
  have status : after.status = machine.advanced.status := calm_execute _ _ _ _ _ _ run
  exact loose_of_founded (status.trans (machine.status_advanced.trans ready))
    (founded_execute stands.advanced moved run)

/-- A machine whose calls rest on blocks that are not loops advances, and what it comes to has ended
or can go on. -/
theorem advances_advance (ready : machine.status = .ready) (founded : Founded machine.control) :
    Advances program machine (advance program machine) ∧
      ∀ progress after, advance program machine = .ok progress after → after.Settled progress := by
  rw [advance_eq]
  cases pending : machine.pending? with
  | none =>
    obtain ⟨turns, few, unwinds, settled⟩ :=
      (loose_of_founded ready founded).exists_unwinds (Nat.le_refl machine.depth)
    exact ⟨.unwinds pending few unwinds, settled⟩
  | some instruction =>
    obtain ⟨location, operation⟩ := instruction
    dsimp only
    cases executed : execute location operation program machine.advanced with
    | error failure after => exact ⟨.fails pending executed, nofun⟩
    | ok _ between =>
      have loose := loose_of_execute ready founded pending executed
      obtain ⟨turns, few, unwinds, settled⟩ := loose.exists_unwinds (Nat.le_refl between.depth)
      exact ⟨.executes pending executed few unwinds, settled⟩

theorem settled_of_step {progress : Progress} (ready : machine.status = .ready)
    (founded : Founded machine.control) (stepped : step program machine = .ok progress after) :
    after.Settled progress := by
  rw [step_eq_faulted ready] at stepped
  exact (@advances_advance program machine ready founded).2 _ _ (eq_ok_of_faulted stepped)

theorem status_of_step_failed {error : Error} (ready : machine.status = .ready)
    (stepped : step program machine = .error (.error error) after) : after.status = .faulted := by
  rw [step_eq_faulted ready] at stepped
  exact status_of_faulted stepped

/-- A machine that is not ready takes no step and stays as it is. -/
theorem step_of_not_ready (stopped : machine.status ≠ .ready) :
    ∃ error, step program machine = .error (.error error) machine := by
  refine ⟨.apiUsage s!"virtual machine is {machine.status.describe}, not ready", ?_⟩
  change (if machine.status ≠ .ready then _ else _ : MachineM Progress) program machine = _
  rw [if_pos stopped]
  rfl

/-! ## Runs -/

/-- The calls of a run rest on blocks that are not loops. -/
theorem Reachable.founded (reached : Reachable program machine) (ready : machine.status = .ready) :
    Founded machine.control := by
  induction reached with
  | start started =>
    have booted := boot_of_start started
    have fresh : ((blank program).control, (blank program).status) = ([], .ready) := rfl
    generalize blank program = before at booted fresh
    rw [(stands_of_boot fresh booted).control]
    exact List.forall_mem_singleton.2 (.single _ _)
  | @step machine after progress _ stepped ih =>
    by_cases before : machine.status = .ready
    case neg =>
      obtain ⟨error, refused⟩ := @step_of_not_ready program machine before
      cases stepped.symm.trans refused
    case pos =>
      have settled := settled_of_step before (ih before) stepped
      cases progress with
      | running => exact Poised.founded settled
      | finished =>
        rw [settled.1] at ready
        cases ready
  | @failed machine after error _ stepped ih =>
    by_cases before : machine.status = .ready
    case neg =>
      obtain ⟨error, refused⟩ := @step_of_not_ready program machine before
      cases stepped.symm.trans refused
      exact absurd ready before
    case pos =>
      rw [status_of_step_failed before stepped] at ready
      cases ready

/-- Only a native function that is called breaks an invariant in the middle of a step. -/
theorem Reachable.exists_native_breach {breach : Breach} (reached : Reachable program machine)
    (ready : machine.status = .ready)
    (broken : Machine.step program machine = .error (.breach breach) after) :
    ∃ location operation between, machine.pending? = some (location, operation) ∧
      operation.isNative program.script = true ∧
      execute location operation program machine.advanced = .error (.breach breach) between := by
  -- in a run the bookkeeping is sound
  have other : breach.isBookkeeping = false := by
    have sound := @ends_step program _ _ _ reached.sound
    rwa [broken] at sound
  have unwinding {fuel : Nat} {between after : Machine}
      (broken : unwindFor fuel program between = .error (.breach breach) after) : False := by
    have bookkeeping := upright_unwindFor fuel _ _ _ broken
    rw [other] at bookkeeping
    cases bookkeeping
  rw [step_eq_faulted ready] at broken
  have advanced := eq_breach_of_faulted broken
  rw [advance_eq] at advanced
  cases pending : machine.pending? with
  | none =>
    rw [pending] at advanced
    exact (unwinding advanced).elim
  | some instruction =>
    obtain ⟨location, operation⟩ := instruction
    rw [pending] at advanced
    dsimp only at advanced
    cases executed : execute location operation program machine.advanced with
    | ok _ between =>
      rw [executed] at advanced
      exact (unwinding advanced).elim
    | error failure between =>
      rw [executed] at advanced
      cases advanced
      cases native : operation.isNative program.script with
      | true => exact ⟨location, operation, after, rfl, native, executed⟩
      | false =>
        have bookkeeping := upright_execute native location _ _ _ executed
        rw [other] at bookkeeping
        cases bookkeeping

/-- All states of a run are within the limits. A step of a machine that is ready executes at most one
instruction and unwinds to an end, after which the machine has faulted, has finished with nothing on
its stacks, or can go on, unless a native function that is called breaks an invariant. -/
theorem step_progresses (reached : Reachable program machine) :
    (machine.calls.size ≤ program.limits.calls ∧
      (∀ call ∈ machine.calls.entries, call.blocks.size ≤ program.limits.blocks) ∧
      machine.operands.size ≤ program.limits.operands ∧
      machine.sequence.size ≤ program.limits.steps) ∧
    (machine.status = .ready →
      (∃ outcome, Advances program machine outcome ∧ step program machine = faulted outcome) ∧
      match step program machine with
      | .ok progress after => after.Settled progress
      | .error (.error _) after => after.status = .faulted
      | .error (.breach breach) _ => ∃ location operation between,
          machine.pending? = some (location, operation) ∧
          operation.isNative program.script = true ∧
          execute location operation program machine.advanced = .error (.breach breach) between) := by
  refine ⟨?_, fun ready => ?_⟩
  · have within := reached.within
    refine ⟨?_, fun call member => ?_, within.operands.size, within.sequence.size⟩
    · exact (CallStack.length_layout _).symm.trans_le within.calls.size
    · exact (within.calls.blocks _ (List.mem_map_of_mem member)).2
  · have founded := reached.founded ready
    refine ⟨⟨_, (advances_advance ready founded).1, step_eq_faulted ready⟩, ?_⟩
    match stepped : step program machine with
    | .ok progress after => exact settled_of_step ready founded stepped
    | .error (.error error) after => exact status_of_step_failed ready stepped
    | .error (.breach breach) after => exact reached.exists_native_breach ready stepped

/-- The break leaves the branch and the loop around it, the last instruction of the program leaves the main
block and the run, and the copy that is refused faults the machine. -/
theorem survey_steps_progress :
    (∃ machine after, Reachable (survey 7) machine ∧
      machine.pending?.map (·.2.name) = some "break" ∧
      machine.calls.entries.map (·.blocks.size) = [3, 1] ∧
      (∃ outcome, Advances (survey 7) machine outcome ∧ step (survey 7) machine = faulted outcome) ∧
      step (survey 7) machine = .ok .running after ∧ after.Settled .running ∧
      after.calls.entries.map (·.blocks.size) = [1, 1]) ∧
    (∃ machine after, Reachable (survey 7) machine ∧ machine.pending?.map (·.2.name) = some "pop" ∧
      step (survey 7) machine = .ok .finished after ∧ after.Settled .finished) ∧
    ∃ machine error after, Reachable (survey 6) machine ∧
      machine.pending?.map (·.2.name) = some "call_member" ∧
      step (survey 6) machine = .error (.error error) after ∧ after.status = .faulted := by
  refine ⟨?_, ?_, ?_⟩
  · -- the loop has gone round as often as its limit says
    obtain ⟨machine, reached, ready, pending, blocks, checked⟩ : ∃ machine, Reachable (survey 7) machine ∧
        machine.status = .ready ∧ machine.pending?.map (·.2.name) = some "break" ∧
        machine.calls.entries.map (·.blocks.size) = [3, 1] ∧
        (Upshot.ended? (step (survey 7) machine)).any fun (progress, after) =>
          progress = .running ∧ after.calls.entries.map (·.blocks.size) = [1, 1] :=
      exists_reachable 46 (by decide +kernel)
    obtain ⟨⟨progress, after⟩, ended, running⟩ := (Option.any_eq_true _ _).1 checked
    obtain ⟨rfl, left⟩ := of_decide_eq_true running
    have stepped := Upshot.eq_ok_of_ended? ended
    obtain ⟨advances, settled⟩ := (step_progresses reached).2 ready
    rw [stepped] at settled
    exact ⟨machine, after, reached, pending, blocks, advances, stepped, settled, left⟩
  · -- unwinding finds the main block at its end, and no call that could go on
    obtain ⟨machine, reached, ready, pending, checked⟩ : ∃ machine, Reachable (survey 7) machine ∧
        machine.status = .ready ∧ machine.pending?.map (·.2.name) = some "pop" ∧
        (Upshot.ended? (step (survey 7) machine)).any fun (progress, _) => progress = .finished :=
      exists_reachable 69 (by decide +kernel)
    obtain ⟨⟨progress, after⟩, ended, finished⟩ := (Option.any_eq_true _ _).1 checked
    obtain rfl := of_decide_eq_true finished
    have stepped := Upshot.eq_ok_of_ended? ended
    obtain ⟨-, settled⟩ := (step_progresses reached).2 ready
    rw [stepped] at settled
    exact ⟨machine, after, reached, pending, stepped, settled⟩
  · -- the instruction fails before anything is unwound
    obtain ⟨machine, reached, ready, pending, checked⟩ : ∃ machine, Reachable (survey 6) machine ∧
        machine.status = .ready ∧ machine.pending?.map (·.2.name) = some "call_member" ∧
        (Upshot.refused? (step (survey 6) machine)).isSome :=
      exists_reachable 58 (by decide +kernel)
    obtain ⟨⟨error, after⟩, refused⟩ := Option.isSome_iff_exists.1 checked
    have stepped := Upshot.eq_error_of_refused? refused
    obtain ⟨-, faulted⟩ := (step_progresses reached).2 ready
    rw [stepped] at faulted
    exact ⟨machine, error, after, reached, pending, stepped, faulted⟩

/-- A draw between bounds that are further apart than 63 bits can say. -/
def farDraw : Program where
  script := { idle.script with main :=
    [(.start, .loadNumber (-1)), (.start, .loadNumber 9223372036854775808),
      (.start, .callGlobal "Random" 2), (.start, .pop)] }
  parameters := idle.parameters
  limits := idle.limits

/-- The draw breaks the step off: the machine has neither faulted nor finished, nor can it go on. -/
theorem far_draw_breaks_off : ∃ machine, Reachable farDraw machine ∧ machine.status = .ready ∧
    ∃ after, step farDraw machine = .error (.breach .overflow) after := by
  obtain ⟨machine, reached, ready, failed⟩ : ∃ machine, Reachable farDraw machine ∧
      machine.status = .ready ∧ Upshot.failure? (step farDraw machine) = some (.breach .overflow) :=
    exists_reachable 2 (by decide +kernel)
  exact ⟨machine, reached, ready, Upshot.exists_of_failure? failed⟩

end Machine

end Terrain
