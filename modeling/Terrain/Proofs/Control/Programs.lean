import Terrain.Proofs.Control.Agreement
import Terrain.Proofs.Machine.References

/-!
# Stepping and evaluation agree

What the machine runs to its end evaluates, by induction on the number of ticks it takes: the body of
a block, the rest of a block and another round of a loop are run in fewer ticks than the whole. With
the other direction, stepping and recursive evaluation agree on whole programs.

* `Machine.completes` — what the machine runs to its end evaluates.
* `Machine.exists_runFor_iff_evaluates` — the two agree.
-/

namespace Terrain.Machine

open Upshot

variable {program : Program} {machine : Machine} {spot : Spot} {blocks outer : List Spot}
  {callers : List (List Spot)} {count : Nat}

/-! ## What is run evaluates -/

/-- Code that the machine runs to the end of the run in so many ticks evaluates. -/
structure Completes (program : Program) (count : Nat) : Prop where
  code : ∀ {machine : Machine} {spot : Spot} {outer : List Spot} {callers : List (List Spot)},
    machine.Stands (spot :: outer) callers → (runTicks program count machine).IsFinal →
      ∃ outcome, Evaluates program (.code ((spot :: outer).map Spot.looping)
        (spot.code.drop spot.cursor)) machine outcome
  rounds : ∀ {machine : Machine} {body : CodeBlock} {outer : List Spot} {callers : List (List Spot)},
    machine.Stands (⟨body, 0, true⟩ :: outer) callers → (runTicks program count machine).IsFinal →
      ∃ outcome, Evaluates program (.rounds (outer.map Spot.looping) body) machine outcome

/-- Operations that open something evaluate if what they open does. -/
theorem Completes.opens {location : Location} {operation : Operation}
    (completes : Completes program count) (stands : machine.Stands blocks callers)
    (opens : operation.opens program.script = true)
    (final : (andThen (execute location operation program machine) fun _ after =>
      runTicks program count after).IsFinal) :
    ∃ outcome, Evaluates program (.instruction (blocks.map Spot.looping) (location, operation))
      machine outcome := by
  cases executed : execute location operation program machine with
  | error failure after => exact ⟨_, .refused opens executed⟩
  | ok value inside =>
    rw [executed, andThen_ok] at final
    cases operation with
    | ifElse thenBranch elseBranch =>
      obtain ⟨taken, between, chosen, entered⟩ := run_bind_eq_ok executed
      have stands := (stands.steady (keeps_popCondition _) chosen).enterBlock entered
      obtain ⟨outcome, body⟩ := completes.code stands final
      exact ⟨_, .branch chosen entered body⟩
    | block code =>
      obtain ⟨outcome, body⟩ := completes.code (stands.enterBlock executed) final
      exact ⟨_, .block executed body⟩
    | loop code =>
      obtain ⟨outcome, rounds⟩ := completes.rounds (stands.enterBlock executed) final
      exact ⟨_, .loop executed rounds⟩
    | callGlobal name arguments =>
      obtain ⟨function, known⟩ := Option.isSome_iff_exists.1 opens
      obtain ⟨outcome, body⟩ := completes.code (stands.callGlobal known executed) final
      exact ⟨_, .call known executed body⟩
    | _ => cases opens

/-- An instruction evaluates if what it opens does. -/
theorem Completes.instruction {location : Location} {operation : Operation}
    (completes : Completes program count) (stands : machine.Stands blocks callers)
    (final : (andThen (execute location operation program machine) fun _ after =>
      runTicks program count after).IsFinal) :
    ∃ outcome, Evaluates program (.instruction (blocks.map Spot.looping) (location, operation))
      machine outcome := by
  cases opens : operation.opens program.script with
  | true => exact completes.opens stands opens final
  | false =>
    cases jumps : operation.jumps with
    | false => exact ⟨_, .plain opens jumps⟩
    | true =>
      cases operation with
      | breakLoop depth =>
        cases inside : checkDepth (blocks.map Spot.looping) depth with
        | ok _ => exact ⟨_, .breakLoop inside⟩
        | error error => exact ⟨_, .breakNothing inside⟩
      | continueLoop depth =>
        cases inside : checkDepth (blocks.map Spot.looping) depth with
        | ok _ => exact ⟨_, .continueLoop inside⟩
        | error error => exact ⟨_, .continueNothing inside⟩
      | returnCall => exact ⟨_, .returnCall⟩
      | _ => cases jumps

/-- The rest of a block evaluates if what is run in fewer ticks does. -/
theorem exists_evaluates_code (fewer : ∀ less < count, Completes program less)
    (stands : machine.Stands (spot :: outer) callers)
    (final : (runTicks program count machine).IsFinal) :
    ∃ outcome, Evaluates program (.code ((spot :: outer).map Spot.looping)
      (spot.code.drop spot.cursor)) machine outcome := by
  cases code : spot.code.drop spot.cursor with
  | nil => exact ⟨_, .nil⟩
  | cons first rest =>
    obtain ⟨location, operation⟩ := first
    obtain ⟨next, left⟩ := getElem?_of_drop code
    cases count with
    | zero => exact absurd stands.ready final
    | succ count =>
      have started := final
      rw [runTicks_succ stands.ready, tick_execute stands next] at started
      obtain ⟨outcome, head⟩ := (fewer count count.lt_succ_self).instruction stands.advanced started
      by_cases stops : ∀ after, outcome ≠ .ok .next after
      case pos => exact ⟨_, .stop head stops⟩
      case neg =>
        obtain ⟨between, rfl⟩ : ∃ between, outcome = .ok .next between := by simpa using stops
        obtain ⟨⟨ticks, runs⟩, arrives⟩ := head.meets _ _ stands.advanced rfl
        have standsBetween : between.Stands _ callers := arrives _ _ rfl
        obtain ⟨less, finalRest⟩ :=
          runTicks_rest final (runs_instruction stands next runs) standsBetween.ready
        obtain ⟨outcome, tail⟩ := (fewer _ (by omega)).code standsBetween finalRest
        rw [left] at tail
        exact ⟨_, .cons head tail⟩

/-- The rounds of a loop evaluate if the first one does and if what is run in fewer ticks does. -/
theorem exists_evaluates_rounds {body : CodeBlock} (fewer : ∀ less < count, Completes program less)
    (stands : machine.Stands (⟨body, 0, true⟩ :: outer) callers)
    (final : (runTicks program count machine).IsFinal) :
    ∃ outcome, Evaluates program (.rounds (outer.map Spot.looping) body) machine outcome := by
  obtain ⟨outcome, round⟩ := exists_evaluates_code fewer stands final
  by_cases ends : ∀ signal after, outcome = .ok signal after → signal.repeats = false
  case pos => exact ⟨_, .close round ends⟩
  case neg =>
    obtain ⟨signal, between, rfl, repeats⟩ : ∃ signal between, outcome = .ok signal between ∧
        signal.repeats = true := by simpa using ends
    obtain ⟨⟨ticks, some, runs⟩, cursor, standsBetween⟩ :=
      runs_restartBlock round.meets repeats stands rfl
    cases restart : restartBlock program between with
    | error failure after => exact ⟨_, .stuck round repeats restart⟩
    | ok value restarted =>
      have standsRestarted := standsBetween.restartBlock restart
      obtain ⟨less, finalRest⟩ := runTicks_rest final (runs.trans restart) standsRestarted.ready
      obtain ⟨outcome, rounds⟩ := (fewer _ (by omega)).rounds standsRestarted finalRest
      exact ⟨_, .again round repeats restart rounds⟩

/-- What the machine runs to its end evaluates. -/
theorem completes (program : Program) (count : Nat) : Completes program count := by
  induction count using Nat.strongRecOn with
  | ind count fewer => exact ⟨exists_evaluates_code fewer, exists_evaluates_rounds fewer⟩

/-! ## Whole programs -/

theorem isFinal_faulted {outcome : Upshot Unit} : (faulted outcome).IsFinal ↔ outcome.IsFinal := by
  match outcome with
  | .ok value machine => rfl
  | .error (.error error) machine => rfl
  | .error (.breach breach) machine => rfl

theorem isFinal_finish : IsFinal (finish program machine) := by
  cases finished : finish program machine with
  | error failure after => trivial
  | ok value after =>
    obtain ⟨_, truncated, -, rest⟩ := run_bind_eq_ok finished
    obtain ⟨_, _, read, rest⟩ := run_bind_eq_ok rest
    cases read
    obtain ⟨_, _, read, rest⟩ := run_bind_eq_ok rest
    cases read
    split at rest
    · obtain ⟨_, _, raised, -⟩ := run_bind_eq_ok rest
      cases raised
    · cases rest
      exact nofun

/-- A program that evaluates is run to its end, with the same outcome. -/
theorem exists_runTicks_eq_conclude {main : CodeBlock} {ended : Upshot Signal}
    (stands : machine.Stands [⟨main, 0, false⟩] [])
    (evaluates : Evaluates program (.code [false] main) machine ended) :
    ∃ count, (runTicks program count machine).IsFinal ∧
      faulted (runTicks program count machine) = conclude program ended := by
  obtain ⟨⟨count, runs, -⟩, arrives⟩ := evaluates.meets _ _ _ stands rfl rfl
  obtain ⟨⟨more, closes⟩, returns⟩ := runs_closeCall runs arrives rfl
  unfold conclude
  cases closed : ended.andThen fun signal after => closeCall signal program after with
  | error failure after =>
    rw [closed] at closes
    refine ⟨count + more, ?_, ?_⟩
    · rw [closes]
      trivial
    · rw [closes]
      rfl
  | ok signal after =>
    obtain ⟨rfl, control, ready⟩ := returns signal after closed
    have ends : runTicks program (count + more + 1) machine = finish program after := by
      rw [runTicks_add, closes, closed]
      exact (runTicks_one ready).trans (tick_finish control)
    refine ⟨count + more + 1, ?_, ?_⟩
    · rw [ends]
      exact isFinal_finish
    · rw [ends]
      rfl

/-- An action that leaves control and status alone may come first. -/
theorem after_steady {α β : Type} {action : MachineM α} {next : α → MachineM β} {value : β}
    {after : Machine} {seen : List (List Spot) × Status} (steady : Steady action)
    (run : (action >>= next) program machine = .ok value after)
    (same : (machine.control, machine.status) = seen) :
    ∃ middle between, (between.control, between.status) = seen ∧
      next middle program between = .ok value after := by
  obtain ⟨middle, between, first, rest⟩ := run_bind_eq_ok run
  exact ⟨middle, between, (steady _ _ _ _ first).trans same, rest⟩

/-- A program starts with the first instruction of its main block. -/
theorem stands_of_boot {before : Machine} (fresh : (before.control, before.status) = ([], .ready))
    (booted : boot program before = .ok () machine) :
    machine.Stands [⟨program.script.main, 0, false⟩] [] := by
  have declares (name : String) (value : Value) (isConst : Bool) :
      Steady (declareNew name value isConst) :=
    (keeps_onHeap _).bind fun _ => keeps_declareGlobal _ _ _ _
  obtain ⟨_, _, read, rest⟩ := run_bind_eq_ok booted
  cases read
  obtain ⟨_, _, same, rest⟩ := after_steady (keeps_onHeap _) rest fresh
  obtain ⟨_, _, same, rest⟩ := after_steady (keeps_onHeap _) rest same
  obtain ⟨_, _, changed, rest⟩ := run_bind_eq_ok rest
  cases changed
  obtain ⟨_, _, same, rest⟩ := after_steady (keeps_forM (fun _ => declares _ _ _) _) rest same
  obtain ⟨_, _, same, rest⟩ := after_steady (declares _ _ _) rest same
  obtain ⟨_, _, same, entered⟩ := after_steady (keeps_forM (fun _ => declares _ _ _) _) rest same
  obtain ⟨control, ready⟩ := Prod.mk.inj same
  refine ⟨(status_of_calm (keeps_enterCall _ _ _) entered).trans ready, ?_⟩
  rw [control_of_enterCall entered, control]

/-- Running a program step by step comes to an end if and only if it evaluates, and then with the same
outcome: the same error or none, and the same machine. -/
theorem exists_runFor_iff_evaluates (started : start program = .ok machine)
    (outcome : Upshot Unit) :
    (∃ steps, runFor program steps machine = outcome ∧ outcome.IsFinal) ↔
      program.Evaluates machine outcome := by
  have stands : machine.Stands [⟨program.script.main, 0, false⟩] [] := by
    have fresh : ((blank program).control, (blank program).status) = ([], .ready) := rfl
    have booted := boot_of_start started
    generalize blank program = before at fresh booted
    exact stands_of_boot fresh booted
  refine ⟨?_, ?_⟩
  · rintro ⟨steps, rfl, final⟩
    obtain ⟨count, -, runs⟩ := @exists_runTicks_eq_runFor program machine steps
    rw [runs, isFinal_faulted] at final
    obtain ⟨ended, evaluates⟩ := (completes program count).code stands final
    obtain ⟨other, finalOther, concludes⟩ := exists_runTicks_eq_conclude stands evaluates
    refine ⟨ended, evaluates, ?_⟩
    rw [runs, ← concludes]
    rcases Nat.le_total count other with le | le
    · rw [runTicks_of_final final le]
    · rw [runTicks_of_final finalOther le]
  · rintro ⟨ended, evaluates, rfl⟩
    obtain ⟨count, final, concludes⟩ := exists_runTicks_eq_conclude stands evaluates
    obtain ⟨other, le, runs⟩ := @exists_runTicks_eq_runFor program machine count
    rw [← concludes]
    refine ⟨count, ?_, isFinal_faulted.2 final⟩
    rw [runs, runTicks_of_final final le]

/-- With room for seven steps the survey finishes. With room for six it is refused the copy in the second
call, as it is in the evaluation. -/
theorem survey_evaluates :
    (∃ machine after, start (survey 7) = .ok machine ∧ (survey 7).Evaluates machine (.ok () after) ∧
      after.status = .finished ∧ after.sequence.size = 7) ∧
    ∃ machine error after, start (survey 6) = .ok machine ∧
      (survey 6).Evaluates machine (.error (.error error) after) ∧
      after.status = .faulted ∧ after.sequence.size = 6 := by
  constructor
  · -- seventy steps are enough to come to the end
    obtain ⟨machine, started, checked⟩ : ∃ machine, start (survey 7) = .ok machine ∧
        (Upshot.ended? (runFor (survey 7) 70 machine)).any fun (_, after) =>
          after.status = .finished ∧ after.sequence.size = 7 :=
      exists_start (by decide +kernel)
    obtain ⟨⟨_, after⟩, ended, finished⟩ := (Option.any_eq_true _ _).1 checked
    obtain ⟨finished, size⟩ := of_decide_eq_true finished
    have ran := Upshot.eq_ok_of_ended? ended
    have final : IsFinal (.ok () after) := by simp [IsFinal, finished]
    exact ⟨machine, after, started, (exists_runFor_iff_evaluates started _).1 ⟨70, ran, final⟩,
      finished, size⟩
  · obtain ⟨machine, started, checked⟩ : ∃ machine, start (survey 6) = .ok machine ∧
        (Upshot.refused? (runFor (survey 6) 70 machine)).any fun (_, after) =>
          after.status = .faulted ∧ after.sequence.size = 6 :=
      exists_start (by decide +kernel)
    obtain ⟨⟨error, after⟩, refused, faulted⟩ := (Option.any_eq_true _ _).1 checked
    have ran := Upshot.eq_error_of_refused? refused
    exact ⟨machine, error, after, started,
      (exists_runFor_iff_evaluates started _).1 ⟨70, ran, trivial⟩, of_decide_eq_true faulted⟩

end Terrain.Machine
