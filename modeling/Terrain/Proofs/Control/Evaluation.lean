import Terrain.Machine.Step

/-!
# Structured evaluation

The meaning of control flow by recursion over the code, without positions to jump to. An instruction,
a block and a function end with a signal that says where to go on, and every block on the way answers
the signal of its body: it leaves its own locals behind and passes on what is left of the signal.

The positions that blocks keep for listings are counted, but nothing depends on them.

* `Signal` — how code ends.
* `Task` — what is evaluated: the rest of a block, one instruction, or the rounds of a loop.
* `Evaluates` — the recursive evaluation; there is a derivation if and only if it terminates.
* `Program.Evaluates` — evaluation of a whole program.
-/

namespace Terrain

abbrev Upshot (α : Type) := EStateM.Result Failure Machine α

/-- Goes on with the value, unless there is none. -/
def Upshot.andThen {α β : Type} (outcome : Upshot α) (next : α → Machine → Upshot β) : Upshot β :=
  match outcome with
  | .ok value machine => next value machine
  | .error failure machine => .error failure machine

/-! ## What an outcome is, as far as can be looked at -/

namespace Upshot

variable {α : Type} {outcome : Upshot α}

def ended? : Upshot α → Option (α × Machine)
  | .ok value after => some (value, after)
  | .error _ _ => none

def refused? : Upshot α → Option (Error × Machine)
  | .error (.error error) after => some (error, after)
  | _ => none

def failure? : Upshot α → Option Failure
  | .ok _ _ => none
  | .error failure _ => some failure

theorem eq_ok_of_ended? {value : α} {after : Machine} (ended : outcome.ended? = some (value, after)) :
    outcome = .ok value after := by
  cases outcome <;> cases ended
  rfl

theorem eq_error_of_refused? {error : Error} {after : Machine}
    (refused : outcome.refused? = some (error, after)) : outcome = .error (.error error) after := by
  unfold refused? at refused
  split at refused <;> cases refused
  rfl

theorem exists_of_failure? {failure : Failure} (failed : outcome.failure? = some failure) :
    ∃ after, outcome = .error failure after := by
  cases outcome <;> cases failed
  exact ⟨_, rfl⟩

end Upshot

/-- How code ends. -/
inductive Signal where
  /-- At its end: the next instruction follows. -/
  | next
  /-- So many blocks are to be left. -/
  | leave (depth : Nat)
  /-- One block less is to be left, and the next one, which is a loop, starts another round. -/
  | again (depth : Nat)
  /-- The function is to be left. -/
  | returned
  deriving Repr, DecidableEq

def Signal.repeats : Signal → Bool
  | next => true
  | again depth => depth ≤ 1
  | leave _ | returned => false

namespace Machine

/-- Leaves a block whose body has ended. -/
def closeBlock : Signal → MachineM Signal
  | .next => do
    leaveBlock
    return .next
  | .leave depth => do
    leaveBlock
    return if depth ≤ 1 then .next else .leave (depth - 1)
  | .again depth => do
    leaveBlock
    return .again (depth - 1)
  | .returned => return .returned

/-- Leaves a function whose body has ended. Only an explicit return has a result of its own. -/
def closeCall : Signal → MachineM Signal
  | .returned => do
    leaveCall true
    return .next
  | _ => do
    leaveBlock
    leaveCall false
    return .next

/-- Counts one more instruction of the innermost block. -/
def advanced (machine : Machine) : Machine :=
  match machine.calls.topBlock? with
  | some block =>
    { machine with calls := machine.calls.setTopBlock { block with cursor := block.cursor + 1 } }
  | none => machine

end Machine

/-- Checks that so many of the open blocks of a function can be left and that the outermost of them is
a loop; the blocks are given by whether they are loops, innermost first. -/
def checkDepth (loops : List Bool) (depth : Nat) : Except Error Unit :=
  if depth = 0 ∨ loops.length < depth then
    .error (.intermediateCode s!"cannot leave {depth} blocks out of {loops.length}")
  else if loops[depth - 1]?.getD false then .ok ()
  else .error (.intermediateCode s!"block {depth} levels up is not a loop")

/-- Whether an operation opens a block or calls a function of the script. -/
def Operation.opens (script : Script) : Operation → Bool
  | .ifElse .. | .loop _ | .block _ => true
  | .callGlobal name _ => (script.functions.get? name).isSome
  | _ => false

/-- Whether an operation leaves blocks or a function. -/
def Operation.jumps : Operation → Bool
  | .breakLoop _ | .continueLoop _ | .returnCall => true
  | _ => false

def Operation.isPlain : Operation → Bool
  | .ifElse .. | .loop _ | .block _ | .breakLoop _ | .continueLoop _ | .returnCall | .callGlobal ..
  | .storeVariable _ | .declareLocal .. => false
  | _ => true

/-- What is evaluated, where `loops` says of the open blocks of the function whether they are loops,
innermost first. -/
inductive Task where
  /-- The rest of the innermost block. -/
  | code (loops : List Bool) (code : CodeBlock)
  /-- One instruction of the innermost block. -/
  | instruction (loops : List Bool) (instruction : Instruction)
  /-- The rounds of a loop, which is the innermost block; `loops` are those around it. -/
  | rounds (loops : List Bool) (body : CodeBlock)

open Machine in
/-- Recursive evaluation. -/
inductive Evaluates (program : Program) : Task → Machine → Upshot Signal → Prop where
  | nil {loops : List Bool} {machine : Machine} :
    Evaluates program (.code loops []) machine (.ok .next machine)
  | cons {loops : List Bool} {first : Instruction} {rest : CodeBlock} {machine between : Machine}
      {outcome : Upshot Signal}
      (head : Evaluates program (.instruction loops first) machine.advanced (.ok .next between))
      (tail : Evaluates program (.code loops rest) between outcome) :
    Evaluates program (.code loops (first :: rest)) machine outcome
  | stop {loops : List Bool} {first : Instruction} {rest : CodeBlock} {machine : Machine}
      {outcome : Upshot Signal}
      (head : Evaluates program (.instruction loops first) machine.advanced outcome)
      (stops : ∀ after, outcome ≠ .ok .next after) :
    Evaluates program (.code loops (first :: rest)) machine outcome
  | plain {loops : List Bool} {location : Location} {operation : Operation} {machine : Machine}
      (staysOpen : operation.opens program.script = false) (stays : operation.jumps = false) :
    Evaluates program (.instruction loops (location, operation)) machine
      (Upshot.andThen (execute location operation program machine) fun _ after => .ok .next after)
  | refused {loops : List Bool} {location : Location} {operation : Operation}
      {machine after : Machine} {failure : Failure}
      (opens : operation.opens program.script = true)
      (failed : execute location operation program machine = .error failure after) :
    Evaluates program (.instruction loops (location, operation)) machine (.error failure after)
  | branch {loops : List Bool} {location : Location} {thenBranch elseBranch : CodeBlock}
      {machine between inside : Machine} {taken : Bool} {outcome : Upshot Signal}
      (chosen : popCondition location program machine = .ok taken between)
      (entered : enterBlock location (if taken then thenBranch else elseBranch) false program between =
        .ok () inside)
      (body : Evaluates program (.code (false :: loops) (if taken then thenBranch else elseBranch))
        inside outcome) :
    Evaluates program (.instruction loops (location, .ifElse thenBranch elseBranch)) machine
      (outcome.andThen fun signal after => closeBlock signal program after)
  | block {loops : List Bool} {location : Location} {code : CodeBlock} {machine inside : Machine}
      {outcome : Upshot Signal}
      (entered : enterBlock location code false program machine = .ok () inside)
      (body : Evaluates program (.code (false :: loops) code) inside outcome) :
    Evaluates program (.instruction loops (location, .block code)) machine
      (outcome.andThen fun signal after => closeBlock signal program after)
  | loop {loops : List Bool} {location : Location} {code : CodeBlock} {machine inside : Machine}
      {outcome : Upshot Signal}
      (entered : enterBlock location code true program machine = .ok () inside)
      (rounds : Evaluates program (.rounds loops code) inside outcome) :
    Evaluates program (.instruction loops (location, .loop code)) machine outcome
  | again {loops : List Bool} {body : CodeBlock} {machine between restarted : Machine}
      {signal : Signal} {outcome : Upshot Signal}
      (round : Evaluates program (.code (true :: loops) body) machine (.ok signal between))
      (repeats : signal.repeats = true)
      (restart : restartBlock program between = .ok () restarted)
      (rounds : Evaluates program (.rounds loops body) restarted outcome) :
    Evaluates program (.rounds loops body) machine outcome
  | stuck {loops : List Bool} {body : CodeBlock} {machine between after : Machine} {signal : Signal}
      {failure : Failure}
      (round : Evaluates program (.code (true :: loops) body) machine (.ok signal between))
      (repeats : signal.repeats = true)
      (failed : restartBlock program between = .error failure after) :
    Evaluates program (.rounds loops body) machine (.error failure after)
  | close {loops : List Bool} {body : CodeBlock} {machine : Machine} {outcome : Upshot Signal}
      (round : Evaluates program (.code (true :: loops) body) machine outcome)
      (ends : ∀ signal after, outcome = .ok signal after → signal.repeats = false) :
    Evaluates program (.rounds loops body) machine
      (outcome.andThen fun signal after => closeBlock signal program after)
  | call {loops : List Bool} {location : Location} {name : String} {count : Nat}
      {function : ScriptFunction} {machine inside : Machine} {outcome : Upshot Signal}
      (known : program.script.functions.get? name = some function)
      (entered : callGlobal location name count program machine = .ok () inside)
      (body : Evaluates program (.code [false] function.body) inside outcome) :
    Evaluates program (.instruction loops (location, .callGlobal name count)) machine
      (outcome.andThen fun signal after => closeCall signal program after)
  | breakLoop {loops : List Bool} {location : Location} {depth : Nat} {machine : Machine}
      (open' : checkDepth loops depth = .ok ()) :
    Evaluates program (.instruction loops (location, .breakLoop depth)) machine
      (.ok (.leave depth) machine)
  | continueLoop {loops : List Bool} {location : Location} {depth : Nat} {machine : Machine}
      (open' : checkDepth loops depth = .ok ()) :
    Evaluates program (.instruction loops (location, .continueLoop depth)) machine
      (.ok (.again depth) machine)
  | breakNothing {loops : List Bool} {location : Location} {depth : Nat} {machine : Machine}
      {error : Error} (closed : checkDepth loops depth = .error error) :
    Evaluates program (.instruction loops (location, .breakLoop depth)) machine
      (.error (.error error) machine)
  | continueNothing {loops : List Bool} {location : Location} {depth : Nat} {machine : Machine}
      {error : Error} (closed : checkDepth loops depth = .error error) :
    Evaluates program (.instruction loops (location, .continueLoop depth)) machine
      (.error (.error error) machine)
  | returnCall {loops : List Bool} {location : Location} {machine : Machine} :
    Evaluates program (.instruction loops (location, .returnCall)) machine (.ok .returned machine)

/-! ## Whole programs -/

namespace Machine

/-- An error faults the machine. -/
def faulted {α : Type} : Upshot α → Upshot α
  | .error (.error error) machine => .error (.error error) { machine with status := .faulted }
  | outcome => outcome

/-- The end of a program, whose main block has ended. -/
def conclude (program : Program) (outcome : Upshot Signal) : Upshot Unit :=
  faulted ((outcome.andThen fun signal after => closeCall signal program after).andThen
    fun _ after => finish program after)

end Machine

/-- Evaluation of a program from the machine before the first step, in which the main block is
called. -/
def Program.Evaluates (program : Program) (machine : Machine) (outcome : Upshot Unit) : Prop :=
  ∃ ended, Terrain.Evaluates program (.code [false] program.script.main) machine ended ∧
    outcome = Machine.conclude program ended

end Terrain
