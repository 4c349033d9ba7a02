import Terrain.Failure

/-!
# Outcomes of commands

A command writes text for its caller and remarks beside it, and it may give up. Then it tells what
it was doing and what got in the way, the causes from the outermost to the innermost.

* `Complaint` — why a command gives up; `Complaint.describe` is what the caller reads.
* `Outcome` — exit code and both texts.
* `CommandM` — computations of commands.
-/

namespace Terrain

/-- What a command was doing, and the causes of its end. -/
structure Complaint where
  context : String
  causes : List String
  deriving Repr, DecidableEq

namespace Complaint

/-- Puts text before the first line, and blanks of the same width before the others. -/
def indent (mark text : String) : String :=
  let blanks := String.ofList (List.replicate mark.length ' ')
  mark ++ ("\n" ++ blanks).intercalate (text.splitOn "\n")

/-- Lines for the causes; several causes are numbered. -/
def causeLines : List String → List String
  | [] => []
  | [cause] => [indent "    " cause]
  | causes => causes.mapIdx fun index cause => indent s!"    {index}: " cause

/-- What the caller reads. -/
def describe (complaint : Complaint) : String :=
  let below := match causeLines complaint.causes with
    | [] => []
    | lines => ["", "Caused by:"] ++ lines
  String.join ((s!"Error: {complaint.context}" :: below).map (· ++ "\n"))

end Complaint

/-- Exit code of a command and what it has written. -/
structure Outcome where
  exitCode : Nat
  /-- Text for the caller. -/
  output : String
  /-- Remarks beside it. -/
  remarks : String
  deriving Repr, DecidableEq

/-- What a command has written so far. -/
structure Streams where
  output : String := ""
  remarks : String := ""

/-- Why a command ends before its end. -/
inductive Ending where
  | complaint (complaint : Complaint)
  | breach (breach : Breach)

/-- Computations of commands. -/
abbrev CommandM (m : Type → Type) := ExceptT Ending (StateT Streams m)

namespace CommandM

variable {m : Type → Type} [Monad m] {α : Type}

/-- Adds to the text for the caller. -/
def print (text : String) : CommandM m Unit :=
  modifyThe Streams fun streams => { streams with output := streams.output ++ text }

/-- Adds to the remarks. -/
def remark (text : String) : CommandM m Unit :=
  modifyThe Streams fun streams => { streams with remarks := streams.remarks ++ text }

/-- Gives up. -/
def giveUp (context : String) (causes : List String) : CommandM m α :=
  throwThe Ending (.complaint ⟨context, causes⟩)

/-- Gives up on an error. -/
def orGiveUp (context : String) : Except Error α → CommandM m α
  | .ok value => pure value
  | .error error => giveUp context [error.message]

/-- Gives up on a failure. -/
def orFail (context : String) : Except Failure α → CommandM m α
  | .ok value => pure value
  | .error (.error error) => giveUp context [error.message]
  | .error (.breach breach) => throwThe Ending (.breach breach)

/-- Exit code of a run that broke an invariant. -/
def breachCode : Nat := 101

/-- Runs a command to its end. -/
def outcome (command : CommandM m Unit) : m Outcome := do
  let (result, streams) ← command.run.run {}
  return match result with
    | .ok _ => ⟨0, streams.output, streams.remarks⟩
    | .error (.complaint complaint) =>
      ⟨1, streams.output, streams.remarks ++ complaint.describe⟩
    | .error (.breach breach) =>
      ⟨breachCode, streams.output, streams.remarks ++ breach.message?.getD "" ++ "\n"⟩

end CommandM

end Terrain
