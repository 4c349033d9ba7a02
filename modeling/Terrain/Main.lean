import Terrain.Command.Perform

/-!
# The program

Runs a command on the files of the machine.
-/

namespace Terrain.Host

/-- A refusal in the words of the system. -/
def refusalOf : IO.Error → Refusal
  | .noFileOrDirectory .. => .missing
  | .alreadyExists .. => .alreadyExists
  | .inappropriateType _ _ details => if details = "not a directory" then .notFolder else .isFolder
  | error => .other (toString error)

/-- Runs an operation and catches its refusal. -/
def attempt {α : Type} (action : IO α) : IO (Except Refusal α) := do
  match ← EIO.toBaseIO action with
  | .ok value => return .ok value
  | .error error => return .error (refusalOf error)

/-- Text of a file. A folder can be opened, but has none. -/
def readText (path : String) : IO (Except Refusal (Option String)) := do
  match ← attempt (IO.FS.readBinFile path) with
  | .ok bytes => return .ok (String.fromUTF8? bytes)
  | .error .isFolder => return .ok none
  | .error refusal => return .error refusal

/-- The files of the machine. -/
def files : Files IO where
  read := readText
  makeFolder path := attempt (IO.FS.createDirAll path)
  write path text := attempt (IO.FS.writeFile path text)

/-- Steps a script may take; more than any run lives to see. -/
def stepLimit : Nat := Nat.pow 2 62

end Terrain.Host

open Terrain in
/-- Carries out the command of the arguments. -/
def main (arguments : List String) : IO UInt32 := do
  let outcome ← respond Host.files Host.stepLimit arguments
  (← IO.getStdout).putStr outcome.output
  (← IO.getStderr).putStr outcome.remarks
  return outcome.exitCode.toUInt32
