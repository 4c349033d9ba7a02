import Terrain.Decimal.Literal
import Terrain.Plane.Point

/-!
# Commands

What a caller asks for on the command line, read from the arguments from left to right. The first
argument that cannot be read ends the reading, and so does a request for help or for the version.

* `Command` — the commands with their options.
* `Command.ofArguments` — the command that arguments stand for, or why there is none.
-/

namespace Terrain

/-- How a script is run. -/
structure RunSettings where
  /-- Path of the compiled script. -/
  script : String
  /-- Choices for declared parameters, each a name and a value around an equals sign. -/
  overrides : List String
  width? : Option Extent
  height? : Option Extent
  scale? : Option Float
  seed : Nat
  /-- Maps to render; when empty, every map the script yields. -/
  maps : List String
  /-- Path of a document with limits. -/
  limits? : Option String

/-- What becomes of a render. -/
structure RenderSettings where
  /-- Memory limit that goes before the one of the document. -/
  memory? : Option Nat
  /-- Folder for the rendered maps. -/
  folder? : Option String
  /-- Whether the state after the render is listed. -/
  listing : Bool

inductive Command where
  /-- Runs a script and renders its maps. -/
  | run (settings : RunSettings) (render : RenderSettings)
  /-- Runs a script and lists what it recorded. -/
  | sequence (settings : RunSettings)
  /-- Lists the parameters a script declares. -/
  | parameters (script : String)

namespace Command

/-- Why arguments stand for no command. -/
inductive Stop where
  | version
  | help
  | misuse
  deriving Repr, DecidableEq

/-! ## Values -/

/-- A 32-bit number without sign. -/
def extent? (text : String) : Option Nat :=
  match Literal.whole? text.toList with
  | some value => if 0 ≤ value ∧ value ≤ (extentMax : Int) then some value.toNat else none
  | none => none

/-- A 64-bit number without sign, which may be written with a plus. -/
def bytes? (text : String) : Option Nat :=
  if text.startsWith "-" then none
  else match Literal.whole? text.toList with
    | some value => if value.toNat < Nat.pow 2 64 then some value.toNat else none
    | none => none

/-- A path; there is no empty one. -/
def path? (text : String) : Option String := if text.isEmpty then none else some text

/-! ## Options -/

/-- What may follow the name of an option. -/
inductive OptionKind where
  /-- Nothing, at most once. -/
  | switch
  /-- A value that is accepted, at most once. -/
  | single (accepts : String → Bool)
  /-- Any value, as often as wanted. -/
  | repeated

/-- Options by name. -/
abbrev OptionTable := List (String × OptionKind)

/-- Option names with their values, the last one first. A switch has an empty value. -/
abbrev Given := List (String × String)

namespace Given

def value? (given : Given) (name : String) : Option String := given.lookup name

def has (given : Given) (name : String) : Bool := (given.value? name).isSome

/-- All values of an option in the order given. -/
def values (given : Given) (name : String) : List String :=
  (given.filterMap fun (key, value) => if key = name then some value else none).reverse

/-- Adds a value if the option may have it. -/
def add? (given : Given) (name value : String) : OptionKind → Option Given
  | .switch => if given.has name then none else some ((name, value) :: given)
  | .single accepts => if given.has name || !accepts value then none else some ((name, value) :: given)
  | .repeated => some ((name, value) :: given)

end Given

def verboseOption : String × OptionKind := ("verbose", .switch)

def parametersTable : OptionTable :=
  [("in", .single (path? · |>.isSome)), verboseOption]

def sequenceTable : OptionTable :=
  parametersTable ++ [("param", .repeated), ("width", .single (extent? · |>.isSome)),
    ("height", .single (extent? · |>.isSome)), ("scale", .single (Literal.floatOfText? · |>.isSome)),
    ("seed", .single (extent? · |>.isSome)), ("map", .repeated),
    ("config", .single (path? · |>.isSome))]

def runTable : OptionTable :=
  sequenceTable ++ [("memory-limit", .single (bytes? · |>.isSome)),
    ("out", .single (path? · |>.isSome)), ("dump", .switch)]

/-- Name of a long option and the value attached to it. -/
def splitOption? (argument : String) : Option (String × Option String) :=
  match argument.toList with
  | '-' :: '-' :: rest =>
    let name := String.ofList (rest.takeWhile (· ≠ '='))
    match rest.dropWhile (· ≠ '=') with
    | [] => some (name, none)
    | _ :: value => some (name, some (String.ofList value))
  | _ => none

/-- Whether an argument looks like an option. A lone dash does not. -/
def isOption (argument : String) : Bool := argument.startsWith "-" && argument ≠ "-"

/-- What a short option stands for. -/
def shortStop (hasVersion : Bool) (argument : String) : Stop :=
  match argument.toList with
  | '-' :: 'h' :: _ => .help
  | '-' :: 'V' :: _ => if hasVersion then .version else .misuse
  | _ => .misuse

/-- Arguments read so far. -/
structure Reading where
  given : Given := []
  /-- An option whose value comes next. -/
  pending? : Option (String × OptionKind) := none
  /-- Whether two dashes have ended the options. -/
  ended : Bool := false

namespace Reading

/-- Takes over a value. -/
def accept (reading : Reading) (name value : String) (kind : OptionKind) : Except Stop Reading :=
  match reading.given.add? name value kind with
  | some given => .ok { given }
  | none => .error .misuse

/-- Reads the name of an option and the value attached to it. -/
def readOption (reading : Reading) (table : OptionTable) (name : String)
    (attached? : Option String) : Except Stop Reading :=
  match table.lookup name, attached? with
  | some .switch, none => reading.accept name "" .switch
  | some .switch, some _ => .error .misuse
  | some kind, some value => reading.accept name value kind
  | some kind, none => .ok { reading with pending? := some (name, kind) }
  | none, none => .error (if name = "help" then .help else .misuse)
  | none, some _ => .error .misuse

/-- Reads an argument. -/
def advance (table : OptionTable) (reading : Reading) (argument : String) : Except Stop Reading :=
  match reading.ended, reading.pending? with
  | true, _ => .error .misuse
  | false, some (name, kind) =>
    if isOption argument then .error .misuse else reading.accept name argument kind
  | false, none =>
    if argument = "--" then .ok { reading with ended := true }
    else match splitOption? argument with
      | some (name, attached?) => reading.readOption table name attached?
      | none => .error (shortStop false argument)

end Reading

/-- Reads options to the end of the arguments. -/
def readOptions (table : OptionTable) (arguments : List String) : Except Stop Given := do
  let reading ← arguments.foldlM (Reading.advance table) {}
  if reading.pending?.isSome then throw .misuse
  return reading.given

end Command

/-! ## Commands -/

def RunSettings.ofGiven (script : String) (given : Command.Given) : RunSettings where
  script
  overrides := given.values "param"
  width? := given.value? "width" >>= Command.extent?
  height? := given.value? "height" >>= Command.extent?
  scale? := given.value? "scale" >>= Literal.floatOfText?
  seed := (given.value? "seed" >>= Command.extent?).getD 0
  maps := given.values "map"
  limits? := given.value? "config"

def RenderSettings.ofGiven (given : Command.Given) : RenderSettings where
  memory? := given.value? "memory-limit" >>= Command.bytes?
  folder? := given.value? "out"
  listing := given.has "dump"

namespace Command

/-- Reads the options of a command; the path of a script is never left out. -/
def withScript (table : OptionTable) (arguments : List String) (make : String → Given → Command) :
    Except Stop Command := do
  let given ← readOptions table arguments
  match given.value? "in" with
  | some script => return make script given
  | none => throw .misuse

def names : List String := ["run", "sequence", "params", "help"]

/-- A request for help, which may name one command. -/
def helpStop : List String → Stop
  | [] => .help
  | [name] => if names.contains name then .help else .misuse
  | _ => .misuse

/-- Reads the arguments after the switches that go before a command. -/
def read (verbose : Bool) : List String → Except Stop Command
  | [] => .error .misuse
  | "run" :: rest => withScript runTable rest fun script given =>
    .run (.ofGiven script given) (.ofGiven given)
  | "sequence" :: rest => withScript sequenceTable rest fun script given =>
    .sequence (.ofGiven script given)
  | "params" :: rest => withScript parametersTable rest fun script _ => .parameters script
  | "help" :: rest => .error (helpStop rest)
  | "--verbose" :: rest => if verbose then .error .misuse else read true rest
  | "--version" :: _ => .error .version
  | "--help" :: _ => .error .help
  | argument :: _ => .error (shortStop true argument)

/-- The command that arguments stand for. -/
def ofArguments (arguments : List String) : Except Stop Command := read false arguments

end Command

end Terrain
