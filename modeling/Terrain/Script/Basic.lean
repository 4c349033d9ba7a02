import Terrain.Dictionary
import Terrain.Script.Instruction

/-!
# Compiled scripts

A script is a main block, functions, global variables, enumerations and a tree of metadata, from
which its parameters are made.

* `Metadata`, `Constant`, `EnumType`, `ScriptFunction`, `GlobalVariable` — the parts.
* `Script` — all of them.
* `Script.enumType?` — an enumeration of the script or the built-in one.
-/

namespace Terrain

/-- A node of the metadata tree. -/
inductive Metadata where
  | number (value : Float)
  | text (value : String)
  | boolean (value : Bool)
  | identifier (name : String)
  /-- Named nodes, in ascending order of their names. -/
  | group (entries : List (String × Metadata))
  deriving Inhabited

def Metadata.typeName : Metadata → String
  | number _ => "Number"
  | text _ => "String"
  | boolean _ => "Boolean"
  | identifier _ => "Identifier"
  | group _ => "KeyValue"

/-- A value a global variable starts with. -/
inductive Constant where
  | null
  | boolean (value : Bool)
  | number (value : Float)
  | text (value : String)
  deriving Inhabited

structure GlobalVariable where
  name : String
  isConst : Bool
  initial : Constant
  deriving Inhabited

/-- An enumeration; two names may stand for the same number. -/
structure EnumType where
  name : String
  values : Dictionary Int
  deriving Repr, DecidableEq, Inhabited

namespace EnumType

/-- The lowest value, used when none was chosen. -/
def default (type : EnumType) : Int := (type.values.map (·.2)).min?.getD 0

/-- The first name of a value. -/
def valueName? (type : EnumType) (value : Int) : Option String :=
  (type.values.find? fun entry => entry.2 == value).map (·.1)

/-- Whether some name stands for a value. -/
def hasValue (type : EnumType) (value : Int) : Bool :=
  type.values.any fun entry => entry.2 == value

/-- The built-in enumeration of axes. -/
def direction : EnumType where
  name := "Direction"
  values := [Direction.horizontal, Direction.vertical].map fun axis => (axis.name, axis.toNumber)

end EnumType

structure ScriptFunction where
  parameters : List String
  body : CodeBlock
  deriving Inhabited

structure Script where
  main : CodeBlock
  functions : Dictionary ScriptFunction
  globals : List GlobalVariable
  enums : List EnumType
  metadata : Dictionary Metadata
  supportedMaps : List String
  /-- Whether it is an error to finish without yielding the main map. -/
  mainIsMandatory : Bool
  deriving Inhabited

namespace Script

/-- Name of the call that runs the main block. -/
def mainFunction : String := "<main>"

/-- Name of the map every script may yield. -/
def mainMap : String := "main"

/-- The enumeration of a name. The built-in one cannot be replaced. -/
def enumType? (script : Script) (name : String) : Option EnumType :=
  if name = EnumType.direction.name then some .direction
  else script.enums.find? (·.name == name)

/-- Whether the script may yield a map of a name. -/
def supports (script : Script) (name : String) : Bool :=
  name == mainMap || script.supportedMaps.contains name

end Script

end Terrain
