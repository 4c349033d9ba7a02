import Terrain.Decimal.Layout
import Terrain.Script.Basic
import Terrain.Text.Quoted

/-!
# Listings of scripts
-/

namespace Terrain

/-- What a listing shows of an operation beside its name. -/
def Operation.detail : Operation → String
  | loadNumber value => Decimal.plain value
  | loadText value => Text.quoted value
  | loadBoolean value => toString value
  | loadVariable name | loadReference name | loadMember name | storeVariable name
  | yieldNamed name => name
  | declareLocal name isConst | declareGlobal name isConst =>
    (if isConst then "const " else "") ++ name
  | callGlobal name count | callMember name count => s!"{name}/{count}"
  | breakLoop depth | continueLoop depth => toString depth
  | loadNull | pop | ifElse .. | loop _ | block _ | returnCall | yieldMain => ""

namespace CodeBlock

/-- Indentation of a nested block. -/
def indent (depth : Nat) : String := String.join (List.replicate depth "  ")

/-- The line of an instruction. -/
def line (depth : Nat) (location : Location) (operation : Operation) : String :=
  let detail := if operation.detail.isEmpty then "" else " " ++ operation.detail
  s!"{indent depth}{location.describe} {operation.name}{detail}"

mutual

/-- Lines of a block, nested blocks included. -/
def lines (depth : Nat) : List (Location × Operation) → List String
  | [] => []
  | (location, operation) :: rest =>
    line depth location operation :: (nestedLines depth operation ++ lines depth rest)

/-- Lines of the blocks inside an operation. -/
def nestedLines (depth : Nat) : Operation → List String
  | .ifElse thenBranch elseBranch =>
    lines (depth + 1) thenBranch ++ (indent depth ++ "else") :: lines (depth + 1) elseBranch
  | .loop body | .block body => lines (depth + 1) body
  | _ => []

end

end CodeBlock

/-- A constant with the name of its kind. -/
def Constant.describe : Constant → String
  | null => "Null"
  | boolean value => s!"Boolean({value})"
  | number value => s!"Number({Decimal.tagged value})"
  | text value => s!"String({Text.quoted value})"

/-- The values of an enumeration between braces. -/
def EnumType.describeValues (type : EnumType) : String :=
  let entries := type.values.map fun (name, value) => s!"{Text.quoted name}: {value}"
  "\x7b" ++ ", ".intercalate entries ++ "\x7d"

namespace Script

/-- Lines of the listing. -/
def lines (script : Script) : List String :=
  let functions := script.functions.flatMap fun (name, function) =>
    let parameters := ", ".intercalate function.parameters
    s!"function {name}({parameters}):" :: CodeBlock.lines 0 function.body
  let globals := script.globals.map fun global =>
    let keyword := if global.isConst then "const " else ""
    s!"global {keyword}{global.name} = {global.initial.describe}"
  let enums := script.enums.map fun type => s!"enum {type.name} {type.describeValues}"
  "main:" :: CodeBlock.lines 0 script.main ++ functions ++ globals ++ enums ++
    ["supported maps: " ++ ", ".intercalate script.supportedMaps]

def dump (script : Script) : String := String.join (script.lines.map (· ++ "\n"))

end Script

end Terrain
