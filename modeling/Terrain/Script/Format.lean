import Terrain.Json.Document
import Terrain.Json.Reader
import Terrain.Script.Basic

/-!
# The script format

Scripts are stored as JSON. Reading accepts records by name and by position, fills in what may be
left out and fails on everything else; writing spells out every member.

* `Script.read` — the reader of scripts.
* `Script.ofText?` — a script from its text.
* `Script.document` — the document of a script.
-/

namespace Terrain

/-! ## Reading -/

/-- Reads a place in the source. -/
def Location.read : Reader Location := fun room tree => do
  let fields ← Reader.record ["line", "column"] room tree
  return ⟨← fields.required "line" (Reader.count extentMax),
    ← fields.required "column" (Reader.count extentMax)⟩

/-- Kinds of operation, in the order of their numbers. -/
inductive OperationTag where
  | loadNumber | loadText | loadBoolean | loadNull | loadVariable | loadReference | loadMember
  | storeVariable | declareLocal | declareGlobal | callGlobal | callMember | pop | ifElse | loop
  | block | breakLoop | continueLoop | returnCall | yieldNamed | yieldMain
  deriving Repr, DecidableEq

namespace OperationTag

/-- All kinds with their names. -/
def names : List (String × OperationTag) := [
  ("load_const_number", loadNumber), ("load_const_string", loadText),
  ("load_const_boolean", loadBoolean), ("load_null", loadNull),
  ("load_scope_value", loadVariable), ("load_scope_reference", loadReference),
  ("load_member_value", loadMember), ("store_scope_value", storeVariable),
  ("declare_local_value", declareLocal), ("declare_global_value", declareGlobal),
  ("call_global", callGlobal), ("call_member", callMember), ("pop", pop), ("if_else", ifElse),
  ("loop", loop), ("block", block), ("break", breakLoop), ("continue", continueLoop),
  ("return", returnCall), ("yield_as_named", yieldNamed), ("yield_as_main", yieldMain)]

/-- A kind is given by its name or by its number. -/
def read : Reader OperationTag
  | _, .text value => do names.lookup (← value)
  | room, tree => do (names.map (·.2))[← Reader.size room tree]?

/-- Members an operation of the kind has. -/
def members : OperationTag → List String
  | loadNumber | loadText | loadBoolean => ["value"]
  | loadVariable | loadReference | loadMember | storeVariable | yieldNamed => ["name"]
  | declareLocal | declareGlobal => ["name", "is_const"]
  | callGlobal | callMember => ["name", "argc"]
  | ifElse => ["if_branch", "else_branch"]
  | loop | block => ["body"]
  | breakLoop | continueLoop => ["depth"]
  | loadNull | pop | returnCall | yieldMain => []

end OperationTag

/-- Reads the members of an operation, with a reader for the blocks in it. -/
def Operation.ofFields? (block : Reader CodeBlock) (fields : Fields) :
    OperationTag → Option Operation
  | .loadNumber => do return .loadNumber (← fields.required "value" Reader.float)
  | .loadText => do return .loadText (← fields.required "value" Reader.text)
  | .loadBoolean => do return .loadBoolean (← fields.required "value" Reader.boolean)
  | .loadNull => some .loadNull
  | .loadVariable => do return .loadVariable (← name)
  | .loadReference => do return .loadReference (← name)
  | .loadMember => do return .loadMember (← name)
  | .storeVariable => do return .storeVariable (← name)
  | .declareLocal => do return .declareLocal (← name) (← isConst)
  | .declareGlobal => do return .declareGlobal (← name) (← isConst)
  | .callGlobal => do return .callGlobal (← name) (← argumentCount)
  | .callMember => do return .callMember (← name) (← argumentCount)
  | .pop => some .pop
  | .ifElse => do
    return .ifElse (← fields.required "if_branch" block) (← fields.optional "else_branch" [] block)
  | .loop => do return .loop (← fields.required "body" block)
  | .block => do return .block (← fields.required "body" block)
  | .breakLoop => do return .breakLoop (← depth)
  | .continueLoop => do return .continueLoop (← depth)
  | .returnCall => some .returnCall
  | .yieldNamed => do return .yieldNamed (← name)
  | .yieldMain => some .yieldMain
where
  name : Option String := fields.required "name" Reader.text
  isConst : Option Bool := fields.optional "is_const" false Reader.boolean
  argumentCount : Option Nat := fields.required "argc" Reader.size
  depth : Option Nat := fields.optional "depth" 1 Reader.size

/-- Reads an instruction, with a reader for the blocks in it. All members but the place are kept
before the kind is known, so they must be sound even if the kind has no use for them. -/
def Instruction.readWith (block : Reader CodeBlock) : Reader Instruction
  | room + 1, .object members => do
    let own := members.filter fun member => member.1 != some "location"
    guard (Json.membersAreSound own room)
    let heading ← Fields.ofMembers? ["location", "op"] room members
    let tag ← heading.required "op" OperationTag.read
    let fields ← Fields.ofMembers? tag.members room own
    return (← heading.optional "location" .start Location.read, ← Operation.ofFields? block fields tag)
  | _, _ => none

/-- Reads a block. -/
def CodeBlock.read : Reader CodeBlock
  | room + 2, .array items =>
    items.mapM (Instruction.readWith (fun _ tree => CodeBlock.read room tree) (room + 1))
  | 1, .array [] => some []
  | _, _ => none

/-- A metadata node without nodes in it, by the name of its type. -/
def Metadata.leaf? : String → Json → Option Metadata
  | "Number", .number literal => literal.float?.map .number
  | "String", .text value => value.map .text
  | "Boolean", .bool value => some (.boolean value)
  | "Identifier", .text value => value.map .identifier
  | _, _ => none

/-- Reads a metadata node: a record of one member that is named for its type. -/
def Metadata.read : Reader Metadata
  | room + 2, .object [(some name, .object members)] => do
    guard (name = "KeyValue")
    let entries ← members.mapM fun (name, tree) => do
      return (← name, ← Metadata.read room tree)
    return .group (Dictionary.ofList entries)
  | _ + 1, .object [(some name, tree)] => leaf? name tree
  | _, _ => none

/-- Reads a constant. -/
def Constant.read : Reader Constant
  | _, .null => some .null
  | _, .bool value => some (.boolean value)
  | _, .number literal => literal.float?.map .number
  | _, .text value => value.map .text
  | _, _ => none

def GlobalVariable.read : Reader GlobalVariable := fun room tree => do
  let fields ← Reader.record ["name", "is_const", "initial"] room tree
  return {
    name := ← fields.required "name" Reader.text
    isConst := ← fields.optional "is_const" false Reader.boolean
    initial := ← fields.optional "initial" .null Constant.read }

def EnumType.read : Reader EnumType := fun room tree => do
  let fields ← Reader.record ["name", "values"] room tree
  return {
    name := ← fields.required "name" Reader.text
    values := ← fields.required "values"
      (Reader.dictionary (Reader.integer coordinateMin coordinateMax)) }

def ScriptFunction.read : Reader ScriptFunction := fun room tree => do
  let fields ← Reader.record ["parameters", "body"] room tree
  return {
    parameters := ← fields.optional "parameters" [] (Reader.list Reader.text)
    body := ← fields.required "body" CodeBlock.read }

namespace Script

/-- Reads the settings of a script: whether the main map is mandatory. -/
def readSettings : Reader Bool := fun room tree => do
  let fields ← Reader.record ["main_map_is_mandatory"] room tree
  fields.optional "main_map_is_mandatory" false Reader.boolean

def read : Reader Script := fun room tree => do
  let fields ← Reader.record
    ["main", "functions", "globals", "enums", "metadata", "supported_maps", "configuration"] room tree
  return {
    main := ← fields.required "main" CodeBlock.read
    functions := ← fields.optional "functions" [] (Reader.dictionary ScriptFunction.read)
    globals := ← fields.optional "globals" [] (Reader.list GlobalVariable.read)
    enums := ← fields.optional "enums" [] (Reader.list EnumType.read)
    metadata := ← fields.optional "metadata" [] (Reader.dictionary Metadata.read)
    supportedMaps := ← fields.optional "supported_maps" [mainMap] (Reader.list Reader.text)
    mainIsMandatory := ← fields.optional "configuration" false readSettings }

/-- The script a document holds. -/
def ofText? (text : String) : Option Script := Reader.document read text

end Script

/-! ## Writing -/

def Location.document (location : Location) : Document :=
  .record [("line", .integer location.line), ("column", .integer location.column)]

mutual

/-- Members of an operation beside its kind. -/
def Operation.members : Operation → List (String × Document)
  | .loadNumber value => [("value", .float value)]
  | .loadText value => [("value", .text value)]
  | .loadBoolean value => [("value", .boolean value)]
  | .loadVariable name | .loadReference name | .loadMember name | .storeVariable name
  | .yieldNamed name => [("name", .text name)]
  | .declareLocal name isConst | .declareGlobal name isConst =>
    [("name", .text name), ("is_const", .boolean isConst)]
  | .callGlobal name count | .callMember name count =>
    [("name", .text name), ("argc", .integer count)]
  | .ifElse thenBranch elseBranch =>
    [("if_branch", .list (CodeBlock.items thenBranch)),
      ("else_branch", .list (CodeBlock.items elseBranch))]
  | .loop body | .block body => [("body", .list (CodeBlock.items body))]
  | .breakLoop depth | .continueLoop depth => [("depth", .integer depth)]
  | .loadNull | .pop | .returnCall | .yieldMain => []

/-- Documents of the instructions of a block. -/
def CodeBlock.items : List (Location × Operation) → List Document
  | [] => []
  | (location, operation) :: rest =>
    .record (("location", location.document) :: ("op", .text operation.name) :: operation.members) ::
      CodeBlock.items rest

end

mutual

/-- Document of a metadata node. -/
def Metadata.document : Metadata → Document
  | .number value => .record [("Number", .float value)]
  | .text value => .record [("String", .text value)]
  | .boolean value => .record [("Boolean", .boolean value)]
  | .identifier name => .record [("Identifier", .text name)]
  | .group entries => .record [("KeyValue", .record (Metadata.documents entries))]

/-- Documents of named nodes. -/
def Metadata.documents : List (String × Metadata) → List (String × Document)
  | [] => []
  | (name, node) :: rest => (name, node.document) :: Metadata.documents rest

end

def Constant.document : Constant → Document
  | null => .null
  | boolean value => .boolean value
  | number value => .float value
  | text value => .text value

def GlobalVariable.document (global : GlobalVariable) : Document :=
  .record [("name", .text global.name), ("is_const", .boolean global.isConst),
    ("initial", global.initial.document)]

def EnumType.document (type : EnumType) : Document :=
  .record [("name", .text type.name),
    ("values", .record (type.values.map fun (name, value) => (name, .integer value)))]

def ScriptFunction.document (function : ScriptFunction) : Document :=
  .record [("parameters", .list (function.parameters.map .text)),
    ("body", .list (CodeBlock.items function.body))]

def Script.document (script : Script) : Document :=
  .record [
    ("main", .list (CodeBlock.items script.main)),
    ("functions", .record (script.functions.map fun (name, function) => (name, function.document))),
    ("globals", .list (script.globals.map GlobalVariable.document)),
    ("enums", .list (script.enums.map EnumType.document)),
    ("metadata", .record (Metadata.documents script.metadata)),
    ("supported_maps", .list (script.supportedMaps.map .text)),
    ("configuration", .record [("main_map_is_mandatory", .boolean script.mainIsMandatory)])]

end Terrain
