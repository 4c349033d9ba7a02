import Terrain.Number.Remainder
import Terrain.Script.Parameters

/-!
# Declarations

A script declares its map size and its parameters in its metadata. Every declaration is checked when
the table of parameters is made.

* `MapSize.ofMetadata` — a map dimension.
* `Script.parameter` — a declared parameter.
* `Script.parameters` — the whole table.
-/

namespace Terrain

/-- An error in what a script declares; declarations have no place in the source. -/
def declarationError (code : Code) (text : String) : Error := .script ⟨code, .start, text⟩

namespace Metadata

/-- An attribute of the wrong type. -/
def attributeError (name key : String) (node : Metadata) : Error :=
  declarationError .incorrectParameterAttributeType
    s!"{key} of {name} has the wrong type {node.typeName}"

/-- An optional text among the attributes of a name. -/
def textAttribute (attributes : Dictionary Metadata) (name key : String) :
    Except Error (Option String) :=
  match attributes.get? key with
  | none => .ok none
  | some (.text value) => .ok (some value)
  | some other => .error (attributeError name key other)

/-- An optional number among the attributes of a name. -/
def numberAttribute (attributes : Dictionary Metadata) (name key : String) :
    Except Error (Option Float) :=
  match attributes.get? key with
  | none => .ok none
  | some (.number value) => .ok (some value)
  | some other => .error (attributeError name key other)

end Metadata

namespace MapSize

/-- A size among the attributes of a dimension: a whole number within the bounds of all maps. -/
def sizeAttribute (attributes : Dictionary Metadata) (dimension key : String)
    (absent : Extent) : Except Error Extent := do
  match ← Metadata.numberAttribute attributes dimension key with
  | none => return absent
  | some value =>
    if Number.fraction value == 0.0 && Float.ofNat least ≤ value && value ≤ Float.ofNat most then
      return (Number.truncateTo 0 extentMax value).toNat
    throw (declarationError .incorrectMapSizeNumericValue
      s!"{dimension}.{key} must be an integer in [{least}, {most}]")

/-- A dimension from its declaration: infinite if there is none. -/
def ofMetadata (dimension : String) : Option Metadata → Except Error MapSize
  | none => .ok infinite
  | some (.identifier name) =>
    if name = "Infinite" then .ok infinite
    else if name = "Finite" then .ok finite
    else .error (declarationError .undefinedMetadataIdentifier s!"{dimension} cannot be {name}")
  | some (.group attributes) => do
    let low ← sizeAttribute attributes dimension "Min" least
    let high ← sizeAttribute attributes dimension "Max" most
    if high < low then
      throw (declarationError .minGreaterThanMax
        s!"{dimension}.Min is greater than {dimension}.Max")
    let default ← sizeAttribute attributes dimension "Default" automatic
    return create default low high
  | some other =>
    .error (declarationError .incorrectMetadataValueType s!"{dimension} cannot be a {other.typeName}")

end MapSize

/-- Names a script cannot give to its own parameters. -/
def reservedNames : List String :=
  ["MapWidth", "MapHeight", "RenderOriginX", "RenderOriginY", "RenderWidth", "RenderHeight",
    "RenderScale"]

namespace Parameter

/-- Name of the type of a parameter: the one declared, or what its attributes tell. -/
def typeName (attributes : Dictionary Metadata) (name : String) : Except Error String :=
  match attributes.get? "Type", attributes.get? "Default" with
  | some (.identifier type), _ => .ok type
  | some other, _ =>
    .error (declarationError .incorrectParameterAttributeType
      s!"Type of {name} must be an identifier, got {other.typeName}")
  | none, some (.boolean _) => .ok "Boolean"
  | none, some (.number _) => .ok "Number"
  | none, _ =>
    if ["Min", "Max", "Restriction"].any attributes.contains then .ok "Number"
    else
      .error (declarationError .parameterTypeNotSpecified
        s!"type of parameter {name} cannot be inferred")

/-- The kind of a truth value. -/
def booleanKind (attributes : Dictionary Metadata) (name : String) : Except Error ParameterKind :=
  match attributes.get? "Default" with
  | none => .ok (.boolean false false)
  | some (.boolean value) => .ok (.boolean value value)
  | some other => .error (Metadata.attributeError name "Default" other)

/-- The restriction of a number. -/
def restriction (attributes : Dictionary Metadata) (name : String) : Except Error Restriction :=
  match attributes.get? "Restriction" with
  | none => .ok .unrestricted
  | some (.identifier wanted) =>
    match Restriction.ofName? wanted with
    | some restriction => .ok restriction
    | none =>
      .error (declarationError .incorrectParameterRestriction
        s!"unknown restriction {wanted} on {name}")
  | some other => .error (Metadata.attributeError name "Restriction" other)

/-- The kind of a number. Bounds and default must obey the restriction. -/
def numberKind (attributes : Dictionary Metadata) (name : String) : Except Error ParameterKind := do
  let default := (← Metadata.numberAttribute attributes name "Default").getD 0.0
  let low := (← Metadata.numberAttribute attributes name "Min").getD 0.0
  let high := (← Metadata.numberAttribute attributes name "Max").getD 100.0
  if high < low then
    throw (declarationError .minGreaterThanMax s!"Min of {name} is greater than its Max")
  let restriction ← restriction attributes name
  [("Min", low), ("Max", high), ("Default", default)].forM fun (key, value) =>
    if restriction.apply value != value then
      throw (declarationError .incorrectParameterRestriction
        s!"{key} of {name} does not match its restriction")
    else pure ()
  return .number default low high restriction default

/-- The kind of a choice among the values of an enumeration. -/
def choiceKind (attributes : Dictionary Metadata) (name : String) (type : EnumType) :
    Except Error ParameterKind :=
  match attributes.get? "Default" with
  | none => .ok (.choice type type.default type.default)
  | some (.identifier wanted) =>
    match type.values.get? wanted with
    | some value => .ok (.choice type value value)
    | none =>
      .error (declarationError .undefinedMetadataIdentifier s!"{type.name} has no value {wanted}")
  | some other => .error (Metadata.attributeError name "Default" other)

end Parameter

namespace Script

/-- A parameter from its attributes. A number starts with its default moved into its bounds. -/
def parameter (script : Script) (name : String) (attributes : Dictionary Metadata) :
    Except Error Parameter := do
  let label := (← Metadata.textAttribute attributes name "Label").getD name
  let description := (← Metadata.textAttribute attributes name "Description").getD ""
  let typeName ← Parameter.typeName attributes name
  if typeName = "Boolean" then return ⟨label, description, ← Parameter.booleanKind attributes name⟩
  else if typeName = "Number" then
    match ← Parameter.numberKind attributes name with
    | .number default low high restriction value =>
      let parameter : Parameter := ⟨label, description, .number default low high restriction value⟩
      return parameter.setNumber default
    | kind => return ⟨label, description, kind⟩
  else
    match script.enumType? typeName with
    | some type => return ⟨label, description, ← Parameter.choiceKind attributes name type⟩
    | none =>
      throw (declarationError .incorrectEnumParameterType s!"{typeName} is not an enum type")

/-- Adds a declared parameter to a table. -/
def declare (script : Script) (parameters : Parameters) (entry : String × Metadata) :
    Except Error Parameters := do
  let (name, declaration) := entry
  match declaration with
  | .group attributes =>
    if reservedNames.contains name then
      throw (declarationError .reservedParameterName s!"{name} is a reserved parameter name")
    return parameters.insert name (← script.parameter name attributes)
  | _ =>
    throw (declarationError .incorrectMetadataValueType
      s!"parameter {name} must be a key-value section")

/-- The table of all that the script declares. -/
def parameters (script : Script) : Except Error Parameters := do
  let width ← MapSize.ofMetadata "Width" (script.metadata.get? "Width")
  let height ← MapSize.ofMetadata "Height" (script.metadata.get? "Height")
  let empty := Parameters.create width height
  match script.metadata.get? "Parameters" with
  | none => return empty
  | some (.group entries) => entries.foldlM script.declare empty
  | some other =>
    throw (declarationError .incorrectMetadataValueType
      s!"Parameters must be a key-value section, got {other.typeName}")

end Script

end Terrain
