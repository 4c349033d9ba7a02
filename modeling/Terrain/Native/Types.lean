import Terrain.Native.Arguments

/-!
# Enumerations and the parameter object

Members of enumerations, their values by number, and the parameters of the run as members of one
object.
-/

namespace Terrain.Native

/-- The value of an enumeration with a number. -/
def enumOfNumber (type : EnumType) (call : NativeCall) : Query Value := do
  call.expect 1 1
  let number ← call.number 0
  let value := Number.truncateTo coordinateMin coordinateMax number
  if Number.isWhole number && type.hasValue value then return .enum type.name value
  else
    call.refuse .invalidEnumValue s!"{Decimal.plain number} is not a value of {type.name}"

/-- The static function of an enumeration. -/
def enumStatic? (script : Script) (typeName : String) (call : NativeCall) : Option (Query Value) := do
  let type ← script.enumType? typeName
  if call.name = "FromNumber" then some (enumOfNumber type call) else none

/-- A member of an enumeration; `none` if the type is no enumeration. -/
def enumMember? (script : Script) (typeName name : String) (location : Location) :
    Option (Except Error Value) := do
  let type ← script.enumType? typeName
  match type.values.get? name with
  | some value => return .ok (.enum type.name value)
  | none =>
    return .error (.script ⟨.undefinedMemberVariable, location, s!"{typeName} has no value {name}"⟩)

/-- Value of a declared parameter. -/
def parameterValue (parameter : Parameter) : Value :=
  match parameter.kind with
  | .boolean _ value => .boolean value
  | .number _ _ _ _ value => .number value
  | .choice type _ value => .enum type.name value

/-- A member of the parameter object. -/
def parameterMember? (parameters : Parameters) (name : String) : Option Value :=
  match name with
  | "MapWidth" => some (.number (Float.ofNat parameters.mapWidth.value))
  | "MapHeight" => some (.number (Float.ofNat parameters.mapHeight.value))
  | "RenderOriginX" => some (.number (Float.ofInt parameters.origin.x))
  | "RenderOriginY" => some (.number (Float.ofInt parameters.origin.y))
  | "RenderWidth" => some (.number (Float.ofNat parameters.window.size.width))
  | "RenderHeight" => some (.number (Float.ofNat parameters.window.size.height))
  | "RenderScale" => some (.number parameters.scale)
  | _ => (parameters.get? name).map parameterValue

end Terrain.Native
