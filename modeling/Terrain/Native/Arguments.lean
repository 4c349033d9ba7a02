import Terrain.Height
import Terrain.Machine.State

/-!
# Arguments of native calls

Reading the arguments of a call by position and type. Every reader fails with the error that scripts
see when an argument is missing, has the wrong type or is out of range. Readers only look at the
machine.
-/

namespace Terrain

/-- A call of a native function. -/
structure NativeCall where
  location : Location
  name : String
  arguments : List ObjectId

/-- Greatest number of arguments of a function that takes any number. -/
def argumentMax : Nat := 18446744073709551615

namespace NativeCall

variable {α : Type}

/-- An error of the call. -/
def error (call : NativeCall) (code : Code) (text : String) : Error :=
  .script ⟨code, call.location, text⟩

/-- Ends a query with an error of the call. -/
def refuse (call : NativeCall) (code : Code) (text : String) : Query α :=
  raise (call.error code text)

def count (call : NativeCall) : Nat := call.arguments.length

/-- Whether an argument is given. -/
def has (call : NativeCall) (index : Nat) : Bool := index < call.count

/-- Checks the number of arguments. -/
def expect (call : NativeCall) (low high : Nat) : Query Unit :=
  if low ≤ call.count ∧ call.count ≤ high then return
  else
    let expected := if low = high then toString low else s!"{low} to {high}"
    call.refuse .incorrectNumberOfArguments
      s!"{call.name} takes {expected} arguments, {call.count} given"

/-- The object of an argument. -/
def object (call : NativeCall) (index : Nat) : Query ObjectId :=
  match call.arguments[index]? with
  | some id => return id
  | none => call.refuse .incorrectNumberOfArguments s!"{call.name} needs argument {index + 1}"

/-- The value of an argument. -/
def value (call : NativeCall) (index : Nat) : Query Value := do
  Query.value (← call.object index)

/-- Ends a query because an argument has the wrong type. -/
def refuseType (call : NativeCall) (index : Nat) (expected : String) (actual : Value) : Query α :=
  let code := match actual with
    | .null => Code.nullReference
    | _ => Code.incorrectArgumentType
  call.refuse code
    s!"argument {index + 1} of {call.name} must be {expected}, got {actual.typeName}"

/-! ## Plain values -/

def number (call : NativeCall) (index : Nat) : Query Float := do
  match ← call.value index with
  | .number value => return value
  | other => call.refuseType index "a Number" other

def boolean (call : NativeCall) (index : Nat) : Query Bool := do
  match ← call.value index with
  | .boolean value => return value
  | other => call.refuseType index "a Boolean" other

def text (call : NativeCall) (index : Nat) : Query String := do
  match ← call.value index with
  | .text value => return value
  | other => call.refuseType index "a String" other

/-- An argument that may be left out. -/
def optional (call : NativeCall) (index : Nat) (default : α) (reader : Nat → Query α) : Query α :=
  if call.has index then reader index else return default

/-! ## Numbers with a range -/

/-- A number as a height. -/
def toHeight (call : NativeCall) (value : Float) : Query Height :=
  match numberToHeight? value with
  | some height => return height
  | none => call.refuse .heightOverflow s!"height {Decimal.plain value} is outside [-1, 1]"

def height (call : NativeCall) (index : Nat) : Query Height := do
  call.toHeight (← call.number index)

/-- A number as a coordinate. -/
def toCoordinate (call : NativeCall) (value : Float) : Query Coordinate :=
  match numberToCoordinate? value with
  | some coordinate => return coordinate
  | none => call.refuse .coordinateOverflow s!"coordinate {Decimal.plain value} is out of range"

def coordinate (call : NativeCall) (index : Nat) : Query Coordinate := do
  call.toCoordinate (← call.number index)

def extent (call : NativeCall) (index : Nat) : Query Extent := do
  let value ← call.number index
  match numberToExtent? value with
  | some extent => return extent
  | none => call.refuse .sizeOverflow s!"size {Decimal.plain value} is out of range"

def scale (call : NativeCall) (index : Nat) : Query Scale := do
  let value ← call.number index
  match numberToScale? value with
  | some scale => return scale
  | none => call.refuse .invalidScale s!"scale {Decimal.plain value} is outside [0.1, 10]"

/-- A whole number from zero on, used as a position. -/
def position (call : NativeCall) (index : Nat) : Query Nat := do
  let value ← call.number index
  if !Number.isWhole value || value < 0.0 then
    call.refuse .arrayKeyNotFound s!"{Decimal.plain value} is not a valid index"
  else return (Number.truncateTo 0 argumentMax value).toNat

/-! ## Points and axes -/

/-- A component of a point. -/
def component (call : NativeCall) (value : Float) : Query Coordinate :=
  match numberToCoordinate? value with
  | some coordinate => return coordinate
  | none => call.refuse .coordinateOverflow s!"point component {Decimal.plain value} is out of range"

def point (call : NativeCall) (index : Nat) : Query Point := do
  match ← call.value index with
  | .point x y => return ⟨← call.component x, ← call.component y⟩
  | other => call.refuseType index "a Point" other

/-- The rectangle of two corners. -/
def rectangle (call : NativeCall) (first : Nat) : Query Rectangle :=
  return .ofPoints (← call.point first) (← call.point (first + 1))

/-- The interval of two ends. -/
def interval (call : NativeCall) (first : Nat) : Query Interval :=
  return .ofCoordinates (← call.coordinate first) (← call.coordinate (first + 1))

def direction (call : NativeCall) (index : Nat) : Query Direction := do
  match ← call.value index with
  | .enum typeName value =>
    if typeName ≠ EnumType.direction.name then
      call.refuseType index "a Direction" (.enum typeName value)
    else
      match Direction.ofNumber? value with
      | some direction => return direction
      | none => call.refuse .invalidEnumValue s!"{value} is not a Direction"
  | other => call.refuseType index "a Direction" other

/-- An ordered pair of heights. -/
def heightRange (call : NativeCall) (first : Nat) : Query (Height × Height) := do
  let low ← call.height first
  let high ← call.height (first + 1)
  if high < low then call.refuse .mathDefinitionRange s!"{call.name} needs min <= max"
  else return (low, high)

/-! ## Handles -/

/-- The slot of a map. -/
def map (call : NativeCall) (index : Nat) : Query Slot := do
  match ← call.value index with
  | .raster .map => Query.slot (← call.object index)
  | other => call.refuseType index "a HeightMap" other

/-- The slot of a profile. -/
def profile (call : NativeCall) (index : Nat) : Query Slot := do
  match ← call.value index with
  | .raster .profile => Query.slot (← call.object index)
  | other => call.refuseType index "a HeightProfile" other

/-- The content of an array. -/
def array (call : NativeCall) (index : Nat) : Query ScriptArray := do
  match ← call.value index with
  | .array items => return items
  | other => call.refuseType index "an Array" other

end NativeCall

end Terrain
