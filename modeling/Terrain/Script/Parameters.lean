import Terrain.Decimal.Layout
import Terrain.Decimal.Literal
import Terrain.Number.Order
import Terrain.Script.Basic

/-!
# Parameters of a run

What a caller can choose before a script runs: the size of the map, the window that is rendered, the
seed, and the parameters the script declares.

* `MapSize` — a map dimension with its bounds.
* `Restriction`, `Parameter` — declared parameters; a value always fits its declaration.
* `Parameters` — the whole table; `Parameters.window` is the rectangle that is rendered.
-/

namespace Terrain

/-! ## Map sizes -/

/-- A map dimension: a default, bounds and the chosen value. -/
structure MapSize where
  default : Extent
  low : Extent
  high : Extent
  value : Extent
  deriving Repr, DecidableEq, Inhabited

namespace MapSize

/-- Stands for a size that is chosen later. -/
def automatic : Extent := 0

/-- Stands for a size without bound. -/
def unbounded : Extent := extentMax

def least : Extent := 10
def most : Extent := 100000

/-- Size of a bounded dimension when nobody chooses one. -/
def fallback : Extent := 1024

def isInfinite (size : MapSize) : Bool := size.high == unbounded

/-- Chooses a value, moved between the bounds; the automatic one stands for the default. -/
def set (size : MapSize) (value : Extent) : MapSize :=
  if size.isInfinite then { size with value := unbounded }
  else
    let wanted :=
      if value ≠ automatic then value
      else if size.default ≠ automatic then size.default
      else fallback
    { size with value := max size.low (min wanted size.high) }

def create (default low high : Extent) : MapSize := set ⟨default, low, high, default⟩ default

def infinite : MapSize := create unbounded unbounded unbounded

def finite : MapSize := create automatic least most

/-- Whether two dimensions were declared alike. -/
def sameDefinition (a b : MapSize) : Bool :=
  a.default == b.default && a.low == b.low && a.high == b.high

def describe (size : MapSize) : String :=
  if size.isInfinite then "infinite" else s!"{size.value} [{size.low}, {size.high}]"

end MapSize

/-! ## Declared parameters -/

/-- Values a number parameter may have. -/
inductive Restriction where
  | unrestricted
  | integers
  | powersOf2
  | powersOf10
  deriving Repr, DecidableEq

namespace Restriction

def ofName? : String → Option Restriction
  | "Unrestricted" => some .unrestricted
  | "Integers" => some .integers
  | "PowersOf2" => some .powersOf2
  | "PowersOf10" => some .powersOf10
  | _ => none

def name : Restriction → String
  | .unrestricted => "Unrestricted"
  | .integers => "Integers"
  | .powersOf2 => "PowersOf2"
  | .powersOf10 => "PowersOf10"

/-- Largest allowed value that is at most `value`; powers start at one. -/
def apply (value : Float) : Restriction → Float
  | .unrestricted => value
  | .integers => Number.floor value
  | .powersOf2 => Float.pow 2.0 (Number.floor (Number.greater value 1.0).log2)
  | .powersOf10 => Float.pow 10.0 (Number.floor (Number.greater value 1.0).log10)

end Restriction

/-- Type of a parameter, with its default and its value. -/
inductive ParameterKind where
  | boolean (default value : Bool)
  | number (default low high : Float) (restriction : Restriction) (value : Float)
  | choice (type : EnumType) (default value : Int)

structure Parameter where
  label : String
  description : String
  kind : ParameterKind

namespace Parameter

/-- Chooses a number: it is moved between the bounds, then restricted. -/
def setNumber (parameter : Parameter) (new : Float) : Parameter :=
  match parameter.kind with
  | .number default low high restriction _ =>
    let value := restriction.apply (Number.clamp low high new)
    { parameter with kind := .number default low high restriction value }
  | _ => parameter

def setBoolean (parameter : Parameter) (new : Bool) : Parameter :=
  match parameter.kind with
  | .boolean default _ => { parameter with kind := .boolean default new }
  | _ => parameter

/-- Chooses a value of the enumeration; a number it does not have stands for the default. -/
def setChoice (parameter : Parameter) (new : Int) : Parameter :=
  match parameter.kind with
  | .choice type default _ =>
    { parameter with kind := .choice type default (if type.hasValue new then new else default) }
  | _ => parameter

/-- Chooses a value by its text; `none` when the text does not fit the type. -/
def setText? (parameter : Parameter) (text : String) : Option Parameter :=
  match parameter.kind with
  | .boolean _ _ =>
    if text = "true" ∨ text = "1" then some (parameter.setBoolean true)
    else if text = "false" ∨ text = "0" then some (parameter.setBoolean false)
    else none
  | .number .. => do
    let literal ← Literal.ofText? text
    return parameter.setNumber (← literal.float?)
  | .choice type _ _ => do
    let value ← type.values.get? text <|> coordinate? text
    return parameter.setChoice value
where
  coordinate? (text : String) : Option Int :=
    (Literal.whole? text.toList).filter fun value => IsCoordinate value

/-- Whether two parameters were declared alike. -/
def sameDefinition (a b : Parameter) : Bool :=
  a.label == b.label && a.description == b.description &&
    match a.kind, b.kind with
    | .boolean first _, .boolean second _ => first == second
    | .number default low high restriction _, .number default' low' high' restriction' _ =>
      default == default' && low == low' && high == high' && restriction == restriction'
    | .choice type default _, .choice type' default' _ =>
      type.name == type'.name && default == default'
    | _, _ => false

/-- Text of the value. -/
def describeValue (parameter : Parameter) : String :=
  match parameter.kind with
  | .boolean _ value => toString value
  | .number _ _ _ _ value => Decimal.plain value
  | .choice type _ value => type.name ++ "." ++ (type.valueName? value).getD "?"

end Parameter

/-! ## The table -/

structure Parameters where
  mapWidth : MapSize
  mapHeight : MapSize
  /-- Corner of the rendered window. -/
  origin : Point
  /-- Size of the rendered window; an automatic one follows the map. -/
  renderWidth : Extent
  renderHeight : Extent
  scale : Scale
  seed : Nat
  /-- Maps to render; when empty, every map the script yields. -/
  enabledMaps : List String
  declared : Dictionary Parameter

namespace Parameters

def create (mapWidth mapHeight : MapSize) : Parameters where
  mapWidth
  mapHeight
  origin := .origin
  renderWidth := MapSize.automatic
  renderHeight := MapSize.automatic
  scale := 1.0
  seed := 0
  enabledMaps := []
  declared := []

def get? (parameters : Parameters) (name : String) : Option Parameter :=
  parameters.declared.get? name

def insert (parameters : Parameters) (name : String) (parameter : Parameter) : Parameters :=
  { parameters with declared := Dictionary.insert name parameter parameters.declared }

def modify (parameters : Parameters) (name : String) (f : Parameter → Parameter) : Parameters :=
  { parameters with declared := parameters.declared.modify name f }

def isEnabled (parameters : Parameters) (map : String) : Bool :=
  parameters.enabledMaps.isEmpty || parameters.enabledMaps.contains map

/-- Chooses a value by its text; unknown names and texts that do not fit are refused. -/
def setText? (parameters : Parameters) (name text : String) : Option Parameters := do
  let parameter ← parameters.get? name
  return parameters.insert name (← parameter.setText? text)

/-- Whether two tables come from the same declarations. -/
def sameDefinition (a b : Parameters) : Bool :=
  a.mapWidth.sameDefinition b.mapWidth && a.mapHeight.sameDefinition b.mapHeight &&
    a.declared.length == b.declared.length &&
    (a.declared.zip b.declared).all fun (first, second) =>
      first.1 == second.1 && first.2.sameDefinition second.2

/-- Size of the window along an axis without bound when nobody chooses one. -/
def windowFallback : Extent := 1000

/-- The window along one axis. Along a bounded axis it begins at zero at the earliest and ends with
the map. -/
def windowAxis (origin : Coordinate) (requested : Extent) (size : MapSize) : Interval :=
  let wanted :=
    if requested ≠ MapSize.automatic then requested
    else if size.isInfinite then windowFallback
    else size.value
  if size.isInfinite then ⟨origin, wanted⟩
  else
    let origin := max origin 0
    ⟨origin, min wanted ((size.value : Int) - origin).toNat⟩

/-- The logical rectangle yielded maps are cut to. -/
def window (parameters : Parameters) : Rectangle :=
  .ofIntervals (windowAxis parameters.origin.x parameters.renderWidth parameters.mapWidth)
    (windowAxis parameters.origin.y parameters.renderHeight parameters.mapHeight)

/-- Listing of the table. -/
def dump (parameters : Parameters) : String :=
  let window := s!"size {parameters.renderWidth}x{parameters.renderHeight}"
  let declared := parameters.declared.map fun (name, parameter) =>
    s!"{name} ({parameter.label}): {parameter.describeValue}"
  let lines := [
    s!"MapWidth: {parameters.mapWidth.describe}",
    s!"MapHeight: {parameters.mapHeight.describe}",
    s!"Render: origin ({parameters.origin.x}, {parameters.origin.y}), {window}, " ++
      s!"scale {Decimal.plain parameters.scale}",
    s!"RandomSeed: {parameters.seed}"]
  String.join ((lines ++ declared).map (· ++ "\n"))

end Parameters

end Terrain
