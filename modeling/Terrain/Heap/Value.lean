import Terrain.Decimal.Layout
import Terrain.Heap.ScriptArray

/-!
# Script values

What an object of the heap holds, its type name, the objects it refers to, and its short text.
-/

namespace Terrain

/-- The variable a reference points at: a global one, or a local one by call, block and name. -/
inductive Target where
  | global (name : String)
  | inBlock (call block : Nat) (name : String)
  deriving Repr, DecidableEq

inductive Value where
  | null
  | boolean (value : Bool)
  | number (value : Float)
  | text (value : String)
  | point (x y : Float)
  | enum (typeName : String) (value : Int)
  | array (items : ScriptArray)
  | reference (target : Target)
  /-- Handle of a raster that is rendered later. -/
  | raster (kind : RasterKind)
  /-- A type as an object, which gives access to its static members. -/
  | type (name : String)
  | parameters
  deriving Inhabited

namespace Value

def typeName : Value → String
  | null => "Null"
  | boolean _ => "Boolean"
  | number _ => "Number"
  | text _ => "String"
  | point _ _ => "Point"
  | enum typeName _ => typeName
  | array _ => "Array"
  | reference _ => "Reference"
  | raster kind => kind.typeName
  | type name => name
  | parameters => "Parameters"

/-- Objects a value refers to. -/
def children : Value → List ObjectId
  | array items => items.children
  | _ => []

/-- Short text, as printed and listed. -/
def describe : Value → String
  | null => "null"
  | boolean value => if value then "true" else "false"
  | number value => Decimal.plain value
  | text value => value
  | point x y => "[" ++ Decimal.plain x ++ ", " ++ Decimal.plain y ++ "]"
  | enum typeName value => s!"{typeName}({value})"
  | array items => s!"Array({items.size} items)"
  | reference (.global name) => "&" ++ name
  | reference (.inBlock call block name) => s!"&{name}@{call}:{block}"
  | raster kind => kind.typeName
  | type name => "type " ++ name
  | parameters => "Parameters"

/-- What an object with this value compares by. -/
def key (id : ObjectId) : Value → ArrayKey
  | null => .null
  | boolean value => .boolean value
  | number value => .number value
  | text value => .text value
  | point x y => .point x y
  | enum typeName value => .enum typeName value
  | _ => .identity id

end Value

end Terrain
