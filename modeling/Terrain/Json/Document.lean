import Terrain.Decimal.Layout

/-!
# Writing JSON

Documents to be written. They keep whole numbers and floats apart, because a float is always written
with a fraction or an exponent. The text is compact, with members in the order given.
-/

namespace Terrain

inductive Document where
  | null
  | boolean (value : Bool)
  | integer (value : Int)
  | float (value : Float)
  | text (value : String)
  | list (items : List Document)
  | record (members : List (String × Document))
  deriving Inhabited

namespace Document

/-- Two hexadecimal digits of a control character. -/
def controlDigits (c : Char) : List Char :=
  let digits := Nat.toDigits 16 c.toNat
  List.replicate (2 - digits.length) '0' ++ digits

/-- One character of a text. -/
def escapeChar (c : Char) : List Char :=
  if c = '"' then ['\\', '"']
  else if c = '\\' then ['\\', '\\']
  else if c = '\x08' then ['\\', 'b']
  else if c = '\x0c' then ['\\', 'f']
  else if c = '\n' then ['\\', 'n']
  else if c = '\r' then ['\\', 'r']
  else if c = '\t' then ['\\', 't']
  else if c.toNat < 32 then ['\\', 'u', '0', '0'] ++ controlDigits c
  else [c]

def writeText (text : String) : String :=
  String.ofList ('"' :: text.toList.flatMap escapeChar ++ ['"'])

mutual

/-- Compact text of a document. -/
def write : Document → String
  | .null => "null"
  | .boolean value => if value then "true" else "false"
  | .integer value => toString value
  | .float value => Decimal.tagged value
  | .text value => writeText value
  | .list items => "[" ++ ",".intercalate (writeItems items) ++ "]"
  | .record members => "\x7b" ++ ",".intercalate (writeMembers members) ++ "\x7d"

/-- Texts of the items of a list. -/
def writeItems : List Document → List String
  | [] => []
  | item :: rest => item.write :: writeItems rest

/-- Texts of the members of a record. -/
def writeMembers : List (String × Document) → List String
  | [] => []
  | (name, value) :: rest => (writeText name ++ ":" ++ value.write) :: writeMembers rest

end

end Document

end Terrain
