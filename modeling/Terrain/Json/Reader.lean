import Terrain.Dictionary
import Terrain.Json.Parser

/-!
# Reading typed values

A reader turns a tree into a value of a type. It fails on everything that does not have exactly the
form it expects, and when values are nested too deeply. What a record does not name is skipped
without a look at its content, so neither depth nor numbers nor texts in it matter.

* `Reader` — a function of the number of containers that may still be opened.
* `Reader.record` — the members of a record, by name or by position.
* `Json.isSound` — whether a tree that is kept for later holds nothing undecodable.
-/

namespace Terrain

/-- Reads a tree, in which so many containers may still be opened. -/
abbrev Reader (α : Type) := Nat → Json → Option α

namespace Reader

variable {α : Type}

/-- Containers that may be open at the same time. -/
def room : Nat := 127

/-- Reads a whole document. -/
def document (reader : Reader α) (text : String) : Option α := do
  reader room (← Json.parse? text)

def boolean : Reader Bool
  | _, .bool value => some value
  | _, _ => none

/-- A number; whole ones are taken too. -/
def float : Reader Float
  | _, .number literal => literal.float?
  | _, _ => none

/-- A whole number between two bounds, written without fraction and exponent. -/
def integer (low high : Int) : Reader Int
  | _, .number literal =>
    literal.integer?.bind fun value => if low ≤ value ∧ value ≤ high then some value else none
  | _, _ => none

/-- A count of up to a bound. -/
def count (high : Nat) : Reader Nat := fun room tree =>
  (integer 0 high room tree).map Int.toNat

/-- A count that fits 64 bits. -/
def size : Reader Nat := count 18446744073709551615

def text : Reader String
  | _, .text value => value
  | _, _ => none

def list (item : Reader α) : Reader (List α)
  | room + 1, .array items => items.mapM (item room)
  | _, _ => none

/-- Named values; of two with the same name the later one counts. -/
def dictionary (item : Reader α) : Reader (Dictionary α)
  | room + 1, .object members => do
    return .ofList (← members.mapM fun (name, value) => do return (← name, ← item room value))
  | _, _ => none

end Reader

/-- Members of a record that are present, with the room left inside it. -/
structure Fields where
  room : Nat
  members : List (String × Json)

namespace Fields

variable {α : Type}

/-- A member that must be present. -/
def required (fields : Fields) (name : String) (reader : Reader α) : Option α := do
  reader fields.room (← fields.members.lookup name)

/-- A member that may be left out. -/
def optional (fields : Fields) (name : String) (default : α) (reader : Reader α) : Option α :=
  match fields.members.lookup name with
  | some value => reader fields.room value
  | none => some default

/-- The known ones among named members. No name may stand twice, and all names must be decodable. -/
def ofMembers? (names : List String) (room : Nat) (members : List (JsonText × Json)) :
    Option Fields := do
  let members ← members.mapM fun (name, value) => name.map fun name => (name, value)
  let known := members.filter fun member => names.contains member.1
  if (known.map (·.1)).Nodup then return ⟨room, known⟩ else none

end Fields

/-- Reads a record: named members in any order, or values in the order of the names. -/
def Reader.record (names : List String) : Reader Fields
  | room + 1, .object members => Fields.ofMembers? names room members
  | room + 1, .array items =>
    if items.length ≤ names.length then some ⟨room, names.zip items⟩ else none
  | _, _ => none

mutual

/-- Whether a tree can be kept: it is not too deep, its numbers fit a float and its texts are
decodable. -/
def Json.isSound : Json → Nat → Bool
  | .null, _ | .bool _, _ => true
  | .number literal, _ => literal.float?.isSome
  | .text value, _ => value.isSome
  | .array items, room => 0 < room && Json.areSound items (room - 1)
  | .object members, room => 0 < room && Json.membersAreSound members (room - 1)

/-- Whether all trees of a list can be kept. -/
def Json.areSound : List Json → Nat → Bool
  | [], _ => true
  | item :: rest, room => item.isSound room && Json.areSound rest room

/-- Whether all members of an object can be kept. -/
def Json.membersAreSound : List (JsonText × Json) → Nat → Bool
  | [], _ => true
  | (name, value) :: rest, room =>
    name.isSome && value.isSound room && Json.membersAreSound rest room

end

end Terrain
