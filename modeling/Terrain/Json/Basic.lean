import Terrain.Decimal.Literal

/-!
# JSON trees

A tree keeps what a reader with a fixed shape in mind still has to decide: number literals are not
yet turned into integers or floats, members stay in the order written with repeated keys, and a text
may be undecodable.

* `Json` — a document.
* `Json.member?` — a member of an object.
-/

namespace Terrain

/-- A text; `none` when an escape names half of a surrogate pair. -/
abbrev JsonText := Option String

/-- A document. -/
inductive Json where
  | null
  | bool (value : Bool)
  | number (literal : Literal)
  | text (value : JsonText)
  | array (items : List Json)
  | object (members : List (JsonText × Json))
  deriving Repr

instance : Inhabited Json := ⟨.null⟩

namespace Json

/-- The value of the last member with a key. -/
def member? (key : String) : Json → Option Json
  | .object members => (members.reverse.find? fun member => member.1 == some key).map (·.2)
  | _ => none

end Json

end Terrain
