import Terrain.Json.Token

/-!
# JSON documents from tokens

Reads the tokens once, keeping the containers still open on a stack, so nesting is not limited here;
readers with a depth limit count it while they take the tree apart.

* `Json.parse?` — the one document in a text.
-/

namespace Terrain.Json

/-- A container still open, its content in reverse order. -/
inductive Frame where
  | array (items : List Json)
  | object (members : List (JsonText × Json)) (key : JsonText)

/-- What may come next. -/
inductive Expect where
  | value
  | valueOrClose
  | keyOrClose (members : List (JsonText × Json))
  | key (members : List (JsonText × Json))
  | colon (members : List (JsonText × Json)) (key : JsonText)
  | separator
  | nothing (document : Json)

structure Parser where
  stack : List Frame
  expect : Expect

namespace Parser

def start : Parser := ⟨[], .value⟩

/-- Puts a finished value where the innermost open container wants it. -/
def deliver (stack : List Frame) (value : Json) : Parser :=
  match stack with
  | [] => ⟨[], .nothing value⟩
  | .array items :: rest => ⟨.array (value :: items) :: rest, .separator⟩
  | .object members key :: rest => ⟨.object ((key, value) :: members) key :: rest, .separator⟩

/-- Starts or completes a value with a token. -/
def openValue? (stack : List Frame) : Token → Option Parser
  | .openArray => some ⟨.array [] :: stack, .valueOrClose⟩
  | .openObject => some ⟨stack, .keyOrClose []⟩
  | .text value => some (deliver stack (.text value))
  | .number literal => some (deliver stack (.number literal))
  | .null => some (deliver stack .null)
  | .bool value => some (deliver stack (.bool value))
  | _ => none

/-- Consumes one token. -/
def step? (parser : Parser) (token : Token) : Option Parser :=
  match parser.expect, token, parser.stack with
  | .valueOrClose, .closeArray, .array items :: rest => some (deliver rest (.array items.reverse))
  | .value, token, stack | .valueOrClose, token, stack => openValue? stack token
  | .keyOrClose members, .closeObject, stack => some (deliver stack (.object members.reverse))
  | .keyOrClose members, .text key, stack => some ⟨stack, .colon members key⟩
  | .key members, .text key, stack => some ⟨stack, .colon members key⟩
  | .colon members key, .colon, stack => some ⟨.object members key :: stack, .value⟩
  | .separator, .comma, .array items :: rest => some ⟨.array items :: rest, .value⟩
  | .separator, .comma, .object members _ :: rest => some ⟨rest, .key members⟩
  | .separator, .closeArray, .array items :: rest => some (deliver rest (.array items.reverse))
  | .separator, .closeObject, .object members _ :: rest =>
    some (deliver rest (.object members.reverse))
  | _, _, _ => none

end Parser

/-- Reads exactly one document. -/
def parse? (document : String) : Option Json := do
  let tokens ← Token.scan? document
  let parser ← tokens.foldlM Parser.step? Parser.start
  match parser.expect with
  | .nothing value => some value
  | _ => none

end Terrain.Json
