import Terrain.Json.Basic

/-!
# JSON tokens

The characters of a document grouped into tokens by one pass over the text. The pass carries a
`Mode` that says what the current character continues; a character either extends it or ends it.

* `Token` — punctuation, texts, numbers and the three words.
* `Token.scan?` — the tokens of a text, `none` when some character has no place.
-/

namespace Terrain.Json

inductive Token where
  | openArray
  | closeArray
  | openObject
  | closeObject
  | comma
  | colon
  | text (value : JsonText)
  | number (literal : Literal)
  | null
  | bool (value : Bool)

/-- A piece of a text: a character, or a sixteen-bit unit written as an escape. -/
inductive Piece where
  | char (c : Char)
  | unit (code : Nat)

/-- What the next character continues. Collected characters and pieces are in reverse order. -/
inductive Mode where
  | between
  | inText (pieces : List Piece)
  | inEscape (pieces : List Piece)
  | inUnit (pieces : List Piece) (code : Nat) (left : Nat)
  | inNumber (chars : List Char)
  | inWord (chars : List Char)

/-! ## Texts -/

/-- Joins pieces into a text. A leading half of a surrogate pair needs the trailing half right
behind it, and a trailing half never stands alone. -/
def joinPieces : List Piece → List Char → JsonText
  | [], done => some (String.ofList done.reverse)
  | .char c :: rest, done => joinPieces rest (c :: done)
  | .unit code :: rest, done =>
    if code < 0xd800 || 0xe000 ≤ code then joinPieces rest (Char.ofNat code :: done)
    else if code < 0xdc00 then
      match rest with
      | .unit low :: rest =>
        if 0xdc00 ≤ low && low < 0xe000 then
          joinPieces rest (Char.ofNat (0x10000 + (code - 0xd800) * 0x400 + (low - 0xdc00)) :: done)
        else none
      | _ => none
    else none

/-- The character a one-letter escape stands for. -/
def escaped? : Char → Option Char
  | '"' => some '"'
  | '\\' => some '\\'
  | '/' => some '/'
  | 'b' => some '\x08'
  | 'f' => some '\x0c'
  | 'n' => some '\n'
  | 'r' => some '\r'
  | 't' => some '\t'
  | _ => none

def hexDigit? (c : Char) : Option Nat :=
  if c.isDigit then some (c.toNat - '0'.toNat)
  else if 'a' ≤ c && c ≤ 'f' then some (c.toNat - 'a'.toNat + 10)
  else if 'A' ≤ c && c ≤ 'F' then some (c.toNat - 'A'.toNat + 10)
  else none

/-! ## Numbers -/

/-- Reads what follows the whole part of a number: a fraction, an exponent, or both. -/
def literalTail? (negative : Bool) (whole : List Char) (chars : List Char) : Option Literal :=
  match chars with
  | '.' :: rest =>
    let fraction := rest.takeWhile Char.isDigit
    if fraction.isEmpty then none
    else Literal.ofParts? negative whole fraction (rest.dropWhile Char.isDigit)
  | rest => Literal.ofParts? negative whole [] rest

/-- Reads a number: an optional minus, a whole part without leading zeros, and the rest. -/
def literal? (chars : List Char) : Option Literal :=
  let (negative, chars) := match chars with
    | '-' :: rest => (true, rest)
    | rest => (false, rest)
  let whole := chars.takeWhile Char.isDigit
  let rest := chars.dropWhile Char.isDigit
  match whole with
  | [] => none
  | '0' :: _ :: _ => none
  | _ => literalTail? negative whole rest

def isNumberChar (c : Char) : Bool :=
  c.isDigit || c == '-' || c == '+' || c == '.' || c == 'e' || c == 'E'

/-! ## The pass -/

def word? : String → Option Token
  | "null" => some .null
  | "true" => some (.bool true)
  | "false" => some (.bool false)
  | _ => none

/-- Begins a token, or ends one of a single character. -/
def begin? (tokens : Array Token) (c : Char) : Option (Array Token × Mode) :=
  match c with
  | ' ' | '\t' | '\n' | '\r' => some (tokens, .between)
  | '[' => some (tokens.push .openArray, .between)
  | ']' => some (tokens.push .closeArray, .between)
  | '\x7b' => some (tokens.push .openObject, .between)
  | '\x7d' => some (tokens.push .closeObject, .between)
  | ',' => some (tokens.push .comma, .between)
  | ':' => some (tokens.push .colon, .between)
  | '"' => some (tokens, .inText [])
  | c =>
    if c == '-' || c.isDigit then some (tokens, .inNumber [c])
    else if c.isAlpha then some (tokens, .inWord [c])
    else none

/-- Ends a number or a word that the next character does not continue. -/
def finish? (tokens : Array Token) : Mode → Option (Array Token)
  | .between => some tokens
  | .inNumber chars => (literal? chars.reverse).map fun literal => tokens.push (.number literal)
  | .inWord chars => (word? (String.ofList chars.reverse)).map tokens.push
  | _ => none

/-- One character of the pass. -/
def advance? (tokens : Array Token) (mode : Mode) (c : Char) : Option (Array Token × Mode) :=
  match mode with
  | .between => begin? tokens c
  | .inText pieces =>
    if c = '"' then some (tokens.push (.text (joinPieces pieces.reverse [])), .between)
    else if c = '\\' then some (tokens, .inEscape pieces)
    else if c.toNat < 0x20 then none
    else some (tokens, .inText (.char c :: pieces))
  | .inEscape pieces =>
    if c = 'u' then some (tokens, .inUnit pieces 0 4)
    else (escaped? c).map fun plain => (tokens, .inText (.char plain :: pieces))
  | .inUnit pieces code left =>
    (hexDigit? c).map fun digit =>
      let code := 16 * code + digit
      if left ≤ 1 then (tokens, .inText (.unit code :: pieces))
      else (tokens, .inUnit pieces code (left - 1))
  | .inNumber chars =>
    if isNumberChar c then some (tokens, .inNumber (c :: chars))
    else (finish? tokens mode).bind fun tokens => begin? tokens c
  | .inWord chars =>
    if c.isAlpha then some (tokens, .inWord (c :: chars))
    else (finish? tokens mode).bind fun tokens => begin? tokens c

/-- Runs the pass from a mode to the end of the text. -/
def scanFrom? (tokens : Array Token) (mode : Mode) : List Char → Option (Array Token)
  | [] => finish? tokens mode
  | c :: rest => (advance? tokens mode c).bind fun next => scanFrom? next.1 next.2 rest

/-- The tokens of a document. -/
def Token.scan? (document : String) : Option (Array Token) :=
  scanFrom? #[] .between document.toList

end Terrain.Json
