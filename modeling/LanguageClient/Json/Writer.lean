import LanguageClient.Json.Basic
import LanguageClient.Json.Double
import LanguageClient.Text.Digits

/-!
# JSON text from values

The compact form: no spaces, members in key order, only the characters escaped that must be.
-/

namespace LanguageClient

/-- The text of a number. -/
def Number.text : Number → String
  | .int i => toString i
  | .double bits => Double.text bits

namespace Json

/-- One character inside a string literal. -/
def escapeChar (c : Char) : List Char :=
  match c with
  | '"' => ['\\', '"']
  | '\\' => ['\\', '\\']
  | '\n' => ['\\', 'n']
  | '\r' => ['\\', 'r']
  | '\t' => ['\\', 't']
  | c =>
      if c.toNat == 8 then ['\\', 'b']
      else if c.toNat == 12 then ['\\', 'f']
      else if c.toNat < 0x20 then ['\\', 'u', '0', '0'] ++ Text.hexByte c.toNat.toUInt8
      else [c]

/-- A string literal. -/
def quote (s : String) : String :=
  String.ofList ('"' :: s.toList.flatMap escapeChar ++ ['"'])

mutual

/-- The pieces of a value's text, in front of `tail`. -/
def pieces : Json → List String → List String
  | .null, tail => "null" :: tail
  | .bool b, tail => (if b then "true" else "false") :: tail
  | .num n, tail => n.text :: tail
  | .str s, tail => quote s :: tail
  | .arr items, tail => "[" :: itemPieces true items ("]" :: tail)
  | .obj members, tail => "\x7b" :: memberPieces true members ("\x7d" :: tail)

/-- The pieces of the items of an array; a comma precedes all but the first. -/
def itemPieces : Bool → List Json → List String → List String
  | _, [], tail => tail
  | first, j :: rest, tail =>
      let after := pieces j (itemPieces false rest tail)
      if first then after else "," :: after

/-- The pieces of the members of an object; a comma precedes all but the first. -/
def memberPieces : Bool → List (String × Json) → List String → List String
  | _, [], tail => tail
  | first, (key, j) :: rest, tail =>
      let after := quote key :: ":" :: pieces j (memberPieces false rest tail)
      if first then after else "," :: after

end

/-- The compact text of a value. -/
def render (j : Json) : String :=
  String.join (j.pieces [])

end Json

end LanguageClient
