import LanguageClient.Json.Basic
import LanguageClient.Text.Digits
import LanguageClient.Text.Escaped

/-!
# Request identifiers

An identifier is a signed 64-bit number or a text. The client's own identifiers are counted from
one in 64 unsigned bits; those beyond the signed range travel as their decimal text.
-/

namespace LanguageClient.Rpc

/-- Identifies a request on the wire. -/
inductive RequestId where
  | number (value : Int)
  | text (value : String)
deriving DecidableEq, Repr

namespace RequestId

/-- The largest identifier that travels as a number. -/
def maxNumber : Nat := 0x7fffffffffffffff

/-- The wire form of a counted identifier. -/
def ofNat (n : Nat) : RequestId :=
  if n ≤ maxNumber then .number n else .text (toString n)

/-- Reads an identifier; only texts and signed 64-bit integers are one. -/
def ofJson? : Json → Option RequestId
  | .num n => n.int64?.map .number
  | .str s => some (.text s)
  | _ => none

/-- The identifier as a JSON value. -/
def toJson : RequestId → Json
  | .number n => .ofInt n
  | .text s => .str s

/-- The identifier in messages: numbers plain, texts quoted. -/
def shown : RequestId → String
  | .number n => toString n
  | .text s => Text.quoted s

/-- The counted identifier that travels as this one, if there is one. -/
def toNat? (id : RequestId) : Option Nat :=
  match id with
  | .number n => if 0 ≤ n then some n.toNat else none
  | .text s => (Text.readNat? 0x10000000000000000 s.toList).filter (ofNat · = id)

end RequestId

end LanguageClient.Rpc
