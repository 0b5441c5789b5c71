import LanguageClient.Text.Digits
import LanguageClient.Text.Utf8

/-!
# Percent-encoding

A byte is written as `%` and two upper-case hexadecimal digits. Which ASCII characters need it
depends on the part of a URI; characters beyond ASCII always do.
-/

namespace LanguageClient.Uri

/-- Controls, which no part of a URI holds. -/
def controlSet (c : Char) : Bool := c.toNat < 0x20 || c.toNat == 0x7F

/-- What is encoded in a fragment. -/
def fragmentSet (c : Char) : Bool :=
  controlSet c || c == ' ' || c == '"' || c == '<' || c == '>' || c == '`'

/-- What is encoded in a query. -/
def querySet (c : Char) : Bool :=
  controlSet c || c == ' ' || c == '"' || c == '#' || c == '<' || c == '>'

/-- What is encoded in the query of a scheme with a host. -/
def specialQuerySet (c : Char) : Bool := querySet c || c == '\''

/-- What is encoded in a path. -/
def pathSet (c : Char) : Bool :=
  fragmentSet c || c == '#' || c == '?' || c == '\x7b' || c == '\x7d'

/-- What is encoded in a file name that becomes a path segment. -/
def segmentSet (c : Char) : Bool :=
  pathSet c || c == '/' || c == '%' || c == '\\'

/-- What is encoded in a user name or password. -/
def userInfoSet (c : Char) : Bool :=
  pathSet c || c == '/' || c == ':' || c == ';' || c == '=' || c == '@' || c == '[' ||
    c == '\\' || c == ']' || c == '^' || c == '|'

/-- One byte, encoded. -/
def encodeByte (b : UInt8) : List Char :=
  ['%', Text.upperHexDigit (b.toNat / 16), Text.upperHexDigit (b.toNat % 16)]

/-- One character: encoded when it is not ASCII or belongs to the set. -/
def encodeChar (set : Char → Bool) (c : Char) : List Char :=
  if 0x80 ≤ c.toNat || set c then (String.utf8EncodeChar c).flatMap encodeByte else [c]

/-- A text, encoded for the part of a URI that the set belongs to. -/
def percentEncode (set : Char → Bool) (cs : List Char) : List Char :=
  cs.flatMap (encodeChar set)

/-- The bytes a text stands for: escapes decoded, everything else in UTF-8. A percent sign without
two digits stands for itself. -/
def percentDecode : List Char → Bytes
  | '%' :: a :: b :: rest =>
      match Text.hexValue? a, Text.hexValue? b with
      | some high, some low => (high * 16 + low).toUInt8 :: percentDecode rest
      | _, _ => 37 :: percentDecode (a :: b :: rest)
  | c :: rest => String.utf8EncodeChar c ++ percentDecode rest
  | [] => []

end LanguageClient.Uri
