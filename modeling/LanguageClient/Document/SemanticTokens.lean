import LanguageClient.Document.Position
import LanguageClient.Log
import LanguageClient.Text.Base64

/-!
# Semantic highlighting

The tokens of a line travel as one Base64 text: a sequence of records of eight bytes, each a
column in four bytes, a length in two and a scope in two, the most significant byte first.
-/

namespace LanguageClient.Document

/-- A highlighted stretch of a line. -/
structure Token where
  character : UInt32
  length : UInt16
  scope : UInt16
deriving DecidableEq, Repr

namespace Token

/-- Size of a record in bytes. -/
def recordSize : Nat := 8

/-- Why a text holds no tokens. -/
inductive DecodeError where
  | base64 (cause : Base64.DecodeError)
  | recordSize (size : Nat)
deriving DecidableEq, Repr

/-- The wording of an error. -/
def DecodeError.message : DecodeError → String
  | .base64 cause => s!"invalid base64: {cause.message}"
  | .recordSize size => s!"decoded size {size} is not a multiple of the 8-byte record size"

/-- The record of a token. -/
def toBytes (t : Token) : Bytes :=
  let c := t.character.toNat
  let l := t.length.toNat
  let s := t.scope.toNat
  [(c / 16777216).toUInt8, (c / 65536).toUInt8, (c / 256).toUInt8, c.toUInt8,
    (l / 256).toUInt8, l.toUInt8, (s / 256).toUInt8, s.toUInt8]

/-- A number of two bytes. -/
def word (a b : UInt8) : Nat := a.toNat * 256 + b.toNat

/-- The tokens of whole records. -/
def ofBytes : Bytes → List Token
  | a :: b :: c :: d :: e :: f :: g :: h :: rest =>
      ⟨(word a b * 65536 + word c d).toUInt32, (word e f).toUInt16, (word g h).toUInt16⟩ ::
        ofBytes rest
  | _ => []

/-- Writes tokens. -/
def encode (tokens : List Token) : String := Base64.encode (tokens.flatMap toBytes)

/-- Reads tokens. -/
def decode (text : String) : Except DecodeError (List Token) :=
  match Base64.decode text with
  | .error cause => .error (.base64 cause)
  | .ok bytes =>
      if bytes.length % recordSize ≠ 0 then .error (.recordSize bytes.length)
      else .ok (ofBytes bytes)

/-- Writes a token for reports. -/
def toJson (t : Token) : Json := .mkObj
  [("character", .ofNat t.character.toNat), ("length", .ofNat t.length.toNat),
    ("scope", .ofNat t.scope.toNat)]

end Token

/-- The tokens of one line. -/
structure TokenLine where
  line : Int
  tokens : List Token
deriving DecidableEq, Repr

/-- The highlighting of a document. -/
structure Highlighting where
  uri : Option String
  version : Option Int
  lines : List TokenLine
deriving DecidableEq, Repr

namespace Highlighting

/-- The number of a line; -1 when it has none. -/
def lineNumber (j : Json) : Int := (j.get "line").int64?.getD (-1)

/-- Reads a line. -/
def line (j : Json) : Except Token.DecodeError TokenLine :=
  (Token.decode (textMember j "tokens")).map fun tokens => ⟨lineNumber j, tokens⟩

/-- Reads highlighting; lines whose tokens cannot be read are left out. -/
def ofJson (normal : Normalizer) (j : Json) : Highlighting :=
  let document := j.get "textDocument"
  { uri := uri? normal (document.get "uri"), version := (document.get "version").int32?
    lines := (j.get "lines").items.filterMap fun entry => (line entry).toOption }

/-- What is logged while highlighting is read: the lines that are left out. -/
def readLog (j : Json) : List LogEvent :=
  (j.get "lines").items.filterMap fun entry =>
    match line entry with
    | .ok _ => none
    | .error e => some (.warn .highlighting
        s!"Skipping semantic highlighting for line {lineNumber entry}: {e.message}")

/-- Writes highlighting. -/
def toJson (h : Highlighting) : Json := .mkObj
  [("uri", .ofOption .str h.uri), ("version", .ofOption .ofInt h.version),
    ("lines", .arr (h.lines.map fun l => .mkObj
      [("line", .ofInt l.line), ("tokens", .arr (l.tokens.map Token.toJson))]))]

end Highlighting

end LanguageClient.Document
