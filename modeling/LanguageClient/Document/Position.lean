import LanguageClient.Json.Basic

/-!
# Positions, ranges and locations

Places in documents as messages name them. Reading is lenient: what cannot be read is nothing, not
a failure. A `Normalizer` brings the URIs of documents to their normal form.
-/

namespace LanguageClient.Document

/-- Brings a URI to its normal form, or refuses it. -/
abbrev Normalizer := String → Option String

/-- A member that is a text; empty when it is none. -/
def textMember (j : Json) (key : String) : String := ((j.get key).str?).getD ""

/-- A member that is a nonempty text. -/
def optionalText (j : Json) (key : String) : Option String :=
  (j.get key).str?.filter (· ≠ "")

/-- A line and a column, both from zero. -/
structure Position where
  line : Nat
  character : Nat
deriving DecidableEq, Repr

/-- From a start up to an end. -/
structure Range where
  start : Position
  stop : Position
deriving DecidableEq, Repr

/-- A range in a document. -/
structure Location where
  uri : String
  range : Range
deriving DecidableEq, Repr

/-- An unsigned 32-bit integer. -/
def nat32? (j : Json) : Option Nat := j.nat64?.filter (· < 0x100000000)

namespace Position

/-- Reads a position. -/
def ofJson? (j : Json) : Option Position := do
  return ⟨← nat32? (j.get "line"), ← nat32? (j.get "character")⟩

/-- Writes a position. -/
def toJson (p : Position) : Json :=
  .mkObj [("line", .ofNat p.line), ("character", .ofNat p.character)]

/-- Is the position at or before another? -/
def atOrBefore (p q : Position) : Bool :=
  p.line < q.line || (p.line == q.line && p.character ≤ q.character)

end Position

namespace Range

/-- Reads a range. -/
def ofJson? (j : Json) : Option Range := do
  return ⟨← Position.ofJson? (j.get "start"), ← Position.ofJson? (j.get "end")⟩

/-- Writes a range. -/
def toJson (r : Range) : Json :=
  .mkObj [("start", r.start.toJson), ("end", r.stop.toJson)]

/-- Does the range enclose another, its ends included? -/
def contains (outer inner : Range) : Bool :=
  outer.start.atOrBefore inner.start && inner.stop.atOrBefore outer.stop

end Range

/-- Reads the URI of a document. -/
def uri? (normal : Normalizer) (j : Json) : Option String := j.str?.bind normal

namespace Location

/-- Reads a location, or the target of a link. -/
def ofJson? (normal : Normalizer) (j : Json) : Option Location :=
  match uri? normal (j.get "uri") with
  | some uri => (Range.ofJson? (j.get "range")).map fun range => ⟨uri, range⟩
  | none => do
      let uri ← uri? normal (j.get "targetUri")
      let range ← (Range.ofJson? (j.get "targetSelectionRange")).or
        (Range.ofJson? (j.get "targetRange"))
      return ⟨uri, range⟩

/-- Writes a location. -/
def toJson (l : Location) : Json := .mkObj [("uri", .str l.uri), ("range", l.range.toJson)]

/-- Reads the locations of a reply: an array of them, or a single one. -/
def listOfJson (normal : Normalizer) (j : Json) : List Location :=
  match j with
  | .arr items => items.filterMap (ofJson? normal)
  | .obj _ => (ofJson? normal j).toList
  | _ => []

end Location

/-- An occurrence of a symbol, and how it is used there. -/
structure Highlight where
  range : Range
  kind : Int
deriving DecidableEq, Repr

namespace Highlight

/-- The kind of an occurrence of which nothing more is said. -/
def textKind : Int := 1

/-- Reads a highlight. -/
def ofJson? (j : Json) : Option Highlight := do
  return ⟨← Range.ofJson? (j.get "range"), (j.get "kind").int32?.getD textKind⟩

/-- Writes a highlight. -/
def toJson (h : Highlight) : Json := .mkObj [("range", h.range.toJson), ("kind", .ofInt h.kind)]

/-- Reads the highlights of a reply: an array of them, or a single one. -/
def listOfJson (j : Json) : List Highlight :=
  match j with
  | .arr items => items.filterMap ofJson?
  | .obj _ => (ofJson? j).toList
  | _ => []

end Highlight

end LanguageClient.Document
