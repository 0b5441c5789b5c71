import LanguageClient.Document.Position
import LanguageClient.Json.Writer

/-!
# Diagnostics

Problems that the server reports about a document.
-/

namespace LanguageClient.Document

/-- A place that has to do with a problem. -/
structure RelatedPlace where
  location : Location
  message : String
deriving DecidableEq, Repr

/-- One problem in a document. -/
structure Diagnostic where
  range : Range
  severity : Option Int
  /-- The code as text, also when it was a number. -/
  code : Option String
  source : Option String
  message : String
  related : List RelatedPlace
deriving DecidableEq, Repr

namespace RelatedPlace

/-- Reads a related place. -/
def ofJson? (normal : Normalizer) (j : Json) : Option RelatedPlace :=
  (Location.ofJson? normal (j.get "location")).map fun l => ⟨l, textMember j "message"⟩

/-- Writes a related place. -/
def toJson (r : RelatedPlace) : Json :=
  .mkObj [("location", r.location.toJson), ("message", .str r.message)]

end RelatedPlace

namespace Diagnostic

/-- The code of a problem: a text, or the text of a number. -/
def code? : Json → Option String
  | .str s => some s
  | .num n => some n.text
  | _ => none

/-- Reads a problem; without a range it is none. -/
def ofJson? (normal : Normalizer) (j : Json) : Option Diagnostic :=
  (Range.ofJson? (j.get "range")).map fun range =>
    { range := range, severity := (j.get "severity").int32?, code := code? (j.get "code")
      source := optionalText j "source", message := textMember j "message"
      related := (j.get "relatedInformation").items.filterMap (RelatedPlace.ofJson? normal) }

/-- Reads the problems of an array. -/
def listOfJson (normal : Normalizer) (j : Json) : List Diagnostic :=
  j.items.filterMap (ofJson? normal)

/-- Writes a problem for reports. -/
def toJson (d : Diagnostic) : Json := .mkObj
  [("range", d.range.toJson), ("severity", .ofOption .ofInt d.severity),
    ("code", .ofOption .str d.code), ("source", .ofOption .str d.source),
    ("message", .str d.message),
    ("related_information", .arr (d.related.map RelatedPlace.toJson))]

/-- Writes a problem as messages carry it: absent and empty members are left out. -/
def toWire (d : Diagnostic) : Json :=
  let related := if d.related.isEmpty then none
    else some (Json.arr (d.related.map RelatedPlace.toJson))
  .mkObj ([("range", d.range.toJson), ("message", .str d.message)] ++
    Members.optional "severity" (d.severity.map .ofInt) ++ Members.optional "code" (d.code.map .str) ++
    Members.optional "source" (d.source.map .str) ++ Members.optional "relatedInformation" related)

end Diagnostic

/-- The problems of one document. -/
structure Published where
  uri : String
  diagnostics : List Diagnostic
deriving DecidableEq, Repr

namespace Published

/-- Reads published problems; without a document they are none. -/
def ofJson? (normal : Normalizer) (j : Json) : Option Published :=
  (uri? normal (j.get "uri")).map fun uri =>
    ⟨uri, Diagnostic.listOfJson normal (j.get "diagnostics")⟩

/-- Writes published problems. -/
def toJson (p : Published) : Json :=
  .mkObj [("uri", .str p.uri), ("diagnostics", .arr (p.diagnostics.map Diagnostic.toJson))]

end Published

end LanguageClient.Document
