import LanguageClient.Document.Markup

/-!
# Completions
-/

namespace LanguageClient.Document

/-- One proposal to complete what is being typed. -/
structure Completion where
  label : String
  kind : Option Int
  detail : String
  documentation : Option Markup
  /-- The text proposals are sorted by; the label when none is given. -/
  sortText : String
  /-- The text to insert; the label when none is given. -/
  insertText : String
deriving DecidableEq, Repr

namespace Completion

/-- Reads a proposal. -/
def ofJson (j : Json) : Completion :=
  let label := textMember j "label"
  { label := label, kind := (j.get "kind").int32?, detail := textMember j "detail"
    documentation := Markup.ofJson? (j.get "documentation")
    sortText := (optionalText j "sortText").getD label
    insertText := (optionalText j "insertText").getD label }

/-- Reads the proposals of a reply: an array, or a list object with its items. -/
def listOfJson (j : Json) : List Completion :=
  let items := match j with
    | .arr items => items
    | other => (other.get "items").items
  items.map ofJson

/-- Writes a proposal. -/
def toJson (c : Completion) : Json := .mkObj
  [("label", .str c.label), ("kind", .ofOption .ofInt c.kind), ("detail", .str c.detail),
    ("documentation", .ofOption Markup.toJson c.documentation),
    ("sort_text", .str c.sortText), ("insert_text", .str c.insertText)]

end Completion

end LanguageClient.Document
