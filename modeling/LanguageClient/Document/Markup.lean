import LanguageClient.Document.Position

/-!
# Marked-up text and hovers
-/

namespace LanguageClient.Document

/-- How a text is marked up. -/
inductive MarkupKind where
  | plainText | markdown
deriving DecidableEq, Repr

/-- A text with its kind of markup. -/
structure Markup where
  kind : MarkupKind
  value : String
deriving DecidableEq, Repr

namespace Markup

/-- Reads marked-up text; a bare text is plain. -/
def ofJson? (j : Json) : Option Markup :=
  match j with
  | .str text => some ⟨.plainText, text⟩
  | .obj _ =>
      let kind := if (j.get "kind").str? = some "markdown" then MarkupKind.markdown else .plainText
      some ⟨kind, textMember j "value"⟩
  | _ => none

/-- Writes marked-up text. -/
def toJson (m : Markup) : Json :=
  let kind := match m.kind with
    | .plainText => "plaintext"
    | .markdown => "markdown"
  .mkObj [("kind", .str kind), ("value", .str m.value)]

end Markup

/-- What is shown for a place in a document. -/
structure Hover where
  contents : List Markup
  range : Option Range
deriving DecidableEq, Repr

namespace Hover

/-- A text of a programming language as a fenced block. -/
def codeBlock (language code : String) : Markup :=
  ⟨.markdown, "```" ++ language ++ "\n" ++ code ++ "\n```"⟩

/-- Reads one element: marked-up text, or a text of a language. Empty ones are dropped. -/
def element? (j : Json) : Option Markup :=
  let content := match (j.member? "language").bind Json.str? with
    | some language => some (codeBlock language (textMember j "value"))
    | none => Markup.ofJson? j
  content.filter (·.value ≠ "")

/-- Reads a hover, whose contents are one element or an array of them. -/
def ofJson (j : Json) : Hover :=
  let contents := match j.get "contents" with
    | .arr items => items.filterMap element?
    | other => (element? other).toList
  ⟨contents, Range.ofJson? (j.get "range")⟩

/-- Writes a hover. -/
def toJson (h : Hover) : Json :=
  .mkObj [("contents", .arr (h.contents.map Markup.toJson)),
    ("range", .ofOption Range.toJson h.range)]

end Hover

end LanguageClient.Document
