import LanguageClient.Document.Markup
import LanguageClient.Text.Units

/-!
# Signature help

The signatures of what is being called, with the places of their parameters in UTF-16 code units of
the signature's label. What is read is safe to index: the active signature and parameter are within
their lists, and no place lies beyond its label.
-/

namespace LanguageClient.Document

/-- Where a parameter stands in the label of its signature. -/
structure Parameter where
  start : Option Nat
  stop : Option Nat
deriving DecidableEq, Repr

/-- One signature. -/
structure Signature where
  label : String
  documentation : Option Markup
  parameters : List Parameter
deriving DecidableEq, Repr

/-- Signatures, and which of them and of its parameters is active. -/
structure SignatureHelp where
  signatures : List Signature
  activeSignature : Nat
  activeParameter : Nat
deriving DecidableEq, Repr

namespace Parameter

/-- A place that is not stated or not found. -/
def unknown : Parameter := ⟨none, none⟩

/-- The first occurrence of a text in a label. -/
def ofText (label part : List Char) : Parameter :=
  match Text.before? part label with
  | some before =>
      let start := Text.units before
      ⟨some start, some (start + Text.units part)⟩
  | none => unknown

/-- Reads a parameter: two offsets, each dropped when it lies beyond the label, or a part of the
label. -/
def ofJson (label : String) (j : Json) : Parameter :=
  let length := Text.units label.toList
  match j.get "label" with
  | .arr [start, stop] =>
      let offset (j : Json) : Option Nat := j.nat64?.filter (· ≤ length)
      ⟨offset start, offset stop⟩
  | .str part => if part = "" then unknown else ofText label.toList part.toList
  | _ => unknown

/-- Writes a parameter. -/
def toJson (p : Parameter) : Json :=
  .mkObj [("start", .ofOption .ofNat p.start), ("end", .ofOption .ofNat p.stop)]

end Parameter

namespace Signature

/-- Reads a signature. -/
def ofJson (j : Json) : Signature :=
  let label := textMember j "label"
  { label := label, documentation := Markup.ofJson? (j.get "documentation")
    parameters := (j.get "parameters").items.map (Parameter.ofJson label) }

/-- Writes a signature. -/
def toJson (s : Signature) : Json := .mkObj
  [("label", .str s.label), ("documentation", .ofOption Markup.toJson s.documentation),
    ("parameters", .arr (s.parameters.map Parameter.toJson))]

end Signature

namespace SignatureHelp

/-- An index into a list of a length: zero when it is no index, the last one when it is too
large. -/
def clamp (j : Json) (length : Nat) : Nat := min (j.nat64?.getD 0) (length - 1)

/-- Reads signature help. -/
def ofJson (j : Json) : SignatureHelp :=
  let signatures := (j.get "signatures").items.map Signature.ofJson
  let active := clamp (j.get "activeSignature") signatures.length
  let count := match signatures[active]? with
    | some s => s.parameters.length
    | none => 0
  ⟨signatures, active, clamp (j.get "activeParameter") count⟩

/-- Writes signature help. -/
def toJson (h : SignatureHelp) : Json := .mkObj
  [("signatures", .arr (h.signatures.map Signature.toJson)),
    ("active_signature", .ofNat h.activeSignature),
    ("active_parameter", .ofNat h.activeParameter)]

end SignatureHelp

end LanguageClient.Document
