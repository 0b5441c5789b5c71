import LanguageClient.Document.Signature
import LanguageClient.Proofs.Text.Utf16
import Mathlib.Data.List.Forall2

/-!
# Signature help is safe to index

What is read as signature help can be indexed without a check: the active signature and the active parameter
are places in their lists, and the offsets of a parameter lie within the code units of its label
(`safe_to_index`). A parameter that is given by its text has the offsets of the text's first occurrence in the
label (`Locates`), counted in code units though the search is for characters.
-/

namespace LanguageClient.Document

open Text

/-- The number is a place in a list of the length, or zero if the list is empty. -/
def IsPlace (place length : Nat) : Prop := place < length ∨ length = 0 ∧ place = 0

theorem isPlace_clamp (j : Json) (length : Nat) : IsPlace (SignatureHelp.clamp j length) length := by
  unfold SignatureHelp.clamp IsPlace
  omega

namespace Parameter

/-- The parameter says where the text stands in the label for the first time: between its offsets are the
code units of the text. It says nothing if the text is no part of the label. -/
structure Locates (label part : List Char) (p : Parameter) : Prop where
  start_iff : p.start.isSome ↔ part <:+: label
  stop_iff : p.stop.isSome ↔ part <:+: label
  slice : ∀ start ∈ p.start, ∀ stop ∈ p.stop,
    ((utf16 label).take stop).drop start = utf16 part
  first : ∀ start ∈ p.start, ∀ offset, StandsAt part label offset → start ≤ offset

/-- What is promised of a parameter that is read for a label: its offsets lie within the label's code units,
and if it is given by a text they are those of the text. -/
structure Fits (label : List Char) (j : Json) (p : Parameter) : Prop where
  start_le : ∀ start ∈ p.start, start ≤ (utf16 label).length
  stop_le : ∀ stop ∈ p.stop, stop ≤ (utf16 label).length
  locates : ∀ part, j.get "label" = .str part → part ≠ "" → Locates label part.toList p

theorem locates_ofText {label part : List Char} (hne : part ≠ []) :
    Locates label part (ofText label part) := by
  unfold ofText
  cases hfound : before? part label with
  | none =>
      have hnone := before?_eq_none_iff.mp hfound
      exact ⟨by simp [unknown, hnone], by simp [unknown, hnone], by simp [unknown], by simp [unknown]⟩
  | some before =>
      obtain ⟨⟨after, hafter⟩, -⟩ := before?_eq_some hfound
      have hpart : part <:+: label := ⟨before, after, hafter.symm⟩
      refine ⟨by simp [hpart], by simp [hpart], ?_, ?_⟩
      · intro start hstart stop hstop
        cases hstart
        cases hstop
        rw [hafter, utf16_append, ← units_append, ← length_utf16 (before ++ part), List.take_left,
          utf16_append, ← length_utf16 before, List.drop_left]
      · intro start hstart
        cases hstart
        exact (before?_first hfound hne).2

theorem ofText_le {label part : List Char} :
    (∀ start ∈ (ofText label part).start, start ≤ (utf16 label).length) ∧
      ∀ stop ∈ (ofText label part).stop, stop ≤ (utf16 label).length := by
  unfold ofText
  cases hfound : before? part label with
  | none => simp [unknown]
  | some before =>
      obtain ⟨⟨after, hafter⟩, -⟩ := before?_eq_some hfound
      have hlength : (utf16 label).length = units before + units part + units after := by
        rw [length_utf16, hafter, units_append, units_append]
      constructor
      · intro start hstart
        cases hstart
        omega
      · intro stop hstop
        cases hstop
        omega

/-- An unknown parameter fits every label, unless it was given by a text. -/
theorem fits_unknown {label : List Char} {j : Json}
    (h : ∀ part, j.get "label" = .str part → part = "") : Fits label j unknown where
  start_le start hstart := absurd hstart (by simp [unknown])
  stop_le stop hstop := absurd hstop (by simp [unknown])
  locates part hpart hne := absurd (h part hpart) hne

theorem fits_ofJson (label : String) (j : Json) : Fits label.toList j (ofJson label j) := by
  unfold ofJson
  dsimp only
  split
  · -- two offsets
    rename_i start stop hlabel
    refine ⟨fun i hi => ?_, fun i hi => ?_, fun part hpart => ?_⟩
    · rw [length_utf16]
      exact of_decide_eq_true (Option.filter_eq_some_iff.mp hi).2
    · rw [length_utf16]
      exact of_decide_eq_true (Option.filter_eq_some_iff.mp hi).2
    · exact absurd (hlabel.symm.trans hpart) (by simp)
  · -- a text
    rename_i part hlabel
    have honly : ∀ other, j.get "label" = .str other → other = part :=
      fun other hother => Json.str.inj (hother.symm.trans hlabel)
    split
    · rename_i hempty
      exact fits_unknown fun other hother => (honly other hother).trans hempty
    · rename_i hne
      refine ⟨ofText_le.1, ofText_le.2, fun other hother _ => ?_⟩
      rw [honly other hother]
      exact locates_ofText fun hnil => hne (String.toList_eq_nil_iff.mp hnil)
  · rename_i hnone
    exact fits_unknown fun part hpart => absurd hpart (hnone part)

end Parameter

/-- What is promised of a signature that is read: its parameters fit its label, one by one. -/
structure Signature.Fits (j : Json) (s : Signature) : Prop where
  label : s.label = textMember j "label"
  parameters : List.Forall₂ (Parameter.Fits s.label.toList) (j.get "parameters").items s.parameters

theorem Signature.fits_ofJson (j : Json) : Signature.Fits j (Signature.ofJson j) where
  label := rfl
  parameters := List.forall₂_map_right_iff.mpr
    (List.forall₂_same.mpr fun p _ => Parameter.fits_ofJson _ p)

/-- The active parameter is clamped to the parameters of the active signature. -/
theorem SignatureHelp.activeParameter_ofJson (j : Json) :
    let help := SignatureHelp.ofJson j
    help.activeParameter = clamp (j.get "activeParameter")
      (help.signatures[help.activeSignature]?.elim 0 (·.parameters.length)) := by
  unfold SignatureHelp.ofJson
  dsimp only
  refine congrArg _ ?_
  split
  · rename_i s hactive
    rw [hactive]
    rfl
  · rename_i hactive
    rw [hactive]
    rfl

/-- **Signature help is safe to index.** The active signature is one of the signatures and the active
parameter one of its parameters, or zero where there is none; and the offsets of every parameter lie within
its label, at the text that it is given by. -/
theorem SignatureHelp.safe_to_index (j : Json) :
    let help := SignatureHelp.ofJson j
    IsPlace help.activeSignature help.signatures.length ∧
      IsPlace help.activeParameter
        (help.signatures[help.activeSignature]?.elim 0 (·.parameters.length)) ∧
      List.Forall₂ Signature.Fits (j.get "signatures").items help.signatures := by
  intro help
  have hparameter := SignatureHelp.activeParameter_ofJson j
  refine ⟨isPlace_clamp _ _, ?_, ?_⟩
  · rw [hparameter]
    exact isPlace_clamp _ _
  · exact List.forall₂_map_right_iff.mpr (List.forall₂_same.mpr fun s _ => Signature.fits_ofJson s)

/-- Characters beyond the basic plane count twice. -/
example : Parameter.ofText "𝒇(𝒙, 𝒚)".toList "𝒚".toList = ⟨some 7, some 9⟩ := by decide

end LanguageClient.Document
