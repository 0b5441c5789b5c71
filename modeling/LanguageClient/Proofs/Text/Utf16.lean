import LanguageClient.Text.Units

/-!
# Texts in UTF-16

A text is a list of code units, one for a character of the basic plane and two surrogates for any other
(`utf16`). No low surrogate begins a character, so a text can stand in another only where a character
begins (`StandsAt.split`), and the first occurrence that a search for characters finds is the first one
among the code units too (`before?_first`).
-/

namespace LanguageClient.Text

/-- The code units of a character: its number, or a high and a low surrogate. -/
def charCodes (c : Char) : List Nat :=
  if c.toNat < 0x10000 then [c.toNat]
  else [0xD800 + (c.toNat - 0x10000) / 0x400, 0xDC00 + (c.toNat - 0x10000) % 0x400]

/-- The code units of a text. -/
def utf16 (cs : List Char) : List Nat := cs.flatMap charCodes

@[simp] theorem utf16_nil : utf16 [] = [] := rfl

@[simp] theorem utf16_cons (c : Char) (cs : List Char) :
    utf16 (c :: cs) = charCodes c ++ utf16 cs := List.flatMap_cons

@[simp] theorem utf16_append (first second : List Char) :
    utf16 (first ++ second) = utf16 first ++ utf16 second := List.flatMap_append

theorem length_charCodes (c : Char) : (charCodes c).length = charUnits c := by
  unfold charCodes charUnits
  split <;> rfl

theorem length_utf16 (cs : List Char) : (utf16 cs).length = units cs := by
  induction cs with
  | nil => rfl
  | cons c rest ih => rw [utf16_cons, List.length_append, length_charCodes, ih, units]

theorem units_append (first second : List Char) :
    units (first ++ second) = units first + units second := by
  rw [← length_utf16, utf16_append, List.length_append, length_utf16, length_utf16]

/-! ## Where characters begin -/

/-- A code unit that continues a character. -/
def IsLow (u : Nat) : Prop := 0xDC00 ≤ u ∧ u < 0xE000

theorem char_range (c : Char) :
    c.toNat < 0xD800 ∨ 0xE000 ≤ c.toNat ∧ c.toNat < 0x110000 := by
  have hvalid := c.valid
  rcases hvalid with h | ⟨hlow, hhigh⟩
  · exact .inl h
  · exact .inr ⟨hlow, hhigh⟩

/-- The first code unit of a character is no low surrogate, and a second one is. -/
theorem charCodes_cases (c : Char) :
    (∃ u, charCodes c = [u] ∧ ¬ IsLow u) ∨ ∃ u v, charCodes c = [u, v] ∧ ¬ IsLow u ∧ IsLow v := by
  have hrange := char_range c
  unfold charCodes IsLow
  split
  · exact .inl ⟨c.toNat, rfl, by omega⟩
  · exact .inr ⟨_, _, rfl, by omega, by omega⟩

theorem utf16_eq_cons {cs : List Char} (hne : cs ≠ []) :
    ∃ u us, utf16 cs = u :: us ∧ ¬ IsLow u := by
  cases cs with
  | nil => exact absurd rfl hne
  | cons c rest =>
      rw [utf16_cons]
      rcases charCodes_cases c with ⟨u, hcodes, hu⟩ | ⟨u, v, hcodes, hu, -⟩
      · rw [hcodes]
        exact ⟨u, _, rfl, hu⟩
      · rw [hcodes]
        exact ⟨u, _, rfl, hu⟩

/-- The code units of one character do not begin those of another. -/
theorem charCodes_append_inj {c d : Char} {us vs : List Nat}
    (h : charCodes c ++ us = charCodes d ++ vs) : c = d ∧ us = vs := by
  have hc := char_range c
  have hd := char_range d
  have hnat : c.toNat = d.toNat ∧ us = vs := by
    unfold charCodes at h
    split at h <;> split at h
    · simpa using h
    · simp only [List.cons_append, List.nil_append, List.cons.injEq] at h
      omega
    · simp only [List.cons_append, List.nil_append, List.cons.injEq] at h
      omega
    · simp only [List.cons_append, List.nil_append, List.cons.injEq] at h
      exact ⟨by omega, h.2.2⟩
  exact ⟨Char.toNat_inj.mp hnat.1, hnat.2⟩

theorem prefix_of_utf16_prefix {part label : List Char} (h : utf16 part <+: utf16 label) :
    part <+: label := by
  induction part generalizing label with
  | nil => exact List.nil_prefix
  | cons c rest ih =>
      obtain ⟨us, hus⟩ := h
      cases label with
      | nil =>
          obtain ⟨u, vs, hcodes, -⟩ := utf16_eq_cons (List.cons_ne_nil c rest)
          rw [hcodes] at hus
          exact absurd hus (by simp)
      | cons d label =>
          rw [utf16_cons, utf16_cons, List.append_assoc] at hus
          obtain ⟨rfl, hrest⟩ := charCodes_append_inj hus
          exact List.cons_prefix_cons.mpr ⟨rfl, ih ⟨us, hrest⟩⟩

/-! ## Occurrences -/

/-- The code units of a text stand among those of a label from an offset on. -/
def StandsAt (part label : List Char) (offset : Nat) : Prop :=
  utf16 part <+: (utf16 label).drop offset

theorem standsAt_units (before part after : List Char) :
    StandsAt part (before ++ part ++ after) (units before) := by
  unfold StandsAt
  rw [List.append_assoc, utf16_append, utf16_append, ← length_utf16, List.drop_left]
  exact List.prefix_append _ _

/-- A text that is not empty stands only where a character begins, and there it is a part of the label. -/
theorem StandsAt.split {part label : List Char} {offset : Nat} (h : StandsAt part label offset)
    (hne : part ≠ []) : ∃ before after, label = before ++ part ++ after ∧ offset = units before := by
  obtain ⟨u, us, hpart, hu⟩ := utf16_eq_cons hne
  unfold StandsAt at h
  induction label generalizing offset with
  | nil =>
      rw [utf16_nil, List.drop_nil, hpart] at h
      exact absurd h (by simp)
  | cons c rest ih =>
      rw [utf16_cons] at h
      by_cases hzero : offset = 0
      · subst hzero
        have hprefix : utf16 part <+: utf16 (c :: rest) := by
          rw [utf16_cons]
          exact h
        obtain ⟨after, hafter⟩ := prefix_of_utf16_prefix hprefix
        exact ⟨[], after, hafter.symm, rfl⟩
      by_cases hwithin : offset < charUnits c
      · -- behind a high surrogate, where a low one stands
        rcases charCodes_cases c with ⟨v, hcodes, -⟩ | ⟨v, w, hcodes, -, hw⟩
        · have hlength := length_charCodes c
          rw [hcodes, List.length_singleton] at hlength
          omega
        · have hlength := length_charCodes c
          rw [hcodes] at hlength
          obtain rfl : offset = 1 := by
            simp at hlength
            omega
          rw [hcodes, hpart] at h
          obtain ⟨rfl, -⟩ := List.cons_prefix_cons.mp h
          exact absurd hw hu
      · have hrest : utf16 part <+: (utf16 rest).drop (offset - charUnits c) := by
          rwa [List.drop_append, length_charCodes, List.drop_eq_nil_of_le
            (by rw [length_charCodes]; omega), List.nil_append] at h
        obtain ⟨before, after, hsplit, hoffset⟩ := ih hrest
        exact ⟨c :: before, after, by rw [hsplit]; rfl, by rw [units]; omega⟩

/-! ## Searching -/

theorem before?_eq_some {part label before : List Char} (h : before? part label = some before) :
    (∃ after, label = before ++ part ++ after) ∧
      ∀ first after, label = first ++ part ++ after → before <+: first := by
  induction label generalizing before with
  | nil =>
      unfold before? at h
      split at h
      · rename_i hempty
        rw [List.isEmpty_iff] at hempty
        cases h
        exact ⟨⟨[], by rw [hempty]; rfl⟩, fun first _ _ => List.nil_prefix⟩
      · exact absurd h (by simp)
  | cons c rest ih =>
      unfold before? at h
      split at h
      · rename_i hhere
        obtain ⟨after, hafter⟩ := List.isPrefixOf_iff_prefix.mp hhere
        cases h
        exact ⟨⟨after, hafter.symm⟩, fun first _ _ => List.nil_prefix⟩
      · rename_i hhere
        obtain ⟨inner, hinner, rfl⟩ := Option.map_eq_some_iff.mp h
        obtain ⟨⟨after, hafter⟩, hfirst⟩ := ih hinner
        refine ⟨⟨after, by rw [hafter]; rfl⟩, fun first after' hsplit => ?_⟩
        cases first with
        | nil => exact absurd (List.isPrefixOf_iff_prefix.mpr ⟨after', hsplit.symm⟩) hhere
        | cons d first =>
            obtain ⟨rfl, hrest⟩ := List.cons.inj hsplit
            exact List.cons_prefix_cons.mpr ⟨rfl, hfirst first after' hrest⟩

theorem before?_eq_none_iff {part label : List Char} :
    before? part label = none ↔ ¬ part <:+: label := by
  induction label with
  | nil => simp [before?]
  | cons c rest ih =>
      unfold before?
      rw [List.infix_cons_iff, not_or]
      split
      · rename_i hhere
        exact iff_of_false (by simp) fun h => h.1 (List.isPrefixOf_iff_prefix.mp hhere)
      · rename_i hhere
        rw [Option.map_eq_none_iff, ih]
        exact ⟨fun h => ⟨fun hp => hhere (List.isPrefixOf_iff_prefix.mpr hp), h⟩, And.right⟩

/-- The offset at which a search finds a text is the first at which its code units stand. -/
theorem before?_first {part label before : List Char} (h : before? part label = some before)
    (hne : part ≠ []) : StandsAt part label (units before) ∧
      ∀ offset, StandsAt part label offset → units before ≤ offset := by
  obtain ⟨⟨after, hafter⟩, hfirst⟩ := before?_eq_some h
  refine ⟨hafter ▸ standsAt_units before part after, fun offset hstands => ?_⟩
  obtain ⟨first, after', hsplit, rfl⟩ := hstands.split hne
  obtain ⟨between, rfl⟩ := hfirst first after' hsplit
  rw [units_append]
  exact Nat.le_add_right _ _

end LanguageClient.Text
