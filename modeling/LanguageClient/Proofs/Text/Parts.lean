import Mathlib.Data.List.Basic

/-!
# Characters and parts of texts

What holds of each ASCII character is decided once for all 128 of them. The parts of a text between its
marks hold no mark, and parts that hold none are found again behind their marks.
-/

namespace LanguageClient.Text

/-! ## Characters -/

theorem of_ascii {P : Char → Prop} (hall : ∀ n < 128, P (Char.ofNat n)) {c : Char} (hc : c.toNat < 128) :
    P c := Char.ofNat_toNat c ▸ hall c.toNat hc

theorem isDigit_ascii {c : Char} (h : c.isDigit = true) : c.toNat < 128 :=
  Nat.lt_of_le_of_lt (Char.isDigit_iff_toNat.mp h).2 (by decide)

theorem isAlpha_ascii {c : Char} (h : c.isAlpha = true) : c.toNat < 128 := by
  have hbound : ∀ {n : UInt32}, n.toNat < 128 → c.val ≤ n → c.toNat < 128 := fun hn hle =>
    Nat.lt_of_le_of_lt (UInt32.le_iff_toNat_le.mp hle) hn
  rcases Bool.or_eq_true_iff.mp (show (c.isUpper || c.isLower) = true from h) with hupper | hlower
  · have hrange : c.val ≥ 'A'.val ∧ c.val ≤ 'Z'.val := of_decide_eq_true hupper
    exact hbound (by decide) hrange.2
  · have hlast : decide (c.val ≤ 'z'.val) = true := (Bool.and_eq_true_iff.mp hlower).2
    exact hbound (by decide) (of_decide_eq_true hlast)

variable {α : Type} {p : α → Bool}

theorem forall_mem_of_all {P : α → Prop} [DecidablePred P] {xs : List α} (h : xs.all (P ·) = true) :
    ∀ x ∈ xs, P x := fun x hx => of_decide_eq_true (List.all_eq_true.mp h x hx)

/-! ## Cutting at marks -/

theorem mem_part {xs part : List α} (h : part ∈ xs.splitOnP p) : ∀ x ∈ part, x ∈ xs ∧ p x = false := by
  induction xs generalizing part with
  | nil =>
      rw [List.mem_singleton.mp h]
      exact fun x hx => absurd hx List.not_mem_nil
  | cons y rest ih =>
      have hlater : ∀ {part : List α}, part ∈ rest.splitOnP p → ∀ x ∈ part, x ∈ y :: rest ∧ p x = false :=
        fun hpart x hx => ⟨List.mem_cons_of_mem _ (ih hpart x hx).1, (ih hpart x hx).2⟩
      rw [List.splitOnP_cons_eq_if_modifyHead] at h
      split at h
      · rcases List.mem_cons.mp h with rfl | h
        · exact fun x hx => absurd hx List.not_mem_nil
        · exact hlater h
      next hy =>
        cases hparts : rest.splitOnP p with
        | nil => exact absurd hparts (List.splitOnP_ne_nil p rest)
        | cons first parts =>
            rw [hparts] at h hlater
            rcases List.mem_cons.mp h with rfl | h
            · intro x hx
              rcases List.mem_cons.mp hx with rfl | hx
              · exact ⟨List.mem_cons_self, Bool.eq_false_iff.mpr hy⟩
              · exact hlater List.mem_cons_self x hx
            · exact hlater (List.mem_cons_of_mem _ h)

theorem splitOnP_parts {mark : α} (hmark : p mark = true) {first : List α} (hfirst : ∀ x ∈ first, p x = false)
    {parts : List (List α)} (hparts : ∀ part ∈ parts, ∀ x ∈ part, p x = false) :
    (first ++ parts.flatMap (mark :: ·)).splitOnP p = first :: parts := by
  induction parts generalizing first with
  | nil =>
      rw [List.flatMap_nil, List.append_nil]
      exact List.splitOnP_eq_singleton hfirst
  | cons part parts ih =>
      obtain ⟨hpart, hparts⟩ := List.forall_mem_cons.mp hparts
      rw [List.flatMap_cons, List.cons_append, List.splitOnP_append_cons_of_forall_mem hfirst mark hmark,
        ih hpart hparts]

theorem cut_append {front back : List α} (hfront : ∀ x ∈ front, p x = true)
    (hback : ∀ x ∈ back.head?, p x = false) :
    (front ++ back).takeWhile p = front ∧ (front ++ back).dropWhile p = back := by
  rw [List.takeWhile_append_of_pos hfront, List.dropWhile_append_of_pos hfront]
  cases back with
  | nil => exact ⟨List.append_nil front, rfl⟩
  | cons x rest =>
      have hx := Bool.eq_false_iff.mp (hback x rfl)
      rw [List.takeWhile_cons_of_neg hx, List.dropWhile_cons_of_neg hx]
      exact ⟨List.append_nil front, rfl⟩

end LanguageClient.Text
