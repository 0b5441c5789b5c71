import LanguageClient.Text.Digits

/-!
# Decimal numbers read back

`readNat?` reads what `Nat.toDigits` writes: a number below the bound comes back from its own
digits, and nothing at or above the bound is ever read.
-/

namespace LanguageClient.Text

theorem digitsValue?_eq {cs : List Char} (digits : ∀ c ∈ cs, c.isDigit) :
    digitsValue? cs = some (Nat.ofDigitChars 10 cs 0) := by
  -- the accumulator has to vary, so the fold is generalised over its start
  have shifted : ∀ (cs : List Char) (n : Nat), (∀ c ∈ cs, c.isDigit) →
      cs.foldlM (fun n c => if c.isDigit then some (n * 10 + (c.toNat - 48)) else none) n
        = some (Nat.ofDigitChars 10 cs n) := by
    intro cs
    induction cs with
    | nil => intro n _; simp
    | cons c rest ih =>
        intro n h
        have hc : c.isDigit := h c List.mem_cons_self
        have hrest := ih (10 * n + (c.toNat - '0'.toNat))
          (fun d hd => h d (List.mem_cons_of_mem _ hd))
        rw [Nat.ofDigitChars_cons, ← hrest, List.foldlM_cons, if_pos hc, Nat.mul_comm n 10]
        rfl
  exact shifted cs 0 digits

theorem digitsValue?_toDigits (n : Nat) : digitsValue? (Nat.toDigits 10 n) = some n := by
  rw [digitsValue?_eq fun c hc => Nat.isDigit_of_mem_toDigits (by decide) (by decide) hc]
  simp

theorem readNat?_toDigits {bound n : Nat} (h : n < bound) :
    readNat? bound (Nat.toDigits 10 n) = some n := by
  unfold readNat?
  dsimp only
  split
  · rename_i rest heq
    -- a plus sign is no digit
    have hplus : ('+' : Char).isDigit :=
      Nat.isDigit_of_mem_toDigits (b := 10) (n := n) (by decide) (by decide)
        (heq ▸ List.mem_cons_self)
    exact absurd hplus (by decide)
  · simp [digitsValue?_toDigits, h]

theorem readNat?_lt {bound n : Nat} {cs : List Char} (h : readNat? bound cs = some n) :
    n < bound := by
  unfold readNat? at h
  dsimp only at h
  split at h
  all_goals
    split at h
    · exact absurd h (by simp)
    · rw [Option.filter_eq_some_iff] at h
      exact of_decide_eq_true h.2

end LanguageClient.Text
