import LanguageClient.Frame.Encoder
import LanguageClient.Proofs.Frame.Search
import LanguageClient.Proofs.Text.Decimal
import LanguageClient.Proofs.Text.Utf8

/-!
# Header blocks read back

The header block of a payload is the token, the field that states the length, and the empty line
(`header_eq`). The field holds no carriage return, and it is read as the length again.
-/

namespace LanguageClient.Frame

/-- The field of a header that states a length. -/
def statedLength (n : Nat) : Bytes := Utf8.encode (" " ++ toString n)

theorem header_eq (n : Nat) : header n = token ++ (statedLength n ++ headerEnd) := by
  have htext : s!"Content-Length: {n}\r\n\r\n" =
      "Content-Length:" ++ ((" " ++ toString n) ++ "\r\n\r\n") := by
    rw [← String.append_assoc, ← String.append_assoc]
    rfl
  unfold header statedLength
  rw [htext, Utf8.encode_append, Utf8.encode_append]
  rfl

theorem toDigits_digit {n : Nat} {c : Char} (h : c ∈ Nat.toDigits 10 n) : c.isDigit :=
  Nat.isDigit_of_mem_toDigits (by decide) (by decide) h

theorem toList_statedLength (n : Nat) :
    (" " ++ toString n).toList = ' ' :: Nat.toDigits 10 n := by
  rw [String.toList_append, Nat.toString_eq_repr, Nat.toList_repr]
  rfl

theorem mem_statedLength {n : Nat} {c : Char} (h : c ∈ (" " ++ toString n).toList) :
    c = ' ' ∨ c.isDigit := by
  rw [toList_statedLength] at h
  rcases List.mem_cons.mp h with rfl | hdigit
  · exact .inl rfl
  · exact .inr (toDigits_digit hdigit)

theorem digit_range {c : Char} (h : c.isDigit) : 48 ≤ c.toNat ∧ c.toNat ≤ 57 := by
  unfold Char.isDigit at h
  rw [Bool.and_eq_true, decide_eq_true_eq, decide_eq_true_eq] at h
  exact h

theorem statedLength_lt {n : Nat} : ∀ c ∈ (" " ++ toString n).toList, c.toNat < 128 := by
  intro c hc
  rcases mem_statedLength hc with rfl | hdigit
  · decide
  · have := digit_range hdigit
    omega

theorem not_mem_statedLength (n : Nat) : (13 : UInt8) ∉ statedLength n := by
  intro h
  obtain ⟨c, hc, hbyte⟩ := Utf8.mem_encode_of_lt statedLength_lt h
  have hlt := statedLength_lt c hc
  have hnat : c.toNat = 13 := by
    have hsame := congrArg UInt8.toNat hbyte
    rw [UInt8.toNat_ofNat_of_lt' (Nat.lt_trans hlt (by decide))] at hsame
    exact hsame.symm
  rcases mem_statedLength hc with rfl | hdigit
  · exact absurd hnat (by decide)
  · have := digit_range hdigit
    omega

theorem isBlank_digit {c : Char} (h : c.isDigit) : Text.isBlank c = false := by
  have := digit_range h
  simp [Text.isBlank]
  omega

theorem dropWhile_digits {cs : List Char} (h : ∀ c ∈ cs, c.isDigit) :
    cs.dropWhile Text.isBlank = cs := by
  cases cs with
  | nil => rfl
  | cons c rest =>
      rw [List.dropWhile_cons_of_neg]
      rw [isBlank_digit (h c List.mem_cons_self)]
      exact Bool.false_ne_true

/-- The field states the length, if it fits 64 bits. -/
theorem length?_statedLength {n : Nat} (h : n < 0x10000000000000000) :
    length? (statedLength n) = some n := by
  have htrim : Text.trim (' ' :: Nat.toDigits 10 n) = Nat.toDigits 10 n := by
    unfold Text.trim Text.trimEnd
    rw [List.dropWhile_cons_of_pos (by decide), dropWhile_digits fun c hc => toDigits_digit hc,
      dropWhile_digits fun c hc => toDigits_digit (List.mem_reverse.mp hc), List.reverse_reverse]
  unfold length? statedLength
  rw [Utf8.decode?_encode, Option.bind_some, toList_statedLength, htrim,
    Text.readNat?_toDigits h]

end LanguageClient.Frame
