import LanguageClient.Text.Utf8
import Mathlib.Tactic.IntervalCases

/-!
# Texts read back

The bytes of a character are scanned as that character (`scanFrom_encodeChar`): its first byte begins a
sequence that the others continue, and the ranges in which they must lie leave out no number of a
character. So `decode?` reads what `encode` writes. A character below U+0080 is one byte. No two texts are
written alike.
-/

namespace LanguageClient.Utf8

theorem encode_append (s t : String) : encode (s ++ t) = encode s ++ encode t := by
  unfold encode
  rw [String.toList_append, List.flatMap_append]

theorem encodeChar_of_lt {c : Char} (h : c.toNat < 128) :
    String.utf8EncodeChar c = [UInt8.ofNat c.toNat] := by
  unfold String.utf8EncodeChar
  exact if_pos (Nat.le_of_lt_succ h)

theorem lead_of_lt {c : Char} (h : c.toNat < 128) : lead (UInt8.ofNat c.toNat) = .char c := by
  have hbyte : (UInt8.ofNat c.toNat).toNat = c.toNat :=
    UInt8.toNat_ofNat_of_lt' (Nat.lt_trans h (by decide))
  have hlow : UInt8.ofNat c.toNat < 0x80 := by
    rw [UInt8.lt_iff_toNat_lt, hbyte]
    exact h
  unfold lead
  rw [if_pos hlow, hbyte, Char.ofNat_toNat]

/-! ## Sequences -/

theorem toNat_byte {n : Nat} (hn : n < 256) : (UInt8.ofNat n).toNat = n := UInt8.toNat_ofNat_of_lt' hn

/-- May the byte with these six bits continue a sequence? -/
def Continues (low high : UInt8) (n : Nat) : Prop := n < 64 ∧ low.toNat ≤ n + 0x80 ∧ n + 0x80 ≤ high.toNat

theorem continues_mod (n : Nat) : Continues 0x80 0xBF (n % 64) :=
  ⟨Nat.mod_lt n (by decide), Nat.le_add_left _ _, show n % 64 + 0x80 ≤ 0xBF by omega⟩

variable {bits missing n : Nat} {low high : UInt8}

theorem Continues.range (h : Continues low high n) :
    low ≤ UInt8.ofNat (n + 0x80) ∧ UInt8.ofNat (n + 0x80) ≤ high := by
  obtain ⟨hn, hlow, hhigh⟩ := h
  rw [UInt8.le_iff_toNat_le, UInt8.le_iff_toNat_le, toNat_byte (by omega)]
  exact ⟨hlow, hhigh⟩

theorem Continues.sixBits (h : Continues low high n) : (UInt8.ofNat (n + 0x80)).toNat % 64 = n := by
  have hn := h.1
  rw [toNat_byte (by omega)]
  omega

theorem scanFrom_last (h : Continues low high n) (rest : Bytes) (acc : List (Option Char)) :
    scanFrom (UInt8.ofNat (n + 0x80) :: rest) (some ⟨bits, 1, low, high⟩) acc =
      scanFrom rest none (some (Char.ofNat (bits * 64 + n)) :: acc) := by
  rw [scanFrom, if_pos h.range]
  dsimp only
  rw [h.sixBits]
  rfl

theorem scanFrom_more (h : Continues low high n) (rest : Bytes) (acc : List (Option Char)) :
    scanFrom (UInt8.ofNat (n + 0x80) :: rest) (some ⟨bits, missing + 2, low, high⟩) acc =
      scanFrom rest (some ⟨bits * 64 + n, missing + 1, 0x80, 0xBF⟩) acc := by
  rw [scanFrom, if_pos h.range]
  dsimp only
  rw [h.sixBits, if_neg (by omega)]
  rfl

theorem lead_two {n : Nat} (hlow : 2 ≤ n) (hhigh : n < 32) :
    lead (UInt8.ofNat (n + 0xC0)) = .sequence ⟨n, 1, 0x80, 0xBF⟩ := by
  interval_cases n <;> rfl

/-- The first byte of three bounds the second one, so that the number is neither small nor a surrogate. -/
theorem lead_three {n m : Nat} (hn : n < 16) (hsmall : n = 0 → 32 ≤ m % 64)
    (hsurrogate : n = 13 → m % 64 < 32) : ∃ low high,
    lead (UInt8.ofNat (n + 0xE0)) = .sequence ⟨n, 2, low, high⟩ ∧ Continues low high (m % 64) := by
  obtain ⟨hm, hlow, hhigh⟩ := continues_mod m
  by_cases hzero : n = 0
  · subst hzero
    exact ⟨0xA0, 0xBF, rfl, hm, show 0xA0 ≤ m % 64 + 0x80 by have := hsmall rfl; omega, hhigh⟩
  · by_cases hthirteen : n = 13
    · subst hthirteen
      exact ⟨0x80, 0x9F, rfl, hm, hlow, show m % 64 + 0x80 ≤ 0x9F by have := hsurrogate rfl; omega⟩
    · refine ⟨0x80, 0xBF, ?_, hm, hlow, hhigh⟩
      interval_cases n <;> first | rfl | contradiction

theorem lead_four {n m : Nat} (hn : n < 5) (hsmall : n = 0 → 16 ≤ m % 64)
    (hlarge : n = 4 → m % 64 < 16) : ∃ low high,
    lead (UInt8.ofNat (n + 0xF0)) = .sequence ⟨n, 3, low, high⟩ ∧ Continues low high (m % 64) := by
  obtain ⟨hm, hlow, hhigh⟩ := continues_mod m
  by_cases hzero : n = 0
  · subst hzero
    exact ⟨0x90, 0xBF, rfl, hm, show 0x90 ≤ m % 64 + 0x80 by have := hsmall rfl; omega, hhigh⟩
  · by_cases hfour : n = 4
    · subst hfour
      exact ⟨0x80, 0x8F, rfl, hm, hlow, show m % 64 + 0x80 ≤ 0x8F by have := hlarge rfl; omega⟩
    · refine ⟨0x80, 0xBF, ?_, hm, hlow, hhigh⟩
      interval_cases n <;> first | rfl | contradiction

theorem scanFrom_encodeChar (c : Char) (rest : Bytes) (acc : List (Option Char)) :
    scanFrom (String.utf8EncodeChar c ++ rest) none acc = scanFrom rest none (some c :: acc) := by
  have hofNat : Char.ofNat c.val.toNat = c := Char.ofNat_toNat c
  have hvalid : c.val.toNat < 0xD800 ∨ 0xDFFF < c.val.toNat ∧ c.val.toNat < 0x110000 := c.valid
  generalize hv : c.val.toNat = v at hofNat hvalid
  have hbegin : ∀ {b : UInt8} {p : Partial} {bytes : Bytes}, lead b = .sequence p →
      scanFrom (b :: bytes) none acc = scanFrom bytes (some p) acc := by
    intro b p bytes hlead
    rw [scanFrom, begin, hlead]
  rw [String.utf8EncodeChar]
  rw [hv]
  split
  next h =>
    have hlead : lead (UInt8.ofNat v) = .char c := by
      rw [← hv]
      exact lead_of_lt (show c.val.toNat < 128 by omega)
    rw [List.singleton_append, scanFrom, begin, hlead]
  next h₁ =>
    split
    next h₂ =>
      have hbits : v / 64 % 32 * 64 + v % 64 = v := by omega
      have hlow : 2 ≤ v / 64 % 32 := by omega
      rw [List.cons_append, hbegin (lead_two hlow (Nat.mod_lt _ (by decide))), List.singleton_append,
        scanFrom_last (continues_mod v), hbits, hofNat]
    next h₂ =>
      split
      next h₃ =>
        have hbits : (v / 4096 % 16 * 64 + v / 64 % 64) * 64 + v % 64 = v := by omega
        obtain ⟨low, high, hlead, hnext⟩ := lead_three (n := v / 4096 % 16) (m := v / 64)
          (Nat.mod_lt _ (by decide)) (by omega) (by omega)
        rw [List.cons_append, hbegin hlead, List.cons_append, scanFrom_more hnext, List.singleton_append,
          scanFrom_last (continues_mod v), hbits, hofNat]
      next h₃ =>
        have hbits : ((v / 262144 % 8 * 64 + v / 4096 % 64) * 64 + v / 64 % 64) * 64 + v % 64 = v := by omega
        obtain ⟨low, high, hlead, hnext⟩ := lead_four (n := v / 262144 % 8) (m := v / 4096)
          (by omega) (by omega) (by omega)
        rw [List.cons_append, hbegin hlead, List.cons_append, scanFrom_more hnext, List.cons_append,
          scanFrom_more (continues_mod (v / 64)), List.singleton_append, scanFrom_last (continues_mod v),
          hbits, hofNat]

/-! ## Texts -/

theorem scanFrom_encodeChars (cs : List Char) (acc : List (Option Char)) :
    scanFrom (cs.flatMap String.utf8EncodeChar) none acc = (cs.map some).reverse ++ acc := by
  induction cs generalizing acc with
  | nil => rfl
  | cons c rest ih =>
      rw [List.flatMap_cons, scanFrom_encodeChar, ih, List.map_cons, List.reverse_cons, List.append_assoc,
        List.singleton_append]

/-- A text is read back. -/
theorem decode?_encode (s : String) : decode? (encode s) = some s := by
  have hscan : scan (encode s) = s.toList.map some := by
    rw [scan, encode, scanFrom_encodeChars, List.append_nil, List.reverse_reverse]
  rw [decode?, hscan]
  simp

theorem encode_of_lt {s : String} (h : ∀ c ∈ s.toList, c.toNat < 128) :
    encode s = s.toList.map fun c => UInt8.ofNat c.toNat := by
  unfold encode
  generalize s.toList = cs at h ⊢
  induction cs with
  | nil => rfl
  | cons c rest ih =>
      obtain ⟨hc, hrest⟩ := List.forall_mem_cons.mp h
      rw [List.flatMap_cons, encodeChar_of_lt hc, ih hrest]
      rfl

theorem mem_encode_of_lt {s : String} (h : ∀ c ∈ s.toList, c.toNat < 128) {b : UInt8}
    (hb : b ∈ encode s) : ∃ c ∈ s.toList, b = UInt8.ofNat c.toNat := by
  rw [encode_of_lt h] at hb
  obtain ⟨c, hc, hmem⟩ := List.mem_map.mp hb
  exact ⟨c, hc, hmem.symm⟩

theorem encode_injective {s t : String} (h : encode s = encode t) : s = t := by
  have hbytes : s.toList.utf8Encode = t.toList.utf8Encode := congrArg List.toByteArray h
  rwa [String.utf8Encode_toList, String.utf8Encode_toList, String.toByteArray_inj] at hbytes

end LanguageClient.Utf8
