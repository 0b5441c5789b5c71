import LanguageClient.Proofs.Text.Parts
import LanguageClient.Proofs.Text.Utf8
import LanguageClient.Uri.Percent

/-!
# Encoded texts

Encoding leaves ASCII characters outside its set (`encoded_percentEncode`), and leaves alone a text that has
no others (`Encoded.percentEncode_eq`), so encoding twice is encoding once. What is encoded stands for the
same bytes as before if percent signs are encoded too (`percentDecode_percentEncode`).
-/

namespace LanguageClient.Uri

/-- The text is as encoding leaves it: ASCII characters outside the set. -/
def Encoded (set : Char → Bool) (cs : List Char) : Prop := ∀ c ∈ cs, c.toNat < 0x80 ∧ set c = false

/-- The set has none of the characters that escapes are made of. -/
def KeepsEscapes (set : Char → Bool) : Prop := ∀ c ∈ "%0123456789ABCDEF".toList, set c = false

instance (set : Char → Bool) : Decidable (KeepsEscapes set) := List.decidableBAll (set · = false) _

variable {set : Char → Bool} {cs : List Char}

/-! ## Encoding twice -/

theorem Encoded.mono {smaller : Char → Bool} (hset : ∀ c, smaller c = true → set c = true)
    (h : Encoded set cs) : Encoded smaller cs := by
  intro c hc
  refine ⟨(h c hc).1, Bool.eq_false_iff.mpr fun hsmaller => ?_⟩
  exact absurd (hset c hsmaller) (Bool.eq_false_iff.mp (h c hc).2)

/-- What holds of all ASCII characters outside the set holds of each character. -/
theorem Encoded.forall_mem {P : Char → Prop} (h : Encoded set cs)
    (hall : ∀ n < 128, set (Char.ofNat n) = false → P (Char.ofNat n)) : ∀ c ∈ cs, P c := by
  intro c hc
  exact Text.of_ascii (P := fun c => set c = false → P c) hall (h c hc).1 (h c hc).2

theorem Encoded.not_mem (h : Encoded set cs) {c : Char} (hc : set c = true) : c ∉ cs := by
  intro hmem
  exact absurd hc (Bool.eq_false_iff.mp (h c hmem).2)

theorem encodeChar_of_plain {c : Char} (hc : c.toNat < 0x80 ∧ set c = false) : encodeChar set c = [c] := by
  obtain ⟨hascii, hset⟩ := hc
  rw [encodeChar, hset, Bool.or_false, if_neg (by simpa using hascii)]

theorem Encoded.percentEncode_eq (h : Encoded set cs) : percentEncode set cs = cs := by
  induction cs with
  | nil => rfl
  | cons c rest ih =>
      obtain ⟨hc, hrest⟩ := List.forall_mem_cons.mp h
      show encodeChar set c ++ percentEncode set rest = c :: rest
      rw [encodeChar_of_plain hc, ih hrest]
      rfl

theorem upperHexDigit_mem {n : Nat} (hn : n < 16) : Text.upperHexDigit n ∈ "0123456789ABCDEF".toList := by
  have hall : ∀ n < 16, Text.upperHexDigit n ∈ "0123456789ABCDEF".toList := by decide
  exact hall n hn

theorem encoded_encodeByte (hset : KeepsEscapes set) (b : UInt8) : Encoded set (encodeByte b) := by
  have hplain : ∀ c ∈ "%0123456789ABCDEF".toList, c.toNat < 0x80 ∧ set c = false := by
    intro c hc
    have hascii : ∀ c ∈ "%0123456789ABCDEF".toList, c.toNat < 0x80 :=
      Text.forall_mem_of_all (by decide)
    exact ⟨hascii c hc, hset c hc⟩
  have hb : b.toNat < 256 := b.toNat_lt
  have hdigit : ∀ n < 16, Text.upperHexDigit n ∈ "%0123456789ABCDEF".toList := fun n hn =>
    List.mem_cons_of_mem _ (upperHexDigit_mem hn)
  intro c hc
  rcases List.mem_cons.mp hc with rfl | hc
  · exact hplain _ List.mem_cons_self
  · rcases List.mem_cons.mp hc with rfl | hc
    · exact hplain _ (hdigit _ (Nat.div_lt_of_lt_mul hb))
    · rw [List.mem_singleton.mp hc]
      exact hplain _ (hdigit _ (Nat.mod_lt _ (by decide)))

theorem encoded_of_subset {kept : Char → Bool} (hkept : KeepsEscapes kept)
    (hset : ∀ c, kept c = true → set c = true) (cs : List Char) : Encoded kept (percentEncode set cs) := by
  intro c hc
  obtain ⟨d, -, hd⟩ := List.mem_flatMap.mp hc
  rw [encodeChar] at hd
  split at hd
  · obtain ⟨b, -, hb⟩ := List.mem_flatMap.mp hd
    exact encoded_encodeByte hkept b c hb
  next hplain =>
    rw [List.mem_singleton.mp hd]
    have hd : d.toNat < 0x80 ∧ set d = false := by simpa using hplain
    refine ⟨hd.1, Bool.eq_false_iff.mpr fun hmem => ?_⟩
    exact absurd (hset d hmem) (Bool.eq_false_iff.mp hd.2)

theorem encoded_percentEncode (hset : KeepsEscapes set) (cs : List Char) :
    Encoded set (percentEncode set cs) := encoded_of_subset hset (fun _ hc => hc) cs

theorem forall_mem_percentEncode {p : Char → Bool} (hp : KeepsEscapes p) (h : ∀ c ∈ cs, p c = false) :
    ∀ c ∈ percentEncode set cs, p c = false := by
  intro c hc
  obtain ⟨d, hd, hmem⟩ := List.mem_flatMap.mp hc
  rw [encodeChar] at hmem
  split at hmem
  · obtain ⟨b, -, hb⟩ := List.mem_flatMap.mp hmem
    exact (encoded_encodeByte hp b c hb).2
  · rw [List.mem_singleton.mp hmem]
    exact h d hd

theorem head?_percentEncode {c : Char} (hc : c ≠ '%') (h : (percentEncode set cs).head? = some c) :
    cs.head? = some c := by
  cases cs with
  | nil => exact absurd h nofun
  | cons d rest =>
      have hencode : percentEncode set (d :: rest) = encodeChar set d ++ percentEncode set rest := rfl
      rw [hencode, encodeChar] at h
      split at h
      · cases hutf : String.utf8EncodeChar d with
        | nil => exact absurd hutf String.utf8EncodeChar_ne_nil
        | cons b bytes =>
            rw [hutf] at h
            exact absurd (Option.some.inj h).symm hc
      · exact h

theorem percentEncode_eq_nil : percentEncode set cs = [] ↔ cs = [] := by
  constructor
  · intro h
    cases cs with
    | nil => rfl
    | cons c rest =>
        have hnone : encodeChar set c = [] := List.flatMap_eq_nil_iff.mp h c List.mem_cons_self
        rw [encodeChar] at hnone
        split at hnone
        · have hbytes := List.flatMap_eq_nil_iff.mp hnone
          cases hutf : String.utf8EncodeChar c with
          | nil => exact absurd hutf String.utf8EncodeChar_ne_nil
          | cons b bytes => exact absurd (hbytes b (hutf ▸ List.mem_cons_self)) nofun
        · exact absurd hnone nofun
  · rintro rfl
    rfl

/-! ## Decoding -/

theorem hexValue?_upperHexDigit {n : Nat} (hn : n < 16) : Text.hexValue? (Text.upperHexDigit n) = some n := by
  have hall : ∀ n < 16, Text.hexValue? (Text.upperHexDigit n) = some n := by decide
  exact hall n hn

theorem percentDecode_encodeByte (b : UInt8) (rest : List Char) :
    percentDecode (encodeByte b ++ rest) = b :: percentDecode rest := by
  have hb : b.toNat < 256 := b.toNat_lt
  have hhigh := hexValue?_upperHexDigit (Nat.div_lt_of_lt_mul hb : b.toNat / 16 < 16)
  have hlow := hexValue?_upperHexDigit (Nat.mod_lt b.toNat (by decide : 0 < 16))
  show percentDecode
    ('%' :: Text.upperHexDigit (b.toNat / 16) :: Text.upperHexDigit (b.toNat % 16) :: rest) = _
  rw [percentDecode, hhigh, hlow]
  show (b.toNat / 16 * 16 + b.toNat % 16).toUInt8 :: percentDecode rest = b :: percentDecode rest
  rw [Nat.div_add_mod']
  exact congrArg (· :: percentDecode rest) (UInt8.ofNat_toNat)

theorem percentDecode_cons {c : Char} (hc : c ≠ '%') (rest : List Char) :
    percentDecode (c :: rest) = String.utf8EncodeChar c ++ percentDecode rest := by
  rw [percentDecode]
  rintro a b rest' rfl
  exact absurd rfl hc

theorem percentDecode_of_not_mem (h : '%' ∉ cs) : percentDecode cs = cs.flatMap String.utf8EncodeChar := by
  induction cs with
  | nil => rfl
  | cons c rest ih =>
      have hc : c ≠ '%' := fun heq => h (heq ▸ List.mem_cons_self)
      rw [percentDecode_cons hc, ih fun hmem => h (List.mem_cons_of_mem _ hmem), List.flatMap_cons]

theorem percentDecode_encodeBytes (bytes : Bytes) (rest : List Char) :
    percentDecode (bytes.flatMap encodeByte ++ rest) = bytes ++ percentDecode rest := by
  induction bytes with
  | nil => rfl
  | cons b bytes ih =>
      rw [List.flatMap_cons, List.append_assoc, percentDecode_encodeByte, ih]
      rfl

/-- An encoded text stands for the bytes of the text, if percent signs are encoded. -/
theorem percentDecode_percentEncode (hset : set '%' = true) (cs : List Char) :
    percentDecode (percentEncode set cs) = cs.flatMap String.utf8EncodeChar := by
  induction cs with
  | nil => rfl
  | cons c rest ih =>
      show percentDecode (encodeChar set c ++ percentEncode set rest) = _
      rw [encodeChar, List.flatMap_cons, ← ih]
      split
      · exact percentDecode_encodeBytes _ _
      next hplain =>
        refine percentDecode_cons ?_ _
        rintro rfl
        exact hplain (by rw [hset, Bool.or_true])

end LanguageClient.Uri
