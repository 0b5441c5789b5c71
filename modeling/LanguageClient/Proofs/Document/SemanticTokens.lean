import LanguageClient.Document.SemanticTokens
import LanguageClient.Proofs.Text.Base64

/-!
# Semantic tokens read back

The records of tokens are described by place value (`Records`), the most significant byte first. Bytes
are the records of some tokens if they are whole records, and then of one list of tokens alone; a text
is one of tokens if it spells their records in Base64. So reading and writing are inverse to each other,
and what cannot be read is no Base64, or Base64 of a partial record (`decode_exact`).
-/

namespace LanguageClient.Document.Token

/-- The bytes are the records of the tokens. -/
inductive Records : Bytes → List Token → Prop
  | nil : Records [] []
  | cons {a b c d e f g h : UInt8} {t : Token} {bytes : Bytes} {tokens : List Token} :
      t.character.toNat = ((a.toNat * 256 + b.toNat) * 256 + c.toNat) * 256 + d.toNat →
      t.length.toNat = e.toNat * 256 + f.toNat → t.scope.toNat = g.toNat * 256 + h.toNat →
      Records bytes tokens → Records (a :: b :: c :: d :: e :: f :: g :: h :: bytes) (t :: tokens)

theorem word_lt (a b : UInt8) : word a b < 65536 := by
  have ha := a.toNat_lt
  have hb := b.toNat_lt
  unfold word
  omega

theorem place_inj {m n : Nat} {a b : UInt8} (h : m * 256 + a.toNat = n * 256 + b.toNat) :
    m = n ∧ a = b := by
  have ha := a.toNat_lt
  have hb := b.toNat_lt
  exact ⟨by omega, UInt8.toNat_inj.mp (by omega)⟩

theorem records_toBytes (tokens : List Token) : Records (tokens.flatMap toBytes) tokens := by
  induction tokens with
  | nil => exact .nil
  | cons t rest ih =>
      have hcharacter := t.character.toNat_lt
      have hlength := t.length.toNat_lt
      have hscope := t.scope.toNat_lt
      refine .cons ?_ ?_ ?_ ih
      all_goals
        simp only [Nat.toUInt8_eq, UInt8.toNat_ofNat']
        omega

theorem records_ofBytes {bytes : Bytes} (hwhole : bytes.length % recordSize = 0) :
    Records bytes (ofBytes bytes) := by
  induction bytes using ofBytes.induct with
  | case1 a b c d e f g h rest ih =>
      have hab := word_lt a b
      have hcd := word_lt c d
      have hrest : rest.length % recordSize = 0 := by
        simp only [List.length_cons, recordSize] at hwhole ⊢
        omega
      rw [ofBytes]
      refine .cons ?_ ?_ ?_ (ih hrest)
      · have hlt : word a b * 65536 + word c d < UInt32.size := by
          unfold UInt32.size
          omega
        rw [UInt32.toNat_ofNat_of_lt' hlt]
        unfold word
        omega
      · exact UInt16.toNat_ofNat_of_lt' (word_lt e f)
      · exact UInt16.toNat_ofNat_of_lt' (word_lt g h)
  | case2 bytes hshort =>
      -- fewer than eight bytes are whole records only if there are none
      rcases bytes with
        _ | ⟨a, _ | ⟨b, _ | ⟨c, _ | ⟨d, _ | ⟨e, _ | ⟨f, _ | ⟨g, _ | ⟨h, rest⟩⟩⟩⟩⟩⟩⟩⟩
      case nil => exact .nil
      case cons.cons.cons.cons.cons.cons.cons.cons => exact (hshort _ _ _ _ _ _ _ _ _ rfl).elim
      all_goals exact absurd hwhole (by simp [recordSize])

section Recorded

variable {bytes : Bytes} {tokens : List Token}

theorem Records.length_eq (hr : Records bytes tokens) :
    bytes.length = recordSize * tokens.length := by
  induction hr with
  | nil => rfl
  | cons _ _ _ _ ih =>
      simp only [List.length_cons, ih, recordSize]
      omega

theorem Records.length_mod (hr : Records bytes tokens) : bytes.length % recordSize = 0 := by
  rw [hr.length_eq]
  exact Nat.mul_mod_right ..

theorem Records.bytes_unique {bytes' : Bytes} (hr : Records bytes tokens)
    (hr' : Records bytes' tokens) : bytes = bytes' := by
  induction hr generalizing bytes' with
  | nil =>
      cases hr'
      rfl
  | cons hcharacter hlength hscope _ ih =>
      cases hr' with
      | cons hcharacter' hlength' hscope' hrest =>
          obtain ⟨habc, rfl⟩ := place_inj (hcharacter.symm.trans hcharacter')
          obtain ⟨hab, rfl⟩ := place_inj habc
          obtain ⟨ha, rfl⟩ := place_inj hab
          obtain ⟨he, rfl⟩ := place_inj (hlength.symm.trans hlength')
          obtain ⟨hg, rfl⟩ := place_inj (hscope.symm.trans hscope')
          rw [UInt8.toNat_inj.mp ha, UInt8.toNat_inj.mp he, UInt8.toNat_inj.mp hg, ih hrest]

theorem Records.tokens_unique {tokens' : List Token} (hr : Records bytes tokens)
    (hr' : Records bytes tokens') : tokens = tokens' := by
  induction hr generalizing tokens' with
  | nil =>
      cases hr'
      rfl
  | @cons _ _ _ _ _ _ _ _ t _ _ hcharacter hlength hscope _ ih =>
      cases hr' with
      | @cons _ _ _ _ _ _ _ _ t' _ _ hcharacter' hlength' hscope' hrest =>
          have hc : t.character = t'.character :=
            UInt32.toNat_inj.mp (hcharacter.trans hcharacter'.symm)
          have hl : t.length = t'.length := UInt16.toNat_inj.mp (hlength.trans hlength'.symm)
          have hs : t.scope = t'.scope := UInt16.toNat_inj.mp (hscope.trans hscope'.symm)
          obtain ⟨_, _, _⟩ := t
          obtain ⟨_, _, _⟩ := t'
          rw [ih hrest]
          exact congrArg (· :: _) (Token.mk.injEq .. ▸ ⟨hc, hl, hs⟩)

end Recorded

/-! ## Texts of tokens -/

/-- What becomes of a text that is Base64: only the number of its bytes counts. -/
theorem decode_of_spells {s : String} {bytes : Bytes} (h : Base64.Spells s.toList bytes) :
    decode s = if bytes.length % recordSize ≠ 0 then .error (.recordSize bytes.length)
      else .ok (ofBytes bytes) := by
  unfold decode
  rw [h.decode]

theorem decode_of_not_spells {s : String} (h : ¬ ∃ bytes, Base64.Spells s.toList bytes) :
    ∃ cause, decode s = .error (.base64 cause) := by
  obtain ⟨cause, hread⟩ := Base64.decode_eq_error_iff.mpr h
  unfold decode
  rw [hread]
  exact ⟨cause, rfl⟩

theorem decode_eq_ok_iff {s : String} {tokens : List Token} :
    decode s = .ok tokens ↔ ∃ bytes, Base64.Spells s.toList bytes ∧ Records bytes tokens := by
  constructor
  · intro hok
    by_cases hspelled : ∃ bytes, Base64.Spells s.toList bytes
    · obtain ⟨bytes, hspells⟩ := hspelled
      rw [decode_of_spells hspells] at hok
      split at hok
      · exact absurd hok (by simp)
      · rename_i hwhole
        obtain rfl := Except.ok.inj hok
        exact ⟨bytes, hspells, records_ofBytes (Decidable.not_not.mp hwhole)⟩
    · obtain ⟨cause, herror⟩ := decode_of_not_spells hspelled
      exact absurd (herror.symm.trans hok) (by simp)
  · rintro ⟨bytes, hspells, hrecords⟩
    have hwhole := hrecords.length_mod
    rw [decode_of_spells hspells, if_neg (not_not_intro hwhole),
      (records_ofBytes hwhole).tokens_unique hrecords]

theorem decode_eq_recordSize_iff {s : String} {n : Nat} :
    decode s = .error (.recordSize n) ↔
      ∃ bytes, Base64.Spells s.toList bytes ∧ bytes.length = n ∧ n % recordSize ≠ 0 := by
  constructor
  · intro herror
    by_cases hspelled : ∃ bytes, Base64.Spells s.toList bytes
    · obtain ⟨bytes, hspells⟩ := hspelled
      rw [decode_of_spells hspells] at herror
      split at herror
      · rename_i hpartial
        obtain rfl := DecodeError.recordSize.inj (Except.error.inj herror)
        exact ⟨bytes, hspells, rfl, hpartial⟩
      · exact absurd herror (by simp)
    · obtain ⟨cause, hcause⟩ := decode_of_not_spells hspelled
      exact absurd (hcause.symm.trans herror) (by simp)
  · rintro ⟨bytes, hspells, rfl, hpartial⟩
    rw [decode_of_spells hspells, if_pos hpartial]

theorem decode_eq_base64_iff {s : String} :
    (∃ cause, decode s = .error (.base64 cause)) ↔ ¬ ∃ bytes, Base64.Spells s.toList bytes := by
  constructor
  · rintro ⟨cause, herror⟩ ⟨bytes, hspells⟩
    rw [decode_of_spells hspells] at herror
    split at herror
    · exact absurd herror (by simp)
    · exact absurd herror (by simp)
  · exact decode_of_not_spells

theorem encode_spells (tokens : List Token) :
    Base64.Spells (encode tokens).toList (tokens.flatMap toBytes) := Base64.Spells.encode _

/-- **Tokens are read back.** What is written for tokens is read as them, and nothing else is: a text of
tokens is canonical Base64 of their records. A text that is canonical Base64 of anything but whole
records is refused with the number of its bytes, and any other text because it is no Base64. -/
theorem decode_exact (s : String) (tokens : List Token) :
    decode (encode tokens) = .ok tokens ∧
    (decode s = .ok tokens ↔ encode tokens = s) ∧
    (decode s = .ok tokens ↔ ∃ bytes, Base64.Spells s.toList bytes ∧ Records bytes tokens) ∧
    ((∃ read, decode s = .ok read) ↔ ∃ bytes, Base64.Spells s.toList bytes ∧ 8 ∣ bytes.length) ∧
    (∀ n, decode s = .error (.recordSize n) ↔
      ∃ bytes, Base64.Spells s.toList bytes ∧ bytes.length = n ∧ ¬ 8 ∣ n) ∧
    ((∃ cause, decode s = .error (.base64 cause)) ↔ ¬ ∃ bytes, Base64.Spells s.toList bytes) := by
  have hback : decode (encode tokens) = .ok tokens :=
    decode_eq_ok_iff.mpr ⟨_, encode_spells tokens, records_toBytes tokens⟩
  refine ⟨hback, ⟨fun hok => ?_, ?_⟩, decode_eq_ok_iff, ⟨?_, ?_⟩, fun n => ?_, decode_eq_base64_iff⟩
  · obtain ⟨bytes, hspells, hrecords⟩ := decode_eq_ok_iff.mp hok
    rw [Base64.spells_iff.mp hspells, hrecords.bytes_unique (records_toBytes tokens)]
    rfl
  · rintro rfl
    exact hback
  · rintro ⟨read, hok⟩
    obtain ⟨bytes, hspells, hrecords⟩ := decode_eq_ok_iff.mp hok
    exact ⟨bytes, hspells, Nat.dvd_of_mod_eq_zero hrecords.length_mod⟩
  · rintro ⟨bytes, hspells, hwhole⟩
    have hrecords := records_ofBytes (Nat.mod_eq_zero_of_dvd hwhole)
    exact ⟨_, decode_eq_ok_iff.mpr ⟨bytes, hspells, hrecords⟩⟩
  · rw [decode_eq_recordSize_iff, Nat.dvd_iff_mod_eq_zero]
    rfl

/-- A single byte is no record; with a bit too many or without its pads it is no Base64 either. -/
example : decode "AQ==" = .error (.recordSize 1) ∧
    decode "AR==" = .error (.base64 (.invalidLastSymbol 1 82)) ∧
    decode "AQ" = .error (.base64 .invalidPadding) := ⟨rfl, rfl, rfl⟩

end LanguageClient.Document.Token
