import LanguageClient.Proofs.Text.Utf8
import LanguageClient.Text.Base64

/-!
# Base64 is canonical

`Spells` says what it means for a text to be the Base64 of some bytes, by place value alone: four
symbols and three bytes are the same number of 24 bits, and where one or two bytes are left over the
number is filled up with zero bits and the text with pads. There is no choice in it. What is written
spells the bytes (`Spells.encode`), what spells bytes is read as them (`Spells.decode`), and what is
read as bytes is just what would be written for them (`eq_encode_of_decode`), so all three are the same.
-/

namespace LanguageClient.Base64

/-- The standard alphabet: the symbols of the values below 64, in their order. -/
def alphabet : List Char :=
  "ABCDEFGHIJKLMNOPQRSTUVWXYZabcdefghijklmnopqrstuvwxyz0123456789+/".toList

/-- The text is Base64 of the bytes: canonical, padded, over the standard alphabet. -/
inductive Spells : List Char → Bytes → Prop
  | empty : Spells [] []
  | one {c d : Char} {w x : Nat} {a : UInt8} :
      alphabet[w]? = some c → alphabet[x]? = some d →
      w * 64 + x = a.toNat * 16 → Spells [c, d, '=', '='] [a]
  | two {c d e : Char} {w x y : Nat} {a b : UInt8} :
      alphabet[w]? = some c → alphabet[x]? = some d → alphabet[y]? = some e →
      (w * 64 + x) * 64 + y = (a.toNat * 256 + b.toNat) * 4 → Spells [c, d, e, '='] [a, b]
  | three {c d e f : Char} {w x y z : Nat} {a b b' : UInt8} {text : List Char} {bytes : Bytes} :
      alphabet[w]? = some c → alphabet[x]? = some d → alphabet[y]? = some e →
      alphabet[z]? = some f →
      ((w * 64 + x) * 64 + y) * 64 + z = (a.toNat * 256 + b.toNat) * 256 + b'.toNat →
      Spells text bytes → Spells (c :: d :: e :: f :: text) (a :: b :: b' :: bytes)

/-! ## Symbols -/

theorem alphabet_symbol : ∀ n < 64, alphabet[n]? = some (Char.ofNat (symbol n).toNat) := by
  decide

theorem value?_letter {c : Char} {w : Nat} (h : alphabet[w]? = some c) :
    w < 64 ∧ value? (UInt8.ofNat c.toNat) = some w ∧ c.toNat < 128 := by
  have hall : ∀ w < 64, alphabet[w]?.all fun c =>
      value? (UInt8.ofNat c.toNat) = some w ∧ c.toNat < 128 := by decide +kernel
  have hlt : w < 64 := (List.getElem?_eq_some_iff.mp h).1
  have hc := hall w hlt
  rw [h] at hc
  exact ⟨hlt, of_decide_eq_true hc⟩

theorem symbol_of_value? {b : UInt8} {n : Nat} (h : value? b = some n) : n < 64 ∧ b = symbol n := by
  have hall : ∀ k < 256, (value? (UInt8.ofNat k)).all fun n =>
      n < 64 ∧ UInt8.ofNat k = symbol n := by decide +kernel
  have hb := hall b.toNat b.toNat_lt
  rw [UInt8.ofNat_toNat, h] at hb
  exact of_decide_eq_true hb

theorem ne_pad {b : UInt8} {n : Nat} (h : value? b = some n) : b ≠ pad := by
  rintro rfl
  exact absurd h (by simp [value?, pad])

theorem toUInt8_eq {n : Nat} {b : UInt8} (h : n = b.toNat) : n.toUInt8 = b := by
  rw [h]
  exact UInt8.ofNat_toNat

theorem toNat_toUInt8 {n : Nat} (h : n < 256) : n.toUInt8.toNat = n := UInt8.toNat_ofNat_of_lt' h

/-! ## What is written spells the bytes -/

theorem Spells.encode (bytes : Bytes) : Spells (encode bytes).toList bytes := by
  unfold Base64.encode
  rw [String.toList_ofList]
  induction bytes using encodeBytes.induct with
  | case1 a b c rest ih =>
      have ha := a.toNat_lt
      have hb := b.toNat_lt
      have hc := c.toNat_lt
      refine .three (alphabet_symbol _ ?_) (alphabet_symbol _ ?_) (alphabet_symbol _ ?_)
        (alphabet_symbol _ ?_) ?_ ih
      all_goals omega
  | case2 a b =>
      have ha := a.toNat_lt
      have hb := b.toNat_lt
      refine .two (alphabet_symbol _ ?_) (alphabet_symbol _ ?_) (alphabet_symbol _ ?_) ?_
      all_goals omega
  | case3 a =>
      have ha := a.toNat_lt
      refine .one (alphabet_symbol _ ?_) (alphabet_symbol _ ?_) ?_
      all_goals omega
  | case4 => exact .empty

/-! ## What spells bytes is read as them -/

section Spelled

variable {text : List Char} {bytes : Bytes}

theorem Spells.length_mod (h : Spells text bytes) : text.length % 4 = 0 := by
  induction h with
  | three _ _ _ _ _ _ ih =>
      simp only [List.length_cons]
      omega
  | _ => simp

theorem Spells.ascii (h : Spells text bytes) : ∀ c ∈ text, c.toNat < 128 := by
  induction h with
  | empty => simp
  | one hc hd _ => simp [value?_letter hc, value?_letter hd]
  | two hc hd he _ => simp [value?_letter hc, value?_letter hd, value?_letter he]
  | three hc hd he hf _ _ ih =>
      simpa [value?_letter hc, value?_letter hd, value?_letter he, value?_letter hf] using ih

variable {offset w x y z : Nat} {c d e f : UInt8}

theorem decodeLast_one (hc : value? c = some w) (hd : value? d = some x) (hlow : x % 16 = 0) :
    decodeLast offset [c, d, pad, pad] = .ok [(w * 4 + x / 16).toUInt8] := by
  have hquantum : lastQuantum offset [c, d, pad, pad] = .ok ([w, x], d, 2) := by
    simp [lastQuantum, lastQuantum.go, ne_pad hc, ne_pad hd, hc, hd]
  simp [decodeLast, hquantum, bind, Except.bind, hlow]

theorem decodeLast_two (hc : value? c = some w) (hd : value? d = some x) (he : value? e = some y)
    (hlow : y % 4 = 0) :
    decodeLast offset [c, d, e, pad] =
      .ok [(w * 4 + x / 16).toUInt8, (x % 16 * 16 + y / 4).toUInt8] := by
  have hquantum : lastQuantum offset [c, d, e, pad] = .ok ([w, x, y], e, 1) := by
    simp [lastQuantum, lastQuantum.go, ne_pad hc, ne_pad hd, ne_pad he, hc, hd, he]
  simp [decodeLast, hquantum, bind, Except.bind, hlow]

theorem decodeLast_three (hc : value? c = some w) (hd : value? d = some x) (he : value? e = some y)
    (hf : value? f = some z) : decodeLast offset [c, d, e, f] = .ok (tripleOf w x y z) := by
  have hquantum : lastQuantum offset [c, d, e, f] = .ok ([w, x, y, z], f, 0) := by
    simp [lastQuantum, lastQuantum.go, ne_pad hc, ne_pad hd, ne_pad he, ne_pad hf, hc, hd, he, hf]
  simp [decodeLast, hquantum, bind, Except.bind]

theorem tripleOf_eq {a b b' : UInt8} (hy : y < 64) (hz : z < 64)
    (h : ((w * 64 + x) * 64 + y) * 64 + z = (a.toNat * 256 + b.toNat) * 256 + b'.toNat) :
    tripleOf w x y z = [a, b, b'] := by
  have hb := b.toNat_lt
  have hb' := b'.toNat_lt
  have h₁ : w * 4 + x / 16 = a.toNat := by omega
  have h₂ : x % 16 * 16 + y / 4 = b.toNat := by omega
  have h₃ : y % 4 * 64 + z = b'.toNat := by omega
  rw [tripleOf, toUInt8_eq h₁, toUInt8_eq h₂, toUInt8_eq h₃]

theorem Spells.decodeFrom (h : Spells text bytes) (hne : text ≠ []) (offset : Nat) :
    decodeFrom offset (text.map fun c => UInt8.ofNat c.toNat) = .ok bytes := by
  induction h generalizing offset with
  | empty => exact absurd rfl hne
  | @one c d w x a hc hd heq =>
      obtain ⟨_, hcv, -⟩ := value?_letter hc
      obtain ⟨_, hdv, -⟩ := value?_letter hd
      have ha : w * 4 + x / 16 = a.toNat := by omega
      have hlow : x % 16 = 0 := by omega
      rw [← toUInt8_eq ha]
      exact decodeLast_one hcv hdv hlow
  | @two c d e w x y a b hc hd he heq =>
      obtain ⟨_, hcv, -⟩ := value?_letter hc
      obtain ⟨_, hdv, -⟩ := value?_letter hd
      obtain ⟨_, hev, -⟩ := value?_letter he
      have hbyte := b.toNat_lt
      have ha : w * 4 + x / 16 = a.toNat := by omega
      have hb : x % 16 * 16 + y / 4 = b.toNat := by omega
      have hlow : y % 4 = 0 := by omega
      rw [← toUInt8_eq ha, ← toUInt8_eq hb]
      exact decodeLast_two hcv hdv hev hlow
  | @three c d e f w x y z a b b' text bytes hc hd he hf heq hrest ih =>
      obtain ⟨_, hcv, -⟩ := value?_letter hc
      obtain ⟨_, hdv, -⟩ := value?_letter hd
      obtain ⟨hy, hev, -⟩ := value?_letter he
      obtain ⟨hz, hfv, -⟩ := value?_letter hf
      have htriple := tripleOf_eq hy hz heq
      -- four symbols are the last quantum exactly if nothing follows
      cases text with
      | nil =>
          cases hrest
          rw [← htriple]
          exact decodeLast_three hcv hdv hev hfv
      | cons g rest =>
          have hlater := ih (List.cons_ne_nil _ _) (offset + 4)
          simp only [List.map_cons] at hlater ⊢
          rw [Base64.decodeFrom, hcv, hdv, hev, hfv]
          dsimp only
          rw [hlater, htriple]
          rfl

theorem Spells.decodeBytes (h : Spells text bytes) :
    decodeBytes (text.map fun c => UInt8.ofNat c.toNat) = .ok bytes := by
  unfold Base64.decodeBytes
  split
  · rename_i hnone
    obtain rfl := List.map_eq_nil_iff.mp (List.getLast?_eq_none_iff.mp hnone)
    cases h
    rfl
  · rename_i last hlast
    have hne : text ≠ [] := by
      rintro rfl
      exact absurd hlast (by simp)
    -- whole quanta leave no single byte over
    have hwhole : ¬ (text.map fun c => UInt8.ofNat c.toNat).length % 4 = 1 := by
      rw [List.length_map, h.length_mod]
      decide
    rw [if_neg fun hstray => hwhole hstray.1, h.decodeFrom hne]

theorem Spells.decode {s : String} (h : Spells s.toList bytes) : decode s = .ok bytes := by
  unfold Base64.decode
  rw [Utf8.encode_of_lt h.ascii]
  exact h.decodeBytes

end Spelled

/-! ## What is read as bytes is what is written for them -/

section Read

variable {offset w x y z : Nat} {quantum input bytes : Bytes}

/-- What is read of the last quantum: symbols and then pads. The pads that were met before are behind
the symbols, so after one of them no symbol is read. -/
theorem lastQuantum_go_ok {i pads firstPad pads' : Nat} {values values' : List Nat} {last last' : UInt8}
    (h : lastQuantum.go offset i values last pads firstPad quantum = .ok (values', last', pads')) :
    ∃ more k, quantum = more.map symbol ++ List.replicate k pad ∧
      values' = values.reverse ++ more ∧ pads' = pads + k ∧
      (0 < pads → more = []) ∧ ∀ v ∈ more, v < 64 := by
  induction quantum generalizing i values last pads firstPad with
  | nil =>
      rw [lastQuantum.go, Except.ok.injEq, Prod.mk.injEq, Prod.mk.injEq] at h
      obtain ⟨rfl, -, rfl⟩ := h
      exact ⟨[], 0, rfl, (List.append_nil _).symm, rfl, fun _ => rfl, by simp⟩
  | cons b rest ih =>
      rw [lastQuantum.go] at h
      split at h
      · rename_i hpad
        split at h
        · exact absurd h (by simp)
        · obtain ⟨more, k, hrest, hvalues, hpads, hnone, hlt⟩ := ih h
          obtain rfl := hnone (Nat.succ_pos _)
          refine ⟨[], k + 1, ?_, hvalues, by omega, fun _ => rfl, hlt⟩
          rw [hpad, hrest]
          rfl
      · split at h
        · exact absurd h (by simp)
        · rename_i hnopad
          cases hv : value? b with
          | none =>
              rw [hv] at h
              exact absurd h (by simp)
          | some v =>
              rw [hv] at h
              obtain ⟨more, k, hrest, hvalues, hpads, -, hlt⟩ := ih h
              obtain ⟨hvlt, hb⟩ := symbol_of_value? hv
              refine ⟨v :: more, k, ?_, ?_, by omega, fun hpos => absurd hpos hnopad, ?_⟩
              · rw [hb, hrest]
                rfl
              · rw [hvalues, List.reverse_cons, List.append_assoc]
                rfl
              · exact List.forall_mem_cons.mpr ⟨hvlt, hlt⟩

theorem lastQuantum_ok {pads : Nat} {values : List Nat} {last : UInt8}
    (h : lastQuantum offset quantum = .ok (values, last, pads)) :
    quantum = values.map symbol ++ List.replicate pads pad ∧ ∀ v ∈ values, v < 64 := by
  obtain ⟨more, k, hquantum, rfl, rfl, -, hlt⟩ := lastQuantum_go_ok h
  rw [Nat.zero_add]
  exact ⟨hquantum, hlt⟩

theorem encodeBytes_one (hw : w < 64) (hx : x < 64) (hlow : x % 16 = 0) :
    encodeBytes [(w * 4 + x / 16).toUInt8] = [symbol w, symbol x, pad, pad] := by
  have ha : (w * 4 + x / 16).toUInt8.toNat = w * 4 + x / 16 := toNat_toUInt8 (by omega)
  have hw' : (w * 4 + x / 16) / 4 = w := by omega
  have hx' : (w * 4 + x / 16) % 4 * 16 = x := by omega
  rw [encodeBytes, ha, hw', hx']

theorem encodeBytes_two (hw : w < 64) (hx : x < 64) (hy : y < 64) (hlow : y % 4 = 0) :
    encodeBytes [(w * 4 + x / 16).toUInt8, (x % 16 * 16 + y / 4).toUInt8] =
      [symbol w, symbol x, symbol y, pad] := by
  have ha : (w * 4 + x / 16).toUInt8.toNat = w * 4 + x / 16 := toNat_toUInt8 (by omega)
  have hb : (x % 16 * 16 + y / 4).toUInt8.toNat = x % 16 * 16 + y / 4 := toNat_toUInt8 (by omega)
  have hw' : (w * 4 + x / 16) / 4 = w := by omega
  have hx' : (w * 4 + x / 16) % 4 * 16 + (x % 16 * 16 + y / 4) / 16 = x := by omega
  have hy' : (x % 16 * 16 + y / 4) % 16 * 4 = y := by omega
  rw [encodeBytes, ha, hb, hw', hx', hy']

theorem encodeBytes_tripleOf (hw : w < 64) (hx : x < 64) (hy : y < 64) (hz : z < 64) (rest : Bytes) :
    encodeBytes (tripleOf w x y z ++ rest) =
      symbol w :: symbol x :: symbol y :: symbol z :: encodeBytes rest := by
  have ha : (w * 4 + x / 16).toUInt8.toNat = w * 4 + x / 16 := toNat_toUInt8 (by omega)
  have hb : (x % 16 * 16 + y / 4).toUInt8.toNat = x % 16 * 16 + y / 4 := toNat_toUInt8 (by omega)
  have hc : (y % 4 * 64 + z).toUInt8.toNat = y % 4 * 64 + z := toNat_toUInt8 (by omega)
  have hw' : (w * 4 + x / 16) / 4 = w := by omega
  have hx' : (w * 4 + x / 16) % 4 * 16 + (x % 16 * 16 + y / 4) / 16 = x := by omega
  have hy' : (x % 16 * 16 + y / 4) % 16 * 4 + (y % 4 * 64 + z) / 64 = y := by omega
  have hz' : (y % 4 * 64 + z) % 64 = z := by omega
  rw [tripleOf, List.cons_append, List.cons_append, List.cons_append, List.nil_append, encodeBytes,
    ha, hb, hc, hw', hx', hy', hz']

theorem decodeLast_ok (h : decodeLast offset quantum = .ok bytes) (hlen : quantum.length ≤ 4) :
    quantum = encodeBytes bytes := by
  unfold decodeLast at h
  cases hquantum : lastQuantum offset quantum with
  | error e =>
      rw [hquantum] at h
      exact absurd (show Except.error e = Except.ok bytes from h) (by simp)
  | ok parts =>
      obtain ⟨values, last, pads⟩ := parts
      obtain ⟨hq, hlt⟩ := lastQuantum_ok hquantum
      rw [hquantum] at h
      dsimp only [bind, Except.bind] at h
      have hcount : values.length + pads ≤ 4 := by
        rwa [hq, List.length_append, List.length_map, List.length_replicate] at hlen
      split at h
      · exact absurd h (by simp)
      rename_i htwo
      split at h
      · exact absurd h (by simp)
      rename_i hwhole
      have hfour : values.length + pads = 4 := by omega
      clear htwo hwhole
      subst hq
      -- the number of values says which of the three forms the quantum has
      split at h
      · obtain rfl : pads = 2 := Nat.add_left_cancel hfour
        split at h
        · exact absurd h (by simp)
        · rename_i w x hlow
          obtain rfl := Except.ok.inj h
          rw [encodeBytes_one (hlt w (by simp)) (hlt x (by simp)) (Decidable.not_not.mp hlow)]
          rfl
      · obtain rfl : pads = 1 := Nat.add_left_cancel hfour
        split at h
        · exact absurd h (by simp)
        · rename_i w x y hlow
          obtain rfl := Except.ok.inj h
          rw [encodeBytes_two (hlt w (by simp)) (hlt x (by simp)) (hlt y (by simp))
            (Decidable.not_not.mp hlow)]
          rfl
      · obtain rfl : pads = 0 := Nat.add_left_cancel hfour
        rename_i w x y z
        obtain rfl := Except.ok.inj h
        rw [← List.append_nil (tripleOf w x y z), encodeBytes_tripleOf (hlt w (by simp))
          (hlt x (by simp)) (hlt y (by simp)) (hlt z (by simp))]
        rfl
      · exact absurd h (by simp)

/-- Four bytes before the last quantum are read as symbols. -/
theorem decodeFrom_quantum {a b c d e : UInt8} {rest : Bytes}
    (h : decodeFrom offset (a :: b :: c :: d :: e :: rest) = .ok bytes) :
    ∃ w x y z later, (value? a = some w ∧ value? b = some x ∧ value? c = some y ∧
      value? d = some z) ∧ decodeFrom (offset + 4) (e :: rest) = .ok later ∧
      bytes = tripleOf w x y z ++ later := by
  rw [decodeFrom] at h
  split at h
  · rename_i w x y z hw hx hy hz
    cases hlater : decodeFrom (offset + 4) (e :: rest) with
    | error e =>
        rw [hlater] at h
        exact absurd (show Except.error e = Except.ok bytes from h) (by simp)
    | ok later =>
        rw [hlater] at h
        exact ⟨w, x, y, z, later, ⟨hw, hx, hy, hz⟩, rfl, (Except.ok.inj h).symm⟩
  all_goals exact absurd h (by simp)

theorem decodeFrom_ok (h : decodeFrom offset input = .ok bytes) : input = encodeBytes bytes := by
  induction offset, input using decodeFrom.induct generalizing bytes with
  | case1 offset a b c d e rest _ _ _ _ _ _ _ _ ih =>
      obtain ⟨w, x, y, z, later, ⟨hw, hx, hy, hz⟩, hlater, rfl⟩ := decodeFrom_quantum h
      obtain ⟨hwlt, rfl⟩ := symbol_of_value? hw
      obtain ⟨hxlt, rfl⟩ := symbol_of_value? hx
      obtain ⟨hylt, rfl⟩ := symbol_of_value? hy
      obtain ⟨hzlt, rfl⟩ := symbol_of_value? hz
      rw [encodeBytes_tripleOf hwlt hxlt hylt hzlt, ← ih hlater]
  | case2 offset a b c d e rest ha =>
      obtain ⟨_, _, _, _, _, ⟨hw, -, -, -⟩, -⟩ := decodeFrom_quantum h
      exact absurd (ha.symm.trans hw) (by simp)
  | case3 offset a b c d e rest hb _ =>
      obtain ⟨_, _, _, _, _, ⟨-, hx, -, -⟩, -⟩ := decodeFrom_quantum h
      exact absurd (hb.symm.trans hx) (by simp)
  | case4 offset a b c d e rest hc _ _ =>
      obtain ⟨_, _, _, _, _, ⟨-, -, hy, -⟩, -⟩ := decodeFrom_quantum h
      exact absurd (hc.symm.trans hy) (by simp)
  | case5 offset a b c d e rest hd _ _ _ =>
      obtain ⟨_, _, _, _, _, ⟨-, -, -, hz⟩, -⟩ := decodeFrom_quantum h
      exact absurd (hd.symm.trans hz) (by simp)
  | case6 offset quantum hshort =>
      have hlen : quantum.length ≤ 4 := by
        rcases quantum with _ | ⟨a, _ | ⟨b, _ | ⟨c, _ | ⟨d, _ | ⟨e, rest⟩⟩⟩⟩⟩
        case cons.cons.cons.cons.cons => exact (hshort _ _ _ _ _ _ rfl).elim
        all_goals simp
      rw [decodeFrom.eq_2 _ _ hshort] at h
      exact decodeLast_ok h hlen

theorem eq_encodeBytes_of_decodeBytes (h : decodeBytes input = .ok bytes) :
    input = encodeBytes bytes := by
  unfold decodeBytes at h
  split at h
  · rename_i hnone
    obtain rfl := List.getLast?_eq_none_iff.mp hnone
    obtain rfl := Except.ok.inj h
    rfl
  · split at h
    · exact absurd h (by simp)
    · exact decodeFrom_ok h

theorem eq_encode_of_decode {s : String} (h : decode s = .ok bytes) : s = encode bytes := by
  -- what is written for the bytes is read as them too, so both have the same bytes
  have hs := eq_encodeBytes_of_decodeBytes h
  have hwritten := eq_encodeBytes_of_decodeBytes (Spells.encode bytes).decode
  exact Utf8.encode_injective (hs.trans hwritten.symm)

end Read

/-! ## The three are the same -/

theorem decode_eq_ok_iff {s : String} {bytes : Bytes} :
    decode s = .ok bytes ↔ Spells s.toList bytes := by
  constructor
  · intro h
    rw [eq_encode_of_decode h]
    exact Spells.encode bytes
  · exact Spells.decode

theorem spells_iff {s : String} {bytes : Bytes} : Spells s.toList bytes ↔ s = encode bytes := by
  constructor
  · intro h
    exact eq_encode_of_decode h.decode
  · rintro rfl
    exact Spells.encode bytes

theorem decode_eq_error_iff {s : String} :
    (∃ cause, decode s = .error cause) ↔ ¬ ∃ bytes, Spells s.toList bytes := by
  constructor
  · rintro ⟨cause, herror⟩ ⟨bytes, h⟩
    exact absurd (herror.symm.trans h.decode) (by simp)
  · intro hnone
    cases hread : decode s with
    | error cause => exact ⟨cause, rfl⟩
    | ok bytes => exact absurd ⟨bytes, decode_eq_ok_iff.mp hread⟩ hnone

end LanguageClient.Base64
