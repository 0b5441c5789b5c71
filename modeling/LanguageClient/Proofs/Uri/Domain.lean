import LanguageClient.Proofs.Text.Parts
import LanguageClient.Proofs.Uri.Address
import LanguageClient.Uri.Domain

/-!
# Domain names in ASCII

A domain name that was brought to ASCII consists of small letters and other characters that mean the same to
every later reading (`plain_domainToAscii?`). Bringing it to ASCII once more leaves it alone, or refuses
it (`eq_of_domainToAscii?_plain`): whether its Punycode is well-formed need not be known for that.
-/

namespace LanguageClient.Uri

theorem toNat_ofNat (n : Nat) : (Char.ofNat n).toNat = n ∨ (Char.ofNat n).toNat = 0 := by
  by_cases h : n.isValidChar
  · have hsame : Char.ofNat n = Char.ofNatAux n h := dif_pos h
    exact Or.inl (congrArg Char.toNat hsame)
  · have hnull : Char.ofNat n = '\x00' := dif_neg h
    exact Or.inr (congrArg Char.toNat hnull)

/-- An ASCII character that is no capital letter. -/
def Plain (c : Char) : Prop := c.toNat < 0x80 ∧ c.toLower = c

instance : DecidablePred Plain := fun _ => inferInstanceAs (Decidable (_ ∧ _))

/-! ## Lower case -/

theorem lowerRuns_not_capital : ∀ r ∈ lowerRuns.toList, r.2.1 + r.2.2.2 < 0x41 ∨ 0x5A < r.1 + r.2.2.2 := by
  decide +kernel

theorem plain_lowerCase {c : Char} (h : (lowerCase c).toNat < 0x80) : Plain (lowerCase c) := by
  refine ⟨h, ?_⟩
  rw [lowerCase] at h ⊢
  split
  next hc =>
    exact Text.of_ascii (P := fun c => c.toLower.toLower = c.toLower) (by decide) hc
  next hc =>
    rw [if_neg hc] at h
    dsimp only at h ⊢
    split
    next first last step distance hfound =>
      rw [hfound] at h
      dsimp only at h
      have hmem := Array.mem_toList_iff.mpr (Array.mem_of_find?_eq_some hfound)
      have hrange := Array.find?_some hfound
      simp only [Bool.and_eq_true, decide_eq_true_eq] at hrange
      have hcapital := lowerRuns_not_capital _ hmem
      dsimp only at hcapital
      have hnumber : (Char.ofNat (c.toNat + distance : Int).toNat).toNat < 0x41 ∨
          0x5A < (Char.ofNat (c.toNat + distance : Int).toNat).toNat := by
        rcases toNat_ofNat (c.toNat + distance : Int).toNat with hsame | hnull <;> omega
      exact Text.of_ascii (P := fun c => c.toNat < 0x41 ∨ 0x5A < c.toNat → c.toLower = c) (by decide)
        h hnumber
    next hfound =>
      rw [hfound] at h
      exact absurd h hc

theorem Plain.lowerCase_eq {c : Char} (h : Plain c) : lowerCase c = c := (if_pos h.1).trans h.2

theorem plain_dotted {c : Char} (h : (dotted c).toNat < 0x80) : Plain (dotted c) := by
  rw [dotted] at h ⊢
  split
  · decide
  next hdot =>
    rw [if_neg hdot] at h
    exact plain_lowerCase h

theorem Plain.dotted_eq {c : Char} (h : Plain c) : dotted c = c := by
  have hnot : ¬ ((c.toNat == 0x3002 || c.toNat == 0xFF0E || c.toNat == 0xFF61) = true) := by
    have hc := h.1
    simp only [Bool.or_eq_true, beq_iff_eq]
    omega
  exact (if_neg hnot).trans h.lowerCase_eq

theorem Plain.not_ignored {c : Char} (h : Plain c) : ignoredInDomain c = false :=
  Text.of_ascii (P := fun c => ignoredInDomain c = false) (by decide) h.1

/-! ## Labels -/

namespace Punycode

theorem threshold_le (k bias : Nat) : threshold k bias ≤ 26 := Nat.min_le_left _ _

theorem plain_digit {d : Nat} (h : d < 36) : Plain (digit d) := by
  have hall : ∀ d < 36, Plain (digit d) := by decide
  exact hall d h

theorem plain_encodeDelta {bias q k : Nat} : ∀ c ∈ encodeDelta bias q k, Plain c := by
  induction q, k using encodeDelta.induct bias with
  | case1 q k t hlast =>
      have hle : t ≤ 26 := threshold_le k bias
      intro c hc
      rw [encodeDelta, dif_pos hlast] at hc
      rw [List.mem_singleton.mp hc]
      exact plain_digit (by omega)
  | case2 q k t hmore ih =>
      have hle : t ≤ 26 := threshold_le k bias
      have hmod := Nat.mod_lt (q - t) (by omega : 0 < 36 - t)
      intro c hc
      rw [encodeDelta, dif_neg hmore] at hc
      rcases List.mem_cons.mp hc with rfl | hc
      · exact plain_digit (show t + (q - t) % (36 - t) < 36 by omega)
      · exact ih c hc

theorem plain_encodePass {n basic : Nat} (points : List Nat) (e : Encoder) :
    ∀ c ∈ (encodePass n basic e points).1, Plain c := by
  induction points generalizing e with
  | nil => exact fun c hc => absurd hc List.not_mem_nil
  | cons point rest ih =>
      rw [encodePass]
      split
      · exact ih _
      split
      · intro c hc
        rcases List.mem_append.mp hc with hc | hc
        · exact plain_encodeDelta c hc
        · exact ih _ c hc
      · exact ih _

theorem plain_encodePasses {points : List Nat} {basic : Nat} (ns : List Nat) (e : Encoder) :
    ∀ c ∈ encodePasses points basic e ns, Plain c := by
  induction ns generalizing e with
  | nil => exact fun c hc => absurd hc List.not_mem_nil
  | cons n rest ih =>
      intro c hc
      rw [encodePasses] at hc
      rcases List.mem_append.mp hc with hc | hc
      · exact plain_encodePass _ _ c hc
      · exact ih _ c hc

theorem plain_encode {label : List Char} (h : ∀ c ∈ label, c.toNat < 0x80 → Plain c) :
    ∀ c ∈ encode label, Plain c := by
  have hbasic : ∀ c ∈ label.filter (·.toNat < 0x80), Plain c := by
    intro c hc
    obtain ⟨hmem, hascii⟩ := List.mem_filter.mp hc
    exact h c hmem (of_decide_eq_true hascii)
  intro c hc
  rcases List.mem_append.mp hc with hc | hc
  · split at hc
    · exact absurd hc List.not_mem_nil
    · rcases List.mem_append.mp hc with hc | hc
      · exact hbasic c hc
      · rw [List.mem_singleton.mp hc]
        decide
  · exact plain_encodePasses _ _ c hc

end Punycode

theorem plain_labelToAscii? {label ascii : List Char} (h : ∀ c ∈ label, c.toNat < 0x80 → Plain c)
    (hascii : labelToAscii? label = some ascii) : ∀ c ∈ ascii, Plain c := by
  have hkept : label.all (·.toNat < 0x80) = true → ∀ c ∈ label, Plain c := by
    intro hall c hc
    exact h c hc (of_decide_eq_true (List.all_eq_true.mp hall c hc))
  rw [labelToAscii?] at hascii
  split at hascii
  · obtain ⟨decoded, -, hascii⟩ := Option.bind_eq_some_iff.mp hascii
    split at hascii
    next hvalid =>
      rw [Bool.and_eq_true] at hvalid
      rw [← Option.some.inj hascii]
      exact hkept hvalid.2
    next => exact absurd hascii nofun
  split at hascii
  next hall =>
    rw [← Option.some.inj hascii]
    exact hkept hall
  split at hascii
  · rw [← Option.some.inj hascii]
    exact List.forall_mem_append.mpr ⟨Text.forall_mem_of_all (by decide), Punycode.plain_encode h⟩
  · exact absurd hascii nofun

/-- A plain label is left alone, or refused. -/
theorem eq_of_labelToAscii?_plain {label ascii : List Char} (h : ∀ c ∈ label, Plain c)
    (hascii : labelToAscii? label = some ascii) : ascii = label := by
  have hall : label.all (·.toNat < 0x80) = true :=
    List.all_eq_true.mpr fun c hc => decide_eq_true (h c hc).1
  rw [labelToAscii?] at hascii
  split at hascii
  · obtain ⟨decoded, -, hascii⟩ := Option.bind_eq_some_iff.mp hascii
    split at hascii
    · exact (Option.some.inj hascii).symm
    · exact absurd hascii nofun
  · exact (Option.some.inj hascii).symm

/-! ## Names -/

theorem mem_of_mapM {α β : Type} {f : α → Option β} {xs : List α} {ys : List β} (h : xs.mapM f = some ys) :
    ∀ y ∈ ys, ∃ x ∈ xs, f x = some y := by
  induction xs generalizing ys with
  | nil =>
      rw [← Option.some.inj h]
      exact fun y hy => absurd hy List.not_mem_nil
  | cons x rest ih =>
      rw [List.mapM_cons] at h
      obtain ⟨first, hfirst, h⟩ := Option.bind_eq_some_iff.mp h
      obtain ⟨more, hmore, h⟩ := Option.bind_eq_some_iff.mp h
      rw [← Option.some.inj h]
      intro y hy
      rcases List.mem_cons.mp hy with rfl | hy
      · exact ⟨x, List.mem_cons_self, hfirst⟩
      · obtain ⟨x', hx', hread⟩ := ih hmore y hy
        exact ⟨x', List.mem_cons_of_mem _ hx', hread⟩

theorem eq_of_mapM {α : Type} {f : α → Option α} {xs ys : List α} (hf : ∀ x ∈ xs, ∀ y, f x = some y → y = x)
    (h : xs.mapM f = some ys) : ys = xs := by
  induction xs generalizing ys with
  | nil => exact (Option.some.inj h).symm
  | cons x rest ih =>
      obtain ⟨hx, hrest⟩ := List.forall_mem_cons.mp hf
      rw [List.mapM_cons] at h
      obtain ⟨first, hfirst, h⟩ := Option.bind_eq_some_iff.mp h
      obtain ⟨more, hmore, h⟩ := Option.bind_eq_some_iff.mp h
      rw [← Option.some.inj h, hx first hfirst, ih hrest hmore]

theorem mem_intercalate {mark c : Char} {parts : List (List Char)} (h : c ∈ [mark].intercalate parts) :
    c = mark ∨ ∃ part ∈ parts, c ∈ part := by
  induction parts with
  | nil => exact absurd h List.not_mem_nil
  | cons part rest ih =>
      cases rest with
      | nil =>
          rw [List.intercalate_singleton] at h
          exact Or.inr ⟨part, List.mem_cons_self, h⟩
      | cons next rest =>
          rw [List.intercalate_cons_cons] at h
          rcases List.mem_append.mp h with h | h
          · rcases List.mem_append.mp h with h | h
            · exact Or.inr ⟨part, List.mem_cons_self, h⟩
            · exact Or.inl (List.mem_singleton.mp h)
          · rcases ih h with rfl | ⟨part', hpart, hc⟩
            · exact Or.inl rfl
            · exact Or.inr ⟨part', List.mem_cons_of_mem _ hpart, hc⟩

theorem plain_domainToAscii? {name ascii : List Char} (h : domainToAscii? name = some ascii) :
    ∀ c ∈ ascii, Plain c ∧ forbiddenInDomain c = false := by
  obtain ⟨labels, hlabels, h⟩ := Option.bind_eq_some_iff.mp h
  dsimp only at h
  split at h
  · exact absurd h nofun
  next hallowed =>
    obtain rfl := Option.some.inj h
    have hallowed : ∀ c ∈ ['.'].intercalate labels, forbiddenInDomain c = false :=
      fun c hc => Bool.eq_false_iff.mpr fun hf => hallowed (List.any_eq_true.mpr ⟨c, hc, hf⟩)
    intro c hc
    refine ⟨?_, hallowed c hc⟩
    rcases mem_intercalate hc with rfl | ⟨ascii, hascii, hmem⟩
    · decide
    · obtain ⟨label, hlabel, hread⟩ := mem_of_mapM hlabels ascii hascii
      refine plain_labelToAscii? (fun d hd hlow => ?_) hread c hmem
      rw [splitAt_eq_splitOn, List.splitOn_eq_splitOnP] at hlabel
      obtain ⟨e, -, rfl⟩ := List.mem_map.mp (Text.mem_part hlabel d hd).1
      exact plain_dotted hlow

/-- A plain domain name is left alone, or refused. -/
theorem eq_of_domainToAscii?_plain {name ascii : List Char} (h : ∀ c ∈ name, Plain c)
    (hascii : domainToAscii? name = some ascii) : ascii = name := by
  have hmapped : (name.filter (¬ ignoredInDomain ·)).map dotted = name := by
    have hkept : name.filter (¬ ignoredInDomain ·) = name :=
      List.filter_eq_self.mpr fun c hc => by simp [(h c hc).not_ignored]
    rw [hkept, List.map_congr_left fun c hc => (h c hc).dotted_eq, List.map_id']
  rw [domainToAscii?, hmapped] at hascii
  obtain ⟨labels, hlabels, hascii⟩ := Option.bind_eq_some_iff.mp hascii
  rw [splitAt_eq_splitOn] at hlabels
  have hsame : labels = name.splitOn '.' := by
    refine eq_of_mapM (fun label hlabel ascii hread => ?_) hlabels
    rw [List.splitOn_eq_splitOnP] at hlabel
    exact eq_of_labelToAscii?_plain (fun c hc => h c (Text.mem_part hlabel c hc).1) hread
  dsimp only at hascii
  split at hascii
  · exact absurd hascii nofun
  · rw [← Option.some.inj hascii, hsame, List.intercalate_splitOn]

end LanguageClient.Uri
