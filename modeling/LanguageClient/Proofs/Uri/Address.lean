import LanguageClient.Proofs.Text.Decimal
import LanguageClient.Uri.Address
import Mathlib.Data.List.TakeWhile

/-!
# Addresses read back

The text of an address is in one canonical form, so reading it gives the address again: for version 4 up
to the 32 bits that are written (`address4?_text`), for version 6 if the text is read at all
(`eq_of_address6?_text`). There the text is cut at its only double colon, which stands for the run of
zeros that was left out (`longestZeroRun_spec`).
-/

namespace LanguageClient.Uri

/-! ## Cutting -/

theorem splitAt_eq_splitOn (mark : Char) (cs : List Char) : splitAt mark cs = cs.splitOn mark := by
  induction cs with
  | nil => rfl
  | cons c rest ih =>
      rw [List.splitOn_cons_eq_if_modifyHead, splitAt, ih]
      by_cases hc : c = mark
      · rw [if_pos hc, if_pos (beq_iff_eq.mpr hc)]
      · rw [if_neg hc, if_neg (by simpa using hc)]
        cases hparts : rest.splitOn mark with
        | nil => exact absurd hparts (List.splitOn_ne_nil mark rest)
        | cons part parts => rfl

theorem splitAt_intercalate {mark : Char} {parts : List (List Char)} (hne : parts ≠ [])
    (h : ∀ part ∈ parts, mark ∉ part) : splitAt mark ([mark].intercalate parts) = parts := by
  rw [splitAt_eq_splitOn, List.splitOn_intercalate mark h hne]

/-! ## Version 4 -/

theorem dot_not_mem_toDigits (n : Nat) : '.' ∉ Nat.toDigits 10 n := by
  intro h
  exact absurd (Nat.isDigit_of_mem_toDigits (by decide) (by decide) h) (by decide)

theorem addressPart?_toDigits {n : Nat} (hn : n < 256) : addressPart? (Nat.toDigits 10 n) = some n := by
  have hall : ∀ n < 256, addressPart? (Nat.toDigits 10 n) = some n := by decide +kernel
  exact hall n hn

theorem address4Text_toList (n : Nat) :
    (address4Text n).toList = ['.'].intercalate (([n / 16777216 % 256, n / 65536 % 256, n / 256 % 256,
      n % 256]).map (Nat.toDigits 10)) := by
  have hdot : (toString ".").toList = ['.'] := rfl
  simp [address4Text, List.intercalate_cons_cons, hdot]

theorem address4?_text (n : Nat) : address4? (address4Text n).toList = some (n % 4294967296) := by
  have hbound : ∀ m, m % 256 < 256 := fun m => Nat.mod_lt m (by decide)
  have hparts : dottedParts (address4Text n).toList =
      ([n / 16777216 % 256, n / 65536 % 256, n / 256 % 256, n % 256]).map (Nat.toDigits 10) := by
    rw [dottedParts, address4Text_toList, splitAt_intercalate (by simp)]
    · simp
    · simp [dot_not_mem_toDigits]
  have hnumbers : (([n / 16777216 % 256, n / 65536 % 256, n / 256 % 256, n % 256]).map
      (Nat.toDigits 10)).mapM addressPart? =
        some [n / 16777216 % 256, n / 65536 % 256, n / 256 % 256, n % 256] := by
    simp [addressPart?_toDigits (hbound _)]
  rw [address4?, hparts]
  dsimp only
  rw [if_neg (by simp), hnumbers]
  have hsmall : ∀ m, ¬ 255 < m % 256 := fun m => Nat.not_lt.mpr (Nat.le_of_lt_succ (hbound m))
  simp [hsmall, hbound]
  omega

theorem address4Text_mod (n : Nat) : address4Text (n % 4294967296) = address4Text n := by
  have h₁ : n % 4294967296 / 16777216 % 256 = n / 16777216 % 256 := by omega
  have h₂ : n % 4294967296 / 65536 % 256 = n / 65536 % 256 := by omega
  have h₃ : n % 4294967296 / 256 % 256 = n / 256 % 256 := by omega
  have h₄ : n % 4294967296 % 256 = n % 256 := by omega
  rw [address4Text, address4Text, h₁, h₂, h₃, h₄]

/-! ## Version 6 -/

theorem mem_hex {c : Char} {n : Nat} (h : c ∈ Text.hex n) : c ∈ "0123456789abcdef".toList := by
  have hdigit : ∀ n < 16, Nat.digitChar n ∈ "0123456789abcdef".toList := by decide
  induction n using Nat.strongRecOn with
  | ind n ih =>
      rw [Text.hex, Nat.toDigits_eq_if (by decide)] at h
      split at h
      next hn =>
        rw [List.mem_singleton.mp h]
        exact hdigit n hn
      next hn =>
        rcases List.mem_append.mp h with h | h
        · exact ih (n / 16) (Nat.div_lt_self (by omega) (by decide)) h
        · rw [List.mem_singleton.mp h]
          exact hdigit _ (Nat.mod_lt n (by decide))

theorem colon_not_mem_hex (n : Nat) : ':' ∉ Text.hex n := fun h => absurd (mem_hex h) (by decide)

theorem readBase?_hex (n : Nat) : readBase? 16 (Text.hex n) = some n := by
  have hdigit : ∀ n < 16, Text.hexValue? (Nat.digitChar n) = some n := by decide
  induction n using Nat.strongRecOn with
  | ind n ih =>
      rw [Text.hex, Nat.toDigits_eq_if (by decide)]
      split
      next hn => simp [readBase?, hdigit n hn, hn]
      next hn =>
        have hfront := ih (n / 16) (Nat.div_lt_self (by omega) (by decide))
        have hlast := Nat.mod_lt n (by decide : 0 < 16)
        rw [readBase?, List.foldlM_append]
        show (readBase? 16 (Text.hex (n / 16))).bind _ = _
        rw [hfront]
        simp [hdigit _ hlast, hlast, Nat.div_add_mod']

/-- Groups in hexadecimal, each behind a colon. -/
def colonGroups (groups : List Nat) : List Char := groups.flatMap fun g => ':' :: Text.hex g

theorem groupsText_cons (g : Nat) (rest : List Nat) :
    groupsText (g :: rest) = Text.hex g ++ colonGroups rest := by
  induction rest generalizing g with
  | nil => simp [groupsText, colonGroups]
  | cons next rest ih =>
      show [':'].intercalate (Text.hex g :: Text.hex next :: rest.map Text.hex) = _
      rw [List.intercalate_cons_cons]
      show Text.hex g ++ [':'] ++ groupsText (next :: rest) = _
      rw [ih]
      simp [colonGroups]

theorem mem_groupsText {c : Char} {groups : List Nat} (h : c ∈ groupsText groups) :
    c ∈ ":0123456789abcdef".toList := by
  cases groups with
  | nil => exact absurd h List.not_mem_nil
  | cons g rest =>
      rw [groupsText_cons, colonGroups] at h
      rcases List.mem_append.mp h with h | h
      · exact List.mem_cons_of_mem _ (mem_hex h)
      · obtain ⟨g', -, h⟩ := List.mem_flatMap.mp h
        rcases List.mem_cons.mp h with rfl | h
        · exact List.mem_cons_self
        · exact List.mem_cons_of_mem _ (mem_hex h)

theorem flatten_of_mapM_hex {gs : List Nat} {parts : List (List Nat)} (h : (gs.map Text.hex).mapM (fun part =>
    if part.isEmpty ∨ part.length > 4 then none else (readBase? 16 part).map ([·])) = some parts) :
    parts.flatten = gs := by
  induction gs generalizing parts with
  | nil =>
      rw [← Option.some.inj h]
      rfl
  | cons g gs ih =>
      rw [List.map_cons, List.mapM_cons] at h
      obtain ⟨part, hpart, h⟩ := Option.bind_eq_some_iff.mp h
      obtain ⟨more, hmore, h⟩ := Option.bind_eq_some_iff.mp h
      rw [readBase?_hex] at hpart
      split at hpart
      · exact absurd hpart (by simp)
      · rw [← Option.some.inj h, ← Option.some.inj hpart, List.flatten_cons, ih hmore]
        rfl

theorem eq_of_groups?_text {groups groups' : List Nat} (h : groups? (groupsText groups) = some groups') :
    groups' = groups := by
  cases groups with
  | nil => exact (Option.some.inj h).symm
  | cons g rest =>
      have hne : (groupsText (g :: rest)).isEmpty = false := by
        rw [groupsText_cons]
        simp [Text.hex]
      have hparts : splitAt ':' (groupsText (g :: rest)) = (g :: rest).map Text.hex :=
        splitAt_intercalate (by simp) (by simp [colon_not_mem_hex])
      have hdot : ∀ last ∈ ((g :: rest).map Text.hex).getLast?, last.contains '.' = false := by
        intro last hlast
        obtain ⟨g', -, rfl⟩ := List.mem_map.mp (List.mem_of_mem_getLast? hlast)
        rw [List.contains_eq_mem, decide_eq_false_iff_not]
        exact fun hmem => absurd (mem_hex hmem) (by decide)
      rw [groups?, hne, if_neg Bool.false_ne_true, hparts] at h
      dsimp only at h
      split at h
      next last hlast =>
        rw [hdot last hlast, if_neg Bool.false_ne_true] at h
        obtain ⟨parts, hparts, rfl⟩ := Option.map_eq_some_iff.mp h
        exact flatten_of_mapM_hex hparts
      next => exact absurd h (by simp)

/-! ### The double colon -/

theorem splitDoubleColon_append {cs : List Char} (h : ':' ∉ cs) (rest : List Char) :
    splitDoubleColon (cs ++ rest) =
      (splitDoubleColon rest).map fun (before, after) => (cs ++ before, after) := by
  induction cs with
  | nil => simp
  | cons c cs ih =>
      have hc : c ≠ ':' := fun heq => h (heq ▸ List.mem_cons_self)
      rw [List.cons_append, splitDoubleColon, ih fun hmem => h (List.mem_cons_of_mem _ hmem)]
      · cases splitDoubleColon rest <;> rfl
      · rintro rest' rfl
        exact absurd rfl hc

theorem splitDoubleColon_colonGroups (groups : List Nat) (rest : List Char) :
    splitDoubleColon (colonGroups groups ++ rest) =
      (splitDoubleColon rest).map fun (before, after) => (colonGroups groups ++ before, after) := by
  induction groups with
  | nil => simp [colonGroups]
  | cons g groups ih =>
      have hgroup : ∃ c cs, Text.hex g = c :: cs ∧ c ≠ ':' := by
        cases hhex : Text.hex g with
        | nil => exact absurd hhex Nat.toDigits_ne_nil
        | cons c cs => exact ⟨c, cs, rfl, fun heq => colon_not_mem_hex g (by simp [hhex, heq])⟩
      obtain ⟨c, cs, hhex, hc⟩ := hgroup
      show splitDoubleColon ((':' :: Text.hex g ++ colonGroups groups) ++ rest) = _
      rw [List.append_assoc, List.cons_append, splitDoubleColon,
        splitDoubleColon_append (colon_not_mem_hex g), ih]
      · cases splitDoubleColon rest <;> simp [colonGroups]
      · rintro rest' - heq
        rw [hhex] at heq
        exact hc (List.cons.inj heq).1

/-- Groups are cut at the first double colon behind them, if there is one. -/
theorem splitDoubleColon_groupsText (groups : List Nat) (rest : List Char) :
    splitDoubleColon (groupsText groups ++ rest) =
      (splitDoubleColon rest).map fun (before, after) => (groupsText groups ++ before, after) := by
  cases groups with
  | nil => simp [groupsText]
  | cons g groups =>
      rw [groupsText_cons, List.append_assoc, splitDoubleColon_append (colon_not_mem_hex g),
        splitDoubleColon_colonGroups]
      cases splitDoubleColon rest <;> simp

theorem longestZeroRun_length {groups : List Nat} {start run : Nat}
    (h : longestZeroRun groups = some (start, run)) : run = zeroRun (groups.drop start) := by
  have hrun : ∀ (is : List Nat) (best : Option (Nat × Nat)),
      (∀ r ∈ best, r.2 = zeroRun (groups.drop r.1)) →
      ∀ r ∈ is.foldl (fun best i =>
        let run := zeroRun (groups.drop i)
        if run ≥ 2 ∧ (best.map (·.2)).getD 1 < run then some (i, run) else best) best,
      r.2 = zeroRun (groups.drop r.1) := by
    intro is
    induction is with
    | nil => exact fun best hbest => hbest
    | cons i is ih =>
        intro best hbest
        refine ih _ ?_
        dsimp only
        split
        · rintro r ⟨⟩
          rfl
        · exact hbest
  exact hrun _ none (by simp) (start, run) h

theorem longestZeroRun_spec {groups : List Nat} {start run : Nat}
    (h : longestZeroRun groups = some (start, run)) :
    groups = groups.take start ++ List.replicate run 0 ++ groups.drop (start + run) := by
  have hzeros : (groups.drop start).takeWhile (· = 0) = List.replicate run 0 := by
    refine List.eq_replicate_iff.mpr ⟨(longestZeroRun_length h).symm, fun g hg => ?_⟩
    exact of_decide_eq_true (List.mem_takeWhile_imp (p := (· = 0)) hg)
  have hsplit := List.takeWhile_append_dropWhile (p := (· = 0)) (l := groups.drop start)
  rw [hzeros] at hsplit
  have htail : (groups.drop start).dropWhile (· = 0) = groups.drop (start + run) :=
    calc (groups.drop start).dropWhile (· = 0)
        = (List.replicate run 0 ++ (groups.drop start).dropWhile (· = 0)).drop run := by
          rw [List.drop_left' List.length_replicate]
      _ = (groups.drop start).drop run := by rw [hsplit]
      _ = groups.drop (start + run) := List.drop_drop
  rw [← htail, List.append_assoc, hsplit, List.take_append_drop]

theorem length_address6? {cs : List Char} {groups : List Nat} (h : address6? cs = some groups) :
    groups.length = 8 := by
  rw [address6?] at h
  split at h
  · obtain ⟨-, hlength⟩ := Option.filter_eq_some_iff.mp h
    exact of_decide_eq_true hlength
  · obtain ⟨front, -, h⟩ := Option.bind_eq_some_iff.mp h
    obtain ⟨back, -, h⟩ := Option.bind_eq_some_iff.mp h
    split at h
    · exact absurd h (by simp)
    next hshort =>
      rw [← Option.some.inj h]
      simp only [List.length_append, List.length_replicate]
      omega

/-- An address that is read from the text of one is that address. -/
theorem eq_of_address6?_text {groups groups' : List Nat} (hlength : groups.length = 8)
    (h : address6? (address6Text groups).toList = some groups') : groups' = groups := by
  rw [address6Text, String.toList_ofList] at h
  cases hzeros : longestZeroRun groups with
  | none =>
      rw [hzeros] at h
      dsimp only at h
      have hnone : splitDoubleColon (groupsText groups) = none := by
        have happend := splitDoubleColon_groupsText groups []
        rwa [List.append_nil] at happend
      rw [address6?, hnone] at h
      obtain ⟨hread, -⟩ := Option.filter_eq_some_iff.mp h
      exact eq_of_groups?_text hread
  | some r =>
      obtain ⟨start, run⟩ := r
      have hgroups := longestZeroRun_spec hzeros
      have hsplit : splitDoubleColon (groupsText (groups.take start) ++ [':', ':'] ++
          groupsText (groups.drop (start + run))) =
            some (groupsText (groups.take start), groupsText (groups.drop (start + run))) := by
        rw [List.append_assoc, splitDoubleColon_groupsText]
        simp [splitDoubleColon]
      rw [hzeros] at h
      dsimp only at h
      rw [address6?, hsplit] at h
      obtain ⟨front, hfront, h⟩ := Option.bind_eq_some_iff.mp h
      obtain ⟨back, hback, h⟩ := Option.bind_eq_some_iff.mp h
      rw [eq_of_groups?_text hfront, eq_of_groups?_text hback] at h
      split at h
      · exact absurd h (by simp)
      · have hrun : 8 - (groups.take start).length - (groups.drop (start + run)).length = run := by
          have hsum := congrArg List.length hgroups
          simp only [List.length_append, List.length_replicate] at hsum
          omega
        rw [← Option.some.inj h, hrun]
        exact hgroups.symm

end LanguageClient.Uri
