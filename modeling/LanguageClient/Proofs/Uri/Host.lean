import LanguageClient.Proofs.Uri.Domain
import LanguageClient.Proofs.Uri.Percent
import LanguageClient.Uri.Url

/-!
# Hosts and authorities read again

A host that was read is written so that it is found again in front of a port, and so that reading it again
changes nothing (`HostText`): a domain name in ASCII is left alone, an address is written in its canonical
form, any other host is encoded. The same holds of an authority (`AuthorityText`), whose user
information is encoded, so that its marks are found again, and whose port is a number without
leading zeros.

Reading again may refuse what was read before (a domain name may turn out to be longer than its Punycode).
What matters is that it never reads anything else.
-/

namespace LanguageClient.Uri

/-! ## Characters -/

/-- A character that neither ends what stands in front of query and fragment nor is dropped at its ends. -/
def FrontChar (c : Char) : Prop := 0x20 < c.toNat ∧ c ≠ '?' ∧ c ≠ '#'

/-- A character of a host. -/
def HostChar (c : Char) : Prop := FrontChar c ∧ c ≠ '/' ∧ c ≠ '\\' ∧ c ≠ '@' ∧ c ≠ '|'

instance : DecidablePred FrontChar := fun _ => inferInstanceAs (Decidable (_ ∧ _))
instance : DecidablePred HostChar := fun _ => inferInstanceAs (Decidable (_ ∧ _))

theorem hostChar_of_allowed {c : Char} (h : Plain c ∧ forbiddenInDomain c = false) :
    HostChar c ∧ c ≠ ':' ∧ c ≠ '[' ∧ c ≠ '%' :=
  Text.of_ascii (P := fun c => forbiddenInDomain c = false → HostChar c ∧ c ≠ ':' ∧ c ≠ '[' ∧ c ≠ '%')
    (by decide) h.1.1 h.2

/-! ## Ports behind hosts -/

theorem splitPort_append {cs tail : List Char} (hcs : ∀ c ∈ cs, c ≠ ':' ∧ c ≠ '[')
    (htail : tail = [] ∨ tail.head? = some ':') : splitPort false (cs ++ tail) = (cs, tail) := by
  induction cs with
  | nil =>
      cases tail with
      | nil => rfl
      | cons c rest =>
          obtain rfl : c = ':' := by simpa using htail
          rfl
  | cons c rest ih =>
      obtain ⟨⟨hcolon, hopen⟩, hrest⟩ := List.forall_mem_cons.mp hcs
      rw [List.cons_append, splitPort, if_neg fun h => hcolon h.1, if_neg hopen]
      dsimp only
      rw [ite_self, ih hrest]

theorem splitPort_inside {cs : List Char} (hcs : ∀ c ∈ cs, c ≠ '[' ∧ c ≠ ']') (tail : List Char) :
    splitPort true (cs ++ ']' :: tail) =
      (cs ++ ']' :: (splitPort false tail).1, (splitPort false tail).2) := by
  induction cs with
  | nil => rfl
  | cons c rest ih =>
      obtain ⟨⟨hopen, hclose⟩, hrest⟩ := List.forall_mem_cons.mp hcs
      rw [List.cons_append, splitPort, if_neg (by simp), if_neg hopen, if_neg hclose]
      dsimp only
      rw [ih hrest]
      rfl

/-! ## Hosts -/

/-- A host is written as it is read again, and is found in front of a port. -/
structure HostText (read : List Char → Option (List Char)) (text : List Char) : Prop where
  chars : ∀ c ∈ text, HostChar c
  again : ∀ text', read text = some text' → text' = text
  port : ∀ tail, tail = [] ∨ tail.head? = some ':' → splitPort false (text ++ tail) = (text, tail)

theorem HostText.not_isDriveName {read : List Char → Option (List Char)} {text : List Char}
    (h : HostText read text) : isDriveName text = false := by
  rw [isDriveName.eq_def]
  split
  next c mark =>
    rw [Bool.and_eq_false_iff]
    by_cases hmark : mark = ':'
    · subst hmark
      have hport := h.port [] (Or.inl rfl)
      have hbracket : c = '[' := by
        by_contra hopen
        have hcolon : c ≠ ':' := by
          rintro rfl
          exact absurd hport (by decide)
        rw [List.append_nil, splitPort, if_neg fun h => hcolon h.1, if_neg hopen] at hport
        dsimp only at hport
        rw [ite_self] at hport
        exact absurd (congrArg Prod.snd hport) (by simp [splitPort])
      exact Or.inl (hbracket ▸ by decide)
    · have hbar := (h.chars mark (by simp)).2.2.2.2
      exact Or.inr (by simp [hmark, hbar])
  next => rfl

theorem mem_address6Text {c : Char} {groups : List Nat} (h : c ∈ (address6Text groups).toList) :
    c ∈ ":0123456789abcdef".toList := by
  rw [address6Text, String.toList_ofList] at h
  split at h
  · exact mem_groupsText h
  · rcases List.mem_append.mp h with h | h
    · rcases List.mem_append.mp h with h | h
      · exact mem_groupsText h
      · have hcolons : ∀ c ∈ [':', ':'], c ∈ ":0123456789abcdef".toList :=
          Text.forall_mem_of_all (by decide)
        exact hcolons c h
    · exact mem_groupsText h

theorem bracketedHost?_hostText {read : List Char → Option (List Char)} {cs text : List Char}
    (hread : ∀ cs, read ('[' :: cs) = bracketedHost? cs) (h : bracketedHost? cs = some text) :
    HostText read text ∧ text ≠ [] := by
  rw [bracketedHost?] at h
  split at h
  next =>
    obtain ⟨groups, hgroups, rfl⟩ := Option.map_eq_some_iff.mp h
    have hchars : ∀ c ∈ ":0123456789abcdef".toList, HostChar c ∧ c ≠ '[' ∧ c ≠ ']' :=
      Text.forall_mem_of_all (by decide)
    refine ⟨⟨?_, ?_, ?_⟩, by simp⟩
    · intro c hc
      rcases List.mem_cons.mp hc with rfl | hc
      · decide
      · rcases List.mem_append.mp hc with hc | hc
        · exact (hchars c (mem_address6Text hc)).1
        · rw [List.mem_singleton.mp hc]
          decide
    · intro text' htext'
      rw [List.cons_append, hread, bracketedHost?, if_pos List.getLast?_concat,
        List.dropLast_concat] at htext'
      obtain ⟨groups', hgroups', rfl⟩ := Option.map_eq_some_iff.mp htext'
      rw [eq_of_address6?_text (length_address6? hgroups) hgroups']
    · intro tail htail
      have hinside : ∀ c ∈ (address6Text groups).toList, c ≠ '[' ∧ c ≠ ']' :=
        fun c hc => (hchars c (mem_address6Text hc)).2
      have hbehind : splitPort false ([] ++ tail) = ([], tail) := splitPort_append (by simp) htail
      rw [List.nil_append] at hbehind
      rw [List.cons_append, List.cons_append, List.append_assoc, splitPort, if_neg (by simp), if_pos rfl]
      dsimp only
      rw [List.singleton_append, splitPort_inside hinside, hbehind]
  next => exact absurd h nofun

theorem domainHost?_of_head {cs : List Char} (h : cs.head? ≠ some '[') :
    domainHost? cs = (Utf8.decode? (percentDecode cs)).bind fun name =>
      (domainToAscii? name.toList).bind fun ascii =>
        if ascii.isEmpty then none
        else if endsInNumber ascii then (address4? ascii).map fun n => (address4Text n).toList
        else some ascii := by
  rw [domainHost?.eq_def]
  split
  · exact absurd rfl h
  · rfl

theorem head?_ne_of_not_mem {mark : Char} {cs : List Char} (h : mark ∉ cs) : cs.head? ≠ some mark :=
  fun hhead => h (List.mem_of_mem_head? hhead)

/-- A domain name in ASCII is read as itself or as an address. -/
theorem domainHost?_allowed {cs text : List Char} (hcs : ∀ c ∈ cs, Plain c ∧ forbiddenInDomain c = false)
    (h : domainHost? cs = some text) :
    text = cs ∨ endsInNumber cs = true ∧ ∃ n, address4? cs = some n ∧ text = (address4Text n).toList := by
  have hpercent : '%' ∉ cs := fun hmem => (hostChar_of_allowed (hcs _ hmem)).2.2.2 rfl
  have hdecode : Utf8.decode? (percentDecode cs) = some (String.ofList cs) := by
    rw [percentDecode_of_not_mem hpercent, ← Utf8.decode?_encode, Utf8.encode, String.toList_ofList]
  have hopen : '[' ∉ cs := fun hmem => (hostChar_of_allowed (hcs _ hmem)).2.2.1 rfl
  rw [domainHost?_of_head (head?_ne_of_not_mem hopen), hdecode, Option.bind_some, String.toList_ofList] at h
  obtain ⟨ascii, hascii, h⟩ := Option.bind_eq_some_iff.mp h
  rw [eq_of_domainToAscii?_plain (fun c hc => (hcs c hc).1) hascii] at h
  split at h
  · exact absurd h (by simp)
  split at h
  next hnumber =>
    obtain ⟨n, hn, rfl⟩ := Option.map_eq_some_iff.mp h
    exact Or.inr ⟨hnumber, n, hn, rfl⟩
  · exact Or.inl (Option.some.inj h).symm

theorem allowed_address4Text {n : Nat} :
    ∀ c ∈ (address4Text n).toList, Plain c ∧ forbiddenInDomain c = false := by
  have hdigit : ∀ c : Char, c.isDigit → Plain c ∧ forbiddenInDomain c = false := by
    intro c hc
    exact Text.of_ascii (P := fun c => c.isDigit → Plain c ∧ forbiddenInDomain c = false) (by decide)
      (Text.isDigit_ascii hc) hc
  intro c hc
  rw [address4Text_toList] at hc
  rcases mem_intercalate hc with rfl | ⟨part, hpart, hmem⟩
  · decide
  · obtain ⟨m, -, rfl⟩ := List.mem_map.mp hpart
    exact hdigit c (Nat.isDigit_of_mem_toDigits (by decide) (by decide) hmem)

theorem domainHost?_hostText {cs text : List Char} (h : domainHost? cs = some text) :
    HostText domainHost? text ∧ text ≠ [] := by
  have hwritten : ∀ text : List Char, (∀ c ∈ text, Plain c ∧ forbiddenInDomain c = false) →
      (∀ text', domainHost? text = some text' → text' = text) → HostText domainHost? text := by
    intro text hallowed hagain
    refine ⟨fun c hc => (hostChar_of_allowed (hallowed c hc)).1, hagain, fun tail htail => ?_⟩
    refine splitPort_append (fun c hc => ?_) htail
    exact ⟨(hostChar_of_allowed (hallowed c hc)).2.1, (hostChar_of_allowed (hallowed c hc)).2.2.1⟩
  by_cases hhead : cs.head? = some '['
  · obtain ⟨rest, rfl⟩ := List.head?_eq_some_iff.mp hhead
    exact bracketedHost?_hostText (fun _ => rfl) h
  · rw [domainHost?_of_head hhead] at h
    obtain ⟨name, -, h⟩ := Option.bind_eq_some_iff.mp h
    obtain ⟨ascii, hascii, h⟩ := Option.bind_eq_some_iff.mp h
    have hallowed := plain_domainToAscii? hascii
    split at h
    · exact absurd h nofun
    next hne =>
    split at h
    next hnumber =>
      -- an address, written with four decimal parts
      obtain ⟨n, -, rfl⟩ := Option.map_eq_some_iff.mp h
      refine ⟨hwritten _ allowed_address4Text fun text' htext' => ?_, by simp [address4Text]⟩
      rcases domainHost?_allowed allowed_address4Text htext' with rfl | ⟨-, m, hm, rfl⟩
      · rfl
      · rw [address4?_text] at hm
        rw [← Option.some.inj hm, address4Text_mod]
    next hnumber =>
      obtain rfl := Option.some.inj h
      refine ⟨hwritten _ hallowed fun text' htext' => ?_, by simpa using hne⟩
      exact (domainHost?_allowed hallowed htext').resolve_right fun h => hnumber h.1

theorem opaqueHost?_hostText {cs text : List Char} (h : opaqueHost? cs = some text) :
    HostText opaqueHost? text ∧ (text = [] ↔ cs = []) := by
  rw [opaqueHost?.eq_def] at h
  split at h
  · have hbracketed : HostText opaqueHost? text ∧ text ≠ [] := bracketedHost?_hostText (fun _ => rfl) h
    exact ⟨hbracketed.1, by simp [hbracketed.2]⟩
  next hhead =>
    split at h
    · exact absurd h nofun
    next hallowed =>
      obtain rfl := Option.some.inj h
      have hencoded : Encoded controlSet (percentEncode controlSet cs) := encoded_percentEncode (by decide) cs
      have hforbidden : ∀ c ∈ percentEncode controlSet cs, forbiddenInHost c = false := by
        refine forall_mem_percentEncode (by decide) fun c hc => Bool.eq_false_iff.mpr fun hf => ?_
        exact hallowed (List.any_eq_true.mpr ⟨c, hc, hf⟩)
      have hchars : ∀ c ∈ percentEncode controlSet cs, HostChar c ∧ c ≠ ':' ∧ c ≠ '[' := by
        intro c hc
        exact hencoded.forall_mem (P := fun c => forbiddenInHost c = false → HostChar c ∧ c ≠ ':' ∧ c ≠ '[')
          (by decide) c hc (hforbidden c hc)
      refine ⟨⟨fun c hc => (hchars c hc).1, fun text' htext' => ?_, fun tail htail => ?_⟩,
        percentEncode_eq_nil⟩
      · rw [opaqueHost?.eq_def] at htext'
        split at htext'
        next heq =>
          exact absurd rfl (hchars '[' (heq ▸ List.mem_cons_self)).2.2
        next =>
          rw [if_neg (by simpa using hforbidden), hencoded.percentEncode_eq] at htext'
          exact (Option.some.inj htext').symm
      · exact splitPort_append (fun c hc => (hchars c hc).2) htail

/-! ## Parts of an authority -/

/-- The user information, and what follows it. -/
def splitUser? (cs : List Char) (atEnd : Bool) : Option (List Char × List Char) :=
  match splitLast '@' cs with
  | none => some ([], cs)
  | some ([], rest) => if rest.isEmpty ∧ ¬ atEnd then none else some ([], rest)
  | some (user, rest) => some (userInfo user, rest)

/-- The host of a scheme of either kind. -/
def readHost? (special : Bool) (host : List Char) : Option (List Char) :=
  if special then (if host.isEmpty then none else domainHost? host) else opaqueHost? host

/-- The port with the colon in front of it, if there is one. -/
def readPort? (scheme : String) : List Char → Option (List Char)
  | [] => some []
  | _ :: digits => portText? scheme digits

/-- Host and port, behind a user information. -/
def readHostPort? (scheme : String) (special : Bool) (user : List Char) (parts : List Char × List Char) :
    Option (List Char × Bool) :=
  (readHost? special parts.1).bind fun hostText =>
    if parts.1.isEmpty ∧ (¬ parts.2.isEmpty ∨ ¬ user.isEmpty) then none
    else (readPort? scheme parts.2).bind fun portText =>
      some (user ++ hostText ++ portText, decide (¬ parts.1.isEmpty))

theorem authority?_eq (scheme : String) (special : Bool) (cs : List Char) (atEnd : Bool) :
    authority? scheme special cs atEnd = (splitUser? cs atEnd).bind fun p =>
      readHostPort? scheme special p.1 (splitPort false p.2) := by
  rw [authority?, splitUser?]
  rcases splitLast '@' cs with _ | ⟨_ | ⟨c, user⟩, rest⟩
  · simp only [Option.bind_eq_bind, Option.bind_some]
    rcases splitPort false cs with ⟨host, _ | ⟨colon, digits⟩⟩ <;> cases special <;> rfl
  · dsimp only
    split
    · rfl
    · simp only [Option.bind_eq_bind, Option.bind_some]
      rcases splitPort false rest with ⟨host, _ | ⟨colon, digits⟩⟩ <;> cases special <;> rfl
  · simp only [Option.bind_eq_bind, Option.bind_some]
    rcases splitPort false rest with ⟨host, _ | ⟨colon, digits⟩⟩ <;> cases special <;> rfl

/-! ### User information -/

/-- An encoded name and an encoded password with their marks; a password that is empty has none. -/
def userInfoText (name password : List Char) : List Char :=
  if name.isEmpty ∧ password.isEmpty then []
  else if password.isEmpty then name ++ ['@'] else name ++ ':' :: password ++ ['@']

theorem userInfo_eq (cs : List Char) : userInfo cs = userInfoText
    (percentEncode userInfoSet (cs.takeWhile (· ≠ ':')))
    (percentEncode userInfoSet ((cs.dropWhile (· ≠ ':')).drop 1)) := rfl

theorem hostChar_of_encoded {cs : List Char} (h : Encoded userInfoSet cs) : ∀ c ∈ cs, HostChar c ∧ c ≠ ':' :=
  h.forall_mem (by decide +kernel)

theorem userInfo_append {name password : List Char} (hname : Encoded userInfoSet name)
    (hpassword : Encoded userInfoSet password) {tail : List Char}
    (htail : tail = [] ∧ password = [] ∨ tail = ':' :: password) :
    userInfo (name ++ tail) = userInfoText name password := by
  have hcolon : ∀ c ∈ name, decide (c ≠ ':') = true :=
    fun c hc => decide_eq_true (hostChar_of_encoded hname c hc).2
  have hbehind : ∀ c ∈ tail.head?, decide (c ≠ ':') = false := by
    rcases htail with ⟨rfl, -⟩ | rfl
    · exact nofun
    · simp
  obtain ⟨hfront, hback⟩ := Text.cut_append hcolon hbehind
  have hdrop : tail.drop 1 = password := by
    rcases htail with ⟨rfl, rfl⟩ | rfl <;> rfl
  rw [userInfo_eq, hfront, hback, hdrop, hname.percentEncode_eq, hpassword.percentEncode_eq]

/-- A user information is written so that it is read again, with a mark behind it that it does not hold. -/
theorem userInfo_cases (cs : List Char) : userInfo cs = [] ∨
    ∃ user, userInfo cs = user ++ ['@'] ∧ user ≠ [] ∧ userInfo user = userInfo cs ∧
      ∀ c ∈ user, HostChar c := by
  rw [userInfo_eq]
  have hname : Encoded userInfoSet (percentEncode userInfoSet (cs.takeWhile (· ≠ ':'))) :=
    encoded_percentEncode (by decide) _
  have hpassword : Encoded userInfoSet (percentEncode userInfoSet ((cs.dropWhile (· ≠ ':')).drop 1)) :=
    encoded_percentEncode (by decide) _
  generalize percentEncode userInfoSet (cs.takeWhile (· ≠ ':')) = name at hname ⊢
  generalize percentEncode userInfoSet ((cs.dropWhile (· ≠ ':')).drop 1) = password at hpassword ⊢
  have hchars : ∀ c ∈ name, HostChar c := fun c hc => (hostChar_of_encoded hname c hc).1
  by_cases hempty : password = []
  · subst hempty
    by_cases hnone : name = []
    · exact Or.inl (by rw [hnone]; rfl)
    · have htext : userInfoText name [] = name ++ ['@'] := by simp [userInfoText, hnone]
      have hsame := userInfo_append hname hpassword (Or.inl ⟨rfl, rfl⟩)
      rw [List.append_nil] at hsame
      exact Or.inr ⟨name, htext, hnone, hsame, hchars⟩
  · have htext : userInfoText name password = (name ++ ':' :: password) ++ ['@'] := by
      simp [userInfoText, hempty]
    refine Or.inr ⟨name ++ ':' :: password, htext, by simp, userInfo_append hname hpassword (Or.inr rfl), ?_⟩
    refine List.forall_mem_append.mpr ⟨hchars, List.forall_mem_cons.mpr ⟨by decide, fun c hc => ?_⟩⟩
    exact (hostChar_of_encoded hpassword c hc).1

theorem splitLast_of_not_mem {mark : Char} {cs : List Char} (h : mark ∉ cs) : splitLast mark cs = none := by
  rw [splitLast, splitAt_eq_splitOn, List.splitOn_eq_singleton h]
  rfl

theorem splitLast_append {mark : Char} {cs ds : List Char} (hcs : mark ∉ cs) (hds : mark ∉ ds) :
    splitLast mark (cs ++ mark :: ds) = some (cs, ds) := by
  rw [splitLast, splitAt_eq_splitOn, List.splitOn_append_cons_self_of_not_mem hcs,
    List.splitOn_eq_singleton hds]
  simp

/-- Whatever user information is read, it is read again in front of a host. -/
theorem splitUser?_again {cs user rest : List Char} {atEnd : Bool}
    (h : splitUser? cs atEnd = some (user, rest)) {hostPort : List Char} (hmark : '@' ∉ hostPort)
    (atEnd' : Bool) :
    splitUser? (user ++ hostPort) atEnd' = some (user, hostPort) ∧
      ∀ c ∈ user, FrontChar c ∧ c ≠ '/' ∧ c ≠ '\\' := by
  have hnone : splitUser? ([] ++ hostPort) atEnd' = some ([], hostPort) := by
    rw [List.nil_append, splitUser?, splitLast_of_not_mem hmark]
  have hsome : ∀ cs, splitUser? (userInfo cs ++ hostPort) atEnd' = some (userInfo cs, hostPort) ∧
      ∀ c ∈ userInfo cs, FrontChar c ∧ c ≠ '/' ∧ c ≠ '\\' := by
    intro cs
    rcases userInfo_cases cs with hempty | ⟨user, huser, hne, hsame, hchars⟩
    · rw [hempty]
      exact ⟨hnone, fun c hc => absurd hc List.not_mem_nil⟩
    · rw [huser]
      constructor
      · rw [List.append_assoc, List.singleton_append, splitUser?,
          splitLast_append (fun hmem => (hchars _ hmem).2.2.2.1 rfl) hmark]
        obtain ⟨c, more, rfl⟩ := List.exists_cons_of_ne_nil hne
        rw [← huser, ← hsame]
      · intro c hc
        rcases List.mem_append.mp hc with hc | hc
        · exact ⟨(hchars c hc).1, (hchars c hc).2.1, (hchars c hc).2.2.1⟩
        · rw [List.mem_singleton.mp hc]
          decide
  rw [splitUser?] at h
  split at h
  · obtain ⟨rfl, -⟩ := Prod.mk.inj (Option.some.inj h)
    exact ⟨hnone, fun c hc => absurd hc List.not_mem_nil⟩
  · split at h
    · exact absurd h nofun
    · obtain ⟨rfl, -⟩ := Prod.mk.inj (Option.some.inj h)
      exact ⟨hnone, fun c hc => absurd hc List.not_mem_nil⟩
  · obtain ⟨rfl, -⟩ := Prod.mk.inj (Option.some.inj h)
    exact hsome _

/-! ### Port and host -/

theorem readPort?_again {scheme : String} {port text : List Char} (h : readPort? scheme port = some text) :
    readPort? scheme text = some text ∧ (text = [] ∨ text.head? = some ':') ∧ ∀ c ∈ text, HostChar c := by
  have hempty : readPort? scheme [] = some [] ∧ (([] : List Char) = [] ∨ ([] : List Char).head? = some ':') ∧
      ∀ c ∈ ([] : List Char), HostChar c := ⟨rfl, Or.inl rfl, fun c hc => absurd hc List.not_mem_nil⟩
  cases port with
  | nil =>
      obtain rfl := Option.some.inj h
      exact hempty
  | cons c digits =>
      obtain ⟨n, hn, h⟩ := Option.bind_eq_some_iff.mp h
      split at h
      · exact absurd h nofun
      next hrange =>
      split at h
      · obtain rfl := Option.some.inj h
        exact hempty
      next hown =>
        obtain rfl := Option.some.inj h
        rw [not_or] at hown
        have hdigits : (toString n).toList = Nat.toDigits 10 n := Nat.toList_repr
        refine ⟨?_, Or.inr rfl, ?_⟩
        · have hfilled : ¬ ((toString n).toList.isEmpty ∨ defaultPort? scheme = some n) := by
            rw [hdigits, not_or]
            exact ⟨by simp, hown.2⟩
          rw [readPort?, portText?, hdigits, Text.digitsValue?_toDigits]
          show (if n > 65535 then none else _) = _
          rw [if_neg hrange, ← hdigits, if_neg hfilled]
        · intro c hc
          rcases List.mem_cons.mp hc with rfl | hc
          · decide
          · rw [hdigits] at hc
            have hdigit := Nat.isDigit_of_mem_toDigits (by decide) (by decide) hc
            exact Text.of_ascii (P := fun c => c.isDigit → HostChar c) (by decide)
              (Text.isDigit_ascii hdigit) hdigit

theorem readHost?_hostText {special : Bool} {host text : List Char} (h : readHost? special host = some text) :
    HostText (readHost? special) text ∧ (text = [] ↔ host = []) ∧ (special = true → text ≠ []) := by
  cases special with
  | false =>
      obtain ⟨htext, hempty⟩ := opaqueHost?_hostText h
      exact ⟨htext, hempty, nofun⟩
  | true =>
      rw [readHost?, if_pos rfl] at h
      split at h
      · exact absurd h nofun
      next hsome =>
        obtain ⟨htext, hne⟩ := domainHost?_hostText h
        refine ⟨⟨htext.chars, fun text' htext' => ?_, htext.port⟩, ?_, fun _ => hne⟩
        · rw [readHost?, if_pos rfl, if_neg (by simpa using hne)] at htext'
          exact htext.again text' htext'
        · simp [hne, List.isEmpty_iff.not.mp hsome]

/-! ## Authorities -/

/-- An authority is written as it is read again, and ends where a path may begin. -/
structure AuthorityText (scheme : String) (special : Bool) (text : List Char) (hasHost : Bool) : Prop where
  chars : ∀ c ∈ text, FrontChar c ∧ c ≠ '/' ∧ c ≠ '\\'
  again : ∀ atEnd r, authority? scheme special text atEnd = some r → r = (text, hasHost)
  ne_nil : special = true → text ≠ []

theorem authority?_authorityText {scheme : String} {special atEnd hasHost : Bool} {cs text : List Char}
    (h : authority? scheme special cs atEnd = some (text, hasHost)) :
    AuthorityText scheme special text hasHost := by
  rw [authority?_eq] at h
  obtain ⟨⟨user, hostPort⟩, huser, h⟩ := Option.bind_eq_some_iff.mp h
  dsimp only at h
  generalize splitPort false hostPort = parts at h
  obtain ⟨host, port⟩ := parts
  obtain ⟨hostText, hhost, h⟩ := Option.bind_eq_some_iff.mp h
  split at h
  · exact absurd h nofun
  next hfilled =>
    obtain ⟨portText, hport, h⟩ := Option.bind_eq_some_iff.mp h
    obtain ⟨rfl, rfl⟩ := Prod.mk.inj (Option.some.inj h)
    obtain ⟨hhostText, hempty, hne⟩ := readHost?_hostText hhost
    obtain ⟨hportAgain, hcolon, hportChars⟩ := readPort?_again hport
    have hmark : '@' ∉ hostText ++ portText := by
      intro hmem
      rcases List.mem_append.mp hmem with hmem | hmem
      · exact (hhostText.chars _ hmem).2.2.2.1 rfl
      · exact (hportChars _ hmem).2.2.2.1 rfl
    have huserAgain := fun atEnd' => splitUser?_again huser hmark atEnd'
    refine ⟨?_, ?_, ?_⟩
    · intro c hc
      have hplain : ∀ c, HostChar c → FrontChar c ∧ c ≠ '/' ∧ c ≠ '\\' := fun c hc => ⟨hc.1, hc.2.1, hc.2.2.1⟩
      rcases List.mem_append.mp hc with hc | hc
      · rcases List.mem_append.mp hc with hc | hc
        · exact (huserAgain true).2 c hc
        · exact hplain c (hhostText.chars c hc)
      · exact hplain c (hportChars c hc)
    · intro atEnd' r hr
      rw [List.append_assoc, authority?_eq, (huserAgain atEnd').1, Option.bind_some] at hr
      dsimp only at hr
      rw [hhostText.port portText hcolon] at hr
      obtain ⟨hostText', hhost', hr⟩ := Option.bind_eq_some_iff.mp hr
      obtain rfl := hhostText.again hostText' hhost'
      split at hr
      · exact absurd hr nofun
      · dsimp only at hr
        rw [hportAgain, Option.bind_some] at hr
        have hsame : hostText'.isEmpty = host.isEmpty := by
          rw [Bool.eq_iff_iff, List.isEmpty_iff, List.isEmpty_iff, hempty]
        rw [← Option.some.inj hr, hsame]
    · intro hspecial hnil
      exact hne hspecial (List.append_eq_nil_iff.mp (List.append_eq_nil_iff.mp hnil).1).2

end LanguageClient.Uri
