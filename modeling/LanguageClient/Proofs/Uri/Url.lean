import LanguageClient.Proofs.Uri.Path
import LanguageClient.Uri.Reference

/-!
# URLs read again

The text of a URL that was read is read as that URL, if it is read at all (`Url.Settled.eq_of_read?`). The
parts of the text are found where they were put, since none holds the mark that ends it: query and
fragment behind their marks, the scheme in front of its colon, and in between a front of one of three
shapes (`FrontText`), each made of an authority and a path that are read again by themselves.

Controls and spaces at the ends of a text are dropped when it is read. Encoded parts have none; a path
without slashes keeps its spaces, and is then no part of a URI reference.
-/

namespace LanguageClient.Uri

/-! ## Fronts -/

/-- What stands between the scheme and the query. -/
def frontChars (authority : Option (List Char)) (path : UrlPath) : List Char :=
  match authority with
  | some text => '/' :: '/' :: (text ++ path.chars)
  | none => (if path.chars.take 2 = ['/', '/'] then ['/', '.'] else []) ++ path.chars

/-- What follows the name of a scheme that is neither of files nor of the web. -/
def readOther (scheme : String) (front : List Char) (atEnd : Bool) :
    Option (Option (List Char) × Bool × UrlPath) :=
  match front with
  | '/' :: '/' :: more =>
      (authority? scheme false (more.takeWhile (· ≠ '/')) (atEnd && (more.dropWhile (· ≠ '/')).isEmpty)).map
        fun r => (some r.1, r.2, pathAfterAuthority false (more.dropWhile (· ≠ '/')))
  | '/' :: more => some (none, false, segmentsOf false more)
  | front => some (none, false, .opaquePath (percentEncode controlSet front))

/-- Reads what stands between the scheme and the query: authority, host and path. -/
def readFront (scheme : String) (front : List Char) (atEnd : Bool) :
    Option (Option (List Char) × Bool × UrlPath) :=
  match SchemeKind.of scheme with
  | .file => (readFile front).map fun r => (some r.1, r.2)
  | .web => (readWeb scheme front atEnd).map fun r => (some r.1, r.2)
  | .other => readOther scheme front atEnd

/-- A front is written as it is read again, and ends where a query may begin. -/
structure FrontText (scheme : String) (authority : Option (List Char)) (hasHost : Bool) (path : UrlPath) :
    Prop where
  marks : ∀ c ∈ frontChars authority path, c ≠ '?' ∧ c ≠ '#'
  visible : (frontChars authority path).head? = some '/' → ∀ c ∈ frontChars authority path, 0x20 < c.toNat
  again : ∀ atEnd r, readFront scheme (frontChars authority path) atEnd = some r →
    r = (authority, hasHost, path)

theorem FrontText.of_chars {scheme : String} {authority : Option (List Char)} {hasHost : Bool}
    {path : UrlPath} (hchars : ∀ c ∈ frontChars authority path, FrontChar c)
    (hagain : ∀ atEnd r, readFront scheme (frontChars authority path) atEnd = some r →
      r = (authority, hasHost, path)) : FrontText scheme authority hasHost path :=
  ⟨fun c hc => (hchars c hc).2, fun _ c hc => (hchars c hc).1, hagain⟩

theorem frontChar_some {special : Bool} {text : List Char} {path : UrlPath} (htext : ∀ c ∈ text, FrontChar c)
    (hpath : path.Settled special) : ∀ c ∈ frontChars (some text) path, FrontChar c := by
  intro c hc
  rcases List.mem_cons.mp hc with rfl | hc
  · decide
  rcases List.mem_cons.mp hc with rfl | hc
  · decide
  rcases List.mem_append.mp hc with hc | hc
  · exact htext c hc
  · exact hpath.frontChar c hc

theorem cut_authority {special : Bool} {text : List Char} {path : UrlPath} {p : Char → Bool}
    (htext : ∀ c ∈ text, p c = true) (hslash : p '/' = false) (hpath : path.Settled special) :
    (text ++ path.chars).takeWhile p = text ∧ (text ++ path.chars).dropWhile p = path.chars := by
  refine Text.cut_append htext fun c hc => ?_
  rcases hpath.head?_chars with hnone | hhead
  · rw [hnone] at hc
    exact absurd hc nofun
  · rw [hhead] at hc
    exact Option.some.inj hc ▸ hslash

/-! ### Files -/

/-- The host of a file URL as it is written. -/
structure FileHostText (text : List Char) (hasHost : Bool) : Prop where
  chars : ∀ c ∈ text, FrontChar c ∧ c ≠ '/' ∧ c ≠ '\\'
  not_drive : isDriveName text = false
  again : ∀ r, fileHost? text = some r → r = (text, hasHost)

theorem fileHostText_nil : FileHostText [] false where
  chars := fun _ hc => absurd hc List.not_mem_nil
  not_drive := rfl
  again := fun _ h => (Option.some.inj h).symm

theorem fileHost?_text {cs text : List Char} {hasHost : Bool} (h : fileHost? cs = some (text, hasHost)) :
    FileHostText text hasHost := by
  rw [fileHost?] at h
  split at h
  · obtain ⟨rfl, rfl⟩ := Prod.mk.inj (Option.some.inj h)
    exact fileHostText_nil
  · obtain ⟨host, hhost, h⟩ := Option.bind_eq_some_iff.mp h
    split at h
    · obtain ⟨rfl, rfl⟩ := Prod.mk.inj (Option.some.inj h)
      exact fileHostText_nil
    next hremote =>
      obtain ⟨rfl, rfl⟩ := Prod.mk.inj (Option.some.inj h)
      obtain ⟨htext, hne⟩ := domainHost?_hostText hhost
      refine ⟨fun c hc => ?_, htext.not_isDriveName, fun r hr => ?_⟩
      · obtain ⟨hfront, hslash, hback, -⟩ := htext.chars c hc
        exact ⟨hfront, hslash, hback⟩
      · rw [fileHost?, if_neg (by simpa using hne)] at hr
        obtain ⟨host', hhost', hr⟩ := Option.bind_eq_some_iff.mp hr
        rw [htext.again host' hhost', if_neg hremote] at hr
        exact (Option.some.inj hr).symm

theorem readFile_path {front text : List Char} {hasHost : Bool} {path : UrlPath}
    (h : readFile front = some (text, hasHost, path)) : FileHostText text hasHost ∧ path.Settled true := by
  rw [readFile.eq_def] at h
  split at h
  next a b rest =>
    dsimp only at h
    split at h
    · split at h
      · cases h
        exact ⟨fileHostText_nil, segmentsOf_settled true rest⟩
      · obtain ⟨⟨text', hasHost'⟩, hhost, heq⟩ := Option.map_eq_some_iff.mp h
        cases heq
        exact ⟨fileHost?_text hhost, pathAfterAuthority_settled true _⟩
    · cases h
      exact ⟨fileHostText_nil, pathAfterAuthority_settled true _⟩
  · cases h
    exact ⟨fileHostText_nil, pathAfterAuthority_settled true _⟩

theorem frontText_file {scheme : String} (hkind : SchemeKind.of scheme = .file) {text : List Char}
    {hasHost : Bool} {path : UrlPath} (htext : FileHostText text hasHost) (hpath : path.Settled true) :
    FrontText scheme (some text) hasHost path := by
  refine .of_chars (frontChar_some (fun c hc => (htext.chars c hc).1) hpath) fun atEnd r hr => ?_
  have hslash : ∀ c ∈ text, (decide (¬ (c == '/' || c == '\\') = true)) = true := by
    intro c hc
    simpa using (htext.chars c hc).2
  obtain ⟨hhost, hrest⟩ := cut_authority hslash (by simp) hpath
  rw [readFront.eq_def, hkind] at hr
  obtain ⟨r', hr', rfl⟩ := Option.map_eq_some_iff.mp hr
  rw [frontChars, readFile] at hr'
  dsimp only at hr'
  rw [if_pos (by simp), hhost, hrest, htext.not_drive, if_neg Bool.false_ne_true] at hr'
  obtain ⟨host, hread, rfl⟩ := Option.map_eq_some_iff.mp hr'
  rw [htext.again host hread, hpath.pathAfterAuthority_eq]

/-! ### The web -/

theorem frontText_web {scheme : String} (hkind : SchemeKind.of scheme = .web) {front text : List Char}
    {atEnd hasHost : Bool} {path : UrlPath} (h : readWeb scheme front atEnd = some (text, hasHost, path)) :
    FrontText scheme (some text) hasHost path := by
  obtain ⟨⟨text', hasHost'⟩, hauthority, heq⟩ := Option.bind_eq_some_iff.mp h
  obtain ⟨hsame, hpath⟩ : (text', hasHost') = (text, hasHost) ∧ pathAfterAuthority true _ = path := by
    cases heq
    exact ⟨rfl, rfl⟩
  cases hsame
  have hsettled : path.Settled true := hpath ▸ pathAfterAuthority_settled true _
  have htext := authority?_authorityText hauthority
  refine .of_chars (frontChar_some (fun c hc => (htext.chars c hc).1) hsettled) fun atEnd' r hr => ?_
  have hends : ∀ c ∈ text, (decide (¬ endsAuthority true c = true)) = true := by
    intro c hc
    simpa [endsAuthority] using (htext.chars c hc).2
  obtain ⟨hfront, hrest⟩ := cut_authority hends (by simp [endsAuthority]) hsettled
  -- the slashes in front are dropped, and no more
  have hslashes : ('/' :: '/' :: (text ++ path.chars)).dropWhile (fun c => c == '/' || c == '\\') =
      text ++ path.chars := by
    obtain ⟨c, rest, rfl⟩ := List.exists_cons_of_ne_nil (htext.ne_nil rfl)
    have hc := (htext.chars c List.mem_cons_self).2
    rw [List.dropWhile_cons_of_pos (by simp), List.dropWhile_cons_of_pos (by simp), List.cons_append,
      List.dropWhile_cons_of_neg (by simpa using hc)]
  rw [readFront.eq_def, hkind] at hr
  obtain ⟨r', hr', rfl⟩ := Option.map_eq_some_iff.mp hr
  rw [frontChars, readWeb] at hr'
  dsimp only at hr'
  rw [hslashes, hfront, hrest] at hr'
  obtain ⟨r'', hagain, hr'⟩ := Option.bind_eq_some_iff.mp hr'
  rw [htext.again _ r'' hagain, hsettled.pathAfterAuthority_eq] at hr'
  rw [← Option.some.inj hr']

/-! ### Other schemes -/

/-- A path of segments, with a dot in front if it could be taken for an authority. -/
theorem readOther_segments {scheme : String} {path : UrlPath} (hpath : path.Settled false)
    (hne : path.chars.head? = some '/') (atEnd : Bool) :
    readOther scheme (frontChars none path) atEnd = some (none, false, path) := by
  cases hpath with
  | empty => exact absurd hne nofun
  | @filled first rest hsegments =>
      have hchars : (UrlPath.segments (first :: rest)).chars =
          '/' :: (first ++ rest.flatMap ('/' :: ·)) := rfl
      rw [frontChars]
      split
      next hdouble =>
        have hdot := UrlPath.Settled.segmentsOf_dot (.filled hsegments) (by simp [hchars])
        show some (none, false, segmentsOf false ('.' :: (UrlPath.segments (first :: rest)).chars)) = _
        rw [hdot]
      next hsingle =>
        have hread : ∀ more, more.head? ≠ some '/' → readOther scheme ('/' :: more) atEnd =
            some (none, false, segmentsOf false more) := by
          intro more hmore
          rw [readOther.eq_def]
          split
          next heq => exact absurd (congrArg List.head? (List.cons.inj heq).2) hmore
          next heq => rw [(List.cons.inj heq).2]
          next hnone => exact absurd rfl (hnone more)
        rw [List.nil_append, hchars, hread, segmentsOf_parts hsegments]
        intro hhead
        rw [hchars] at hsingle
        obtain ⟨more, hmore⟩ := List.head?_eq_some_iff.mp hhead
        exact hsingle (by rw [hmore]; rfl)

theorem readFront_other {scheme : String} (hkind : SchemeKind.of scheme = .other) (front : List Char)
    (atEnd : Bool) : readFront scheme front atEnd = readOther scheme front atEnd := by
  rw [readFront, hkind]

theorem frontText_segments {scheme : String} (hkind : SchemeKind.of scheme = .other) (text : List Char) :
    FrontText scheme none false (segmentsOf false text) := by
  have hsettled := segmentsOf_settled false text
  refine .of_chars (fun c hc => ?_) fun atEnd r hr => ?_
  · rcases List.mem_append.mp hc with hc | hc
    · split at hc
      · have hdot : ∀ c ∈ ['/', '.'], FrontChar c := Text.forall_mem_of_all (by decide)
        exact hdot c hc
      · exact absurd hc List.not_mem_nil
    · exact hsettled.frontChar c hc
  · rw [readFront_other hkind, readOther_segments hsettled (head?_segmentsOf false text)] at hr
    exact (Option.some.inj hr).symm

theorem frontText_opaque {scheme : String} (hkind : SchemeKind.of scheme = .other) {front : List Char}
    (hmarks : ∀ c ∈ front, c ≠ '?' ∧ c ≠ '#') (hslash : front.head? ≠ some '/') :
    FrontText scheme none false (.opaquePath (percentEncode controlSet front)) := by
  have hhead : (percentEncode controlSet front).head? ≠ some '/' :=
    fun hhead => hslash (head?_percentEncode (by decide) hhead)
  have hencoded : Encoded controlSet (percentEncode controlSet front) :=
    encoded_percentEncode (by decide) front
  have hnone : ∀ c ∈ percentEncode controlSet front, (c == '?' || c == '#') = false :=
    forall_mem_percentEncode (by decide) fun c hc => by simpa using hmarks c hc
  generalize percentEncode controlSet front = text at hhead hencoded hnone ⊢
  have hchars : frontChars none (.opaquePath text) = text := by
    have hsingle : ¬ text.take 2 = ['/', '/'] := by
      intro htake
      cases text with
      | nil => exact absurd htake (by simp)
      | cons c rest => exact hhead (congrArg some (List.cons.inj htake).1)
    exact (congrArg (· ++ _) (if_neg hsingle)).trans (List.nil_append _)
  refine ⟨fun c hc => ?_, fun hslash => absurd (hchars ▸ hslash) hhead, fun atEnd r hr => ?_⟩
  · rw [hchars] at hc
    simpa using hnone c hc
  · rw [readFront_other hkind, hchars, readOther.eq_def] at hr
    split at hr
    next heq => exact absurd rfl hhead
    next heq => exact absurd rfl hhead
    next =>
      rw [hencoded.percentEncode_eq] at hr
      exact (Option.some.inj hr).symm

theorem frontText_other {scheme : String} (hkind : SchemeKind.of scheme = .other) {front : List Char}
    (hmarks : ∀ c ∈ front, c ≠ '?' ∧ c ≠ '#') {atEnd hasHost : Bool} {authority : Option (List Char)}
    {path : UrlPath} (h : readOther scheme front atEnd = some (authority, hasHost, path)) :
    FrontText scheme authority hasHost path := by
  rw [readOther.eq_def] at h
  split at h
  next more =>
    -- an authority and a path
    obtain ⟨⟨text, hasHost'⟩, hauthority, heq⟩ := Option.map_eq_some_iff.mp h
    obtain ⟨rfl, rfl, hpath⟩ : some text = authority ∧ hasHost' = hasHost ∧
        pathAfterAuthority false _ = path := by
      cases heq
      exact ⟨rfl, rfl, rfl⟩
    have hsettled : path.Settled false := hpath ▸ pathAfterAuthority_settled false _
    have htext := authority?_authorityText hauthority
    refine .of_chars (frontChar_some (fun c hc => (htext.chars c hc).1) hsettled) fun atEnd' r hr => ?_
    have hslash : ∀ c ∈ text, decide (c ≠ '/') = true :=
      fun c hc => decide_eq_true (htext.chars c hc).2.1
    obtain ⟨hfront, hrest⟩ := cut_authority hslash (by simp) hsettled
    rw [readFront_other hkind] at hr
    obtain ⟨r', hagain, rfl⟩ := Option.map_eq_some_iff.mp hr
    rw [hfront] at hagain
    rw [htext.again _ r' hagain, hrest, hsettled.pathAfterAuthority_eq]
  next more _ =>
    cases h
    exact frontText_segments hkind more
  next _ hslash =>
    cases h
    refine frontText_opaque hkind hmarks fun hhead => ?_
    obtain ⟨more, heq⟩ := List.head?_eq_some_iff.mp hhead
    exact hslash more heq

/-- Every front that is read is written as it is read again. -/
theorem readFront_frontText {scheme : String} {front : List Char} (hmarks : ∀ c ∈ front, c ≠ '?' ∧ c ≠ '#')
    {atEnd hasHost : Bool} {authority : Option (List Char)} {path : UrlPath}
    (h : readFront scheme front atEnd = some (authority, hasHost, path)) :
    FrontText scheme authority hasHost path := by
  cases hkind : SchemeKind.of scheme with
  | file =>
      rw [readFront, hkind] at h
      obtain ⟨⟨text, hasHost', path'⟩, hread, heq⟩ := Option.map_eq_some_iff.mp h
      cases heq
      obtain ⟨htext, hpath⟩ := readFile_path hread
      exact frontText_file hkind htext hpath
  | web =>
      rw [readFront, hkind] at h
      obtain ⟨⟨text, hasHost', path'⟩, hread, heq⟩ := Option.map_eq_some_iff.mp h
      cases heq
      exact frontText_web hkind hread
  | other =>
      rw [readFront, hkind] at h
      exact frontText_other hkind hmarks h

/-! ## Queries and fragments -/

/-- What is encoded in a query. -/
def queryCharSet (special : Bool) : Char → Bool := if special then specialQuerySet else querySet

theorem encoded_queryCharSet {special : Bool} {q : List Char} (h : Encoded (queryCharSet special) q) :
    Encoded querySet q := by
  cases special with
  | false => exact h
  | true => exact h.mono fun c hc => by rw [queryCharSet, if_pos rfl, specialQuerySet, hc, Bool.true_or]

/-- A part behind its mark, encoded. -/
def readMarked (set : Char → Bool) : List Char → Option (List Char)
  | _ :: text => some (percentEncode set text)
  | [] => none

theorem splitTail_eq (special : Bool) (cs : List Char) : splitTail special cs =
    ((cs.takeWhile (· ≠ '#')).takeWhile (· ≠ '?'),
      readMarked (queryCharSet special) ((cs.takeWhile (· ≠ '#')).dropWhile (· ≠ '?')),
      readMarked fragmentSet (cs.dropWhile (· ≠ '#'))) := by
  rw [splitTail]
  cases (cs.takeWhile (· ≠ '#')).dropWhile (· ≠ '?') <;> cases cs.dropWhile (· ≠ '#') <;> rfl

theorem readMarked_markedPart {set : Char → Bool} {part : Option (List Char)}
    (h : ∀ text ∈ part, Encoded set text) (mark : Char) : readMarked set (markedPart mark part) = part := by
  cases part with
  | none => rfl
  | some text => exact congrArg some (h text rfl).percentEncode_eq

theorem encoded_readMarked {set : Char → Bool} (hset : KeepsEscapes set) {cs text : List Char}
    (h : text ∈ readMarked set cs) : Encoded set text := by
  cases cs with
  | nil => exact absurd h (by simp [readMarked])
  | cons mark rest =>
      obtain rfl := Option.some.inj h
      exact encoded_percentEncode hset rest

theorem splitTail_parts {special : Bool} {cs front : List Char} {query fragment : Option (List Char)}
    (h : splitTail special cs = (front, query, fragment)) : (∀ c ∈ front, c ≠ '?' ∧ c ≠ '#') ∧
      (∀ q ∈ query, Encoded (queryCharSet special) q) ∧ ∀ f ∈ fragment, Encoded fragmentSet f := by
  rw [splitTail_eq] at h
  obtain ⟨rfl, hrest⟩ := Prod.mk.inj h
  obtain ⟨rfl, rfl⟩ := Prod.mk.inj hrest
  have hkeeps : KeepsEscapes (queryCharSet special) := by cases special <;> decide
  refine ⟨fun c hc => ?_, fun q => encoded_readMarked hkeeps, fun f => encoded_readMarked (by decide)⟩
  have hquest := of_decide_eq_true (List.mem_takeWhile_imp (p := (· ≠ '?')) hc)
  have hhash := List.mem_takeWhile_imp (p := (· ≠ '#')) (List.takeWhile_subset _ hc)
  exact ⟨hquest, of_decide_eq_true hhash⟩

theorem head?_markedPart {mark c : Char} {part : Option (List Char)} (h : c ∈ (markedPart mark part).head?) :
    c = mark := by
  cases part with
  | none => exact absurd h nofun
  | some text => exact (Option.some.inj h).symm

theorem hash_not_mem {front : List Char} {query : Option (List Char)} (hfront : ∀ c ∈ front, c ≠ '?' ∧ c ≠ '#')
    (hquery : ∀ q ∈ query, '#' ∉ q) : '#' ∉ front ++ markedPart '?' query := by
  intro hc
  rcases List.mem_append.mp hc with hc | hc
  · exact (hfront _ hc).2 rfl
  · cases query with
    | none => exact absurd hc List.not_mem_nil
    | some q =>
        rcases List.mem_cons.mp hc with heq | hc
        · exact absurd heq (by decide)
        · exact hquery q rfl hc

theorem splitTail_append {special : Bool} {front : List Char} {query fragment : Option (List Char)}
    (hfront : ∀ c ∈ front, c ≠ '?' ∧ c ≠ '#') (hquery : ∀ q ∈ query, Encoded (queryCharSet special) q)
    (hfragment : ∀ f ∈ fragment, Encoded fragmentSet f) :
    splitTail special (front ++ markedPart '?' query ++ markedPart '#' fragment) =
      (front, query, fragment) := by
  have hbehind : ∀ (mark : Char) (part : Option (List Char)), ∀ c ∈ (markedPart mark part).head?,
      decide (c ≠ mark) = false := fun mark part c hc => by simp [head?_markedPart hc]
  have hnone : '#' ∉ front ++ markedPart '?' query := hash_not_mem hfront fun q hq =>
    (encoded_queryCharSet (hquery q hq)).not_mem (by decide)
  have hhash : ∀ c ∈ front ++ markedPart '?' query, decide (c ≠ '#') = true :=
    fun c hc => decide_eq_true fun heq => hnone (heq ▸ hc)
  have hquest : ∀ c ∈ front, decide (c ≠ '?') = true := fun c hc => decide_eq_true (hfront c hc).1
  obtain ⟨hfrontQuery, hfragmentPart⟩ := Text.cut_append hhash (hbehind '#' fragment)
  obtain ⟨hfrontPart, hqueryPart⟩ := Text.cut_append hquest (hbehind '?' query)
  rw [splitTail_eq, hfrontQuery, hfragmentPart, hfrontPart, hqueryPart, readMarked_markedPart hquery,
    readMarked_markedPart hfragment]

/-! ## Visible characters -/

theorem cleaned_eq {cs : List Char} (h : ∀ c ∈ cs, 0x20 < c.toNat) : cleaned cs = cs := by
  have hkept : ∀ ds : List Char, (∀ c ∈ ds, 0x20 < c.toNat) →
      ds.dropWhile (fun c => decide (c.toNat ≤ 0x20)) = ds := by
    intro ds hds
    cases ds with
    | nil => rfl
    | cons c rest =>
        refine List.dropWhile_cons_of_neg ?_
        simpa using hds c List.mem_cons_self
  rw [cleaned, hkept cs h, hkept cs.reverse fun c hc => h c (List.mem_reverse.mp hc), List.reverse_reverse]
  refine List.filter_eq_self.mpr fun c hc => decide_eq_true ?_
  have hvisible := h c hc
  refine ⟨?_, ?_, ?_⟩ <;> rintro rfl <;> exact absurd hvisible (by decide)

theorem allowed_visible {extra : Char → Bool} (hextra : ∀ n ≤ 0x20, extra (Char.ofNat n) = false)
    {cs : List Char} (h : allowed extra cs = true) : ∀ c ∈ cs, 0x20 < c.toNat := by
  have hseen : ∀ p : Char → Bool, (∀ n ≤ 0x20, p (Char.ofNat n) = false) →
      ∀ c, p c = true → 0x20 < c.toNat := by
    intro p hp c hc
    by_contra hlow
    have hfalse := hp c.toNat (Nat.not_lt.mp hlow)
    rw [Char.ofNat_toNat, hc] at hfalse
    exact absurd hfalse nofun
  induction cs using allowed.induct with
  | case1 => exact fun c hc => absurd hc List.not_mem_nil
  | case2 a b rest ih =>
      rw [allowed, Bool.and_eq_true, Bool.and_eq_true] at h
      have hhex := hseen (fun c => (Text.hexValue? c).isSome) (by decide)
      intro c hc
      rcases List.mem_cons.mp hc with rfl | hc
      · decide
      rcases List.mem_cons.mp hc with rfl | hc
      · exact hhex _ h.1.1
      rcases List.mem_cons.mp hc with rfl | hc
      · exact hhex _ h.1.2
      · exact ih h.2 c hc
  | case3 c rest hescape ih =>
      rw [allowed, Bool.and_eq_true] at h
      · have hplain : ∀ n ≤ 0x20,
            (isUnreserved (Char.ofNat n) || isSubDelim (Char.ofNat n)) = false := by decide
        intro d hd
        rcases List.mem_cons.mp hd with rfl | hd
        · refine hseen (fun c => isUnreserved c || isSubDelim c || extra c) (fun n hn => ?_) d h.1
          show (isUnreserved _ || isSubDelim _ || extra _) = false
          rw [hplain n hn, hextra n hn]
          rfl
        · exact ih h.2 d hd
      · exact hescape

/-! ## URLs -/

/-- A URL is written as it is read again. -/
structure Url.Settled (u : Url) : Prop where
  scheme : isSchemeName u.scheme.toList = true ∧ u.scheme.toList.map Char.toLower = u.scheme.toList
  front : FrontText u.scheme u.authority u.hasHost u.path
  query : ∀ q ∈ u.query, Encoded (queryCharSet (SchemeKind.of u.scheme).isSpecial) q
  fragment : ∀ f ∈ u.fragment, Encoded fragmentSet f

theorem Url.chars_eq (u : Url) : u.chars = u.scheme.toList ++
    ':' :: (frontChars u.authority u.path ++ markedPart '?' u.query ++ markedPart '#' u.fragment) := by
  obtain ⟨scheme, authority, hasHost, path, query, fragment⟩ := u
  cases authority <;> simp [Url.chars, frontChars]

/-- Reads a URL that is cut in front of its first colon. -/
def readParts? (name rest : List Char) : Option Url :=
  if ¬ isSchemeName name ∨ rest.isEmpty then none
  else
    let scheme := String.ofList (name.map Char.toLower)
    let tail := splitTail (SchemeKind.of scheme).isSpecial (rest.drop 1)
    (readFront scheme tail.1 (tail.2.1.isNone && tail.2.2.isNone)).map fun r =>
      ⟨scheme, r.1, r.2.1, r.2.2, tail.2.1, tail.2.2⟩

theorem Url.read?_eq (raw : List Char) : Url.read? raw =
    readParts? ((cleaned raw).takeWhile (· ≠ ':')) ((cleaned raw).dropWhile (· ≠ ':')) := by
  rw [Url.read?, readParts?]
  dsimp only
  generalize (cleaned raw).takeWhile (· ≠ ':') = name
  generalize (cleaned raw).dropWhile (· ≠ ':') = rest
  cases name with
  | nil => rfl
  | cons c more =>
      show (if ¬ isSchemeName (c :: more) = true ∨ rest.isEmpty = true then none else _) = _
      split
      · rfl
      generalize String.ofList ((c :: more).map Char.toLower) = scheme
      generalize splitTail (SchemeKind.of scheme).isSpecial (rest.drop 1) = tail
      rw [readFront]
      cases SchemeKind.of scheme with
      | file =>
          dsimp only
          rw [Option.map_map, Option.map_eq_bind]
          rfl
      | web =>
          dsimp only
          rw [Option.map_map, Option.map_eq_bind]
          rfl
      | other =>
          obtain ⟨front, query, fragment⟩ := tail
          dsimp only
          split
          next =>
            rw [readOther, Option.map_map, Option.map_eq_bind]
            rfl
          next hslashes =>
            rw [readOther]
            · rfl
            · exact hslashes
          next hslashes hslash =>
            rw [readOther]
            · rfl
            · exact hslashes
            · exact hslash

/-- The characters of a scheme name. -/
def isSchemeChar (c : Char) : Bool := c.isAlphanum || c == '+' || c == '-' || c == '.'

theorem schemeChar_toLower {c : Char} (h : isSchemeChar c = true) :
    isSchemeChar c.toLower = true ∧ c.toLower.toLower = c.toLower ∧ c ≠ ':' ∧ 0x20 < c.toNat ∧
      (c.isAlpha = true → c.toLower.isAlpha = true) := by
  have hascii : c.toNat < 128 := by
    simp only [isSchemeChar, Char.isAlphanum, Bool.or_eq_true, beq_iff_eq] at h
    rcases h with (((hletter | hdigit) | rfl) | rfl) | rfl
    · exact Text.isAlpha_ascii hletter
    · exact Text.isDigit_ascii hdigit
    all_goals decide
  exact Text.of_ascii (P := fun c => isSchemeChar c = true → isSchemeChar c.toLower = true ∧
    c.toLower.toLower = c.toLower ∧ c ≠ ':' ∧ 0x20 < c.toNat ∧ (c.isAlpha = true → c.toLower.isAlpha = true))
    (by decide) hascii h

theorem mem_isSchemeName {name : List Char} (h : isSchemeName name = true) :
    ∀ c ∈ name, isSchemeChar c = true := by
  cases name with
  | nil => exact absurd h nofun
  | cons c rest =>
      rw [isSchemeName, Bool.and_eq_true] at h
      refine List.forall_mem_cons.mpr ⟨?_, List.all_eq_true.mp h.2⟩
      rw [isSchemeChar, Char.isAlphanum, h.1]
      rfl

theorem isSchemeName_toLower {name : List Char} (h : isSchemeName name = true) :
    isSchemeName (name.map Char.toLower) = true ∧
      (name.map Char.toLower).map Char.toLower = name.map Char.toLower := by
  have hchars := mem_isSchemeName h
  constructor
  · cases name with
    | nil => exact absurd h nofun
    | cons c rest =>
        rw [isSchemeName, Bool.and_eq_true] at h
        obtain ⟨hc, hrest⟩ := List.forall_mem_cons.mp hchars
        rw [List.map_cons, isSchemeName, (schemeChar_toLower hc).2.2.2.2 h.1, Bool.true_and, List.all_map]
        exact List.all_eq_true.mpr fun d hd => (schemeChar_toLower (hrest d hd)).1
  · rw [List.map_map]
    exact List.map_congr_left fun c hc => (schemeChar_toLower (hchars c hc)).2.1

/-- Every URL that is read is written as it is read again. -/
theorem Url.settled_of_read? {raw : List Char} {u : Url} (h : Url.read? raw = some u) : u.Settled := by
  rw [Url.read?_eq] at h
  generalize (cleaned raw).takeWhile (· ≠ ':') = name at h
  generalize (cleaned raw).dropWhile (· ≠ ':') = rest at h
  rw [readParts?] at h
  split at h
  · exact absurd h nofun
  next hvalid =>
  have hname : isSchemeName name = true := by
    by_contra hbad
    exact hvalid (Or.inl hbad)
  dsimp only at h
  generalize htail : splitTail _ (rest.drop 1) = tail at h
  obtain ⟨front, query, fragment⟩ := tail
  obtain ⟨hmarks, hquery, hfragment⟩ := splitTail_parts htail
  obtain ⟨⟨authority, hasHost, path⟩, hfront, rfl⟩ := Option.map_eq_some_iff.mp h
  refine ⟨?_, readFront_frontText hmarks hfront, hquery, hfragment⟩
  dsimp only
  rw [String.toList_ofList]
  exact isSchemeName_toLower hname

theorem splitBefore_append {p : Char → Bool} {front back : List Char} (hfront : ∀ c ∈ front, p c = false)
    (hback : ∀ c ∈ back.head?, p c = true) : splitBefore p (front ++ back) = (front, back) := by
  have hnot : ∀ c ∈ front, decide (¬ p c = true) = true := fun c hc => by simp [hfront c hc]
  have hmark : ∀ c ∈ back.head?, decide (¬ p c = true) = false := fun c hc => by simp [hback c hc]
  have hcut := Text.cut_append hnot hmark
  exact Prod.ext hcut.1 hcut.2

theorem visible_of_isReference {scheme front : List Char} {query fragment : Option (List Char)}
    (hscheme : isSchemeName scheme = true) (hfront : ∀ c ∈ front, c ≠ '?' ∧ c ≠ '#')
    (hslash : front.head? ≠ some '/') (hquery : ∀ q ∈ query, '#' ∉ q)
    (h : isReference (scheme ++ ':' :: (front ++ markedPart '?' query ++ markedPart '#' fragment)) = true) :
    ∀ c ∈ front, 0x20 < c.toNat := by
  have hname : ∀ c ∈ scheme, c ≠ '?' ∧ c ≠ '#' ∧ c ≠ ':' ∧ c ≠ '/' := by
    intro c hc
    have hchar := mem_isSchemeName hscheme c hc
    refine ⟨?_, ?_, ?_, ?_⟩ <;> rintro rfl <;> exact absurd hchar (by decide)
  have hmarks : ∀ c ∈ scheme ++ ':' :: front, c ≠ '?' ∧ c ≠ '#' := by
    refine List.forall_mem_append.mpr ⟨fun c hc => ⟨(hname c hc).1, (hname c hc).2.1⟩, ?_⟩
    exact List.forall_mem_cons.mpr ⟨by decide, hfront⟩
  have hquest : ∀ c ∈ scheme ++ ':' :: front, (c == '?') = false :=
    fun c hc => beq_eq_false_iff_ne.mpr (hmarks c hc).1
  have hhash : ∀ c ∈ scheme ++ ':' :: front ++ markedPart '?' query, (c == '#') = false :=
    fun c hc => beq_eq_false_iff_ne.mpr fun heq => hash_not_mem hmarks hquery (heq ▸ hc)
  have htext : scheme ++ ':' :: (front ++ markedPart '?' query ++ markedPart '#' fragment) =
      scheme ++ ':' :: front ++ markedPart '?' query ++ markedPart '#' fragment := by simp
  rw [htext, isReference, splitBefore_append hhash fun c hc => by simp [head?_markedPart hc]] at h
  dsimp only at h
  rw [splitBefore_append hquest fun c hc => by simp [head?_markedPart hc]] at h
  dsimp only at h
  rw [splitBefore_append (fun c hc => by simp [hname c hc]) fun c hc => by simp [← Option.some.inj hc]] at h
  have hhierarchical : isHierarchical front = true :=
    (Bool.and_eq_true_iff.mp (Bool.and_eq_true_iff.mp h).2).2
  rw [isHierarchical.eq_def] at hhierarchical
  split at hhierarchical
  · exact absurd rfl hslash
  · exact allowed_visible (by decide) hhierarchical

theorem Url.Settled.visible {u : Url} (h : u.Settled) (hreference : isReference u.chars = true) :
    ∀ c ∈ u.chars, 0x20 < c.toNat := by
  have hname := h.scheme.1
  have hencoded : ∀ q ∈ u.query, Encoded querySet q := fun q hq => encoded_queryCharSet (h.query q hq)
  have hpart : ∀ (mark : Char) (part : Option (List Char)), 0x20 < mark.toNat →
      (∀ text ∈ part, ∀ c ∈ text, 0x20 < c.toNat) → ∀ c ∈ markedPart mark part, 0x20 < c.toNat := by
    intro mark part hmark htext
    cases part with
    | none => exact fun c hc => absurd hc List.not_mem_nil
    | some text => exact List.forall_mem_cons.mpr ⟨hmark, htext text rfl⟩
  have hfront : ∀ c ∈ frontChars u.authority u.path, 0x20 < c.toNat := by
    by_cases hslash : (frontChars u.authority u.path).head? = some '/'
    · exact h.front.visible hslash
    · rw [Url.chars_eq] at hreference
      exact visible_of_isReference hname h.front.marks hslash
        (fun q hq => (hencoded q hq).not_mem (by decide)) hreference
  rw [Url.chars_eq]
  refine List.forall_mem_append.mpr ⟨fun c hc => ?_, ?_⟩
  · exact (schemeChar_toLower (mem_isSchemeName hname c hc)).2.2.2.1
  refine List.forall_mem_cons.mpr ⟨by decide, List.forall_mem_append.mpr ⟨?_, ?_⟩⟩
  · refine List.forall_mem_append.mpr ⟨hfront, ?_⟩
    exact hpart '?' u.query (by decide) fun q hq => (hencoded q hq).forall_mem (by decide)
  · exact hpart '#' u.fragment (by decide) fun f hf => (h.fragment f hf).forall_mem (by decide)

/-- A URL whose text is a reference is read from its text, if anything is. -/
theorem Url.Settled.eq_of_read? {u u' : Url} (h : u.Settled) (hreference : isReference u.chars = true)
    (hread : Url.read? u.chars = some u') : u' = u := by
  have hvisible := h.visible hreference
  obtain ⟨⟨hname, hlower⟩, hfront, hquery, hfragment⟩ := h
  have hcolon : ∀ c ∈ u.scheme.toList, decide (c ≠ ':') = true := fun c hc =>
    decide_eq_true (schemeChar_toLower (mem_isSchemeName hname c hc)).2.2.1
  have hbehind : ∀ c ∈ (':' :: (frontChars u.authority u.path ++ markedPart '?' u.query ++
      markedPart '#' u.fragment)).head?, decide (c ≠ ':') = false :=
    fun c hc => by simp [← Option.some.inj hc]
  obtain ⟨hbefore, hafter⟩ := Text.cut_append hcolon hbehind
  rw [Url.read?_eq, cleaned_eq hvisible, Url.chars_eq, hbefore, hafter, readParts?, hname, hlower,
    String.ofList_toList] at hread
  dsimp only at hread
  rw [List.drop_one, List.tail_cons, splitTail_append hfront.marks hquery hfragment] at hread
  split at hread
  · exact absurd hread nofun
  · obtain ⟨r, hr, rfl⟩ := Option.map_eq_some_iff.mp hread
    rw [hfront.again _ r hr]

end LanguageClient.Uri
