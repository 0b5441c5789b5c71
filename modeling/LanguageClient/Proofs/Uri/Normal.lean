import LanguageClient.Proofs.Files.Canonical
import LanguageClient.Proofs.Uri.Url
import LanguageClient.Uri.Normal

/-!
# Normal forms of document URIs

Documents are compared by the texts of their URIs, so a normal form must be its own normal form. Three
readers are chained to make it, and each may take another way on the second pass. What keeps them together
are two laws of a resolver (`Resolver.Lawful`): a URL is read from its own text, and the URL of a real
place leads back to that place. Both speak only of what is read and what is there, so a reader that refuses
a text the second time does no harm: the text then stays as it is, which is the same. The laws that URL
libraries and file systems document say more (`Resolver.Lawful.of_documented`).

The resolver of a file tree obeys the laws (`Resolver.lawful_ofTree`). A URL that was read is settled and so
is that of a real place (`Url.settled_ofLocation`), whose names stand for themselves when they are decoded
and resolved again.
-/

namespace LanguageClient.Uri

open Files Files.Tree

/-! ## Resolvers -/

namespace Resolver

variable {υ π : Type} {k : Resolver υ π} {u v : υ} {p q r : π}

/-- A URL that a text is read as, or that a real place has. -/
inductive Arises (k : Resolver υ π) (u : υ) : Prop
  | read {raw : String} : k.read? raw = some u → Arises k u
  | place {p q : π} : k.real? p = some q → k.ofPath? q = some u → Arises k u

/-- What normal forms need of a resolver. -/
structure Lawful (k : Resolver υ π) : Prop where
  /-- A URL whose text is a reference is read from its text, if any is. -/
  again : ∀ {u v}, k.Arises u → k.isReference (k.text u) = true → k.read? (k.text u) = some v → v = u
  /-- The URL of a real place leads to that place, if to any. -/
  home : ∀ {p q r u}, k.real? p = some q → k.ofPath? q = some u → (k.path? u).bind k.real? = some r → r = q

/-- The laws as they are documented: a URL is parsed back from its text, a real place is its own real place,
and the URL of a real place names it. -/
theorem Lawful.of_documented (parse_text : ∀ u, k.read? (k.text u) = some u)
    (real_real : ∀ p q, k.real? p = some q → k.real? q = some q)
    (path_ofPath : ∀ p q u, k.real? p = some q → k.ofPath? q = some u → k.path? u = some q) : k.Lawful where
  again := by
    intro u v _ _ hread
    rw [parse_text] at hread
    exact (Option.some.inj hread).symm
  home := by
    intro p q r u hreal hurl hback
    rw [path_ofPath p q u hreal hurl, Option.bind_some, real_real p q hreal] at hback
    exact (Option.some.inj hback).symm

theorem replaced_cases (k : Resolver υ π) (u : υ) : k.replaced u = u ∨
    ∃ p q, k.path? u = some p ∧ k.real? p = some q ∧ k.ofPath? q = some (k.replaced u) := by
  rw [replaced]
  split
  · cases hchain : ((k.path? u).bind k.real?).bind k.ofPath? with
    | none => exact .inl rfl
    | some v =>
        obtain ⟨q, hq, hv⟩ := Option.bind_eq_some_iff.mp hchain
        obtain ⟨p, hp, hq⟩ := Option.bind_eq_some_iff.mp hq
        exact .inr ⟨p, q, hp, hq, hv⟩
  · exact .inl rfl

theorem Arises.replaced (h : k.Arises u) : k.Arises (k.replaced u) := by
  rcases k.replaced_cases u with hsame | ⟨p, q, -, hreal, hurl⟩
  · exact hsame.symm ▸ h
  · exact .place hreal hurl

/-- What was replaced by its real place is there already. -/
theorem Lawful.replaced_replaced (h : k.Lawful) (u : υ) : k.replaced (k.replaced u) = k.replaced u := by
  rcases k.replaced_cases u with hsame | ⟨p, q, -, hreal, hurl⟩
  · rw [hsame, hsame]
  · rcases k.replaced_cases (k.replaced u) with hsame | ⟨p', q', hpath', hreal', hurl'⟩
    · exact hsame
    · have hplace : q' = q := h.home hreal hurl (by rw [hpath', Option.bind_some, hreal'])
      rw [hplace, hurl] at hurl'
      exact (Option.some.inj hurl').symm

theorem reference?_eq_some {text text' : String} (h : k.reference? text = some text') :
    text' = text ∧ k.isReference text = true := by
  rw [reference?] at h
  split at h
  next hreference => exact ⟨(Option.some.inj h).symm, hreference⟩
  · exact absurd h nofun

theorem reference?_of_isReference {text : String} (h : k.isReference text = true) :
    k.reference? text = some text := if_pos h

/-! ## Normal forms -/

theorem Lawful.normalize_eq (h : k.Lawful) {raw text : String} (hraw : normalize k raw = some text) :
    normalize k text = some text := by
  cases hread : k.read? raw with
  | none =>
      -- the text of the normal form is the one that no URL was read from
      have hsame : text = raw := by
        rw [normalize, hread] at hraw
        exact (reference?_eq_some hraw).1
      rw [hsame] at hraw ⊢
      exact hraw
  | some u =>
      rw [normalize, hread] at hraw
      obtain ⟨rfl, hreference⟩ := reference?_eq_some hraw
      rw [normalize]
      cases hagain : k.read? (k.text (k.replaced u)) with
      | none => exact reference?_of_isReference hreference
      | some v =>
          have harises : k.Arises (k.replaced u) := (Arises.read hread).replaced
          have hv : v = k.replaced u := h.again harises hreference hagain
          show k.reference? (k.text (k.replaced v)) = _
          rw [hv, h.replaced_replaced]
          exact reference?_of_isReference hreference

end Resolver

variable {tree : Tree} {place place' : Location} {u : Url}

/-! ## Names as segments -/

theorem percentDecode_dot {front : List Char} (hascii : ∀ c ∈ front, c.toNat < 0x80)
    (hdot : front.map Char.toLower ∈ [['.'], ['%', '2', 'e']]) (rest : List Char) :
    percentDecode (front ++ rest) = 46 :: percentDecode rest := by
  have hlower : ∀ c : Char, c.toNat < 0x80 → (c.toLower = '.' → c = '.') ∧ (c.toLower = '%' → c = '%') ∧
      (c.toLower = '2' → c = '2') ∧ (c.toLower = 'e' → Text.hexValue? c = some 14) := fun c hc =>
    Text.of_ascii (P := fun c => (c.toLower = '.' → c = '.') ∧ (c.toLower = '%' → c = '%') ∧
      (c.toLower = '2' → c = '2') ∧ (c.toLower = 'e' → Text.hexValue? c = some 14)) (by decide) hc
  rcases List.mem_cons.mp hdot with hplain | hdot
  · obtain ⟨c, rfl, hc⟩ := List.map_eq_singleton_iff.mp hplain
    rw [(hlower c (hascii c List.mem_cons_self)).1 hc]
    exact percentDecode_cons (by decide) rest
  · have hescape := List.mem_singleton.mp hdot
    obtain ⟨a, more, rfl, ha, hescape⟩ := List.map_eq_cons_iff.mp hescape
    obtain ⟨b, more, rfl, hb, hescape⟩ := List.map_eq_cons_iff.mp hescape
    obtain ⟨c, rfl, hc⟩ := List.map_eq_singleton_iff.mp hescape
    simp only [List.forall_mem_cons] at hascii
    rw [(hlower a hascii.1).2.1 ha, (hlower b hascii.2.1).2.2.1 hb]
    show percentDecode ('%' :: '2' :: c :: rest) = 46 :: percentDecode rest
    rw [percentDecode, (hlower c hascii.2.2.1).2.2.2 hc]
    rfl

theorem segment_entryName {name : String} (h : EntryName name) :
    Segment true (percentEncode segmentSet name.toList) := by
  -- the set of a segment but for the percent sign, which escapes begin with
  have hencoded : Encoded (fun c => pathSet c || c == '/' || c == '\\')
      (percentEncode segmentSet name.toList) :=
    encoded_of_subset (by decide) (by grind [segmentSet]) name.toList
  have hascii : ∀ c ∈ percentEncode segmentSet name.toList, c.toNat < 0x80 := fun c hc => (hencoded c hc).1
  have hname : percentDecode (percentEncode segmentSet name.toList) = Utf8.encode name :=
    percentDecode_percentEncode rfl name.toList
  refine ⟨hencoded.mono fun c hc => ?_, ?_, ?_, fun c hc => ?_⟩
  · show (pathSet c || c == '/' || c == '\\') = true
    rw [hc]
    rfl
  · -- a spelling of a dot stands for a dot, which is no name
    refine Bool.eq_false_iff.mpr fun hdot => h.ne_dot (Utf8.encode_injective ?_)
    rw [← hname, ← List.append_nil (percentEncode _ _), percentDecode_dot hascii (isDot_iff.mp hdot)]
    rfl
  · refine Bool.eq_false_iff.mpr fun hdots => h.ne_dots (Utf8.encode_injective ?_)
    obtain ⟨first, hfirst, second, hsecond, heq⟩ : ∃ first ∈ [['.'], ['%', '2', 'e']],
        ∃ second ∈ [['.'], ['%', '2', 'e']],
          (percentEncode segmentSet name.toList).map Char.toLower = first ++ second := by
      simpa [or_assoc] using isDoubleDot_iff.mp hdots
    obtain ⟨front, back, hparts, rfl, rfl⟩ := List.map_eq_append_iff.mp heq
    rw [hparts] at hascii hname
    obtain ⟨hfront, hback⟩ := List.forall_mem_append.mp hascii
    rw [← hname, percentDecode_dot hfront hfirst, ← List.append_nil back, percentDecode_dot hback hsecond]
    rfl
  · have hnone := (hencoded c hc).2
    refine Bool.eq_false_iff.mpr fun hseparator => ?_
    rcases of_decide_eq_true hseparator with rfl | ⟨-, rfl⟩
    · exact absurd hnone (by decide)
    · exact absurd hnone (by decide)

/-! ## URLs of places -/

/-- The URL of a canonical place is written as it is read again. -/
theorem Url.settled_ofLocation (h : tree.Canonical place) : (Url.ofLocation place).Settled := by
  have hsegments : ∀ s ∈ place.map fun name => percentEncode segmentSet name.toList, Segment true s := by
    intro s hs
    obtain ⟨name, hname, rfl⟩ := List.mem_map.mp hs
    exact segment_entryName (h.entryName hname)
  have hpath : (Url.ofLocation place).path.Settled true := by
    rw [Url.ofLocation]
    cases hparts : place.map fun name => percentEncode segmentSet name.toList with
    | nil => exact .filled fun s hs => List.mem_singleton.mp hs ▸ segment_nil true
    | cons first rest => exact .filled (hparts ▸ hsegments)
  have hname : isSchemeName "file".toList = true ∧ "file".toList.map Char.toLower = "file".toList := by decide
  exact ⟨hname, frontText_file rfl fileHostText_nil hpath, nofun, nofun⟩

/-- The URL of a place names the path to it, with a slash behind the root and behind what looks like a
drive. -/
theorem Url.pathBytes?_ofLocation (place : Location) : ∃ tail, (tail = [] ∨ tail = ['/']) ∧
    (Url.ofLocation place).pathBytes? = some (Utf8.encode (String.ofList (pathChars place ++ tail))) := by
  have hbytes : (place.map fun name => percentEncode segmentSet name.toList).flatMap
      (fun part => 47 :: percentDecode part) = Utf8.encode (String.ofList (pathChars place)) := by
    rw [List.flatMap_map, Utf8.encode, String.toList_ofList, pathChars, List.flatMap_assoc]
    refine congrArg (place.flatMap ·) (funext fun name => ?_)
    rw [percentDecode_percentEncode rfl]
    rfl
  cases place with
  | nil => exact ⟨['/'], Or.inr rfl, rfl⟩
  | cons name rest =>
      have hslash : ∀ cs, Utf8.encode (String.ofList (cs ++ ['/'])) =
          Utf8.encode (String.ofList cs) ++ [47] := by
        intro cs
        rw [String.ofList_append, Utf8.encode_append]
        rfl
      have hpath : (Url.ofLocation (name :: rest)).path =
          .segments ((name :: rest).map fun name => percentEncode segmentSet name.toList) := rfl
      rw [Url.pathBytes?, hpath]
      dsimp only [Url.ofLocation]
      rw [hbytes]
      split
      · split
        · exact ⟨['/'], Or.inr rfl, by rw [hslash]⟩
        · exact ⟨[], Or.inl rfl, by rw [List.append_nil]⟩
      · exact ⟨[], Or.inl rfl, by rw [List.append_nil]⟩

/-! ## The resolver of a tree -/

theorem text_eq (place : Location) : ∃ tail, (tail = [] ∨ tail = ['/']) ∧
    (Tree.text place).toList = pathChars place ++ tail := by
  cases place with
  | nil => exact ⟨['/'], .inr rfl, rfl⟩
  | cons name rest =>
      refine ⟨[], .inl rfl, ?_⟩
      rw [Tree.text, if_neg (by simp), List.append_nil, String.toList_join, List.flatMap_map, pathChars]
      refine congrArg (List.flatMap · (name :: rest)) (funext fun name => ?_)
      rw [String.toList_append]
      rfl

theorem Resolver.canonical_of_real? {path path' : String}
    (h : (Resolver.ofTree tree).real? path = some path') :
    ∃ place, tree.resolve [] path = .ok place ∧ tree.Canonical place ∧ path' = Tree.text place := by
  obtain ⟨place, hplace, rfl⟩ := Option.map_eq_some_iff.mp h
  cases hresolve : tree.resolve [] path with
  | error e =>
      rw [hresolve] at hplace
      exact absurd hplace nofun
  | ok real =>
      rw [hresolve] at hplace
      obtain rfl := Option.some.inj hplace
      exact ⟨real, rfl, canonical_resolve hresolve, rfl⟩

theorem Url.ofPath?_text (h : tree.Canonical place) :
    Url.ofPath? (Tree.text place) = some (.ofLocation place) := by
  obtain ⟨tail, htail, htext⟩ := text_eq place
  have hnames : ∀ name ∈ place, name ≠ "" ∧ '/' ∉ name.toList := fun name hname =>
    ⟨(h.entryName hname).ne_empty, (h.entryName hname).no_slash⟩
  obtain ⟨ends, hends, hempty⟩ := names_pathChars hnames htail
  have hslash : ∃ rest, (Tree.text place).toList = '/' :: rest := by
    cases place with
    | nil => exact ⟨[], rfl⟩
    | cons name rest => exact ⟨_, htext⟩
  have hkept : place.filter (fun n => n ≠ "" ∧ n ≠ ".") = place :=
    List.filter_eq_self.mpr fun name hname =>
      decide_eq_true ⟨(h.entryName hname).ne_empty, (h.entryName hname).ne_dot⟩
  have hdropped : ends.filter (fun n => n ≠ "" ∧ n ≠ ".") = [] :=
    List.filter_eq_nil_iff.mpr fun name hname => by simp [hempty name hname]
  have hfilter : (names (Tree.text place)).filter (fun n => n ≠ "" ∧ n ≠ ".") = place := by
    rw [← String.ofList_toList (s := Tree.text place), htext, hends, List.filter_append, hkept, hdropped,
      List.append_nil]
  obtain ⟨rest, hrest⟩ := hslash
  rw [Url.ofPath?, hrest]
  exact congrArg (fun place => some (Url.ofLocation place)) hfilter

/-- The resolver of a tree obeys the laws. -/
theorem Resolver.lawful_ofTree (tree : Tree) : (Resolver.ofTree tree).Lawful where
  again := by
    intro u v harises hreference hread
    have hsettled : u.Settled := by
      cases harises with
      | read hread => exact Url.settled_of_read? hread
      | place hreal hurl =>
          obtain ⟨place, -, hplace, rfl⟩ := Resolver.canonical_of_real? hreal
          have hurl : Url.ofPath? (Tree.text place) = some u := hurl
          rw [Url.ofPath?_text hplace] at hurl
          exact Option.some.inj hurl ▸ Url.settled_ofLocation hplace
    dsimp only [Resolver.ofTree] at hreference hread
    rw [String.toList_ofList] at hreference hread
    exact hsettled.eq_of_read? hreference hread
  home := by
    intro p q r u hreal hurl hback
    obtain ⟨place, -, hplace, rfl⟩ := Resolver.canonical_of_real? hreal
    have hurl : Url.ofPath? (Tree.text place) = some u := hurl
    rw [Url.ofPath?_text hplace] at hurl
    obtain rfl := Option.some.inj hurl
    obtain ⟨path, hpath, hback⟩ := Option.bind_eq_some_iff.mp hback
    obtain ⟨place', hresolve, -, rfl⟩ := Resolver.canonical_of_real? hback
    obtain ⟨tail, htail, hbytes⟩ := Url.pathBytes?_ofLocation place
    have hdecode : (Resolver.ofTree tree).path? (.ofLocation place) =
        some (String.ofList (pathChars place ++ tail)) := by
      show (Url.ofLocation place).pathBytes?.bind Utf8.decode? = _
      rw [hbytes, Option.bind_some, Utf8.decode?_encode]
    obtain rfl := Option.some.inj (hdecode.symm.trans hpath)
    rw [eq_of_resolve_canonical hplace htail hresolve]

/-- **Normal forms are normal.** Whatever reads URLs and finds files, as long as it obeys the laws and the
files stay as they are: whatever text a normal form is of, a relative reference or a URL of any scheme, of a
file that exists or not, and however links and dots lead to it, normalizing it again changes nothing. -/
theorem normalize_idempotent {υ π : Type} {k : Resolver υ π} (lawful : k.Lawful) {raw text : String}
    (h : normalize k raw = some text) : normalize k text = some text := lawful.normalize_eq h

/-- A file that is reached through a link and a dot. -/
theorem normalize_idempotent_link :
    let tree : Tree := { entries :=
      [(["real"], .directory), (["real", "a.c"], .file []), (["link"], .link "real")] }
    let k := Resolver.ofTree tree
    k.Lawful ∧ normalize k "file:///link/./a.c" = some "file:///real/a.c" ∧
      normalize k "file:///real/a.c" = some "file:///real/a.c" := by
  intro tree k
  have hlink : normalize k "file:///link/./a.c" = some "file:///real/a.c" := by decide +kernel
  have lawful : k.Lawful := Resolver.lawful_ofTree tree
  exact ⟨lawful, hlink, normalize_idempotent lawful hlink⟩

end LanguageClient.Uri
