import LanguageClient.Proofs.Document.Forest
import LanguageClient.Proofs.Document.Position
import Mathlib.Data.List.Forall2

/-!
# The two forms of document symbols

A forest of symbols arrives nested (`NestsAll`), or flat as the list of its symbols, each before those
inside it and with the name of the one it stands in (`listingAll`, `Lists`). Reading visits the symbols
in the same order in both forms, and each gets the same parent: in the nested form the entry around it,
in the flat form the only earlier entry with its container's name. So both forms are read as the forest
that was written (`forms_agree`).
-/

namespace LanguageClient.Document

/-! ## What a value states -/

/-- The numbers of a symbol are such as its fields hold: the positions fit 32 bits, and so does the
kind with its sign. -/
def SymbolInfo.Valid (info : SymbolInfo) : Prop :=
  (info.range.start.Fits ∧ info.range.stop.Fits) ∧
    ∀ k ∈ info.kind, -0x80000000 ≤ k ∧ k < 0x80000000

instance (info : SymbolInfo) : Decidable info.Valid := inferInstanceAs (Decidable (_ ∧ _))

namespace Symbol

/-- The entry states what the symbol says. An empty detail may be left out, and so may a kind that is
none; the range stands in the entry, or in its location. -/
structure Describes (info : SymbolInfo) (entry : Json) : Prop where
  name : entry.get "name" = .str info.name
  detail : entry.get "detail" = .str info.detail ∨ info.detail = "" ∧ entry.get "detail" = .null
  kind : entry.get "kind" = .ofOption .ofInt info.kind
  range : (∃ range, entry.member? "range" = some range ∧ info.range.States range) ∨
    entry.member? "range" = none ∧ info.range.States ((entry.get "location").get "range")

/-- The range can be used: the entry states it, in itself or else in its location, and it fits. -/
inductive Spans (entry : Json) (range : Range) : Prop
  | own {value : Json} : entry.member? "range" = some value → range.States value → range.Fits →
      Spans entry range
  | located : entry.member? "range" = none → range.States ((entry.get "location").get "range") →
      range.Fits → Spans entry range

/-- What an entry says of its symbol. A name or a detail that is no text is empty, and a kind that is
no number of 32 bits is none. -/
structure Says (entry : Json) (info : SymbolInfo) : Prop where
  name : entry.get "name" = .str info.name ∨ info.name = "" ∧ ∀ s, entry.get "name" ≠ .str s
  detail : entry.get "detail" = .str info.detail ∨ info.detail = "" ∧ ∀ s, entry.get "detail" ≠ .str s
  kind : ∀ k, info.kind = some k ↔ entry.get "kind" = .ofInt k ∧ -0x80000000 ≤ k ∧ k < 0x80000000

section Described

variable {info : SymbolInfo} {entry : Json}

theorem range?_eq_some_iff {range : Range} : range? entry = some range ↔ Spans entry range := by
  unfold range?
  cases hmember : entry.member? "range" with
  | some value =>
      refine Range.ofJson?_eq_some_iff.trans ⟨fun h => .own hmember h.1 h.2, fun h => ?_⟩
      cases h with
      | own hvalue hstates hfits =>
          obtain rfl := Option.some.inj (hmember.symm.trans hvalue)
          exact ⟨hstates, hfits⟩
      | located hnone => exact absurd (hmember.symm.trans hnone) nofun
  | none =>
      refine Range.ofJson?_eq_some_iff.trans ⟨fun h => .located hmember h.1 h.2, fun h => ?_⟩
      cases h with
      | own hvalue => exact absurd (hmember.symm.trans hvalue) nofun
      | located _ hstates hfits => exact ⟨hstates, hfits⟩

theorem textMember_eq_iff {key s : String} : textMember entry key = s ↔
    entry.get key = .str s ∨ s = "" ∧ ∀ t, entry.get key ≠ .str t := by
  unfold textMember
  cases entry.get key <;> simp [Json.str?, eq_comm]

theorem infoOf_eq_iff {range : Range} :
    infoOf entry range = info ↔ Says entry info ∧ info.range = range := by
  obtain ⟨name, detail, kind, stated⟩ := info
  unfold infoOf
  rw [SymbolInfo.mk.injEq]
  constructor
  · rintro ⟨hname, hdetail, rfl, rfl⟩
    exact ⟨⟨textMember_eq_iff.mp hname, textMember_eq_iff.mp hdetail, fun _ => int32?_eq_some_iff⟩, rfl⟩
  · rintro ⟨⟨hname, hdetail, hkind⟩, hrange⟩
    refine ⟨textMember_eq_iff.mpr hname, textMember_eq_iff.mpr hdetail, ?_, hrange.symm⟩
    exact Option.ext fun k => int32?_eq_some_iff.trans (hkind k).symm

theorem Describes.range?_eq (h : Describes info entry) (hvalid : info.Valid) :
    range? entry = some info.range := by
  rw [range?_eq_some_iff]
  rcases h.range with ⟨range, hrange, hstates⟩ | ⟨hnone, hstates⟩
  · exact .own hrange hstates hvalid.1
  · exact .located hnone hstates hvalid.1

theorem Describes.infoOf_eq (h : Describes info entry) (hvalid : info.Valid) :
    infoOf entry info.range = info := by
  refine infoOf_eq_iff.mpr ⟨⟨.inl h.name, ?_, fun k => ?_⟩, rfl⟩
  · rcases h.detail with hdetail | ⟨hempty, hnull⟩
    · exact .inl hdetail
    · exact .inr ⟨hempty, fun s hs => absurd (hnull.symm.trans hs) nofun⟩
  · rw [h.kind]
    cases hk : info.kind with
    | none => exact ⟨nofun, fun h => absurd h.1 nofun⟩
    | some stated =>
        constructor
        · rintro ⟨rfl⟩
          exact ⟨rfl, hvalid.2 _ hk⟩
        · rintro ⟨hnumber, -⟩
          exact congrArg some (Number.int.inj (Json.num.inj hnumber))

end Described

/-! ## The nested form -/

mutual

/-- The entry is the symbol, with the symbols inside it in the entry. -/
inductive Nests : Symbol → Json → Prop
  | node {info : SymbolInfo} {children : List Symbol} {entry : Json} :
      Describes info entry → entry.get "containerName" = .null →
      NestsAll children (entry.get "children").items → Nests (.node info children) entry

/-- The entries are the symbols, one by one. -/
inductive NestsAll : List Symbol → List Json → Prop
  | nil : NestsAll [] []
  | cons {s : Symbol} {rest : List Symbol} {entry : Json} {entries : List Json} :
      Nests s entry → NestsAll rest entries → NestsAll (s :: rest) (entry :: entries)

end

/-- Visits entries one after the other. -/
def visitAll (outer : Option Nat) (seen : List Placed) (entries : List Json) : List Placed :=
  entries.foldl (fun seen entry => visit entry outer seen) seen

theorem visit_eq {entry : Json} {range : Range} (h : range? entry = some range)
    (outer : Option Nat) (seen : List Placed) :
    visit entry outer seen =
      visitAll (some seen.length)
        (seen ++ [⟨infoOf entry range, parentOf entry range outer seen⟩])
        (entry.get "children").items := by
  rw [visit, h]
  exact @List.foldl_attach _ _ _ (fun seen child => visit child (some _) seen) _

theorem parentOf_of_uncontained {entry : Json} (h : entry.get "containerName" = .null)
    (range : Range) (outer : Option Nat) (seen : List Placed) :
    parentOf entry range outer seen = outer := by
  unfold parentOf optionalText
  rw [h]
  exact Option.or_none

mutual

/-- An entry of the nested form is visited as its symbol is listed. -/
theorem visit_nests : ∀ {s : Symbol} {entry : Json}, Nests s entry → (∀ n ∈ s.nodes, n.info.Valid) →
    ∀ (outer : Option Nat) (seen : List Placed),
      visit entry outer seen = seen ++ placements outer seen.length s
  | _, _, @Nests.node info children entry hdescribes hcontainer hchildren, hvalid, outer, seen => by
      have hinfo : info.Valid := hvalid (.node info children) List.mem_cons_self
      rw [visit_eq (hdescribes.range?_eq hinfo), hdescribes.infoOf_eq hinfo,
        parentOf_of_uncontained hcontainer,
        visitAll_nests hchildren (fun n hn => hvalid n (List.mem_cons_of_mem _ hn)), placements,
        List.length_append, List.append_assoc]
      rfl

theorem visitAll_nests : ∀ {ss : List Symbol} {entries : List Json}, NestsAll ss entries →
    (∀ n ∈ nodesAll ss, n.info.Valid) → ∀ (outer : Option Nat) (seen : List Placed),
      visitAll outer seen entries = seen ++ placementsAll outer seen.length ss
  | _, _, .nil, _, _, _ => (List.append_nil _).symm
  | _, _, @NestsAll.cons s rest entry entries hfirst hrest, hvalid, outer, seen => by
      have hhere : visit entry outer seen = seen ++ placements outer seen.length s :=
        visit_nests hfirst (fun n hn => hvalid n (List.mem_append_left _ hn)) outer seen
      have hlater := visitAll_nests hrest (fun n hn => hvalid n (List.mem_append_right _ hn)) outer
        (seen ++ placements outer seen.length s)
      rw [List.length_append, List.append_assoc] at hlater
      show visitAll outer (visit entry outer seen) entries = _
      rw [hhere, placementsAll]
      exact hlater

end

theorem listOfJson_nested {ss : List Symbol} {entries : List Json} (h : NestsAll ss entries)
    (valid : ∀ n ∈ nodesAll ss, n.info.Valid) : listOfJson (.arr entries) = ss := by
  have hplaced : placed (.arr entries) = placementsAll none 0 ss := visitAll_nests h valid none []
  unfold listOfJson
  rw [hplaced, forest_placements]

/-! ## The flat form -/

mutual

/-- The symbol and those inside it, each with the name of the one it stands in. -/
def listing (container : Option String) : Symbol → List (Option String × SymbolInfo)
  | .node info children => (container, info) :: listingAll (some info.name) children

/-- The symbols of a forest in the flat form's order. -/
def listingAll (container : Option String) : List Symbol → List (Option String × SymbolInfo)
  | [] => []
  | s :: rest => listing container s ++ listingAll container rest

end

/-- The entry is a symbol with the name of its container, and nothing is in it. -/
structure Lists (entry : Json) (listed : Option String × SymbolInfo) : Prop where
  describes : Describes listed.2 entry
  container : entry.get "containerName" = .ofOption .str listed.1
  flat : (entry.get "children").items = []

/-- The container is the entry at the place. -/
inductive Contains (seen : List Placed) : Option String → Option Nat → Prop
  | root : Contains seen none none
  | inside {place : Nat} {p : Placed} : seen[place]? = some p → p.info.name ≠ "" →
      Contains seen (some p.info.name) (some place)

theorem Contains.append {seen : List Placed} {container : Option String} {outer : Option Nat}
    (h : Contains seen container outer) (more : List Placed) :
    Contains (seen ++ more) container outer := by
  cases h with
  | root => exact .root
  | inside hplace hname =>
      refine .inside ?_ hname
      rw [List.getElem?_append_left (List.getElem?_eq_some_iff.mp hplace).1]
      exact hplace

theorem mem_placesOf {name : String} {seen : List Placed} {place : Nat} {p : Placed} :
    (place, p) ∈ placesOf name seen ↔ seen[place]? = some p ∧ p.info.name = name := by
  unfold placesOf
  rw [List.mem_reverse, List.mem_filter, List.mem_map, decide_eq_true_eq]
  constructor
  · rintro ⟨⟨⟨q, i⟩, hmem, heq⟩, hname⟩
    obtain ⟨rfl, rfl⟩ := Prod.mk.inj heq
    exact ⟨List.mem_zipIdx_iff_getElem?.mp hmem, hname⟩
  · rintro ⟨hplace, hname⟩
    exact ⟨⟨(p, place), List.mem_zipIdx_iff_getElem?.mpr hplace, rfl⟩, hname⟩

/-- Among entries with different names a container is found by its name, whether or not it encloses
the range. -/
theorem container?_eq {seen : List Placed} (distinct : (seen.map (·.info.name)).Nodup)
    {place : Nat} {p : Placed} (hplace : seen[place]? = some p) (range : Range) :
    container? p.info.name range seen = some place := by
  have hmem : (place, p) ∈ placesOf p.info.name seen := mem_placesOf.mpr ⟨hplace, rfl⟩
  have honly : ∀ found ∈ placesOf p.info.name seen, found.1 = place := by
    rintro ⟨i, q⟩ hfound
    obtain ⟨hi, hname⟩ := mem_placesOf.mp hfound
    have hlt : i < (seen.map (·.info.name)).length := by
      rw [List.length_map]
      exact (List.getElem?_eq_some_iff.mp hi).1
    refine (List.getElem?_inj hlt distinct).mp ?_
    rw [List.getElem?_map, List.getElem?_map, hi, hplace]
    exact congrArg some hname
  unfold container?
  dsimp only
  cases hfind : (placesOf p.info.name seen).find? (·.2.info.range.contains range) with
  | some found => exact congrArg some (honly found (List.mem_of_find?_eq_some hfind))
  | none =>
      cases hall : placesOf p.info.name seen with
      | nil => exact absurd (hall ▸ hmem) List.not_mem_nil
      | cons found rest => exact congrArg some (honly found (hall ▸ List.mem_cons_self))

section Listed

variable {container : Option String} {outer : Option Nat} {seen : List Placed}

theorem Lists.parentOf_eq {info : SymbolInfo} {entry : Json} (h : Lists entry (container, info))
    (hcontains : Contains seen container outer) (distinct : (seen.map (·.info.name)).Nodup)
    (range : Range) : parentOf entry range none seen = outer := by
  have hcontainer := h.container
  cases hcontains with
  | root => exact parentOf_of_uncontained hcontainer range none seen
  | @inside place p hplace hname =>
      have htext : optionalText entry "containerName" = some p.info.name := by
        unfold optionalText
        rw [hcontainer]
        exact if_pos (decide_eq_true hname)
      unfold parentOf
      rw [htext, Option.none_or, Option.bind_some, container?_eq distinct hplace]

theorem Lists.visit_eq {info : SymbolInfo} {entry : Json} (h : Lists entry (container, info))
    (hvalid : info.Valid) (hcontains : Contains seen container outer)
    (distinct : (seen.map (·.info.name)).Nodup) :
    visit entry none seen = seen ++ [⟨info, outer⟩] := by
  rw [Symbol.visit_eq (h.describes.range?_eq hvalid), h.describes.infoOf_eq hvalid,
    h.parentOf_eq hcontains distinct, h.flat]
  rfl

end Listed

mutual

theorem infos_placements : ∀ (s : Symbol) (outer : Option Nat) (place : Nat),
    (placements outer place s).map (·.info) = s.nodes.map info
  | .node info children, _, place =>
      congrArg (info :: ·) (infos_placementsAll children (some place) (place + 1))

theorem infos_placementsAll : ∀ (ss : List Symbol) (outer : Option Nat) (place : Nat),
    (placementsAll outer place ss).map (·.info) = (nodesAll ss).map info
  | [], _, _ => rfl
  | s :: rest, outer, place => by
      rw [placementsAll, nodesAll, List.map_append, List.map_append, infos_placements s,
        infos_placementsAll rest]

end

theorem visitAll_append (outer : Option Nat) (seen : List Placed) (first second : List Json) :
    visitAll outer seen (first ++ second) = visitAll outer (visitAll outer seen first) second :=
  List.foldl_append

mutual

/-- The entries of a symbol in the flat form are visited as the symbol is listed. -/
theorem visitAll_listing : ∀ (s : Symbol) {container : Option String} {outer : Option Nat}
    {seen : List Placed} {entries : List Json},
    List.Forall₂ Lists entries (listing container s) → Contains seen container outer →
    (seen.map (·.info.name) ++ s.nodes.map (·.info.name)).Nodup →
    (∀ n ∈ s.nodes, n.children ≠ [] → n.info.name ≠ "") → (∀ n ∈ s.nodes, n.info.Valid) →
    visitAll none seen entries = seen ++ placements outer seen.length s
  | .node info children, container, outer, seen, entries, hlists, hcontains, hdistinct, hnamed,
      hvalid => by
      rw [listing] at hlists
      cases hlists with
      | @cons entry _ rest _ hentry hrest =>
          have hvisit : visit entry none seen = seen ++ [⟨info, outer⟩] :=
            hentry.visit_eq (hvalid _ List.mem_cons_self) hcontains (List.nodup_append.mp hdistinct).1
          have hplace : (seen ++ [⟨info, outer⟩])[seen.length]? = some ⟨info, outer⟩ := by
            rw [List.getElem?_append_right (Nat.le_refl _), Nat.sub_self]
            rfl
          have hinside := @visitAll_listingAll children (some info.name) (some seen.length)
            (seen ++ [⟨info, outer⟩]) rest hrest
            (fun hsome => .inside hplace (hnamed _ List.mem_cons_self hsome))
            (by rw [List.map_append, List.append_assoc]; exact hdistinct)
            (fun n hn => hnamed n (List.mem_cons_of_mem _ hn))
            (fun n hn => hvalid n (List.mem_cons_of_mem _ hn))
          rw [List.length_append, List.append_assoc] at hinside
          show visitAll none (visit entry none seen) rest = _
          rw [hvisit, placements]
          exact hinside

theorem visitAll_listingAll : ∀ (ss : List Symbol) {container : Option String} {outer : Option Nat}
    {seen : List Placed} {entries : List Json},
    List.Forall₂ Lists entries (listingAll container ss) →
    (ss ≠ [] → Contains seen container outer) →
    (seen.map (·.info.name) ++ (nodesAll ss).map (·.info.name)).Nodup →
    (∀ n ∈ nodesAll ss, n.children ≠ [] → n.info.name ≠ "") → (∀ n ∈ nodesAll ss, n.info.Valid) →
    visitAll none seen entries = seen ++ placementsAll outer seen.length ss
  | [], _, _, seen, entries, hlists, _, _, _, _ => by
      rw [listingAll] at hlists
      cases hlists with
      | nil => exact (List.append_nil _).symm
  | s :: rest, container, outer, seen, entries, hlists, hcontains, hdistinct, hnamed, hvalid => by
      have hhere : Contains seen container outer := hcontains (List.cons_ne_nil s rest)
      rw [listingAll] at hlists
      rw [nodesAll, List.map_append, ← List.append_assoc] at hdistinct
      have hfirst := visitAll_listing s (List.forall₂_take_append _ _ _ hlists) hhere
        (List.nodup_append.mp hdistinct).1 (fun n hn => hnamed n (List.mem_append_left _ hn))
        (fun n hn => hvalid n (List.mem_append_left _ hn))
      have hnames : (placements outer seen.length s).map (·.info.name) = s.nodes.map (·.info.name) := by
        have hinfos := congrArg (List.map SymbolInfo.name) (infos_placements s outer seen.length)
        rw [List.map_map, List.map_map] at hinfos
        exact hinfos
      have hlater := @visitAll_listingAll rest container outer
        (seen ++ placements outer seen.length s) _ (List.forall₂_drop_append _ _ _ hlists)
        (fun _ => hhere.append _)
        (by rw [List.map_append, hnames]; exact hdistinct)
        (fun n hn => hnamed n (List.mem_append_right _ hn))
        (fun n hn => hvalid n (List.mem_append_right _ hn))
      rw [List.length_append, List.append_assoc] at hlater
      rw [← List.take_append_drop (listing container s).length entries, visitAll_append, hfirst,
        placementsAll]
      exact hlater

end

theorem listOfJson_flat {ss : List Symbol} {entries : List Json}
    (h : List.Forall₂ Lists entries (listingAll none ss))
    (distinct : ((nodesAll ss).map (·.info.name)).Nodup)
    (named : ∀ n ∈ nodesAll ss, n.children ≠ [] → n.info.name ≠ "")
    (valid : ∀ n ∈ nodesAll ss, n.info.Valid) : listOfJson (.arr entries) = ss := by
  have hplaced : placed (.arr entries) = placementsAll none 0 ss :=
    visitAll_listingAll ss h (fun _ => .root) distinct named valid
  unfold listOfJson
  rw [hplaced, forest_placements]

/-! ## Forests that are written -/

mutual

theorem nests_toJson : ∀ s : Symbol, Nests s s.toJson
  | .node info children => by
      have hmember : ∀ key, (toJson (.node info children)).member? key =
          Members.find? key [("name", .str info.name), ("detail", .str info.detail),
            ("kind", .ofOption .ofInt info.kind), ("range", info.range.toJson),
            ("children", .arr (listToJson children))] := by
        intro key
        rw [toJson, Json.member?_mkObj_of_nodup (by simp)]
      refine .node ⟨?_, .inl ?_, ?_, .inl ⟨info.range.toJson, ?_, Range.states_toJson _⟩⟩ ?_ ?_
      all_goals simp only [Json.get, hmember]
      case refine_6 => exact nestsAll_listToJson children
      all_goals simp [Members.find?]

theorem nestsAll_listToJson : ∀ ss : List Symbol, NestsAll ss (listToJson ss)
  | [] => .nil
  | s :: rest => .cons (nests_toJson s) (nestsAll_listToJson rest)

end

/-- The member that holds a range: the range itself, or a location in a document. -/
def rangeMember (range : Range) : Option String → String × Json
  | none => ("range", range.toJson)
  | some uri => ("location", .mkObj [("uri", .str uri), ("range", range.toJson)])

/-- A symbol as an entry of the flat form, its range in the entry, or in its location in a document. -/
def listedJson (uri? : Option String) (listed : Option String × SymbolInfo) : Json :=
  .mkObj
    [("name", .str listed.2.name), ("detail", .str listed.2.detail),
      ("kind", .ofOption .ofInt listed.2.kind), ("containerName", .ofOption .str listed.1),
      rangeMember listed.2.range uri?]

theorem lists_listedJson (uri? : Option String) (listed : Option String × SymbolInfo) :
    Lists (listedJson uri? listed) listed := by
  have hmember : ∀ key, (listedJson uri? listed).member? key =
      Members.find? key [("name", .str listed.2.name), ("detail", .str listed.2.detail),
        ("kind", .ofOption .ofInt listed.2.kind), ("containerName", .ofOption .str listed.1),
        rangeMember listed.2.range uri?] := by
    intro key
    rw [listedJson, Json.member?_mkObj_of_nodup]
    cases uri? <;> simp [rangeMember]
  have hrange : (∃ range, (listedJson uri? listed).member? "range" = some range ∧
        listed.2.range.States range) ∨
      (listedJson uri? listed).member? "range" = none ∧
        listed.2.range.States (((listedJson uri? listed).get "location").get "range") := by
    simp only [Json.get, hmember]
    cases uri? with
    | none => exact .inl ⟨_, by simp [Members.find?, rangeMember], Range.states_toJson _⟩
    | some uri =>
        have hinner := @Json.member?_mkObj_of_nodup
          [("uri", .str uri), ("range", listed.2.range.toJson)] (by simp) "range"
        refine .inr ⟨by simp [Members.find?, rangeMember], ?_⟩
        simpa [Members.find?, rangeMember, hinner] using listed.2.range.states_toJson
  refine ⟨⟨?_, .inl ?_, ?_, hrange⟩, ?_, ?_⟩
  all_goals simp only [Json.get, hmember]
  case refine_5 => cases uri? <;> simp [Members.find?, rangeMember, Json.items, Json.arr?]
  all_goals simp [Members.find?]

/-- A forest of symbols with different names, in which a symbol with others inside it has a name that is
not empty, is read from its nested form and from its flat form, and both times as it is. -/
theorem forms_agree {ss : List Symbol} {nested flat : List Json}
    (distinct : ((nodesAll ss).map (·.info.name)).Nodup)
    (named : ∀ n ∈ nodesAll ss, n.children ≠ [] → n.info.name ≠ "")
    (valid : ∀ n ∈ nodesAll ss, n.info.Valid) (hnested : NestsAll ss nested)
    (hflat : List.Forall₂ Lists flat (listingAll none ss)) :
    listOfJson (.arr nested) = ss ∧ listOfJson (.arr flat) = ss :=
  ⟨listOfJson_nested hnested valid, listOfJson_flat hflat distinct named valid⟩

/-- A class with two members, one of which holds a symbol without a name, and a function. -/
def outline : List Symbol :=
  [.node ⟨"Widget", "class", some 5, ⟨⟨0, 0⟩, ⟨10, 1⟩⟩⟩
      [.node ⟨"draw", "", some 6, ⟨⟨2, 4⟩, ⟨2, 20⟩⟩⟩ [.node ⟨"", "", none, ⟨⟨2, 8⟩, ⟨2, 9⟩⟩⟩ []],
        .node ⟨"size", "u32", some 8, ⟨⟨30, 0⟩, ⟨4, 1⟩⟩⟩ []],
    .node ⟨"main", "", some 12, ⟨⟨12, 0⟩, ⟨20, 1⟩⟩⟩ []]

/-- The outline is read from both forms, the flat one with locations in every other entry. -/
theorem forms_agree_outline :
    listOfJson (.arr (listToJson outline)) = outline ∧
      listOfJson (.arr
        [listedJson none (none, ⟨"Widget", "class", some 5, ⟨⟨0, 0⟩, ⟨10, 1⟩⟩⟩),
          listedJson (some "file:///a") (some "Widget", ⟨"draw", "", some 6, ⟨⟨2, 4⟩, ⟨2, 20⟩⟩⟩),
          listedJson none (some "draw", ⟨"", "", none, ⟨⟨2, 8⟩, ⟨2, 9⟩⟩⟩),
          listedJson (some "file:///a") (some "Widget", ⟨"size", "u32", some 8, ⟨⟨30, 0⟩, ⟨4, 1⟩⟩⟩),
          listedJson none (none, ⟨"main", "", some 12, ⟨⟨12, 0⟩, ⟨20, 1⟩⟩⟩)]) = outline := by
  refine forms_agree (by decide) ?_ (by decide) (nestsAll_listToJson outline) ?_
  · intro n hn hsome
    simp only [outline, nodesAll, nodes, List.append_nil, List.cons_append, List.nil_append,
      List.mem_cons, List.not_mem_nil, or_false] at hn
    rcases hn with rfl | rfl | rfl | rfl | rfl
    · decide
    · decide
    all_goals exact absurd rfl hsome
  · exact .cons (lists_listedJson _ _) (.cons (lists_listedJson _ _) (.cons (lists_listedJson _ _)
      (.cons (lists_listedJson _ _) (.cons (lists_listedJson _ _) .nil))))

end Symbol

end LanguageClient.Document
