import LanguageClient.Proofs.Document.Plan
import LanguageClient.Proofs.Document.Symbol
import Mathlib.Data.List.Sort
import Mathlib.Data.Prod.Lex

/-!
# Where document symbols are placed

Reading keeps the entries with a usable range and visits them in order (`kept`). Every entry finds its
parent among those visited before it, whatever names it bears (`visited_visit`); that is the invariant of
the visit, and with it the forest holds each kept entry exactly once (`each_kept_once`). Which parent a flat
entry gets is a matter of names and ranges (`Belongs`): the forest of a flat array is the one in which every
kept entry stands where it belongs (`flat_placement`).
-/

namespace LanguageClient.Document

/-- The range begins where another does or earlier, and ends where it does or later, by line and then by
column. -/
def Range.Encloses (outer inner : Range) : Prop :=
  toLex (outer.start.line, outer.start.character) ≤
      toLex (inner.start.line, inner.start.character) ∧
    toLex (inner.stop.line, inner.stop.character) ≤ toLex (outer.stop.line, outer.stop.character)

theorem Position.atOrBefore_iff (p q : Position) :
    p.atOrBefore q = true ↔ toLex (p.line, p.character) ≤ toLex (q.line, q.character) := by
  rw [Prod.Lex.toLex_le_toLex]
  simp [atOrBefore]

theorem Range.contains_iff (outer inner : Range) :
    outer.contains inner = true ↔ outer.Encloses inner := by
  rw [contains, Bool.and_eq_true, Position.atOrBefore_iff, Position.atOrBefore_iff, Encloses]

namespace Symbol

/-! ## Kept entries -/

/-- An entry with the range that it is kept for. -/
structure Kept where
  entry : Json
  range : Range

/-- What a kept entry says about its symbol. -/
def Kept.info (e : Kept) : SymbolInfo := infoOf e.entry e.range

/-- An entry, if its range is usable, and then those kept among its children. -/
def keptOf (entry : Json) : List Kept :=
  match range? entry with
  | none => []
  | some range =>
      ⟨entry, range⟩ :: (entry.get "children").items.attach.flatMap fun child => keptOf child.1
termination_by sizeOf entry
decreasing_by exact sizeOf_items_get_lt child.2

/-- The kept entries of a reply, each before those kept among its children. -/
def kept (j : Json) : List Kept := j.items.flatMap keptOf

theorem keptOf_eq {entry : Json} {range : Range} (h : range? entry = some range) :
    keptOf entry = ⟨entry, range⟩ :: (entry.get "children").items.flatMap keptOf := by
  rw [keptOf, h]
  dsimp only
  rw [← List.flatMap_map Subtype.val keptOf, List.attach_map_subtype_val]

theorem keptOf_eq_nil {entry : Json} (h : range? entry = none) : keptOf entry = [] := by
  rw [keptOf, h]

/-- What is kept of an entry: the entry itself if its range can be used, and then what is kept of its
children. -/
inductive Keeps : Json → Kept → Prop
  | here {entry : Json} {range : Range} : Spans entry range → Keeps entry ⟨entry, range⟩
  | inside {entry child : Json} {range : Range} {e : Kept} : Spans entry range →
      child ∈ (entry.get "children").items → Keeps child e → Keeps entry e

theorem Keeps.of_mem_keptOf {e : Kept} (entry : Json) (h : e ∈ keptOf entry) : Keeps entry e := by
  cases hrange : range? entry with
  | none => exact absurd (keptOf_eq_nil hrange ▸ h) List.not_mem_nil
  | some range =>
      have hspans : Spans entry range := range?_eq_some_iff.mp hrange
      rw [keptOf_eq hrange] at h
      rcases List.mem_cons.mp h with rfl | h
      · exact .here hspans
      · obtain ⟨child, hchild, h⟩ := List.mem_flatMap.mp h
        have := sizeOf_items_get_lt hchild
        exact .inside hspans hchild (of_mem_keptOf child h)
termination_by sizeOf entry

theorem mem_keptOf {entry : Json} {e : Kept} : e ∈ keptOf entry ↔ Keeps entry e := by
  refine ⟨Keeps.of_mem_keptOf entry, fun h => ?_⟩
  induction h with
  | here hspans =>
      rw [keptOf_eq (range?_eq_some_iff.mpr hspans)]
      exact List.mem_cons_self
  | inside hspans hchild _ ih =>
      rw [keptOf_eq (range?_eq_some_iff.mpr hspans)]
      exact List.mem_cons_of_mem _ (List.mem_flatMap.mpr ⟨_, hchild, ih⟩)

/-- The kept entries of a reply are those whose ranges can be used, as far as they stand at the top or in
other kept entries. -/
theorem mem_kept {j : Json} {e : Kept} : e ∈ kept j ↔ ∃ entry ∈ j.items, Keeps entry e := by
  simp only [kept, List.mem_flatMap, mem_keptOf]

theorem Kept.info_iff {e : Kept} {info : SymbolInfo} :
    e.info = info ↔ Says e.entry info ∧ info.range = e.range := infoOf_eq_iff

theorem visit_eq_self {entry : Json} (h : range? entry = none) (outer : Option Nat)
    (seen : List Placed) : visit entry outer seen = seen := by
  rw [visit, h]

/-! ## Parents come earlier -/

theorem getElem?_concat_eq_some {α : Type} {l : List α} {a b : α} {k : Nat}
    (h : (l ++ [a])[k]? = some b) : l[k]? = some b ∨ k = l.length ∧ a = b := by
  rcases Nat.lt_trichotomy k l.length with hlt | rfl | hgt
  · exact .inl (by rwa [List.getElem?_append_left hlt] at h)
  · exact .inr ⟨rfl, Option.some.inj (List.getElem?_concat_length.symm.trans h)⟩
  · rw [List.getElem?_eq_none (by rw [List.length_append]; exact hgt)] at h
    exact absurd h (by simp)

theorem Orderly.concat {seen : List Placed} (h : Orderly seen) {p : Placed}
    (hp : ∀ i, p.parent = some i → i < seen.length) : Orderly (seen ++ [p]) := by
  intro k q hq i hi
  rcases getElem?_concat_eq_some hq with hold | ⟨rfl, rfl⟩
  · exact h k q hold i hi
  · exact hp i hi

/-- A container is one of the entries seen. -/
theorem container?_lt {name : String} {range : Range} {seen : List Placed} {i : Nat}
    (h : container? name range seen = some i) : i < seen.length := by
  obtain ⟨⟨place, p⟩, hfound, rfl⟩ := Option.map_eq_some_iff.mp h
  have hmem : (place, p) ∈ placesOf name seen := by
    rcases Option.or_eq_some_iff.mp hfound with hfind | ⟨-, hhead⟩
    · exact List.mem_of_find?_eq_some hfind
    · exact List.mem_of_head? hhead
  exact (List.getElem?_eq_some_iff.mp (mem_placesOf.mp hmem).1).1

theorem parentOf_lt {entry : Json} {range : Range} {outer : Option Nat} {seen : List Placed}
    (houter : ∀ i, outer = some i → i < seen.length) {i : Nat}
    (h : parentOf entry range outer seen = some i) : i < seen.length := by
  rcases Option.or_eq_some_iff.mp h with hsome | ⟨-, hcontainer⟩
  · exact houter i hsome
  · obtain ⟨name, -, hname⟩ := Option.bind_eq_some_iff.mp hcontainer
    exact container?_lt hname

/-- The entries seen after a visit: those seen before, and what was kept, each behind its parent. -/
structure Visited (seen : List Placed) (entries : List Kept) (result : List Placed) : Prop where
  infos : result.map (·.info) = seen.map (·.info) ++ entries.map Kept.info
  orderly : Orderly result

theorem Visited.length_le {seen result : List Placed} {entries : List Kept}
    (h : Visited seen entries result) : seen.length ≤ result.length := by
  have hlength := congrArg List.length h.infos
  rw [List.length_map, List.length_append, List.length_map] at hlength
  omega

theorem Visited.trans {seen mid result : List Placed} {first second : List Kept}
    (h : Visited seen first mid) (h' : Visited mid second result) :
    Visited seen (first ++ second) result where
  infos := by rw [h'.infos, h.infos, List.map_append, List.append_assoc]
  orderly := h'.orderly

theorem visited_all {outer : Option Nat} {entries : List Json}
    (h : ∀ entry ∈ entries, ∀ seen, Orderly seen → (∀ i, outer = some i → i < seen.length) →
      Visited seen (keptOf entry) (visit entry outer seen))
    {seen : List Placed} (hseen : Orderly seen) (houter : ∀ i, outer = some i → i < seen.length) :
    Visited seen (entries.flatMap keptOf) (visitAll outer seen entries) := by
  induction entries generalizing seen with
  | nil => exact ⟨by simp [visitAll], hseen⟩
  | cons entry rest ih =>
      have hfirst := h entry List.mem_cons_self seen hseen houter
      exact hfirst.trans (ih (fun e he => h e (List.mem_cons_of_mem entry he)) hfirst.orderly
        fun i hi => Nat.lt_of_lt_of_le (houter i hi) hfirst.length_le)

/-- **Parents come earlier.** A visit puts what is kept of an entry behind the entries seen, each behind
its parent. -/
theorem visited_visit (entry : Json) (outer : Option Nat) : ∀ seen, Orderly seen →
    (∀ i, outer = some i → i < seen.length) →
    Visited seen (keptOf entry) (visit entry outer seen) := by
  intro seen hseen houter
  cases hrange : range? entry with
  | none =>
      rw [visit_eq_self hrange, keptOf_eq_nil hrange]
      exact ⟨(List.append_nil _).symm, hseen⟩
  | some range =>
      rw [visit_eq hrange, keptOf_eq hrange, ← List.singleton_append]
      have hhere : Visited seen [⟨entry, range⟩]
          (seen ++ [⟨infoOf entry range, parentOf entry range outer seen⟩]) :=
        ⟨by rw [List.map_append]; rfl, hseen.concat fun i hi => parentOf_lt houter hi⟩
      refine hhere.trans (visited_all (fun child hchild seen' hseen' houter' => ?_) hhere.orderly ?_)
      · have := sizeOf_items_get_lt hchild
        exact visited_visit child _ seen' hseen' houter'
      · intro i hi
        rw [List.length_append]
        cases hi
        exact Nat.lt_succ_self _
termination_by sizeOf entry

theorem visited_placed (j : Json) : Visited [] (kept j) (placed j) :=
  visited_all (fun entry _ => visited_visit entry none)
    (fun _ _ h => absurd h (by rw [List.getElem?_nil]; simp)) fun _ h => absurd h (by simp)

theorem Orderly.exists_lineage_of_kept {all : List Placed} {entries : List Kept} (h : Orderly all)
    (hinfos : all.map (·.info) = entries.map Kept.info) :
    ∃ l : Lineage entries.length, all = l.entries fun k => entries[k].info :=
  h.exists_lineage (hinfos.trans (List.ofFn_getElem_eq_map entries Kept.info).symm)

theorem exists_lineage_placed (j : Json) :
    ∃ l : Lineage (kept j).length, placed j = l.entries fun k => (kept j)[k].info :=
  (visited_placed j).orderly.exists_lineage_of_kept (visited_placed j).infos

/-- **Each kept entry is read once.** The forest that is read has a plan in which every kept entry stands
exactly once, behind its parent and its earlier siblings, and each symbol says what its entry says. -/
theorem each_kept_once (j : Json) :
    ∃ plan : List (Plan (kept j).length),
      listOfJson j = Plan.symbols (fun k => (kept j)[k].info) plan ∧ Plan.Ordered plan := by
  obtain ⟨l, hl⟩ := exists_lineage_placed j
  exact ⟨l.plan, by rw [listOfJson, hl, l.forest_entries], l.ordered_plan⟩

/-! ## The container of a flat entry -/

/-- The latest of the entries seen of which something holds stands at the place. -/
def Latest (seen : List Placed) (P : SymbolInfo → Prop) (place : Nat) : Prop :=
  ∃ p, seen[place]? = some p ∧ P p.info ∧ ∀ (i : Nat) q, place < i → seen[i]? = some q → ¬ P q.info

/-- It holds of none of the entries seen. -/
def Never (seen : List Placed) (P : SymbolInfo → Prop) : Prop :=
  ∀ (i : Nat) (p : Placed), seen[i]? = some p → ¬ P p.info

/-- In a list with decreasing places what is found is the latest. -/
theorem find?_eq_some_iff_of_sorted {entries : List (Nat × Placed)}
    (hsorted : entries.Pairwise (·.1 > ·.1)) (Q : Nat × Placed → Bool) {a : Nat × Placed} :
    entries.find? Q = some a ↔ a ∈ entries ∧ Q a ∧ ∀ b ∈ entries, a.1 < b.1 → ¬ Q b := by
  rw [List.find?_eq_some_iff_append]
  constructor
  · rintro ⟨ha, later, earlier, rfl, hlater⟩
    refine ⟨List.mem_append_right _ List.mem_cons_self, ha, fun b hb hlt => ?_⟩
    rcases List.mem_append.mp hb with hb | hb
    · simpa using hlater b hb
    · rcases List.mem_cons.mp hb with rfl | hb
      · exact absurd hlt (Nat.lt_irrefl _)
      · have hrest := (List.pairwise_append.mp hsorted).2.1
        exact absurd (List.rel_of_pairwise_cons hrest hb) (Nat.lt_asymm hlt)
  · rintro ⟨hmem, ha, hlatest⟩
    obtain ⟨later, earlier, rfl⟩ := List.append_of_mem hmem
    refine ⟨ha, later, earlier, rfl, fun b hb => ?_⟩
    have hlt : a.1 < b.1 := (List.pairwise_append.mp hsorted).2.2 b hb a List.mem_cons_self
    simpa using hlatest b (List.mem_append_left _ hb) hlt

theorem placesOf_sorted (name : String) (seen : List Placed) :
    (placesOf name seen).Pairwise (·.1 > ·.1) := by
  have hplaces : seen.zipIdx.Pairwise (·.2 < ·.2) := by
    refine List.pairwise_map.mp ?_
    rw [List.zipIdx_map_snd]
    exact List.pairwise_lt_range' 1
  unfold placesOf
  rw [List.pairwise_reverse]
  exact List.Pairwise.filter _ (List.pairwise_map.mpr hplaces)

section Containers

variable {name : String} {seen : List Placed} {place : Nat}

theorem find?_placesOf (Q : SymbolInfo → Bool) :
    (∃ p, (placesOf name seen).find? (Q ·.2.info) = some (place, p)) ↔
      Latest seen (fun info => info.name = name ∧ Q info) place := by
  constructor
  · rintro ⟨p, hp⟩
    obtain ⟨hmem, hQ, hlatest⟩ := (find?_eq_some_iff_of_sorted (placesOf_sorted name seen) _).mp hp
    obtain ⟨hplace, hname⟩ := mem_placesOf.mp hmem
    exact ⟨p, hplace, ⟨hname, hQ⟩, fun i q hlt hq hboth =>
      hlatest (i, q) (mem_placesOf.mpr ⟨hq, hboth.1⟩) hlt hboth.2⟩
  · rintro ⟨p, hplace, ⟨hname, hQ⟩, hlatest⟩
    refine ⟨p, (find?_eq_some_iff_of_sorted (placesOf_sorted name seen) _).mpr
      ⟨mem_placesOf.mpr ⟨hplace, hname⟩, hQ, ?_⟩⟩
    rintro ⟨i, q⟩ hmem hlt hq
    obtain ⟨hplace', hname'⟩ := mem_placesOf.mp hmem
    exact hlatest i q hlt hplace' ⟨hname', hq⟩

theorem find?_placesOf_eq_none (Q : SymbolInfo → Bool) :
    (placesOf name seen).find? (Q ·.2.info) = none ↔
      Never seen fun info => info.name = name ∧ Q info := by
  rw [List.find?_eq_none]
  constructor
  · intro h i p hp hboth
    exact h (i, p) (mem_placesOf.mpr ⟨hp, hboth.1⟩) hboth.2
  · rintro h ⟨i, p⟩ hmem hQ
    obtain ⟨hp, hname⟩ := mem_placesOf.mp hmem
    exact h i p hp ⟨hname, hQ⟩

theorem head?_placesOf :
    (placesOf name seen).head? = (placesOf name seen).find? fun _ => true := by
  cases placesOf name seen <;> rfl

theorem container?_eq_none_iff {range : Range} :
    container? name range seen = none ↔ Never seen (·.name = name) := by
  unfold container?
  rw [Option.map_eq_none_iff, Option.or_eq_none_iff, head?_placesOf]
  have hencloses := @find?_placesOf_eq_none name seen (·.range.contains range)
  have hall := @find?_placesOf_eq_none name seen fun _ => true
  simp only [and_true] at hall
  rw [hencloses, hall]
  exact ⟨And.right, fun h => ⟨fun i p hp hboth => h i p hp hboth.1, h⟩⟩

/-- The container is the latest entry of the name that encloses the range, or if none does the latest
of the name. -/
theorem container?_eq_some_iff {range : Range} :
    container? name range seen = some place ↔
      Latest seen (fun info => info.name = name ∧ info.range.Encloses range) place ∨
      Never seen (fun info => info.name = name ∧ info.range.Encloses range) ∧
        Latest seen (·.name = name) place := by
  have hall := @find?_placesOf name seen place fun _ => true
  simp only [and_true] at hall
  simp only [← Range.contains_iff]
  rw [← find?_placesOf (·.range.contains range), ← hall,
    ← find?_placesOf_eq_none (·.range.contains range)]
  unfold container?
  rw [Option.map_eq_some_iff, head?_placesOf]
  constructor
  · rintro ⟨⟨i, p⟩, hfound, rfl⟩
    rcases Option.or_eq_some_iff.mp hfound with hfound | ⟨hnone, hfound⟩
    · exact .inl ⟨p, hfound⟩
    · exact .inr ⟨hnone, p, hfound⟩
  · rintro (⟨p, hfound⟩ | ⟨hnone, p, hfound⟩)
    · exact ⟨(place, p), Option.or_eq_some_iff.mpr (.inl hfound), rfl⟩
    · exact ⟨(place, p), Option.or_eq_some_iff.mpr (.inr ⟨hnone, hfound⟩), rfl⟩

end Containers

/-! ## Where a flat entry belongs -/

/-- The latest place before `k` of which something holds. -/
def LatestBefore {n : Nat} (k : Fin n) (P : Fin n → Prop) (i : Fin n) : Prop :=
  i < k ∧ P i ∧ ∀ j, i < j → j < k → ¬ P j

/-- The parent of a kept entry of a flat array: the latest earlier entry with the name of its container that
encloses it; if none does, the latest earlier one of that name; and none if there is no such entry, or if it
names no container. -/
inductive Belongs (entries : List Kept) (k : Fin entries.length) :
    Option (Fin entries.length) → Prop
  | uncontained : (∀ c, entries[k].entry.get "containerName" = .str c → c = "") →
      Belongs entries k none
  | unlisted {c : String} : entries[k].entry.get "containerName" = .str c → c ≠ "" →
      (∀ i < k, textMember entries[i].entry "name" ≠ c) → Belongs entries k none
  | enclosed {c : String} {i : Fin entries.length} :
      entries[k].entry.get "containerName" = .str c → c ≠ "" →
      LatestBefore k (fun i => textMember entries[i].entry "name" = c ∧
        entries[i].range.Encloses entries[k].range) i → Belongs entries k (some i)
  | named {c : String} {i : Fin entries.length} :
      entries[k].entry.get "containerName" = .str c → c ≠ "" →
      (∀ i < k, textMember entries[i].entry "name" = c →
        ¬ entries[i].range.Encloses entries[k].range) →
      LatestBefore k (fun i => textMember entries[i].entry "name" = c) i →
      Belongs entries k (some i)

theorem LatestBefore.unique {n : Nat} {k i j : Fin n} {P : Fin n → Prop} (hi : LatestBefore k P i)
    (hj : LatestBefore k P j) : i = j := by
  rcases lt_trichotomy i j with hlt | heq | hlt
  · exact absurd hj.2.1 (hi.2.2 j hlt hj.1)
  · exact heq
  · exact absurd hi.2.1 (hj.2.2 i hlt hi.1)

theorem Belongs.unique {entries : List Kept} {k : Fin entries.length}
    {parent other : Option (Fin entries.length)} (h : Belongs entries k parent)
    (h' : Belongs entries k other) : parent = other := by
  have hsame : ∀ {c c' : String}, entries[k].entry.get "containerName" = .str c →
      entries[k].entry.get "containerName" = .str c' → c = c' :=
    fun hc hc' => Json.str.inj (hc.symm.trans hc')
  cases h with
  | uncontained hnone =>
      cases h' with
      | uncontained => rfl
      | unlisted => rfl
      | enclosed hc hne => exact absurd (hnone _ hc) hne
      | named hc hne => exact absurd (hnone _ hc) hne
  | unlisted hc hne hnever =>
      cases h' with
      | uncontained => rfl
      | unlisted => rfl
      | enclosed hc' _ hlatest =>
          obtain rfl := hsame hc hc'
          exact absurd hlatest.2.1.1 (hnever _ hlatest.1)
      | named hc' _ _ hlatest =>
          obtain rfl := hsame hc hc'
          exact absurd hlatest.2.1 (hnever _ hlatest.1)
  | enclosed hc hne hlatest =>
      cases h' with
      | uncontained hnone => exact absurd (hnone _ hc) hne
      | unlisted hc' _ hnever =>
          obtain rfl := hsame hc hc'
          exact absurd hlatest.2.1.1 (hnever _ hlatest.1)
      | enclosed hc' _ hlatest' =>
          obtain rfl := hsame hc hc'
          exact congrArg some (hlatest.unique hlatest')
      | named hc' _ hnever _ =>
          obtain rfl := hsame hc hc'
          exact absurd hlatest.2.1.2 (hnever _ hlatest.1 hlatest.2.1.1)
  | named hc hne hnever hlatest =>
      cases h' with
      | uncontained hnone => exact absurd (hnone _ hc) hne
      | unlisted hc' _ hnever' =>
          obtain rfl := hsame hc hc'
          exact absurd hlatest.2.1 (hnever' _ hlatest.1)
      | enclosed hc' _ hlatest' =>
          obtain rfl := hsame hc hc'
          exact absurd hlatest'.2.1.2 (hnever _ hlatest'.1 hlatest'.2.1.1)
      | named hc' _ _ hlatest' =>
          obtain rfl := hsame hc hc'
          exact congrArg some (hlatest.unique hlatest')

section Before

variable {n : Nat} (l : Lineage n) (info : Fin n → SymbolInfo) (k : Fin n)

theorem getElem?_take_entries (i : Fin n) :
    ((l.entries info).take k.val)[i.val]? =
      if i < k then some ⟨info i, (l.parent i).map Fin.val⟩ else none := by
  rw [List.getElem?_take, l.getElem?_entries]
  rfl

theorem place_of_getElem?_take {i : Nat} {p : Placed}
    (h : ((l.entries info).take k.val)[i]? = some p) : ∃ j : Fin n, j.val = i := by
  have hlt := (List.getElem?_eq_some_iff.mp h).1
  rw [List.length_take] at hlt
  exact ⟨⟨i, by omega⟩, rfl⟩

theorem never_take_iff (P : SymbolInfo → Prop) :
    Never ((l.entries info).take k.val) P ↔ ∀ i < k, ¬ P (info i) := by
  constructor
  · intro h i hlt
    exact h i.val _ ((getElem?_take_entries l info k i).trans (if_pos hlt))
  · intro h i p hp
    obtain ⟨j, rfl⟩ := place_of_getElem?_take l info k hp
    rw [getElem?_take_entries, Option.ite_none_right_eq_some, Option.some.injEq] at hp
    obtain ⟨hlt, rfl⟩ := hp
    exact h j hlt

theorem latest_take_iff (P : SymbolInfo → Prop) (i : Fin n) :
    Latest ((l.entries info).take k.val) P i.val ↔ LatestBefore k (fun i => P (info i)) i := by
  constructor
  · rintro ⟨p, hp, hP, hlatest⟩
    rw [getElem?_take_entries, Option.ite_none_right_eq_some, Option.some.injEq] at hp
    obtain ⟨hlt, rfl⟩ := hp
    exact ⟨hlt, hP, fun j hij hjk =>
      hlatest j.val _ hij ((getElem?_take_entries l info k j).trans (if_pos hjk))⟩
  · rintro ⟨hlt, hP, hlatest⟩
    refine ⟨_, (getElem?_take_entries l info k i).trans (if_pos hlt), hP, fun j q hij hq => ?_⟩
    obtain ⟨j, rfl⟩ := place_of_getElem?_take l info k hq
    rw [getElem?_take_entries, Option.ite_none_right_eq_some, Option.some.injEq] at hq
    obtain ⟨hjk, rfl⟩ := hq
    exact hlatest j hij hjk

end Before

theorem optionalText_eq_some_iff {j : Json} {key s : String} :
    optionalText j key = some s ↔ j.get key = .str s ∧ s ≠ "" := by
  unfold optionalText
  rw [Option.filter_eq_some_iff, decide_eq_true_eq]
  refine and_congr_left fun _ => ?_
  cases j.get key <;> simp [Json.str?]

theorem optionalText_eq_none_iff {j : Json} {key : String} :
    optionalText j key = none ↔ ∀ s, j.get key = .str s → s = "" := by
  rw [Option.eq_none_iff_forall_not_mem]
  refine forall_congr' fun s => ?_
  rw [Option.mem_def, optionalText_eq_some_iff, not_and, ne_eq, Classical.not_not]

section Parents

variable {entries : List Kept} {k : Fin entries.length} {parent : Option (Fin entries.length)}

theorem belongs_iff_of_uncontained
    (hnone : ∀ c, entries[k].entry.get "containerName" = .str c → c = "") :
    Belongs entries k parent ↔ parent = none := by
  constructor
  · intro h
    cases h with
    | uncontained => rfl
    | unlisted hc hne => exact absurd (hnone _ hc) hne
    | enclosed hc hne => exact absurd (hnone _ hc) hne
    | named hc hne => exact absurd (hnone _ hc) hne
  · rintro rfl
    exact .uncontained hnone

/-- An entry that names a container belongs where the container is found among the entries before it. -/
theorem belongs_iff_of_contained (l : Lineage entries.length) {c : String}
    (hc : entries[k].entry.get "containerName" = .str c) (hne : c ≠ "") :
    Belongs entries k parent ↔ container? c entries[k].range
      ((l.entries fun i => entries[i].info).take k.val) = parent.map Fin.val := by
  have hsame : ∀ {other}, entries[k].entry.get "containerName" = .str other → other = c :=
    fun hother => Json.str.inj (hother.symm.trans hc)
  constructor
  · intro h
    cases h with
    | uncontained hnone => exact absurd (hnone c hc) hne
    | unlisted hother _ hnever =>
        obtain rfl := hsame hother
        exact container?_eq_none_iff.mpr ((never_take_iff l _ k _).mpr hnever)
    | enclosed hother _ hlatest =>
        obtain rfl := hsame hother
        exact container?_eq_some_iff.mpr (.inl ((latest_take_iff l _ k _ _).mpr hlatest))
    | named hother _ hnever hlatest =>
        obtain rfl := hsame hother
        refine container?_eq_some_iff.mpr (.inr
          ⟨(never_take_iff l _ k _).mpr ?_, (latest_take_iff l _ k _ _).mpr hlatest⟩)
        exact fun i hi hboth => hnever i hi hboth.1 hboth.2
  · intro h
    cases parent with
    | none => exact .unlisted hc hne ((never_take_iff l _ k _).mp (container?_eq_none_iff.mp h))
    | some i =>
        rcases container?_eq_some_iff.mp h with hlatest | ⟨hnever, hlatest⟩
        · exact .enclosed hc hne ((latest_take_iff l _ k _ _).mp hlatest)
        · refine .named hc hne (fun j hj hname hencloses => ?_)
            ((latest_take_iff l _ k _ _).mp hlatest)
          exact (never_take_iff l _ k _).mp hnever j hj ⟨hname, hencloses⟩

theorem belongs_iff (l : Lineage entries.length)
    (hparent : (l.parent k).map Fin.val = parentOf entries[k].entry entries[k].range none
      ((l.entries fun i => entries[i].info).take k.val)) :
    Belongs entries k parent ↔ l.parent k = parent := by
  unfold parentOf at hparent
  rw [Option.none_or] at hparent
  cases hcontainer : optionalText entries[k].entry "containerName" with
  | none =>
      rw [hcontainer, Option.bind_none, Option.map_eq_none_iff] at hparent
      rw [belongs_iff_of_uncontained (optionalText_eq_none_iff.mp hcontainer), hparent, eq_comm]
  | some c =>
      obtain ⟨hc, hne⟩ := optionalText_eq_some_iff.mp hcontainer
      rw [hcontainer, Option.bind_some] at hparent
      rw [belongs_iff_of_contained l hc hne, ← hparent]
      exact (Option.map_injective Fin.val_injective).eq_iff

end Parents

/-! ## Flat arrays -/

/-- The entries with a usable range. -/
def usable (entries : List Json) : List Kept :=
  entries.filterMap fun entry => (range? entry).map (Kept.mk entry)

theorem mem_usable {entries : List Json} {e : Kept} :
    e ∈ usable entries ↔ e.entry ∈ entries ∧ Spans e.entry e.range := by
  obtain ⟨entry, range⟩ := e
  simp [usable, range?_eq_some_iff]

/-- Each entry was placed by the entries that were seen before it. -/
structure Settled (entries : List Kept) (seen : List Placed) : Prop where
  length_eq : entries.length = seen.length
  placed : ∀ (k : Nat) p, seen[k]? = some p → ∃ e, entries[k]? = some e ∧
    p = ⟨e.info, parentOf e.entry e.range none (seen.take k)⟩

theorem Settled.nil : Settled [] [] :=
  ⟨rfl, fun k p hp => absurd hp (by rw [List.getElem?_nil]; simp)⟩

theorem Settled.concat {entries : List Kept} {seen : List Placed} (h : Settled entries seen)
    (e : Kept) : Settled (entries ++ [e])
      (seen ++ [⟨e.info, parentOf e.entry e.range none seen⟩]) where
  length_eq := by rw [List.length_append, List.length_append, h.length_eq]; rfl
  placed k p hp := by
    rcases getElem?_concat_eq_some hp with hold | ⟨rfl, rfl⟩
    · have hlt := (List.getElem?_eq_some_iff.mp hold).1
      rw [List.getElem?_append_left (h.length_eq ▸ hlt), List.take_append_of_le_length hlt.le]
      exact h.placed k p hold
    · exact ⟨e, by rw [← h.length_eq, List.getElem?_concat_length], by rw [List.take_left]⟩

theorem Settled.infos {entries : List Kept} {seen : List Placed} (h : Settled entries seen) :
    seen.map (·.info) = entries.map Kept.info := by
  refine List.ext_getElem (by simp [h.length_eq]) fun k hk hk' => ?_
  rw [List.length_map] at hk hk'
  obtain ⟨e, he, hp⟩ := h.placed k seen[k] (List.getElem?_eq_getElem hk)
  obtain rfl : entries[k] = e := Option.some.inj ((List.getElem?_eq_getElem hk').symm.trans he)
  rw [List.getElem_map, List.getElem_map, hp]

theorem Settled.visitAll {entries : List Json}
    (flat : ∀ entry ∈ entries, (entry.get "children").items = []) {before : List Kept}
    {seen : List Placed} (h : Settled before seen) :
    Settled (before ++ usable entries) (visitAll none seen entries) := by
  induction entries generalizing before seen with
  | nil =>
      rw [usable, List.filterMap_nil, List.append_nil]
      exact h
  | cons entry rest ih =>
      have hflat : ∀ e ∈ rest, (e.get "children").items = [] :=
        fun e he => flat e (List.mem_cons_of_mem entry he)
      show Settled _ (Symbol.visitAll none (visit entry none seen) rest)
      unfold usable
      cases hrange : range? entry with
      | none =>
          rw [visit_eq_self hrange, List.filterMap_cons_none (by rw [hrange]; rfl)]
          exact ih hflat h
      | some range =>
          rw [List.filterMap_cons_some (b := ⟨entry, range⟩) (by rw [hrange]; rfl),
            ← List.singleton_append, ← List.append_assoc, visit_eq hrange,
            flat entry List.mem_cons_self]
          exact ih hflat (h.concat ⟨entry, range⟩)

/-- **Where flat entries are placed.** The forest that is read from a flat array has a plan in which every
entry with a usable range stands exactly once and where it belongs, and what stands side by side is in the
order of the array. -/
theorem flat_placement {entries : List Json}
    (flat : ∀ entry ∈ entries, (entry.get "children").items = []) :
    ∃ plan : List (Plan (usable entries).length),
      listOfJson (.arr entries) = Plan.symbols (fun k => (usable entries)[k].info) plan ∧
      Plan.Ordered plan ∧
      (∀ k, k ∈ plan.map Plan.place ↔ Belongs (usable entries) k none) ∧
      ∀ t ∈ Plan.nodesAll plan, ∀ k,
        k ∈ t.inside.map Plan.place ↔ Belongs (usable entries) k (some t.place) := by
  have hsettled : Settled (usable entries) (placed (.arr entries)) :=
    Settled.visitAll flat .nil
  obtain ⟨l, hl⟩ := (visited_placed (.arr entries)).orderly.exists_lineage_of_kept hsettled.infos
  have hparent : ∀ k, (l.parent k).map Fin.val =
      parentOf (usable entries)[k].entry (usable entries)[k].range none
        ((l.entries fun i => (usable entries)[i].info).take k.val) := by
    intro k
    obtain ⟨e, he, hp⟩ := hsettled.placed k.val _ (hl ▸ l.getElem?_entries _ k)
    rw [hl] at hp
    obtain rfl : (usable entries)[k] = e := Option.some.inj ((List.getElem?_eq_getElem k.isLt).symm.trans he)
    exact congrArg Placed.parent hp
  refine ⟨l.plan, by rw [listOfJson, hl, l.forest_entries], l.ordered_plan, fun k => ?_,
    fun t ht k => ?_⟩
  · rw [belongs_iff l (hparent k), Lineage.plan, l.map_place_grow, l.mem_under]
  · rw [belongs_iff l (hparent k), l.inside_plan ht, l.mem_under]

/-- Two functions of one name, and a variable inside the first of them that names its container. -/
def overloads : List Json :=
  [listedJson none (none, ⟨"area", "int", some 12, ⟨⟨0, 0⟩, ⟨9, 1⟩⟩⟩),
    listedJson (some "file:///a") (none, ⟨"area", "float", some 12, ⟨⟨11, 0⟩, ⟨20, 1⟩⟩⟩),
    listedJson none (some "area", ⟨"width", "", some 13, ⟨⟨9, 0⟩, ⟨9, 1⟩⟩⟩)]

theorem belongs_width :
    Belongs (usable overloads) ⟨2, by decide⟩ (some ⟨0, by decide⟩) := by
  refine .enclosed rfl (by decide)
    ⟨by decide, ⟨rfl, (Range.contains_iff _ _).mp (by decide)⟩, fun j hafter hbefore hboth => ?_⟩
  have hlow : 0 < j.val := hafter
  have hhigh : j.val < 2 := hbefore
  obtain rfl : j = ⟨1, by decide⟩ := Fin.ext (show j.val = 1 by omega)
  exact absurd ((Range.contains_iff _ _).mpr hboth.2) (by decide)

theorem belongs_overloads (k : Fin (usable overloads).length)
    (parent : Option (Fin (usable overloads).length)) :
    Belongs (usable overloads) k parent ↔
      parent = if k.val = 2 then some ⟨0, by decide⟩ else none := by
  have hplace : Belongs (usable overloads) k (if k.val = 2 then some ⟨0, by decide⟩ else none) := by
    have hlength : k.val < 3 := k.isLt
    obtain rfl | rfl | rfl : k = ⟨0, by decide⟩ ∨ k = ⟨1, by decide⟩ ∨ k = ⟨2, by decide⟩ := by
      simp only [Fin.ext_iff]
      omega
    · exact .uncontained fun _ hc => absurd hc nofun
    · exact .uncontained fun _ hc => absurd hc nofun
    · exact belongs_width
  exact ⟨fun h => h.unique hplace, fun h => h ▸ hplace⟩

/-- The forest that is read has two roots, and the variable stands in the first of them, which encloses
it, though the second one is later. -/
theorem flat_placement_overloads :
    (∀ entry ∈ overloads, (entry.get "children").items = []) ∧
      listOfJson (.arr overloads) =
        [.node ⟨"area", "int", some 12, ⟨⟨0, 0⟩, ⟨9, 1⟩⟩⟩
            [.node ⟨"width", "", some 13, ⟨⟨9, 0⟩, ⟨9, 1⟩⟩⟩ []],
          .node ⟨"area", "float", some 12, ⟨⟨11, 0⟩, ⟨20, 1⟩⟩⟩ []] := by
  have flat : ∀ entry ∈ overloads, (entry.get "children").items = [] := by
    intro entry hentry
    simp only [overloads, List.mem_cons, List.not_mem_nil, or_false] at hentry
    rcases hentry with rfl | rfl | rfl
    all_goals rfl
  refine ⟨flat, ?_⟩
  obtain ⟨plan, hread, hordered, hroots, hinside⟩ := flat_placement flat
  rw [hread]
  simp only [belongs_overloads] at hroots hinside
  have hplan : plan.map Plan.place = [⟨0, by decide⟩, ⟨1, by decide⟩] := by
    refine hordered.roots.eq_of_mem_iff (by decide) fun k => (hroots k).trans ?_
    have hlength : k.val < 3 := k.isLt
    simp only [List.mem_cons, List.not_mem_nil, or_false, Fin.ext_iff]
    split <;> simp <;> omega
  have hsorted : ∀ t ∈ Plan.nodesAll plan,
      t.inside.map Plan.place = if t.place.val = 0 then [⟨2, by decide⟩] else [] := by
    intro t ht
    refine (hordered.siblings t ht).eq_of_mem_iff (by split <;> simp) fun k => (hinside t ht k).trans ?_
    have hlength : k.val < 3 := k.isLt
    split <;> simp [Fin.ext_iff, *]
  -- the plan, tree by tree
  obtain ⟨⟨_, inside⟩, _, rfl, rfl, hrest⟩ := List.map_eq_cons_iff.mp hplan
  obtain ⟨⟨_, later⟩, _, rfl, rfl, hnone⟩ := List.map_eq_cons_iff.mp hrest
  obtain rfl := List.map_eq_nil_iff.mp hnone
  have hfirst : inside.map Plan.place = [⟨2, by decide⟩] := hsorted _ List.mem_cons_self
  obtain ⟨⟨_, innermost⟩, _, rfl, rfl, hnone⟩ := List.map_eq_cons_iff.mp hfirst
  obtain rfl := List.map_eq_nil_iff.mp hnone
  have hwidth : innermost.map Plan.place = [] :=
    hsorted (.node ⟨2, by decide⟩ innermost) (by simp [Plan.nodesAll, Plan.nodes])
  have hsecond : later.map Plan.place = [] :=
    hsorted (.node ⟨1, by decide⟩ later) (by simp [Plan.nodesAll, Plan.nodes])
  obtain rfl := List.map_eq_nil_iff.mp hwidth
  obtain rfl := List.map_eq_nil_iff.mp hsecond
  rfl

end Symbol

end LanguageClient.Document
