import LanguageClient.Document.Edit
import Mathlib.Data.List.Nodup

/-!
# No edit is lost, invented or reordered

What is read as the edits of a workspace is gathered from two members of a value: edits listed by
document, and changes of documents one after the other. Documents are known by their URIs in normal form,
so several entries, of both members, may be about the same document.

Each entry is a source: the URI that it is brought to, if it is not refused, and its edits. The reader
goes over all sources (`changes_eq_foldl`), and `Gathers` is the invariant of that walk: every document
that a source names stands there once, with the edits of its sources one behind the other. A source is
added by a step that keeps the invariant (`Gathers.step`), and the main theorem, `every_edit_once`, is
what it says at the end. What the value holds is said of the value itself (`HoldsMembers`, `HoldsItems`),
not through the functions that the reader uses.
-/

namespace LanguageClient.Document.WorkspaceEdit

/-- An entry of the value that is read: the document it is about, unless its URI is refused, and its edits. -/
abbrev Source := Option String × List TextEdit

/-- The entry of a document among the edits listed by document. -/
def listedSource (normal : Normalizer) (member : String × Json) : Source :=
  (normal member.1, TextEdit.listOfJson member.2)

/-- An entry of the document changes. -/
def changeSource (normal : Normalizer) (change : Json) : Source :=
  (uri? normal ((change.get "textDocument").get "uri"), TextEdit.listOfJson (change.get "edits"))

/-- Adds a source; one whose URI is refused adds nothing. -/
def gather (changes : List (String × List TextEdit)) : Source → List (String × List TextEdit)
  | (some uri, edits) => append uri edits changes
  | (none, _) => changes

/-- The document changes that change the text of a document. -/
def textChanges (j : Json) : List Json :=
  (j.get "documentChanges").items.filter fun c => (c.member? "kind").isNone

/-- All sources, in the order in which they are read. -/
def sources (normal : Normalizer) (j : Json) : List Source :=
  (membersOf (j.get "changes")).map (listedSource normal) ++ (textChanges j).map (changeSource normal)

theorem changes_eq_foldl (normal : Normalizer) (j : Json) :
    (ofJson normal j).changes = (sources normal j).foldl gather [] := by
  have hadd : ∀ changes raw edits, add normal changes raw edits =
      gather changes (raw.bind normal, TextEdit.listOfJson edits) := by
    intro changes raw edits
    rw [add]
    cases raw.bind normal <;> rfl
  show (textChanges j).foldl _ ((membersOf (j.get "changes")).foldl _ []) = _
  rw [sources, List.foldl_append, List.foldl_map, List.foldl_map]
  simp only [hadd]
  rfl

/-! ## The invariant -/

/-- The changes hold what the sources say: each document once, with the edits of its sources in order. -/
structure Gathers (sources : List Source) (changes : List (String × List TextEdit)) : Prop where
  distinct : (changes.map Prod.fst).Nodup
  named : ∀ uri, uri ∈ changes.map Prod.fst ↔ some uri ∈ sources.map Prod.fst
  edits : ∀ uri es, (uri, es) ∈ changes →
    es = (sources.filter (·.1 = some uri)).flatMap Prod.snd

theorem append_eq {uri : String} {edits : List TextEdit} {changes : List (String × List TextEdit)}
    (distinct : (changes.map Prod.fst).Nodup) :
    append uri edits changes =
      if uri ∈ changes.map Prod.fst then
        changes.map fun e => if e.1 = uri then (e.1, e.2 ++ edits) else e
      else changes ++ [(uri, edits)] := by
  induction changes with
  | nil => rfl
  | cons first rest ih =>
      obtain ⟨u, es⟩ := first
      obtain ⟨hfirst, hrest⟩ := List.nodup_cons.mp distinct
      show (if u = uri then (u, es ++ edits) :: rest else (u, es) :: append uri edits rest) = _
      by_cases hu : u = uri
      · -- the document cannot occur again, so the rest stays as it is
        subst hu
        have hsame : rest.map (fun e => if e.1 = u then (e.1, e.2 ++ edits) else e) = rest := by
          refine (List.map_congr_left fun e he => if_neg ?_).trans (List.map_id rest)
          intro heq
          have hmem : e.1 ∈ rest.map Prod.fst := List.mem_map_of_mem he
          exact hfirst (heq ▸ hmem)
        simp [hsame]
      · rw [if_neg hu, ih hrest]
        by_cases hmem : uri ∈ rest.map Prod.fst
        · simp [hu, hmem]
        · simp [hmem, Ne.symm hu]

variable {sources more : List Source} {changes : List (String × List TextEdit)}

theorem gathers_nil : Gathers [] [] where
  distinct := List.nodup_nil
  named _ := by simp
  edits _ _ h := absurd h List.not_mem_nil

theorem Gathers.refused (h : Gathers sources changes) (edits : List TextEdit) :
    Gathers (sources ++ [(none, edits)]) changes where
  distinct := h.distinct
  named uri := by simpa using h.named uri
  edits uri es hmem := by simpa using h.edits uri es hmem

/-- A source of a document that stands there already puts its edits behind the others. -/
theorem Gathers.again (h : Gathers sources changes) {uri : String} (edits : List TextEdit)
    (hmem : uri ∈ changes.map Prod.fst) :
    Gathers (sources ++ [(some uri, edits)])
      (changes.map fun e => if e.1 = uri then (e.1, e.2 ++ edits) else e) := by
  have hkeys : (changes.map fun e => if e.1 = uri then (e.1, e.2 ++ edits) else e).map Prod.fst =
      changes.map Prod.fst := by
    rw [List.map_map]
    refine List.map_congr_left fun e _ => ?_
    show (if e.1 = uri then (e.1, e.2 ++ edits) else e).1 = e.1
    split <;> rfl
  refine ⟨hkeys ▸ h.distinct, fun u => ?_, fun u es hes => ?_⟩
  · rw [hkeys, h.named]
    have hnamed := (h.named uri).mp hmem
    simp only [List.map_append, List.map_cons, List.map_nil, List.mem_append, List.mem_singleton]
    constructor
    · exact Or.inl
    · rintro (hu | hu)
      · exact hu
      · exact hu ▸ hnamed
  · obtain ⟨⟨u', old⟩, hold, heq⟩ := List.mem_map.mp hes
    by_cases hu : u' = uri
    · rw [if_pos hu] at heq
      obtain ⟨rfl, rfl⟩ := Prod.mk.inj heq
      rw [h.edits _ _ hold, List.filter_append, List.flatMap_append]
      simp [hu]
    · rw [if_neg hu] at heq
      obtain ⟨rfl, rfl⟩ := Prod.mk.inj heq
      rw [h.edits _ _ hold, List.filter_append, List.flatMap_append]
      simp [Ne.symm hu]

theorem Gathers.first (h : Gathers sources changes) {uri : String} (edits : List TextEdit)
    (hmem : uri ∉ changes.map Prod.fst) :
    Gathers (sources ++ [(some uri, edits)]) (changes ++ [(uri, edits)]) := by
  have hnone : sources.filter (·.1 = some uri) = [] := by
    refine List.filter_eq_nil_iff.mpr fun s hs heq => hmem ((h.named uri).mpr ?_)
    exact of_decide_eq_true heq ▸ List.mem_map_of_mem hs
  refine ⟨?_, fun u => ?_, fun u es hes => ?_⟩
  · rw [List.map_append]
    exact List.nodup_append_comm.mp (List.nodup_cons.mpr ⟨hmem, h.distinct⟩)
  · simp only [List.map_append, List.map_cons, List.map_nil, List.mem_append, List.mem_singleton,
      h.named, Option.some.injEq]
  · rw [List.filter_append, List.flatMap_append]
    rcases List.mem_append.mp hes with hold | hnew
    · have hu : uri ≠ u := by
        rintro rfl
        exact hmem (List.mem_map_of_mem (f := Prod.fst) hold)
      rw [← h.edits u es hold]
      simp [hu]
    · obtain ⟨rfl, rfl⟩ := Prod.mk.inj (List.mem_singleton.mp hnew)
      rw [hnone]
      simp

theorem Gathers.step (h : Gathers sources changes) (s : Source) :
    Gathers (sources ++ [s]) (gather changes s) := by
  obtain ⟨name, edits⟩ := s
  cases name with
  | none => exact h.refused edits
  | some uri =>
      show Gathers _ (append uri edits changes)
      rw [append_eq h.distinct]
      split
      next hmem => exact h.again edits hmem
      next hmem => exact h.first edits hmem

theorem Gathers.foldl (h : Gathers sources changes) :
    Gathers (sources ++ more) (more.foldl gather changes) := by
  induction more generalizing sources changes with
  | nil => rwa [List.append_nil]
  | cons s rest ih =>
      rw [List.append_cons]
      exact ih (h.step s)

/-! ## What the value holds -/

/-- The members that a value holds, in order: an object holds its own, any other value none. -/
inductive HoldsMembers : Json → Members → Prop
  | object (members : Members) : HoldsMembers (.obj members) members
  | other {j : Json} : (∀ members, j ≠ .obj members) → HoldsMembers j []

/-- The items that a value holds, in order: an array holds its own, any other value none. -/
inductive HoldsItems : Json → List Json → Prop
  | array (items : List Json) : HoldsItems (.arr items) items
  | other {j : Json} : (∀ items, j ≠ .arr items) → HoldsItems j []

theorem HoldsMembers.eq {j : Json} {members : Members} (h : HoldsMembers j members) :
    membersOf j = members := by
  cases h with
  | object _ => rfl
  | other hnone =>
      cases j with
      | obj members => exact absurd rfl (hnone members)
      | _ => rfl

theorem HoldsItems.eq {j : Json} {items : List Json} (h : HoldsItems j items) : j.items = items := by
  cases h with
  | array _ => rfl
  | other hnone =>
      cases j with
      | arr items => exact absurd rfl (hnone items)
      | _ => rfl

theorem uri?_eq_some_iff {normal : Normalizer} {j : Json} {uri : String} :
    uri? normal j = some uri ↔ ∃ raw, j = .str raw ∧ normal raw = some uri := by
  cases j with
  | str raw => simp [uri?, Json.str?]
  | _ => simp [uri?, Json.str?]

/-- **No edit is lost, invented or reordered.** Let a value hold members under `changes` and items under
`documentChanges`. The documents of the workspace edit that is read from it are those that the members and
the items without a kind name, each once; and the edits of a document are those of its entries, one behind
the other: first the edits listed by document, in the order of the members, then the document changes, in
theirs. -/
theorem every_edit_once (normal : Normalizer) {j : Json} {listed : Members} {items : List Json}
    (hlisted : HoldsMembers (j.get "changes") listed)
    (hitems : HoldsItems (j.get "documentChanges") items) :
    let changes := (ofJson normal j).changes
    let changed := items.filter fun c => (c.member? "kind").isNone
    (changes.map Prod.fst).Nodup ∧
      (∀ uri, uri ∈ changes.map Prod.fst ↔
        (∃ member ∈ listed, normal member.1 = some uri) ∨
          ∃ c ∈ changed, ∃ raw, (c.get "textDocument").get "uri" = .str raw ∧ normal raw = some uri) ∧
      ∀ uri edits, (uri, edits) ∈ changes →
        edits = (listed.filter fun member => normal member.1 = some uri).flatMap
            (fun member => TextEdit.listOfJson member.2) ++
          (changed.filter fun c => uri? normal ((c.get "textDocument").get "uri") = some uri).flatMap
            fun c => TextEdit.listOfJson (c.get "edits") := by
  intro changes changed
  have h : Gathers (sources normal j) changes := by
    show Gathers _ (ofJson normal j).changes
    rw [changes_eq_foldl]
    exact gathers_nil.foldl
  have hsources : sources normal j =
      listed.map (listedSource normal) ++ changed.map (changeSource normal) := by
    rw [sources, textChanges, hlisted.eq, hitems.eq]
  refine ⟨h.distinct, fun uri => ?_, fun uri edits hmem => ?_⟩
  · rw [h.named, hsources, List.map_append, List.mem_append]
    refine or_congr ?_ ?_
    · simp [listedSource]
    · simp [changeSource, ← uri?_eq_some_iff]
  · rw [h.edits uri edits hmem, hsources, List.filter_append, List.flatMap_append, List.filter_map,
      List.flatMap_map, List.filter_map, List.flatMap_map]
    rfl

/-- An edit that puts a text at the start of a document. -/
def insertion (text : String) : Json :=
  let start := Position.toJson ⟨0, 0⟩
  .mkObj [("range", .mkObj [("start", start), ("end", start)]), ("newText", .str text)]

/-- Two spellings of one document meet, in both members. -/
theorem every_edit_once_spellings :
    let normal : Normalizer := fun raw => if raw = "file:///a/../b" then some "file:///b" else some raw
    let listed : Members :=
      [("file:///a/../b", .arr [insertion "1"]), ("file:///b", .arr [insertion "2"])]
    let change (uri text : String) : Json :=
      .mkObj [("textDocument", .mkObj [("uri", .str uri)]), ("edits", .arr [insertion text])]
    let items := [change "file:///b" "3", .mkObj [("kind", .str "delete")], change "file:///a/../b" "4"]
    let j : Json := .obj [("changes", .obj listed), ("documentChanges", .arr items)]
    let changes := (ofJson normal j).changes
    HoldsMembers (j.get "changes") listed ∧ HoldsItems (j.get "documentChanges") items ∧
      (changes.map Prod.fst).Nodup ∧
      changes.map (fun c => (c.1, c.2.map TextEdit.newText)) = [("file:///b", ["1", "2", "3", "4"])] := by
  intro normal listed change items j changes
  have hlisted : HoldsMembers (j.get "changes") listed := .object listed
  have hitems : HoldsItems (j.get "documentChanges") items := .array items
  exact ⟨hlisted, hitems, (every_edit_once normal hlisted hitems).1, by decide +kernel⟩

end LanguageClient.Document.WorkspaceEdit
