import LanguageClient.Proofs.Document.Placement
import Mathlib.Data.List.Find

/-!
# The arena of a reading

Reading gives every entry the place of its parent, and the forest is built by looking for the entries with
a given parent. It can be read in another way: the entries are put into an arena, where each cell lists the
places inside it and the places of each name are indexed (`Arena.insert`), and the forest is taken from the
arena by following the lists from the roots on (`Builds`). Both ways come to the same forest
(`builds_ofJson`), because the lists of the arena are what the places of the parents say (`Arena.Records`).
Every place stands in exactly one of the lists, and behind its parent (`once_ofJson`, `later_ofJson`), which
is why the forest can be taken at all.
-/

namespace LanguageClient.Document.Symbol

/-! ## The arena -/

/-- A symbol, and the places of those inside it. -/
structure Cell where
  info : SymbolInfo
  inside : List Nat

/-- Cells by their places, the places of the roots, and those of each name; the latest are the last. -/
structure Arena where
  cells : List Cell := []
  roots : List Nat := []
  named : String → List Nat := fun _ => []

namespace Arena

/-- The container of a flat entry: of the places of its name, from the last on, the first one that encloses
the range, else the last. -/
def container? (a : Arena) (name : String) (range : Range) : Option Nat :=
  ((a.named name).reverse.find? fun i => (a.cells[i]?).any (·.info.range.contains range)).or
    (a.named name).getLast?

/-- Puts a symbol behind all others, and its place into the list of its parent and into that of its name. -/
def push (a : Arena) (info : SymbolInfo) (parent : Option Nat) : Arena :=
  let place := a.cells.length
  let cells := a.cells ++ [⟨info, []⟩]
  { cells := match parent with
      | some i => cells.modify i fun c => { c with inside := c.inside ++ [place] }
      | none => cells
    roots := if parent = none then a.roots ++ [place] else a.roots
    named := fun name => if info.name = name then a.named name ++ [place] else a.named name }

/-- The parent of an entry: the entry it stands in, else its container. -/
def parentOf (a : Arena) (entry : Json) (range : Range) (outer : Option Nat) : Option Nat :=
  outer.or ((optionalText entry "containerName").bind fun name => a.container? name range)

/-- Puts an entry with a usable range and those nested in it into the arena. -/
def insert (entry : Json) (outer : Option Nat) (a : Arena) : Arena :=
  match range? entry with
  | none => a
  | some range =>
      let here := a.cells.length
      (entry.get "children").items.attach.foldl (fun a child => insert child.1 (some here) a)
        (a.push (infoOf entry range) (a.parentOf entry range outer))
termination_by sizeOf entry
decreasing_by exact sizeOf_items_get_lt child.2

/-- Puts entries into the arena, one after the other. -/
def insertAll (outer : Option Nat) (a : Arena) (entries : List Json) : Arena :=
  entries.foldl (fun a entry => insert entry outer a) a

/-- The arena of a reply. -/
def ofJson (j : Json) : Arena := insertAll none {} j.items

theorem insert_eq {entry : Json} {range : Range} (h : range? entry = some range) (outer : Option Nat)
    (a : Arena) : a.insert entry outer =
      insertAll (some a.cells.length) (a.push (infoOf entry range) (a.parentOf entry range outer))
        (entry.get "children").items := by
  rw [insert, h]
  exact @List.foldl_attach _ _ _ (fun a child => insert child (some _) a) _

end Arena

/-! ## What the lists record -/

/-- The places of the entries of which something holds, in order. -/
def placesWith (P : Placed → Prop) [DecidablePred P] (seen : List Placed) : List Nat :=
  (seen.zipIdx.filter (P ·.1)).map (·.2)

theorem placesWith_concat (P : Placed → Prop) [DecidablePred P] (seen : List Placed) (p : Placed) :
    placesWith P (seen ++ [p]) = placesWith P seen ++ if P p then [seen.length] else [] := by
  unfold placesWith
  rw [List.zipIdx_append, List.filter_append, List.map_append]
  by_cases hp : P p <;> simp [hp]

theorem mem_placesWith {P : Placed → Prop} [DecidablePred P] {seen : List Placed} {i : Nat} :
    i ∈ placesWith P seen ↔ ∃ p, seen[i]? = some p ∧ P p := by
  unfold placesWith
  simp [List.mem_zipIdx_iff_getElem?, and_comm]

/-- The places of the entries with a given parent. -/
def placesUnder (parent : Option Nat) (seen : List Placed) : List Nat :=
  placesWith (·.parent = parent) seen

theorem map_fst_placesOf (name : String) (seen : List Placed) :
    (placesOf name seen).map (·.1) = (placesWith (·.info.name = name) seen).reverse := by
  unfold placesOf placesWith
  rw [List.map_reverse, List.filter_map, List.map_map]
  rfl

namespace Arena

/-- The cell of an entry, with the places of those whose parent it is. -/
def cellOf (seen : List Placed) (place : Nat) (p : Placed) : Cell :=
  ⟨p.info, placesUnder (some place) seen⟩

/-- The lists of the arena are what the places of the parents say. -/
structure Records (a : Arena) (seen : List Placed) : Prop where
  cells : a.cells = seen.mapIdx (cellOf seen)
  roots : a.roots = placesUnder none seen
  named : ∀ name, a.named name = placesWith (·.info.name = name) seen

variable {a : Arena} {seen : List Placed}

theorem records_empty : Records {} [] := ⟨rfl, rfl, fun _ => rfl⟩

theorem Records.length_eq (h : a.Records seen) : a.cells.length = seen.length := by
  rw [h.cells, List.length_mapIdx]

theorem Records.getElem?_cells (h : a.Records seen) (i : Nat) :
    a.cells[i]? = (seen[i]?).map (cellOf seen i) := by
  rw [h.cells, List.getElem?_mapIdx]

theorem Records.container?_eq (h : a.Records seen) (name : String) (range : Range) :
    a.container? name range = Symbol.container? name range seen := by
  have hfound : (placesOf name seen).find?
        ((fun i => (a.cells[i]?).any (·.info.range.contains range)) ∘ (·.1)) =
      (placesOf name seen).find? (·.2.info.range.contains range) := by
    refine List.find?_congr fun (i, p) hp => ?_
    rw [Function.comp_apply, h.getElem?_cells, (mem_placesOf.mp hp).1]
    rfl
  unfold container? Symbol.container?
  dsimp only
  rw [h.named, List.getLast?_eq_head?_reverse, ← map_fst_placesOf, List.find?_map, hfound,
    List.head?_map, Option.map_or]

theorem Records.parentOf_eq (h : a.Records seen) (entry : Json) (range : Range) (outer : Option Nat) :
    a.parentOf entry range outer = Symbol.parentOf entry range outer seen := by
  simp only [parentOf, Symbol.parentOf, h.container?_eq]

/-- What is put behind its parent is recorded. -/
theorem Records.push (h : a.Records seen) (hseen : Orderly seen) (info : SymbolInfo)
    (parent : Option Nat) : (a.push info parent).Records (seen ++ [⟨info, parent⟩]) where
  cells := by
    have hnone : placesUnder (some seen.length) seen = [] := by
      refine List.eq_nil_iff_forall_not_mem.mpr fun k hk => ?_
      obtain ⟨p, hp, hplace⟩ := mem_placesWith.mp hk
      have hlt := (List.getElem?_eq_some_iff.mp hp).1
      exact absurd (hseen k p hp _ hplace) (Nat.lt_asymm hlt)
    -- the cells before the new place is put into the list of its parent
    have hold : ∀ i, (a.cells ++ [⟨info, []⟩])[i]? =
        ((seen ++ [⟨info, parent⟩])[i]?).map (cellOf seen i) := by
      intro i
      rcases Nat.lt_trichotomy i seen.length with hlt | rfl | hgt
      · rw [List.getElem?_append_left (h.length_eq ▸ hlt), List.getElem?_append_left hlt,
          h.getElem?_cells]
      · rw [← h.length_eq, List.getElem?_concat_length, h.length_eq, List.getElem?_concat_length,
          Option.map_some, cellOf, hnone]
      · rw [List.getElem?_eq_none, List.getElem?_eq_none]
        · rfl
        · rw [List.length_append]
          exact hgt
        · rw [List.length_append, h.length_eq]
          exact hgt
    have hcell : ∀ i p, cellOf (seen ++ [⟨info, parent⟩]) i p = ⟨p.info,
        (cellOf seen i p).inside ++ if parent = some i then [seen.length] else []⟩ := fun i p =>
      congrArg (Cell.mk p.info) (placesWith_concat ..)
    refine List.ext_getElem? fun i => ?_
    rw [List.getElem?_mapIdx, funext (hcell i), ← h.length_eq]
    unfold Arena.push
    cases parent with
    | none =>
        simp only [hold, reduceCtorEq, if_false, List.append_nil]
        rfl
    | some j =>
        dsimp only
        rw [List.getElem?_modify, hold]
        by_cases hij : j = i
        · simp only [hij, if_true]
          exact Option.map_map ..
        · simp only [hij, if_false, Option.some.injEq, List.append_nil]
          exact Option.map_map ..
  roots := by
    rw [placesUnder, placesWith_concat, ← placesUnder, ← h.roots, ← h.length_eq]
    unfold Arena.push
    dsimp only
    split <;> simp
  named name := by
    rw [placesWith_concat, ← h.named, ← h.length_eq]
    unfold Arena.push
    dsimp only
    split <;> simp

theorem Records.insertAll {outer : Option Nat} {entries : List Json}
    (hinsert : ∀ entry ∈ entries, ∀ a seen, Records a seen → Orderly seen →
      (∀ i, outer = some i → i < seen.length) →
      (insert entry outer a).Records (visit entry outer seen))
    (h : a.Records seen) (hseen : Orderly seen) (houter : ∀ i, outer = some i → i < seen.length) :
    (a.insertAll outer entries).Records (visitAll outer seen entries) := by
  induction entries generalizing a seen with
  | nil => exact h
  | cons entry rest ih =>
      have hvisited := visited_visit entry outer seen hseen houter
      refine ih (fun e he => hinsert e (List.mem_cons_of_mem entry he))
        (hinsert entry List.mem_cons_self a seen h hseen houter) hvisited.orderly fun i hi => ?_
      exact Nat.lt_of_lt_of_le (houter i hi) hvisited.length_le

/-- An entry is put into the arena as it is visited. -/
theorem Records.insert (entry : Json) (outer : Option Nat) : ∀ a seen, Records a seen → Orderly seen →
    (∀ i, outer = some i → i < seen.length) →
    (insert entry outer a).Records (visit entry outer seen) := by
  intro a seen h hseen houter
  cases hrange : range? entry with
  | none =>
      rw [visit_eq_self hrange, Arena.insert, hrange]
      exact h
  | some range =>
      rw [visit_eq hrange, insert_eq hrange, h.parentOf_eq, h.length_eq]
      refine (h.push hseen _ _).insertAll (fun child hchild a' seen' h' hseen' houter' => ?_)
        (hseen.concat fun i hi => parentOf_lt houter hi) fun i hi => ?_
      · have := sizeOf_items_get_lt hchild
        exact Records.insert child _ a' seen' h' hseen' houter'
      · cases hi
        rw [List.length_append]
        exact Nat.lt_succ_self _
termination_by sizeOf entry

theorem records_ofJson (j : Json) : (ofJson j).Records (placed j) :=
  records_empty.insertAll (fun entry _ => Records.insert entry none)
    (fun _ _ h => absurd h (by rw [List.getElem?_nil]; simp)) fun _ h => absurd h (by simp)

end Arena

/-! ## The forest that is taken -/

mutual

/-- The symbol is taken from the cell at the place, with those at the places that the cell lists. -/
inductive Builds (a : Arena) : Nat → Symbol → Prop
  | node {place : Nat} {cell : Cell} {children : List Symbol} : a.cells[place]? = some cell →
      BuildsAll a cell.inside children → Builds a place (.node cell.info children)

/-- The symbols are taken from the places, one by one. -/
inductive BuildsAll (a : Arena) : List Nat → List Symbol → Prop
  | nil : BuildsAll a [] []
  | cons {place : Nat} {places : List Nat} {s : Symbol} {ss : List Symbol} : Builds a place s →
      BuildsAll a places ss → BuildsAll a (place :: places) (s :: ss)

end

variable {a : Arena}

mutual

theorem Builds.unique : ∀ {place : Nat} {s t : Symbol}, Builds a place s → Builds a place t → s = t
  | _, _, _, .node hcell hchildren, .node hcell' hchildren' => by
      obtain rfl := Option.some.inj (hcell.symm.trans hcell')
      rw [hchildren.unique hchildren']

theorem BuildsAll.unique : ∀ {places : List Nat} {ss ts : List Symbol}, BuildsAll a places ss →
    BuildsAll a places ts → ss = ts
  | _, _, _, .nil, .nil => rfl
  | _, _, _, .cons hs hss, .cons ht hts => by rw [hs.unique ht, hss.unique hts]

end

section Lineages

variable {n : Nat} (l : Lineage n) (info : Fin n → SymbolInfo)

theorem placesUnder_entries (parent : Option (Fin n)) :
    placesUnder (parent.map Fin.val) (l.entries info) = (l.under parent).map Fin.val := by
  have hindexed : (l.entries info).zipIdx =
      (List.finRange n).map fun k => (⟨info k, (l.parent k).map Fin.val⟩, k.val) := by
    refine List.ext_getElem (by simp [Lineage.entries]) fun i hi hi' => ?_
    simp [Lineage.entries]
  have hsame : ∀ k, (l.parent k).map Fin.val = parent.map Fin.val ↔ l.parent k = parent :=
    fun k => (Option.map_injective Fin.val_injective).eq_iff
  unfold placesUnder placesWith
  rw [hindexed, List.filter_map, List.map_map, Lineage.under]
  simp only [Function.comp_def, hsame]

variable {l info}

theorem Arena.Records.roots_eq (h : a.Records (l.entries info)) :
    a.roots = (l.under none).map Fin.val := h.roots.trans (placesUnder_entries l info none)

theorem Arena.Records.getElem?_eq (h : a.Records (l.entries info)) (k : Fin n) :
    a.cells[k.val]? = some ⟨info k, (l.under (some k)).map Fin.val⟩ := by
  rw [h.getElem?_cells, l.getElem?_entries, ← placesUnder_entries l info]
  rfl

theorem Arena.Records.cells_eq (h : a.Records (l.entries info)) :
    a.cells = (List.finRange n).map fun k => ⟨info k, (l.under (some k)).map Fin.val⟩ := by
  refine List.ext_getElem (by simp [h.length_eq, Lineage.entries]) fun i hi hi' => ?_
  have hplace : i < n := by simpa using hi'
  have hcell := h.getElem?_eq ⟨i, hplace⟩
  rw [List.getElem?_eq_getElem hi] at hcell
  rw [Option.some.inj hcell, List.getElem_map, List.getElem_finRange]
  rfl

theorem buildsAll_of_forall {places : List (Fin n)} (built : Fin n → Symbol)
    (h : ∀ k ∈ places, Builds a k.val (built k)) :
    BuildsAll a (places.map Fin.val) (places.map built) := by
  induction places with
  | nil => exact .nil
  | cons k rest ih =>
      exact .cons (h k List.mem_cons_self) (ih fun i hi => h i (List.mem_cons_of_mem k hi))

theorem Arena.Records.builds (h : a.Records (l.entries info)) (k : Fin n) :
    Builds a k.val (l.built info k) := by
  induction k using Lineage.grow.induct l with
  | case1 k ih =>
      rw [l.built_eq]
      exact .node (h.getElem?_eq k) (buildsAll_of_forall (l.built info) fun i hi => ih ⟨i, hi⟩)

end Lineages

/-! ## The arena of a reply -/

theorem exists_lineage_arena (j : Json) :
    ∃ (l : Lineage (kept j).length) (info : Fin (kept j).length → SymbolInfo),
      placed j = l.entries info ∧ (Arena.ofJson j).Records (l.entries info) := by
  obtain ⟨l, hl⟩ := exists_lineage_placed j
  exact ⟨l, _, hl, hl ▸ Arena.records_ofJson j⟩

/-- **The arena holds the forest.** From the roots of a reply's arena the forest is taken that is read from
the reply, and no other one. -/
theorem builds_ofJson (j : Json) (ss : List Symbol) :
    BuildsAll (Arena.ofJson j) (Arena.ofJson j).roots ss ↔ ss = listOfJson j := by
  obtain ⟨l, info, hl, hrecords⟩ := exists_lineage_arena j
  have hread : BuildsAll (Arena.ofJson j) (Arena.ofJson j).roots (listOfJson j) := by
    rw [listOfJson, hl, l.forest_eq_map_built, hrecords.roots_eq]
    exact buildsAll_of_forall _ fun k _ => hrecords.builds k
  exact ⟨fun h => h.unique hread, fun h => h ▸ hread⟩

/-- Every place of the arena stands in exactly one list, that of the roots or that of one cell. -/
theorem once_ofJson (j : Json) :
    ((Arena.ofJson j).roots ++ (Arena.ofJson j).cells.flatMap Cell.inside).Perm
      (List.range (Arena.ofJson j).cells.length) := by
  obtain ⟨l, info, -, hrecords⟩ := exists_lineage_arena j
  have honce : (l.under none ++ (List.finRange _).flatMap fun i => l.under (some i)).Perm
      (List.finRange _) := by
    refine List.perm_iff_count.mpr fun k => ?_
    rw [List.count_append, l.count_under, l.count_flatMap_under,
      List.count_eq_one_of_mem (List.nodup_finRange _) (List.mem_finRange k)]
    cases l.parent k <;> simp
  rw [hrecords.roots_eq, hrecords.cells_eq, List.length_map, List.length_finRange,
    ← List.map_coe_finRange_eq_range, List.flatMap_map, ← List.map_flatMap, ← List.map_append]
  exact honce.map Fin.val

/-- A place in the list of a cell is behind the cell. -/
theorem later_ofJson (j : Json) {place later : Nat} {cell : Cell}
    (hcell : (Arena.ofJson j).cells[place]? = some cell) (h : later ∈ cell.inside) : place < later := by
  obtain ⟨l, info, -, hrecords⟩ := exists_lineage_arena j
  rw [hrecords.cells_eq, List.getElem?_map, Option.map_eq_some_iff] at hcell
  obtain ⟨k, hk, rfl⟩ := hcell
  obtain ⟨i, hi, rfl⟩ := List.mem_map.mp h
  obtain ⟨hlt, rfl⟩ := List.getElem?_eq_some_iff.mp hk
  have hearlier := Fin.lt_def.mp (l.earlier (l.mem_under.mp hi))
  rwa [List.getElem_finRange] at hearlier

end LanguageClient.Document.Symbol
