import LanguageClient.Proofs.Document.Forest
import Mathlib.Data.List.FinRange

/-!
# The plan of a forest

Entries that are visited one after the other, each of which has an earlier one as its parent or none
(`Lineage`), make up a forest. Its plan is the forest with the places of the entries in it. That parents
come earlier is what makes the plan finite (`Lineage.grow`), and it is why each place stands in the plan
exactly once (`Lineage.perm_plan`): a place occurs as often as its parent, and a root once. The forest that
is built from such entries has this plan (`Lineage.forest_entries`).
-/

namespace LanguageClient.Document

/-- A tree of places. -/
inductive Plan (n : Nat) where
  | node (place : Fin n) (inside : List (Plan n))

namespace Plan

variable {n : Nat}

/-- The place at the root. -/
def place : Plan n → Fin n
  | .node place _ => place

/-- The trees directly inside. -/
def inside : Plan n → List (Plan n)
  | .node _ inside => inside

mutual

/-- The tree and all trees inside it. -/
def nodes : Plan n → List (Plan n)
  | .node place inside => .node place inside :: nodesAll inside

/-- All trees of a forest. -/
def nodesAll : List (Plan n) → List (Plan n)
  | [] => []
  | t :: rest => t.nodes ++ nodesAll rest

end

mutual

/-- The symbol that a tree is the plan of, with what is at each place. -/
def symbol (info : Fin n → SymbolInfo) : Plan n → Symbol
  | .node place inside => .node (info place) (symbols info inside)

/-- The symbols that a forest is the plan of. -/
def symbols (info : Fin n → SymbolInfo) : List (Plan n) → List Symbol
  | [] => []
  | t :: rest => t.symbol info :: symbols info rest

end

theorem symbols_eq_map (info : Fin n → SymbolInfo) (ts : List (Plan n)) :
    symbols info ts = ts.map (symbol info) := by
  induction ts with
  | nil => rfl
  | cons t rest ih => rw [symbols, ih, List.map_cons]

mutual

theorem count_nodes (k : Fin n) : ∀ t : Plan n,
    (t.nodes.map place).count k =
      [t.place].count k + (t.nodes.flatMap fun s => s.inside.map place).count k
  | .node p inside => by
      have hinside := count_nodesAll k inside
      rw [nodes, List.map_cons, List.flatMap_cons, List.count_append, ← List.singleton_append,
        List.count_append, hinside]
      rfl

theorem count_nodesAll (k : Fin n) : ∀ ts : List (Plan n),
    ((nodesAll ts).map place).count k =
      (ts.map place).count k + ((nodesAll ts).flatMap fun s => s.inside.map place).count k
  | [] => rfl
  | t :: rest => by
      have hfirst := count_nodes k t
      have hrest := count_nodesAll k rest
      rw [nodesAll, List.map_append, List.count_append, List.flatMap_append, List.count_append,
        List.map_cons, ← List.singleton_append, List.count_append]
      omega

end

theorem nodesAll_map {α : Type} (f : α → Plan n) (l : List α) :
    nodesAll (l.map f) = l.flatMap fun a => (f a).nodes := by
  induction l with
  | nil => rfl
  | cons a rest ih => rw [List.map_cons, nodesAll, ih, List.flatMap_cons]

/-- Every place stands in the forest once, parents come before what is inside them, and what stands side
by side is in order. -/
structure Ordered (plan : List (Plan n)) : Prop where
  once : ((nodesAll plan).map place).Perm (List.finRange n)
  later : ∀ t ∈ nodesAll plan, ∀ s ∈ t.inside, t.place < s.place
  roots : (plan.map place).Pairwise (· < ·)
  siblings : ∀ t ∈ nodesAll plan, (t.inside.map place).Pairwise (· < ·)

end Plan

/-- The parents of entries, each of which is visited after its parent. -/
structure Lineage (n : Nat) where
  parent : Fin n → Option (Fin n)
  earlier : ∀ {k i}, parent k = some i → i < k

namespace Lineage

variable {n : Nat} (l : Lineage n)

/-- The places with a given parent, in order. -/
def under (parent : Option (Fin n)) : List (Fin n) :=
  (List.finRange n).filter (l.parent · = parent)

theorem mem_under {parent : Option (Fin n)} {k : Fin n} :
    k ∈ l.under parent ↔ l.parent k = parent := by
  simp [under]

theorem under_sorted (parent : Option (Fin n)) : (l.under parent).Pairwise (· < ·) :=
  (List.pairwise_lt_finRange n).filter _

theorem count_under (parent : Option (Fin n)) (k : Fin n) :
    (l.under parent).count k = if l.parent k = parent then 1 else 0 := by
  split
  · rename_i h
    exact List.count_eq_one_of_mem ((List.nodup_finRange n).filter _) (l.mem_under.mpr h)
  · rename_i h
    exact List.count_eq_zero_of_not_mem fun hmem => h (l.mem_under.mp hmem)

/-- The tree at a place: in it stand the trees at the places whose parent it is. -/
def grow (k : Fin n) : Plan n :=
  .node k ((l.under (some k)).attach.map fun i => grow i.1)
termination_by n - k.val
decreasing_by
  have := l.earlier (l.mem_under.mp i.2)
  omega

theorem grow_eq (k : Fin n) : l.grow k = .node k ((l.under (some k)).map l.grow) := by
  rw [grow, List.attach_map_val]

/-- The trees at the places without a parent. -/
def plan : List (Plan n) := (l.under none).map l.grow

theorem place_grow (k : Fin n) : (l.grow k).place = k := by
  rw [grow_eq]
  rfl

theorem map_place_grow (places : List (Fin n)) : (places.map l.grow).map Plan.place = places := by
  rw [List.map_map]
  exact (List.map_congr_left fun k _ => l.place_grow k).trans (List.map_id places)

theorem eq_grow_of_mem_nodes (k : Fin n) : ∀ t ∈ (l.grow k).nodes, t = l.grow t.place := by
  induction k using grow.induct l with
  | case1 k ih =>
      intro t ht
      rw [grow_eq, Plan.nodes, Plan.nodesAll_map, ← grow_eq] at ht
      rcases List.mem_cons.mp ht with rfl | hinside
      · rw [place_grow]
      · obtain ⟨i, hi, ht⟩ := List.mem_flatMap.mp hinside
        exact ih ⟨i, hi⟩ t ht

theorem inside_plan {t : Plan n} (ht : t ∈ Plan.nodesAll l.plan) :
    t.inside.map Plan.place = l.under (some t.place) := by
  rw [plan, Plan.nodesAll_map] at ht
  obtain ⟨k, -, hk⟩ := List.mem_flatMap.mp ht
  have hgrown : t.inside = (l.under (some t.place)).map l.grow := by
    conv_lhs => rw [l.eq_grow_of_mem_nodes k t hk, grow_eq]
    rfl
  rw [hgrown, map_place_grow]

/-- Among the places inside some places, each occurs as often as its parent occurs among those. -/
theorem count_flatMap_under (places : List (Fin n)) (k : Fin n) :
    (places.flatMap fun i => l.under (some i)).count k = (l.parent k).elim 0 places.count := by
  induction places with
  | nil => cases l.parent k <;> rfl
  | cons i rest ih =>
      rw [List.flatMap_cons, List.count_append, ih, count_under]
      cases hk : l.parent k with
      | none => simp
      | some j =>
          rw [Option.elim_some, Option.elim_some, List.count_cons, Nat.add_comm]
          by_cases hij : i = j
          · simp [hij]
          · simp [hij, Ne.symm hij]

theorem count_plan (k : Fin n) : ((Plan.nodesAll l.plan).map Plan.place).count k = 1 := by
  have hinside : ((Plan.nodesAll l.plan).flatMap fun t => t.inside.map Plan.place) =
      ((Plan.nodesAll l.plan).map Plan.place).flatMap fun i => l.under (some i) := by
    rw [List.flatMap_map]
    exact List.flatMap_congr fun t ht => l.inside_plan ht
  induction k using WellFoundedLT.induction with
  | ind k ih =>
      rw [Plan.count_nodesAll, hinside, count_flatMap_under, plan, map_place_grow, ← plan,
        count_under]
      cases hk : l.parent k with
      | none => simp
      | some i => simpa using ih i (l.earlier hk)

theorem perm_plan : ((Plan.nodesAll l.plan).map Plan.place).Perm (List.finRange n) := by
  refine List.perm_iff_count.mpr fun k => ?_
  rw [count_plan, List.count_eq_one_of_mem (List.nodup_finRange n) (List.mem_finRange k)]

theorem ordered_plan : Plan.Ordered l.plan where
  once := l.perm_plan
  later t ht s hs := by
    have hplace : s.place ∈ l.under (some t.place) :=
      l.inside_plan ht ▸ List.mem_map_of_mem hs
    exact l.earlier (l.mem_under.mp hplace)
  roots := by
    rw [plan, map_place_grow]
    exact l.under_sorted none
  siblings t ht := by
    rw [l.inside_plan ht]
    exact l.under_sorted (some t.place)

/-! ## The forest that is built -/

/-- The entries at the places, with what is at each. -/
def entries (info : Fin n → SymbolInfo) : List Symbol.Placed :=
  List.ofFn fun k => ⟨info k, (l.parent k).map Fin.val⟩

variable (info : Fin n → SymbolInfo)

theorem getElem?_entries (k : Fin n) :
    (l.entries info)[k.val]? = some ⟨info k, (l.parent k).map Fin.val⟩ := by
  rw [entries, List.getElem?_ofFn, dif_pos k.isLt]

/-- The symbol that is built at a place. -/
def built (k : Fin n) : Symbol :=
  Symbol.build (l.entries info) k.val ⟨info k, (l.parent k).map Fin.val⟩

theorem sprout?_entries (parent : Option (Fin n)) (k : Fin n) :
    Symbol.sprout? (l.entries info) (parent.map Fin.val) k.val =
      if l.parent k = parent then some (l.built info k) else none := by
  have hsame : (l.parent k).map Fin.val = parent.map Fin.val ↔ l.parent k = parent :=
    (Option.map_injective Fin.val_injective).eq_iff
  unfold Symbol.sprout?
  rw [getElem?_entries]
  dsimp only
  simp only [hsame, built]

theorem filterMap_sprout?_entries (parent : Option (Fin n)) :
    (List.range n).filterMap (Symbol.sprout? (l.entries info) (parent.map Fin.val)) =
      (l.under parent).map (l.built info) := by
  have hsprout : Symbol.sprout? (l.entries info) (parent.map Fin.val) ∘ Fin.val =
      fun k => if l.parent k = parent then some (l.built info k) else none :=
    funext (l.sprout?_entries info parent)
  rw [← List.map_coe_finRange_eq_range, List.filterMap_map, hsprout, under]
  induction List.finRange n with
  | nil => rfl
  | cons k rest ih => by_cases hparent : l.parent k = parent <;> simp [hparent, ih]

/-- Only later places are looked at when a symbol is built, and no others have it as their parent. -/
theorem built_eq (k : Fin n) :
    l.built info k = .node (info k) ((l.under (some k)).map (l.built info)) := by
  have hlater : ∀ i : Nat, Symbol.sprout? (l.entries info) (some k.val) i =
      if k.val < i then Symbol.sprout? (l.entries info) (some k.val) i else none := by
    intro i
    split
    · rfl
    · rename_i hle
      by_cases hi : i < n
      · have hparent : l.parent ⟨i, hi⟩ ≠ some k := fun h => hle (l.earlier h)
        exact (l.sprout?_entries info (some k) ⟨i, hi⟩).trans (if_neg hparent)
      · unfold Symbol.sprout?
        rw [entries, List.getElem?_ofFn, dif_neg hi]
  rw [built, Symbol.build_eq_filterMap, ← filterMap_sprout?_entries, entries, List.length_ofFn,
    ← entries, List.filterMap_filter]
  refine congrArg _ (List.filterMap_congr fun i _ => ?_)
  simpa using (hlater i).symm

theorem forest_eq_map_built : Symbol.forest (l.entries info) = (l.under none).map (l.built info) := by
  have hall := @Symbol.filterMap_sprout? (l.entries info) none [] (l.entries info) rfl
  rw [Symbol.forest_eq, ← filterMap_sprout?_entries]
  rw [entries, List.length_ofFn, ← entries, List.length_nil, ← List.range_eq_range'] at hall
  exact hall.symm

/-- The forest that is built from the entries has the plan. -/
theorem forest_entries : Symbol.forest (l.entries info) = Plan.symbols info l.plan := by
  have hbuilt : ∀ k, l.built info k = (l.grow k).symbol info := by
    intro k
    induction k using grow.induct l with
    | case1 k ih =>
        rw [built_eq, grow_eq, Plan.symbol, Plan.symbols_eq_map, List.map_map]
        exact congrArg _ (List.map_congr_left fun i hi => ih ⟨i, hi⟩)
  rw [forest_eq_map_built, plan, Plan.symbols_eq_map, List.map_map]
  exact List.map_congr_left fun k _ => hbuilt k

end Lineage

namespace Symbol

/-- Every entry stands behind its parent. -/
def Orderly (seen : List Placed) : Prop :=
  ∀ (k : Nat) (p : Placed), seen[k]? = some p → ∀ i, p.parent = some i → i < k

theorem Orderly.exists_lineage {all : List Placed} (h : Orderly all) {n : Nat}
    {info : Fin n → SymbolInfo} (hinfos : all.map (·.info) = List.ofFn info) :
    ∃ l : Lineage n, all = l.entries info := by
  have hlength : all.length = n := by
    have := congrArg List.length hinfos
    rwa [List.length_map, List.length_ofFn] at this
  subst hlength
  have hparent : ∀ k : Fin all.length, ∃ parent : Option (Fin all.length),
      all[k].parent = parent.map Fin.val ∧ ∀ i, parent = some i → i < k := by
    intro k
    cases hk : all[k].parent with
    | none => exact ⟨none, rfl, fun i hi => absurd hi (by simp)⟩
    | some i =>
        have hlt : i < k.val := h k all[k] (List.getElem?_eq_getElem k.isLt) i hk
        exact ⟨some ⟨i, hlt.trans k.isLt⟩, rfl, fun j hj => by cases hj; exact hlt⟩
  choose parent hparent hearlier using hparent
  refine ⟨⟨parent, fun {k i} => hearlier k i⟩, List.ext_getElem (by simp [Lineage.entries]) ?_⟩
  intro k hk hk'
  have hinfo : all[k].info = info ⟨k, hk⟩ := by
    have := congrArg (·[k]?) hinfos
    simpa [hk] using this
  simp only [Lineage.entries, List.getElem_ofFn, ← hinfo]
  rw [← hparent ⟨k, hk⟩]
  rfl

end Symbol

end LanguageClient.Document
