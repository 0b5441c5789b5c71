import LanguageClient.Document.Symbol

/-!
# Forests from entries with the places of their parents

A forest is listed by visiting its symbols, each before those inside it; every entry of the listing
has the place of its parent (`placementsAll`). Building a forest from that listing gives the forest
back (`forest_placements`): the entries of a symbol lie together, the first of them is the symbol itself,
and no entry behind them has its parent among them.
-/

namespace LanguageClient.Document

namespace Symbol

/-- What the symbol itself says. -/
def info : Symbol → SymbolInfo
  | .node info _ => info

/-- The symbols directly inside it. -/
def children : Symbol → List Symbol
  | .node _ children => children

mutual

/-- The symbol and all symbols inside it, each before those inside it. -/
def nodes : Symbol → List Symbol
  | .node info children => .node info children :: nodesAll children

/-- All symbols of a forest. -/
def nodesAll : List Symbol → List Symbol
  | [] => []
  | s :: rest => s.nodes ++ nodesAll rest

end

mutual

/-- The entries of a symbol and of those inside it as they are visited from a place on. -/
def placements (outer : Option Nat) (place : Nat) : Symbol → List Placed
  | .node info children => ⟨info, outer⟩ :: placementsAll (some place) (place + 1) children

/-- The entries of a forest whose roots have the same parent. -/
def placementsAll (outer : Option Nat) (place : Nat) : List Symbol → List Placed
  | [] => []
  | s :: rest =>
      placements outer place s ++
        placementsAll outer (place + (placements outer place s).length) rest

end

/-! ## Building a forest, entry by entry -/

/-- The symbols of those of the entries, the first of which is at a place, that have the given
parent. -/
def sprouts (all : List Placed) (parent : Option Nat) : Nat → List Placed → List Symbol
  | _, [] => []
  | place, p :: rest =>
      if p.parent = parent then build all place p :: sprouts all parent (place + 1) rest
      else sprouts all parent (place + 1) rest

section Sprouts

variable {all : List Placed} {parent : Option Nat}

theorem sprouts_append (first second : List Placed) (place : Nat) :
    sprouts all parent place (first ++ second) =
      sprouts all parent place first ++ sprouts all parent (place + first.length) second := by
  induction first generalizing place with
  | nil => rfl
  | cons p rest ih =>
      have hplace : place + (p :: rest).length = place + 1 + rest.length := by
        rw [List.length_cons]
        omega
      rw [List.cons_append, sprouts, sprouts, ih (place + 1), hplace]
      split
      · rfl
      · rfl

theorem sprouts_eq_nil {entries : List Placed} (h : ∀ p ∈ entries, p.parent ≠ parent)
    (place : Nat) : sprouts all parent place entries = [] := by
  induction entries generalizing place with
  | nil => rfl
  | cons p rest ih =>
      rw [sprouts, if_neg (h p List.mem_cons_self)]
      exact ih (fun q hq => h q (List.mem_cons_of_mem p hq)) (place + 1)

theorem forest_eq (all : List Placed) : forest all = sprouts all none 0 all := by
  have hroots : ∀ (entries : List Placed) (place : Nat),
      ((entries.zipIdx place).filter (·.1.parent.isNone)).map (fun e => build all e.2 e.1) =
        sprouts all none place entries := by
    intro entries
    induction entries with
    | nil => exact fun _ => rfl
    | cons p rest ih =>
        intro place
        rw [List.zipIdx_cons, List.filter_cons, sprouts, ← ih (place + 1)]
        cases p.parent with
        | none => rfl
        | some i => rfl
  exact hroots all 0

/-- The symbol at a place, if its parent is the given one. -/
def sprout? (all : List Placed) (parent : Option Nat) (place : Nat) : Option Symbol :=
  match all[place]? with
  | some p => if p.parent = parent then some (build all place p) else none
  | none => none

theorem filterMap_sprout? {before entries : List Placed} (hall : all = before ++ entries) :
    (List.range' before.length entries.length).filterMap (sprout? all parent) =
      sprouts all parent before.length entries := by
  induction entries generalizing before with
  | nil => rfl
  | cons p rest ih =>
      have hp : all[before.length]? = some p := by
        rw [hall, List.getElem?_append_right (Nat.le_refl _), Nat.sub_self]
        rfl
      have hrest := @ih (before ++ [p]) (by rw [hall, List.append_assoc]; rfl)
      rw [List.length_append] at hrest
      rw [List.length_cons, List.range'_succ, sprouts]
      by_cases hparent : p.parent = parent
      · have hsprout : sprout? all parent before.length = some (build all before.length p) := by
          unfold sprout?
          rw [hp]
          exact if_pos hparent
        rw [List.filterMap_cons_some hsprout, if_pos hparent]
        exact congrArg _ hrest
      · have hsprout : sprout? all parent before.length = none := by
          unfold sprout?
          rw [hp]
          exact if_neg hparent
        rw [List.filterMap_cons_none hsprout, if_neg hparent]
        exact hrest

theorem build_eq_filterMap (all : List Placed) (place : Nat) (p : Placed) :
    build all place p =
      .node p.info
        (((List.range all.length).filter (place < ·)).filterMap (sprout? all (some place))) := by
  rw [build]
  refine congrArg (Symbol.node p.info)
    ((List.filterMap_subtype fun i _ => ?_).trans (congrArg _ List.unattach_attach))
  unfold sprout?
  dsimp only
  split
  · rename_i q hq
    rw [hq]
  · rename_i hnone
    rw [hnone]

/-- A symbol is built with the later entries of which it is the parent. -/
theorem build_eq {before after : List Placed} {p : Placed} (hall : all = before ++ p :: after) :
    build all before.length p =
      .node p.info (sprouts all (some before.length) (before.length + 1) after) := by
  have hlater : (List.range all.length).filter (before.length < ·) =
      List.range' (before.length + 1) after.length := by
    have hlength : all.length = (before.length + 1) + after.length := by
      rw [hall, List.length_append, List.length_cons]
      omega
    rw [hlength, List.range_eq_range', ← List.range'_append_1, List.filter_append,
      List.filter_eq_nil_iff.mpr, List.filter_eq_self.mpr, List.nil_append, Nat.zero_add]
    · intro i hi
      have := (List.mem_range'_1.mp hi).1
      exact decide_eq_true (by omega)
    · intro i hi
      have := (List.mem_range'_1.mp hi).2
      rw [decide_eq_true_eq]
      omega
  have hchildren := @filterMap_sprout? all (some before.length) (before ++ [p]) after
    (by rw [hall, List.append_assoc]; rfl)
  rw [List.length_append] at hchildren
  rw [build_eq_filterMap, hlater]
  exact congrArg (Symbol.node p.info) hchildren

end Sprouts

/-! ## The forest of a listing -/

mutual

theorem parent_placements : ∀ (s : Symbol) {outer : Option Nat} {place : Nat} {p : Placed},
    p ∈ placements outer place s → p.parent = outer ∨ ∃ i, p.parent = some i ∧ place ≤ i
  | .node info children, outer, place, p, hp => by
      rw [placements] at hp
      rcases List.mem_cons.mp hp with rfl | hchild
      · exact .inl rfl
      · rcases parent_placementsAll children hchild with hparent | ⟨i, hparent, hle⟩
        · exact .inr ⟨place, hparent, Nat.le_refl _⟩
        · exact .inr ⟨i, hparent, by omega⟩

theorem parent_placementsAll : ∀ (ss : List Symbol) {outer : Option Nat} {place : Nat} {p : Placed},
    p ∈ placementsAll outer place ss → p.parent = outer ∨ ∃ i, p.parent = some i ∧ place ≤ i
  | [], outer, place, p, hp => absurd hp List.not_mem_nil
  | s :: rest, outer, place, p, hp => by
      rw [placementsAll] at hp
      rcases List.mem_append.mp hp with hfirst | hrest
      · exact parent_placements s hfirst
      · rcases parent_placementsAll rest hrest with hparent | ⟨i, hparent, hle⟩
        · exact .inl hparent
        · exact .inr ⟨i, hparent, by omega⟩

end

/-- None of the entries has its parent among the places from `low` up to `high`. -/
def Clear (low high : Nat) (entries : List Placed) : Prop :=
  ∀ p ∈ entries, ∀ i, p.parent = some i → i < low ∨ high ≤ i

mutual

/-- The entries of a symbol are built into it, whatever stands before them, if nothing behind them
belongs to it. -/
theorem sprouts_placements : ∀ (s : Symbol) {all before after : List Placed} {outer : Option Nat}
    {place : Nat}, before.length = place → all = before ++ (placements outer place s ++ after) →
    (∀ i, outer = some i → i < place) →
    Clear place (place + (placements outer place s).length) after →
    sprouts all outer place (placements outer place s) = [s]
  | .node info children, all, before, after, outer, place, hplace, hall, houter, hclear => by
      rw [placements] at hclear ⊢
      rw [placements, List.cons_append] at hall
      have hinside : sprouts all outer (place + 1) (placementsAll (some place) (place + 1) children)
          = [] := by
        refine sprouts_eq_nil (fun p hp hparent => ?_) _
        rcases parent_placementsAll children hp with hsome | ⟨i, hsome, hle⟩
        · exact absurd (houter place (hparent.symm.trans hsome)) (Nat.lt_irrefl _)
        · have := houter i (hparent.symm.trans hsome)
          omega
      have hchildren : sprouts all (some place) (place + 1)
          (placementsAll (some place) (place + 1) children) = children := by
        refine @sprouts_placementsAll children all (before ++ [⟨info, outer⟩]) after (some place)
          (place + 1) ?_ ?_ ?_ ?_
        · rw [List.length_append, hplace]
          rfl
        · rw [hall, List.append_assoc]
          rfl
        · intro i hi
          cases hi
          exact Nat.lt_succ_self _
        · intro p hp i hi
          have := hclear p hp i hi
          rw [List.length_cons] at this
          omega
      have hafter : sprouts all (some place)
          (place + 1 + (placementsAll (some place) (place + 1) children).length) after = [] := by
        refine sprouts_eq_nil (fun p hp hparent => ?_) _
        have := hclear p hp place hparent
        rw [List.length_cons] at this
        omega
      rw [sprouts, if_pos rfl, hinside]
      subst hplace
      rw [build_eq hall, sprouts_append, hchildren, hafter, List.append_nil]

theorem sprouts_placementsAll : ∀ (ss : List Symbol) {all before after : List Placed}
    {outer : Option Nat} {place : Nat}, before.length = place →
    all = before ++ (placementsAll outer place ss ++ after) →
    (∀ i, outer = some i → i < place) →
    Clear place (place + (placementsAll outer place ss).length) after →
    sprouts all outer place (placementsAll outer place ss) = ss
  | [], all, before, after, outer, place, hplace, hall, houter, hclear => rfl
  | s :: rest, all, before, after, outer, place, hplace, hall, houter, hclear => by
      rw [placementsAll] at hall hclear ⊢
      rw [List.append_assoc] at hall
      rw [List.length_append] at hclear
      have hfirst : sprouts all outer place (placements outer place s) = [s] := by
        refine sprouts_placements s hplace hall houter fun p hp i hi => ?_
        rcases List.mem_append.mp hp with hrest | hafter
        · -- the entries of the later siblings
          rcases parent_placementsAll rest hrest with hparent | ⟨j, hparent, hle⟩
          · exact .inl (houter i (hparent.symm.trans hi))
          · obtain rfl : j = i := Option.some.inj (hparent.symm.trans hi)
            exact .inr hle
        · have := hclear p hafter i hi
          omega
      have hrest : sprouts all outer (place + (placements outer place s).length)
          (placementsAll outer (place + (placements outer place s).length) rest) = rest := by
        refine @sprouts_placementsAll rest all (before ++ placements outer place s) after _ _ ?_ ?_
          ?_ ?_
        · rw [List.length_append, hplace]
        · rw [hall, List.append_assoc]
        · intro i hi
          exact Nat.lt_of_lt_of_le (houter i hi) (Nat.le_add_right _ _)
        · intro p hp i hi
          have := hclear p hp i hi
          omega
      rw [sprouts_append, hfirst, hrest]
      rfl

end

/-- Building a forest from its own listing gives it back. -/
theorem forest_placements (ss : List Symbol) : forest (placementsAll none 0 ss) = ss := by
  rw [forest_eq]
  refine @sprouts_placementsAll ss _ [] [] none 0 rfl ?_ ?_ ?_
  · rw [List.nil_append, List.append_nil]
  · intro i hi
    exact absurd hi (by simp)
  · intro p hp
    exact absurd hp List.not_mem_nil

end Symbol

end LanguageClient.Document
