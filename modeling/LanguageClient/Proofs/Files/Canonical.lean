import LanguageClient.Files.Tree
import LanguageClient.Proofs.Text.Parts
import Mathlib.Data.List.Infix

/-!
# Places without links

Resolving a path leads to a place that is named without links and dots (`canonical_resolve`), and
resolving the names of such a place leads nowhere else (`eq_of_resolve_canonical`). What carries both is
`Canonical`: every name on the way to the place is the name of an entry, and no such entry is a link. A walk
keeps that, wherever links lead, and along the names of a canonical place it has no choice.
-/

namespace LanguageClient.Files.Tree

/-- Names as they stand in directories. -/
structure EntryName (name : String) : Prop where
  ne_empty : name ≠ ""
  ne_dot : name ≠ "."
  ne_dots : name ≠ ".."
  no_slash : '/' ∉ name.toList

/-- The names lead from the root to the place, and none of them to a link. -/
def Canonical (t : Tree) (place : Location) : Prop :=
  ∀ above name, above ++ [name] <+: place →
    EntryName name ∧ ∀ target, t.entry? (above ++ [name]) ≠ some (.link target)

variable {t : Tree} {place place' : Location}

theorem canonical_nil (t : Tree) : t.Canonical [] := by
  intro above name h
  exact absurd (List.prefix_nil.mp h) (by simp)

theorem Canonical.of_prefix (h : t.Canonical place) (hle : place' <+: place) : t.Canonical place' :=
  fun above name hname => h above name (hname.trans hle)

theorem Canonical.append (h : t.Canonical place) {name : String} (hname : EntryName name)
    (hentry : ∀ target, t.entry? (place ++ [name]) ≠ some (.link target)) :
    t.Canonical (place ++ [name]) := by
  intro above last hle
  rcases List.prefix_concat_iff.mp hle with heq | hle
  · obtain ⟨rfl, hlast⟩ := List.append_inj' heq rfl
    rw [List.singleton_inj.mp hlast]
    exact ⟨hname, hentry⟩
  · exact h above last hle

theorem Canonical.entryName (h : t.Canonical place) {name : String} (hname : name ∈ place) :
    EntryName name := by
  obtain ⟨above, rest, rfl⟩ := List.append_of_mem hname
  exact (h above name ⟨rest, by simp⟩).1

/-! ## Names of paths -/

theorem slash_not_mem_names {path name : String} (h : name ∈ names path) : '/' ∉ name.toList := by
  have hparts : ∀ name ∈ (path.toList.splitOn '/').map String.ofList, '/' ∉ name.toList := by
    intro name hname
    obtain ⟨part, hpart, rfl⟩ := List.mem_map.mp hname
    rw [String.toList_ofList]
    rw [List.splitOn_eq_splitOnP] at hpart
    exact fun hmem => absurd (Text.mem_part hpart _ hmem).2 (by simp)
  rcases List.mem_append.mp h with h | h
  · exact hparts name (List.mem_of_mem_dropLast (List.mem_filter.mp h).1)
  · rw [List.mem_singleton.mp h]
    cases hlast : ((path.toList.splitOn '/').map String.ofList).getLast? with
    | none => exact List.not_mem_nil
    | some last => exact hparts last (List.mem_of_getLast? hlast)

/-- The characters of the path to a place: its names behind a slash each. -/
def pathChars (place : Location) : List Char := place.flatMap fun name => '/' :: name.toList

theorem pathChars_append (place place' : Location) :
    pathChars (place ++ place') = pathChars place ++ pathChars place' := List.flatMap_append

theorem names_pathChars_concat {front : Location} {last : String}
    (hfront : ∀ name ∈ front, name ≠ "" ∧ '/' ∉ name.toList) (hlast : '/' ∉ last.toList) :
    names (String.ofList (pathChars (front ++ [last]))) = front ++ [last] := by
  have hslash : ∀ part ∈ (front ++ [last]).map String.toList, ∀ c ∈ part, (c == '/') = false := by
    intro part hpart c hc
    obtain ⟨name, hname, rfl⟩ := List.mem_map.mp hpart
    have hnone : '/' ∉ name.toList := by
      rcases List.mem_append.mp hname with hname | hname
      · exact (hfront name hname).2
      · rw [List.mem_singleton.mp hname]
        exact hlast
    exact beq_eq_false_iff_ne.mpr fun heq => hnone (heq ▸ hc)
  have hsplit : (String.ofList (pathChars (front ++ [last]))).toList.splitOn '/' =
      [] :: (front ++ [last]).map String.toList := by
    have hchars : pathChars (front ++ [last]) =
        [] ++ ((front ++ [last]).map String.toList).flatMap ('/' :: ·) :=
      (List.flatMap_map ..).symm
    rw [String.toList_ofList, hchars, List.splitOn_eq_splitOnP]
    exact Text.splitOnP_parts (p := (· == '/')) (by simp) (by simp) hslash
  have hparts : ((String.ofList (pathChars (front ++ [last]))).toList.splitOn '/').map String.ofList =
      ("" :: front) ++ [last] := by
    have hid : String.ofList ∘ String.toList = id := funext fun _ => String.ofList_toList
    rw [hsplit, List.map_cons, List.map_map, hid, List.map_id]
    rfl
  have hkept : ("" :: front).filter (· ≠ "") = front := by
    rw [List.filter_cons_of_neg (by simp)]
    exact List.filter_eq_self.mpr fun name hname => decide_eq_true (hfront name hname).1
  rw [names, hparts, List.getLast?_concat, List.dropLast_concat, hkept]
  rfl

theorem names_pathChars (hplace : ∀ name ∈ place, name ≠ "" ∧ '/' ∉ name.toList) {tail : List Char}
    (htail : tail = [] ∨ tail = ['/']) :
    ∃ ends, names (String.ofList (pathChars place ++ tail)) = place ++ ends ∧ ∀ name ∈ ends, name = "" := by
  rcases htail with rfl | rfl
  · rw [List.append_nil]
    rcases List.eq_nil_or_concat place with rfl | ⟨front, last, rfl⟩
    · exact ⟨[""], rfl, by simp⟩
    · rw [List.concat_eq_append] at hplace ⊢
      obtain ⟨hfront, hlast⟩ := List.forall_mem_append.mp hplace
      refine ⟨[], ?_, by simp⟩
      rw [List.append_nil, names_pathChars_concat hfront (hlast last List.mem_cons_self).2]
  · refine ⟨[""], ?_, by simp⟩
    have hchars : pathChars place ++ ['/'] = pathChars (place ++ [""]) := by
      rw [pathChars_append]
      rfl
    rw [hchars, names_pathChars_concat hplace (by simp)]

/-! ## Walking -/

theorem Canonical.walk (h : t.Canonical place) {fuel links : Nat} {names : List String}
    (hnames : ∀ name ∈ names, '/' ∉ name.toList) (hwalk : t.walk fuel links place names = .ok place') :
    t.Canonical place' := by
  induction fuel generalizing links place names with
  | zero =>
      cases names with
      | nil => exact Except.ok.inj hwalk ▸ h
      | cons name rest => exact absurd hwalk nofun
  | succ fuel ih =>
      cases names with
      | nil => exact Except.ok.inj hwalk ▸ h
      | cons name rest =>
          obtain ⟨hname, hrest⟩ := List.forall_mem_cons.mp hnames
          rw [Tree.walk] at hwalk
          dsimp only at hwalk
          split at hwalk
          · exact absurd hwalk nofun
          split at hwalk
          · exact ih h hrest hwalk
          next hdot =>
          split at hwalk
          · exact ih (h.of_prefix (List.dropLast_prefix place)) hrest hwalk
          next hdots =>
          split at hwalk
          · exact absurd hwalk nofun
          split at hwalk
          · exact absurd hwalk nofun
          next target hentry =>
            -- a link: its target's names come first
            split at hwalk
            · exact absurd hwalk nofun
            · have htarget : ∀ name ∈ Tree.names target ++ rest, '/' ∉ name.toList :=
                List.forall_mem_append.mpr ⟨fun _ => slash_not_mem_names, hrest⟩
              refine ih ?_ htarget hwalk
              split
              · exact t.canonical_nil
              · exact h
          next entry hlink hentry =>
            have hplain : EntryName name := ⟨fun he => hdot (.inl he), fun he => hdot (.inr he), hdots, hname⟩
            refine ih (h.append hplain fun target he => ?_) hrest hwalk
            exact hlink target (Option.some.inj (hentry.symm.trans he))

/-- Along the names of a canonical place a walk leads to that place, if it leads anywhere. -/
theorem eq_of_walk_canonical {above rest ends : List String} (h : t.Canonical (above ++ rest))
    (hends : ∀ name ∈ ends, name = "") {fuel links : Nat}
    (hwalk : t.walk fuel links above (rest ++ ends) = .ok place') : place' = above ++ rest := by
  induction fuel generalizing above rest ends with
  | zero =>
      cases hnames : rest ++ ends with
      | nil =>
          rw [hnames] at hwalk
          rw [(List.append_eq_nil_iff.mp hnames).1, List.append_nil]
          exact (Except.ok.inj hwalk).symm
      | cons name names =>
          rw [hnames] at hwalk
          exact absurd hwalk nofun
  | succ fuel ih =>
      cases rest with
      | nil =>
          rw [List.append_nil] at h ⊢
          rw [List.nil_append] at hwalk
          cases ends with
          | nil => exact (Except.ok.inj hwalk).symm
          | cons name ends =>
              obtain ⟨rfl, hmore⟩ := List.forall_mem_cons.mp hends
              rw [Tree.walk] at hwalk
              dsimp only at hwalk
              split at hwalk
              · exact absurd hwalk nofun
              · rw [if_pos (.inl rfl)] at hwalk
                have hrest : place' = above ++ [] := ih (by rwa [List.append_nil]) hmore hwalk
                rwa [List.append_nil] at hrest
      | cons name rest =>
          obtain ⟨hname, hentry⟩ := h above name ⟨rest, by simp⟩
          rw [List.cons_append, Tree.walk] at hwalk
          dsimp only at hwalk
          split at hwalk
          · exact absurd hwalk nofun
          rw [if_neg (not_or.mpr ⟨hname.ne_empty, hname.ne_dot⟩), if_neg hname.ne_dots] at hwalk
          split at hwalk
          · exact absurd hwalk nofun
          split at hwalk
          · exact absurd hwalk nofun
          next target hlink => exact absurd hlink (hentry target)
          · have hrest : place' = (above ++ [name]) ++ rest := ih (by simpa using h) hends hwalk
            simpa using hrest

/-! ## Resolving -/

theorem canonical_resolve {path : String} (h : t.resolve [] path = .ok place) : t.Canonical place := by
  rw [resolve] at h
  split at h
  · exact absurd h nofun
  split at h
  · exact absurd h nofun
  split at h
  · exact absurd h nofun
  · rw [ite_self] at h
    exact t.canonical_nil.walk (fun _ => slash_not_mem_names) h

theorem eq_of_resolve_canonical (h : t.Canonical place) {tail : List Char} (htail : tail = [] ∨ tail = ['/'])
    (hresolve : t.resolve [] (String.ofList (pathChars place ++ tail)) = .ok place') : place' = place := by
  obtain ⟨ends, hnames, hends⟩ := names_pathChars (fun name hname =>
    ⟨(h.entryName hname).ne_empty, (h.entryName hname).no_slash⟩) htail
  rw [resolve] at hresolve
  split at hresolve
  · exact absurd hresolve nofun
  split at hresolve
  · exact absurd hresolve nofun
  split at hresolve
  · exact absurd hresolve nofun
  · rw [ite_self, hnames] at hresolve
    have hempty : t.Canonical ([] ++ place) := h
    exact eq_of_walk_canonical hempty hends hresolve

end LanguageClient.Files.Tree
