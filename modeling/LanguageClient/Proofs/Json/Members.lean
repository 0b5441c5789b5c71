import LanguageClient.Json.Basic

/-!
# Members of an object that was built

An object is built from pairs in any order. Looking a key up in it finds the last of the pairs with
that key (`member?_mkObj`), so no reader of a built object depends on the order in which its members
are kept.
-/

namespace LanguageClient

namespace Members

variable (key k : String) (value : Json)

theorem find?_insert (members : Members) :
    find? k (insert key value members) = if key = k then some value else find? k members := by
  induction members with
  | nil => rfl
  | cons first rest ih =>
      obtain ⟨key', value'⟩ := first
      unfold insert
      by_cases hsame : key = key'
      · subst hsame
        by_cases hk : key = k <;> simp [find?, hk]
      · rw [if_neg hsame]
        split
        · rfl
        · by_cases hk : key' = k
          · have hne : key ≠ k := fun h => hsame (h.trans hk.symm)
            simp [find?, hk, hne]
          · simp only [find?, if_neg hk, ih]

theorem find?_append (first second : Members) :
    find? k (first ++ second) = (find? k first).or (find? k second) := by
  induction first with
  | nil => rfl
  | cons p rest ih =>
      obtain ⟨key', value'⟩ := p
      by_cases hk : key' = k <;> simp [find?, hk, ih]

theorem find?_eq_none {pairs : Members} (h : k ∉ pairs.map Prod.fst) : find? k pairs = none := by
  induction pairs with
  | nil => rfl
  | cons p rest ih =>
      rw [List.map_cons, List.mem_cons, not_or] at h
      rw [find?, if_neg fun heq => h.1 heq.symm]
      exact ih h.2

/-- Among pairs that are put in one after the other the last one counts. -/
theorem find?_foldl_insert (pairs members : Members) :
    find? k (pairs.foldl (fun ms p => insert p.1 p.2 ms) members) =
      (find? k pairs.reverse).or (find? k members) := by
  induction pairs generalizing members with
  | nil => rfl
  | cons p rest ih =>
      rw [List.foldl_cons, ih, find?_insert, List.reverse_cons, find?_append, Option.or_assoc]
      by_cases hk : p.1 = k <;> simp [find?, hk]

theorem find?_reverse {pairs : Members} (distinct : (pairs.map Prod.fst).Nodup) :
    find? k pairs.reverse = find? k pairs := by
  induction pairs with
  | nil => rfl
  | cons p rest ih =>
      obtain ⟨key', value'⟩ := p
      obtain ⟨hfirst, hrest⟩ := List.nodup_cons.mp distinct
      rw [List.reverse_cons, find?_append, ih hrest]
      by_cases hk : key' = k
      · have hnone : find? k rest = none := find?_eq_none k fun h => hfirst (hk ▸ h)
        simp [find?, hk, hnone]
      · simp [find?, hk]

theorem find?_optional (j : Option Json) :
    find? k (optional key j) = if key = k then j else none := by
  cases j with
  | none => exact (ite_self none).symm
  | some j => rfl

theorem keys_optional (j : Option Json) : ((optional key j).map Prod.fst).Sublist [key] := by
  cases j with
  | none => exact List.nil_sublist _
  | some j => exact List.Sublist.refl _

theorem find?_ofList (pairs : Members) : find? k (ofList pairs) = find? k pairs.reverse := by
  rw [ofList, find?_foldl_insert]
  exact Option.or_none

end Members

namespace Json

theorem member?_mkObj (pairs : Members) (key : String) :
    (mkObj pairs).member? key = Members.find? key pairs.reverse := Members.find?_ofList key pairs

theorem member?_mkObj_of_nodup {pairs : Members} (distinct : (pairs.map Prod.fst).Nodup)
    (key : String) : (mkObj pairs).member? key = Members.find? key pairs := by
  rw [member?_mkObj, Members.find?_reverse key distinct]

theorem get_mkObj_of_nodup {pairs : Members} (distinct : (pairs.map Prod.fst).Nodup)
    (key : String) : (mkObj pairs).get key = (Members.find? key pairs).getD .null := by
  unfold get
  rw [member?_mkObj_of_nodup distinct]

theorem member?_eq_some_of_get {j value : Json} {key : String} (h : j.get key = value)
    (hvalue : value ≠ .null) : j.member? key = some value := by
  unfold get at h
  cases hmember : j.member? key with
  | none =>
      rw [hmember] at h
      exact absurd h.symm hvalue
  | some found =>
      rw [hmember] at h
      exact congrArg some h

end Json

end LanguageClient
