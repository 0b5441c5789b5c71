import LanguageClient.Frame.Decoder

/-!
# Searching bytes

`find` gives the first place, from some place on, at which a needle stands. What is found stays found
when bytes are appended, a search may start behind places at which nothing stands, and a needle that
does not overlap itself is found at the end of bytes that do not hold it.
-/

namespace LanguageClient.Frame

/-- The needle stands in the bytes at a place. -/
def Stands (needle bytes : Bytes) (place : Nat) : Prop := needle <+: bytes.drop place

instance (needle bytes : Bytes) (place : Nat) : Decidable (Stands needle bytes place) :=
  inferInstanceAs (Decidable (needle <+: bytes.drop place))

theorem Stands.le {needle bytes : Bytes} {place : Nat} (hne : needle ≠ [])
    (h : Stands needle bytes place) : place + needle.length ≤ bytes.length := by
  have hlen := h.length_le
  have hpos := List.length_pos_iff.mpr hne
  rw [List.length_drop] at hlen
  omega

theorem stands_append {needle first second : Bytes} {place : Nat}
    (h : place + needle.length ≤ first.length) :
    Stands needle (first ++ second) place ↔ Stands needle first place := by
  unfold Stands
  rw [List.drop_append_of_le_length (by omega)]
  constructor
  · intro hp
    exact List.prefix_of_prefix_length_le hp (List.prefix_append _ _)
      (by rw [List.length_drop]; omega)
  · intro hp
    exact hp.trans (List.prefix_append _ _)

theorem Stands.append {needle first : Bytes} {place : Nat} (h : Stands needle first place)
    (second : Bytes) : Stands needle (first ++ second) place := by
  unfold Stands at h ⊢
  rw [List.drop_append]
  exact h.trans (List.prefix_append _ _)

theorem stands_append_right {needle first second : Bytes} {place : Nat} :
    Stands needle (first ++ second) (first.length + place) ↔ Stands needle second place := by
  unfold Stands
  rw [List.drop_length_add_append]

theorem not_stands_nil {needle : Bytes} (hne : needle ≠ []) (place : Nat) :
    ¬ Stands needle [] place := by
  intro h
  have hle := h.le hne
  have hpos := List.length_pos_iff.mpr hne
  rw [List.length_nil] at hle
  omega

theorem findFrom_eq_none_iff {needle : Bytes} (hne : needle ≠ []) {bytes : Bytes} {place : Nat} :
    findFrom needle bytes place = none ↔ ∀ k, ¬ Stands needle bytes k := by
  induction bytes generalizing place with
  | nil => simp [findFrom, not_stands_nil hne]
  | cons b rest ih =>
      unfold findFrom
      split
      · rename_i hhere
        have hstands : Stands needle (b :: rest) 0 := List.isPrefixOf_iff_prefix.mp hhere
        exact ⟨fun h => absurd h (by simp), fun h => absurd hstands (h 0)⟩
      · rename_i hhere
        rw [ih]
        constructor
        · intro h k
          cases k with
          | zero => exact fun hs => hhere (List.isPrefixOf_iff_prefix.mpr hs)
          | succ k => exact h k
        · exact fun h k => h (k + 1)

theorem findFrom_eq_some_iff {needle : Bytes} (hne : needle ≠ []) {bytes : Bytes}
    {place found : Nat} :
    findFrom needle bytes place = some found ↔
      ∃ k, found = place + k ∧ Stands needle bytes k ∧ ∀ j < k, ¬ Stands needle bytes j := by
  induction bytes generalizing place with
  | nil =>
      simp only [findFrom, reduceCtorEq, false_iff]
      rintro ⟨k, -, hk, -⟩
      exact not_stands_nil hne k hk
  | cons b rest ih =>
      unfold findFrom
      split
      · rename_i hhere
        have hstands : Stands needle (b :: rest) 0 := List.isPrefixOf_iff_prefix.mp hhere
        constructor
        · intro h
          exact ⟨0, (Option.some.inj h).symm, hstands, fun j hj => absurd hj (Nat.not_lt_zero j)⟩
        · rintro ⟨k, rfl, -, hfirst⟩
          cases k with
          | zero => rfl
          | succ k => exact absurd hstands (hfirst 0 (Nat.succ_pos k))
      · rename_i hhere
        have hnot : ¬ Stands needle (b :: rest) 0 := fun h =>
          hhere (List.isPrefixOf_iff_prefix.mpr h)
        rw [ih]
        constructor
        · rintro ⟨k, rfl, hk, hfirst⟩
          refine ⟨k + 1, by omega, hk, fun j hj => ?_⟩
          cases j with
          | zero => exact hnot
          | succ j => exact hfirst j (by omega)
        · rintro ⟨k, rfl, hk, hfirst⟩
          cases k with
          | zero => exact absurd hk hnot
          | succ k => exact ⟨k, by omega, hk, fun j hj => hfirst (j + 1) (by omega)⟩

theorem stands_drop {needle bytes : Bytes} {start place : Nat} :
    Stands needle (bytes.drop start) place ↔ Stands needle bytes (start + place) := by
  unfold Stands
  rw [List.drop_drop]

theorem find_eq_some_iff {needle : Bytes} (hne : needle ≠ []) {bytes : Bytes} {start found : Nat} :
    find needle bytes start = some found ↔
      start ≤ found ∧ Stands needle bytes found ∧
        ∀ j, start ≤ j → j < found → ¬ Stands needle bytes j := by
  unfold find
  rw [findFrom_eq_some_iff hne]
  simp only [stands_drop]
  constructor
  · rintro ⟨k, rfl, hk, hfirst⟩
    refine ⟨Nat.le_add_right _ _, hk, fun j hj hlt => ?_⟩
    have := hfirst (j - start) (by omega)
    rwa [Nat.add_sub_cancel' hj] at this
  · rintro ⟨hle, hk, hfirst⟩
    refine ⟨found - start, by omega, by rwa [Nat.add_sub_cancel' hle], fun j hj => ?_⟩
    exact hfirst (start + j) (by omega) (by omega)

theorem find_eq_none_iff {needle : Bytes} (hne : needle ≠ []) {bytes : Bytes} {start : Nat} :
    find needle bytes start = none ↔ ∀ j, start ≤ j → ¬ Stands needle bytes j := by
  unfold find
  rw [findFrom_eq_none_iff hne]
  simp only [stands_drop]
  constructor
  · intro h j hj
    have := h (j - start)
    rwa [Nat.add_sub_cancel' hj] at this
  · exact fun h k => h (start + k) (Nat.le_add_right _ _)

theorem find_inside {needle : Bytes} (hne : needle ≠ []) {bytes : Bytes} {start found : Nat}
    (h : find needle bytes start = some found) : found + needle.length ≤ bytes.length := by
  obtain ⟨-, hstands, -⟩ := (find_eq_some_iff hne).mp h
  exact hstands.le hne

/-- The needle stands at a place and, from `start` on, nowhere before it. -/
structure FirstAt (needle bytes : Bytes) (start place : Nat) : Prop where
  le : start ≤ place
  stands : Stands needle bytes place
  first : ∀ j, start ≤ j → j < place → ¬ Stands needle bytes j

theorem find_iff_firstAt {needle : Bytes} (hne : needle ≠ []) {bytes : Bytes} {start found : Nat} :
    find needle bytes start = some found ↔ FirstAt needle bytes start found := by
  rw [find_eq_some_iff hne]
  constructor
  · rintro ⟨hle, hstands, hfirst⟩
    exact ⟨hle, hstands, hfirst⟩
  · intro h
    exact ⟨h.le, h.stands, h.first⟩

theorem Stands.isInfix {needle bytes : Bytes} {place : Nat} (h : Stands needle bytes place) :
    needle <:+: bytes :=
  (List.IsPrefix.isInfix h).trans (List.drop_suffix place bytes).isInfix

theorem not_infix_of_find {needle bytes : Bytes} (hne : needle ≠ [])
    (h : find needle bytes 0 = none) : ¬ needle <:+: bytes := by
  rintro ⟨before, after, rfl⟩
  refine (find_eq_none_iff hne).mp h before.length (Nat.zero_le _) ?_
  unfold Stands
  rw [List.append_assoc, List.drop_left]
  exact List.prefix_append _ _

/-- A search may start behind places at which nothing stands. -/
theorem find_skip {needle : Bytes} (hne : needle ≠ []) {bytes : Bytes} {start later : Nat}
    (hle : start ≤ later) (hskip : ∀ j, start ≤ j → j < later → ¬ Stands needle bytes j) :
    find needle bytes later = find needle bytes start := by
  cases hfound : find needle bytes later with
  | none =>
      rw [find_eq_none_iff hne] at hfound
      refine ((find_eq_none_iff hne).mpr fun j hj => ?_).symm
      rcases Nat.lt_or_ge j later with hlt | hge
      · exact hskip j hj hlt
      · exact hfound j hge
  | some found =>
      obtain ⟨hge, hs, hfirst⟩ := (find_eq_some_iff hne).mp hfound
      refine ((find_eq_some_iff hne).mpr ⟨Nat.le_trans hle hge, hs, fun j hj hlt => ?_⟩).symm
      rcases Nat.lt_or_ge j later with hlt' | hge'
      · exact hskip j hj hlt'
      · exact hfirst j hge' hlt

theorem find_append {needle : Bytes} (hne : needle ≠ []) {first : Bytes} {start found : Nat}
    (h : find needle first start = some found) (second : Bytes) :
    find needle (first ++ second) start = some found := by
  obtain ⟨hle, hs, hfirst⟩ := (find_eq_some_iff hne).mp h
  have hin := hs.le hne
  refine (find_eq_some_iff hne).mpr ⟨hle, hs.append second, fun j hj hlt => ?_⟩
  rw [stands_append (by omega)]
  exact hfirst j hj hlt

/-- What is found within the first bytes is found in them alone. -/
theorem find_of_append {needle : Bytes} (hne : needle ≠ []) {first second : Bytes}
    {start found : Nat} (h : find needle (first ++ second) start = some found)
    (hin : found + needle.length ≤ first.length) : find needle first start = some found := by
  obtain ⟨hle, hs, hfirst⟩ := (find_eq_some_iff hne).mp h
  refine (find_eq_some_iff hne).mpr ⟨hle, (stands_append hin).mp hs, fun j hj hlt hstands => ?_⟩
  exact hfirst j hj hlt (hstands.append second)

theorem find_append_right {needle : Bytes} (hne : needle ≠ []) (first second : Bytes)
    (start : Nat) :
    find needle (first ++ second) (first.length + start)
      = (find needle second start).map (first.length + ·) := by
  cases hfound : find needle second start with
  | none =>
      rw [find_eq_none_iff hne] at hfound
      refine (find_eq_none_iff hne).mpr fun j hj => ?_
      have := hfound (j - first.length) (by omega)
      rwa [← @stands_append_right needle first, Nat.add_sub_cancel' (by omega)] at this
  | some found =>
      obtain ⟨hle, hs, hfirst⟩ := (find_eq_some_iff hne).mp hfound
      rw [Option.map_some, find_eq_some_iff hne]
      refine ⟨Nat.add_le_add_left hle _, stands_append_right.mpr hs, fun j hj hlt => ?_⟩
      have := hfirst (j - first.length) (by omega) (by omega)
      rwa [← @stands_append_right needle first, Nat.add_sub_cancel' (by omega)] at this

theorem find_of_not_mem {b : UInt8} {tail text : Bytes} (h : b ∉ text) (more : Bytes) :
    find (b :: tail) (text ++ (b :: tail ++ more)) 0 = some text.length := by
  refine (find_eq_some_iff (by simp)).mpr ⟨Nat.zero_le _, ?_, fun j _ hlt hj => h ?_⟩
  · unfold Stands
    rw [List.drop_left]
    exact List.prefix_append _ _
  · -- the byte at an earlier place belongs to the text
    obtain ⟨rest, hrest⟩ := hj
    have hbyte : (text ++ (b :: tail ++ more))[j]? = some b := by
      rw [← Nat.add_zero j, ← List.getElem?_drop, ← hrest]
      rfl
    rw [List.getElem?_append_left hlt] at hbyte
    exact List.mem_of_getElem? hbyte

end LanguageClient.Frame
