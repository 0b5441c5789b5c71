import LanguageClient.Document.Position
import LanguageClient.Proofs.Json.Members

/-!
# Positions and ranges that a value states

A value states a position if it has the two numbers as members. It is read as that position exactly if it
states it and the numbers fit 32 bits, so what is read can be written and read again.
-/

namespace LanguageClient.Document

/-- Both numbers fit 32 bits. -/
def Position.Fits (p : Position) : Prop := p.line < 0x100000000 ∧ p.character < 0x100000000

instance (p : Position) : Decidable p.Fits := inferInstanceAs (Decidable (_ ∧ _))

/-- Both ends fit. -/
def Range.Fits (r : Range) : Prop := r.start.Fits ∧ r.stop.Fits

/-- The value states the position. -/
structure Position.States (p : Position) (j : Json) : Prop where
  line : j.get "line" = .ofNat p.line
  character : j.get "character" = .ofNat p.character

/-- The value states the range. -/
structure Range.States (r : Range) (j : Json) : Prop where
  start : r.start.States (j.get "start")
  stop : r.stop.States (j.get "end")

theorem nat64?_ofNat {n : Nat} (h : n < 0x10000000000000000) : (Json.ofNat n).nat64? = some n := by
  have hrange : 0 ≤ (n : Int) ∧ (n : Int) < 0x10000000000000000 := by omega
  unfold Json.ofNat Json.nat64? Json.num?
  rw [Option.bind_some]
  unfold Number.nat64?
  dsimp only
  rw [if_pos hrange, Int.toNat_natCast]

theorem nat32?_ofNat {n : Nat} (h : n < 0x100000000) : nat32? (.ofNat n) = some n := by
  unfold nat32?
  rw [nat64?_ofNat (by omega)]
  exact if_pos (decide_eq_true h)

theorem Position.States.ofJson?_eq {p : Position} {j : Json} (h : p.States j) (hfits : p.Fits) :
    Position.ofJson? j = some p := by
  unfold Position.ofJson?
  rw [h.line, h.character, nat32?_ofNat hfits.1, nat32?_ofNat hfits.2]
  rfl

theorem Range.States.ofJson?_eq {r : Range} {j : Json} (h : r.States j) (hstart : r.start.Fits)
    (hstop : r.stop.Fits) : Range.ofJson? j = some r := by
  unfold Range.ofJson?
  rw [h.start.ofJson?_eq hstart, h.stop.ofJson?_eq hstop]
  rfl

theorem nat32?_eq_some_iff {j : Json} {n : Nat} :
    nat32? j = some n ↔ j = .ofNat n ∧ n < 0x100000000 := by
  refine ⟨fun h => ?_, fun ⟨hj, hlt⟩ => hj ▸ nat32?_ofNat hlt⟩
  obtain ⟨hread, hlt⟩ := Option.filter_eq_some_iff.mp h
  obtain ⟨number, hnumber, hread⟩ := Option.bind_eq_some_iff.mp hread
  refine ⟨?_, of_decide_eq_true hlt⟩
  cases j with
  | num stated =>
      obtain rfl := Option.some.inj hnumber
      cases stated with
      | double bits => exact absurd hread nofun
      | int i =>
          obtain ⟨hrange, hi⟩ := Option.ite_none_right_eq_some.mp hread
          obtain rfl := Option.some.inj hi
          exact congrArg (fun i => Json.num (.int i)) (Int.toNat_of_nonneg hrange.1).symm
  | _ => exact absurd hnumber nofun

theorem int32?_eq_some_iff {j : Json} {i : Int} :
    j.int32? = some i ↔ j = .ofInt i ∧ -0x80000000 ≤ i ∧ i < 0x80000000 := by
  constructor
  · intro h
    obtain ⟨number, hnumber, hread⟩ := Option.bind_eq_some_iff.mp h
    cases j with
    | num stated =>
        obtain rfl := Option.some.inj hnumber
        cases stated with
        | double bits => exact absurd hread nofun
        | int value =>
            obtain ⟨hrange, hi⟩ := Option.ite_none_right_eq_some.mp hread
            obtain rfl := Option.some.inj hi
            exact ⟨rfl, hrange⟩
    | _ => exact absurd hnumber nofun
  · rintro ⟨rfl, hrange⟩
    exact if_pos hrange

/-- A position is read exactly if it is stated and fits. -/
theorem Position.ofJson?_eq_some_iff {j : Json} {p : Position} :
    Position.ofJson? j = some p ↔ p.States j ∧ p.Fits := by
  refine ⟨fun h => ?_, fun ⟨h, hfits⟩ => h.ofJson?_eq hfits⟩
  obtain ⟨line, hline, h⟩ := Option.bind_eq_some_iff.mp h
  obtain ⟨character, hcharacter, h⟩ := Option.bind_eq_some_iff.mp h
  cases h
  have hline := nat32?_eq_some_iff.mp hline
  have hcharacter := nat32?_eq_some_iff.mp hcharacter
  exact ⟨⟨hline.1, hcharacter.1⟩, hline.2, hcharacter.2⟩

theorem Range.ofJson?_eq_some_iff {j : Json} {r : Range} :
    Range.ofJson? j = some r ↔ r.States j ∧ r.Fits := by
  refine ⟨fun h => ?_, fun ⟨h, hfits⟩ => h.ofJson?_eq hfits.1 hfits.2⟩
  obtain ⟨start, hstart, h⟩ := Option.bind_eq_some_iff.mp h
  obtain ⟨stop, hstop, h⟩ := Option.bind_eq_some_iff.mp h
  cases h
  have hstart := Position.ofJson?_eq_some_iff.mp hstart
  have hstop := Position.ofJson?_eq_some_iff.mp hstop
  exact ⟨⟨hstart.1, hstop.1⟩, hstart.2, hstop.2⟩

theorem Range.fits_of_ofJson? {j : Json} {r : Range} (h : Range.ofJson? j = some r) : r.Fits :=
  (Range.ofJson?_eq_some_iff.mp h).2

/-! ## What is written -/

theorem get_pair {first second : String} (distinct : first ≠ second) (a b : Json) :
    (Json.mkObj [(first, a), (second, b)]).get first = a ∧
      (Json.mkObj [(first, a), (second, b)]).get second = b := by
  have hmembers : ∀ key, (Json.mkObj [(first, a), (second, b)]).get key = _ :=
    Json.get_mkObj_of_nodup (by simpa using distinct)
  rw [hmembers, hmembers]
  simp [Members.find?, distinct]

theorem Position.states_toJson (p : Position) : p.States p.toJson := by
  obtain ⟨hline, hcharacter⟩ :=
    get_pair (by decide : "line" ≠ "character") (.ofNat p.line) (.ofNat p.character)
  exact ⟨hline, hcharacter⟩

theorem Range.states_toJson (r : Range) : r.States r.toJson := by
  obtain ⟨hstart, hstop⟩ :=
    get_pair (by decide : "start" ≠ "end") r.start.toJson r.stop.toJson
  exact ⟨hstart.symm ▸ r.start.states_toJson, hstop.symm ▸ r.stop.states_toJson⟩

/-! ## What is read again -/

theorem Range.ofJson?_toJson {r : Range} (h : r.Fits) : Range.ofJson? r.toJson = some r :=
  r.states_toJson.ofJson?_eq h.1 h.2

theorem filterMap_map_eq {α : Type} {read : Json → Option α} {write : α → Json} {xs : List α}
    (h : ∀ a ∈ xs, read (write a) = some a) : (xs.map write).filterMap read = xs := by
  induction xs with
  | nil => rfl
  | cons a rest ih =>
      obtain ⟨ha, hrest⟩ := List.forall_mem_cons.mp h
      rw [List.map_cons, List.filterMap_cons_some ha, ih hrest]

end LanguageClient.Document
