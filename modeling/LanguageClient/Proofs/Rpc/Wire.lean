import LanguageClient.Proofs.Text.Decimal
import LanguageClient.Rpc.Id
import Mathlib.Logic.Function.Basic

/-!
# Identifiers on the wire

An identifier is read back from its JSON value and from no other (`ofJson?_eq_some_iff`). A counted
identifier and its wire form determine each other: what is read from a JSON value counts as `n`
exactly when the value is the one under which request `n` was sent (`toNat?_ofJson?`).
-/

namespace LanguageClient.Rpc

namespace RequestId

/-- The identifiers that can travel: every text, and the signed 64-bit numbers. -/
def Fits : RequestId → Prop
  | number n => -0x8000000000000000 ≤ n ∧ n < 0x8000000000000000
  | text _ => True

theorem toJson_injective : Function.Injective toJson := by
  intro id id' h
  cases id with
  | number n =>
      cases id' with
      | number n' => exact congrArg number (Number.int.inj (Json.num.inj h))
      | text s' => exact Json.noConfusion h
  | text s =>
      cases id' with
      | number n' => exact Json.noConfusion h
      | text s' => exact congrArg text (Json.str.inj h)

theorem ofJson?_eq_some_iff {raw : Json} {id : RequestId} :
    ofJson? raw = some id ↔ id.Fits ∧ raw = id.toJson := by
  constructor
  · intro h
    unfold ofJson? at h
    split at h
    · rename_i number
      obtain ⟨i, hi, rfl⟩ := Option.map_eq_some_iff.mp h
      cases number with
      | int j =>
          simp only [Number.int64?, Option.ite_none_right_eq_some, Option.some.injEq] at hi
          obtain ⟨hrange, rfl⟩ := hi
          exact ⟨hrange, rfl⟩
      | double _ => exact absurd hi (by simp [Number.int64?])
    · obtain rfl := Option.some.inj h
      exact ⟨trivial, rfl⟩
    · exact absurd h (by simp)
  · rintro ⟨hfits, rfl⟩
    cases id with
    | number n => simp [ofJson?, toJson, Json.ofInt, Number.int64?, hfits.1, hfits.2]
    | text s => rfl

theorem ofJson?_toJson {id : RequestId} (h : id.Fits) : ofJson? id.toJson = some id :=
  ofJson?_eq_some_iff.mpr ⟨h, rfl⟩

theorem isNull_toJson (id : RequestId) : id.toJson.isNull = false := by
  cases id <;> rfl

/-- How many identifiers can be counted: they are unsigned 64-bit numbers. -/
def counted : Nat := 0x10000000000000000

/-- The JSON value under which request `n` is sent. -/
def wire (n : Nat) : Json := (ofNat n).toJson

theorem wire_of_le {n : Nat} (h : n ≤ maxNumber) : wire n = .num (.int n) := by
  simp [wire, ofNat, h, toJson, Json.ofInt]

theorem wire_of_lt {n : Nat} (h : maxNumber < n) : wire n = .str (toString n) := by
  simp [wire, ofNat, Nat.not_le.mpr h, toJson]

theorem ofNat_injective {m n : Nat} (h : ofNat m = ofNat n) : m = n := by
  unfold ofNat at h
  split at h
  · split at h
    · exact Int.ofNat.inj (number.inj h)
    · exact absurd h (by simp)
  · split at h
    · exact absurd h (by simp)
    · -- both travel as digits
      have hdigits : Nat.toDigits 10 m = Nat.toDigits 10 n := by
        rw [← Nat.toList_repr, ← Nat.toList_repr]
        exact congrArg String.toList (text.inj h)
      exact Option.some.inj (by rw [← Text.digitsValue?_toDigits m, hdigits,
        Text.digitsValue?_toDigits])

theorem wire_injective : Function.Injective wire := fun _ _ h => ofNat_injective (toJson_injective h)

theorem wire_isNull (n : Nat) : (wire n).isNull = false := isNull_toJson _

/-- A text counts only if it is the wire form of the number that it spells. -/
theorem toNat?_text {s : String} {n : Nat} :
    (text s).toNat? = some n ↔ n < counted ∧ ofNat n = text s := by
  simp only [toNat?, Option.filter_eq_some_iff, decide_eq_true_eq]
  constructor
  · rintro ⟨hread, hform⟩
    exact ⟨Text.readNat?_lt hread, hform⟩
  · rintro ⟨hlt, hform⟩
    refine ⟨?_, hform⟩
    -- only numbers beyond the signed range travel as texts, and those as their digits
    unfold ofNat at hform
    split at hform
    · exact absurd hform (by simp)
    · have hs : s = toString n := (RequestId.text.inj hform).symm
      rw [hs, Nat.toString_eq_repr, Nat.toList_repr]
      exact Text.readNat?_toDigits hlt

theorem fits_ofNat (n : Nat) : (ofNat n).Fits := by
  unfold ofNat
  split
  · rename_i h
    unfold maxNumber at h
    exact ⟨by omega, by omega⟩
  · trivial

theorem toNat?_ofNat {n : Nat} (h : n < counted) : (ofNat n).toNat? = some n := by
  rcases Nat.lt_or_ge maxNumber n with hlarge | hle
  · have hform : ofNat n = text (toString n) := by simp [ofNat, Nat.not_le.mpr hlarge]
    rw [hform]
    exact toNat?_text.mpr ⟨h, hform⟩
  · simp [ofNat, hle, toNat?]

/-- An identifier read from a JSON value counts as `n` iff the value is the wire form of `n`. -/
theorem toNat?_ofJson? {raw : Json} {n : Nat} :
    (ofJson? raw).bind toNat? = some n ↔ n < counted ∧ raw = wire n := by
  constructor
  · intro h
    obtain ⟨id, hread, hcount⟩ := Option.bind_eq_some_iff.mp h
    obtain ⟨hfits, rfl⟩ := ofJson?_eq_some_iff.mp hread
    cases id with
    | number i =>
        simp only [toNat?, Option.ite_none_right_eq_some, Option.some.injEq] at hcount
        obtain ⟨hpos, rfl⟩ := hcount
        have hmax : i.toNat ≤ maxNumber := by
          have := hfits.2
          unfold maxNumber
          omega
        refine ⟨by unfold counted maxNumber at *; omega, ?_⟩
        rw [wire_of_le hmax, Int.toNat_of_nonneg hpos]
        rfl
    | text s =>
        obtain ⟨hlt, hform⟩ := toNat?_text.mp hcount
        exact ⟨hlt, by rw [wire, hform]⟩
  · rintro ⟨hlt, rfl⟩
    rw [wire, ofJson?_toJson (fits_ofNat n), Option.bind_some, toNat?_ofNat hlt]

end RequestId

end LanguageClient.Rpc
