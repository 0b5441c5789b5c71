import LanguageClient.Proofs.Rpc.Envelope

/-!
# Envelopes read back

What was written of an envelope is read as that envelope, but an optional member that is there as
`null` is read as absent (`Request.ofJson?_toJson`, and one for each other envelope). So an envelope
that is read back and written again is the same JSON value exactly if it has no such member
(`Response.survives_iff`). Of all that can be built this leaves two that do not survive: the success
whose result is `null`, and the failure whose data is `null` (`built_survives_iff`).
-/

namespace LanguageClient.Rpc

/-- What is written of the envelope is read, and written again as the same JSON value. -/
def Survives {α : Type} (write : α → Json) (read? : Json → Option α) (envelope : α) : Prop :=
  (read? (write envelope)).map write = some (write envelope)

theorem survives_iff_of_read {α : Type} {write : α → Json} {read? : Json → Option α} {a b : α}
    (hread : read? (write a) = some b) : Survives write read? a ↔ write b = write a := by
  unfold Survives
  rw [hread, Option.map_some, Option.some.injEq]

theorem present_eq_self_iff {j : Option Json} : present j = j ↔ j ≠ some .null := by
  cases j with
  | none => simp [present]
  | some j => cases j <;> simp [present, Json.isNull]

/-- An optional member stands in what is written, so a reading that takes `null` for absent changes
what is written exactly if the member is `null`. -/
theorem write_eq_iff_of_member {α : Type} {write : α → Json} (key : String)
    (member : α → Option Json) (hmember : ∀ x, (write x).member? key = member x) {a b : α}
    (hread : member b = present (member a)) (hsame : member b = member a → b = a) :
    write b = write a ↔ member a ≠ some .null := by
  rw [← present_eq_self_iff, ← hread]
  constructor
  · intro h
    rw [← hmember, ← hmember, h]
  · intro h
    rw [hsame h]

theorem optionalParams_ne_null (params : Json) : optionalParams params ≠ some .null := by
  cases params <;> simp [optionalParams, Json.isNull]

/-! ## Requests and notifications -/

theorem Request.ofJson?_toJson {r : Request} (h : r.id.Fits) :
    Request.ofJson? r.toJson = some { r with params := present r.params } := by
  have hmembers : recordMembers? ["jsonrpc", "id", "method", "params"] r.toJson =
      some (["jsonrpc", "id", "method", "params"].map fun key => r.toJson.member? key) := rfl
  unfold Request.ofJson?
  rw [hmembers]
  simp [member?_toJson, requiredText, Json.str?, RequestId.ofJson?_toJson h]

theorem Request.survives_iff {r : Request} (h : r.id.Fits) :
    Survives Request.toJson Request.ofJson? r ↔ r.params ≠ some .null := by
  rw [survives_iff_of_read (Request.ofJson?_toJson h)]
  refine write_eq_iff_of_member "params" Request.params (fun x => ?_) rfl fun hparams => ?_
  · simp [member?_toJson]
  · obtain ⟨version, id, method, params⟩ := r
    exact congrArg (Request.mk version id method) hparams

theorem Notification.ofJson?_toJson (n : Notification) :
    Notification.ofJson? n.toJson = some { n with params := present n.params } := by
  have hmembers : recordMembers? ["jsonrpc", "method", "params"] n.toJson =
      some (["jsonrpc", "method", "params"].map fun key => n.toJson.member? key) := rfl
  unfold Notification.ofJson?
  rw [hmembers]
  simp [member?_toJson, requiredText, Json.str?]

theorem Notification.survives_iff {n : Notification} :
    Survives Notification.toJson Notification.ofJson? n ↔ n.params ≠ some .null := by
  rw [survives_iff_of_read n.ofJson?_toJson]
  refine write_eq_iff_of_member "params" Notification.params (fun x => ?_) rfl fun hparams => ?_
  · simp [member?_toJson]
  · obtain ⟨version, method, params⟩ := n
    exact congrArg (Notification.mk version method) hparams

/-! ## Responses -/

/-- An error without data that is `null`. -/
def ErrorObject.withoutNull (e : ErrorObject) : ErrorObject := { e with data := present e.data }

/-- A response without members that are `null`. -/
def Response.withoutNull (r : Response) : Response :=
  { r with result := present r.result, error := r.error.map ErrorObject.withoutNull }

theorem present_error (error : Option ErrorObject) :
    present (error.map ErrorObject.toJson) = error.map ErrorObject.toJson := by
  refine present_eq_self_iff.mpr fun h => ?_
  obtain ⟨e, -, hnull⟩ := Option.map_eq_some_iff.mp h
  exact Json.noConfusion hnull

theorem Response.ofJson?_toJson {r : Response} (h : r.id.Fits) (herror : ∀ e ∈ r.error, e.Fits) :
    Response.ofJson? r.toJson = some r.withoutNull := by
  have hmembers : recordMembers? ["jsonrpc", "id", "result", "error"] r.toJson =
      some (["jsonrpc", "id", "result", "error"].map fun key => r.toJson.member? key) := rfl
  unfold Response.ofJson?
  rw [hmembers]
  simp only [List.map_cons, List.map_nil, member?_toJson, reduceIte, String.reduceEq, requiredText,
    Option.bind_some, Json.str?, RequestId.ofJson?_toJson h, present_error, Option.pure_def,
    Option.bind_eq_bind]
  cases hcase : r.error with
  | none => simp [withoutNull, hcase]
  | some e =>
      have hread := ErrorObject.ofJson?_toJson (herror e hcase)
      simp [withoutNull, hcase, hread, ErrorObject.withoutNull]

/-- Of an error the data alone can be lost. -/
theorem ErrorObject.toJson_withoutNull_iff {e : ErrorObject} :
    e.withoutNull.toJson = e.toJson ↔ e.data ≠ some .null := by
  refine write_eq_iff_of_member "data" ErrorObject.data (fun x => ?_) rfl fun hdata => ?_
  · simp [member?_toJson]
  · obtain ⟨code, message, data⟩ := e
    exact congrArg (ErrorObject.mk code message) hdata

theorem Response.survives_iff {r : Response} (h : r.id.Fits) (herror : ∀ e ∈ r.error, e.Fits) :
    Survives Response.toJson Response.ofJson? r ↔
      r.result ≠ some .null ∧ ∀ e ∈ r.error, e.data ≠ some .null := by
  rw [survives_iff_of_read (Response.ofJson?_toJson h herror), ← present_eq_self_iff]
  constructor
  · intro hsame
    have hresult := congrArg (Json.member? "result") hsame
    have hwritten := congrArg (Json.member? "error") hsame
    simp only [member?_toJson, withoutNull, reduceIte, String.reduceEq] at hresult hwritten
    refine ⟨hresult, fun e he => ErrorObject.toJson_withoutNull_iff.mp ?_⟩
    rw [Option.mem_def.mp he] at hwritten
    exact Option.some.inj hwritten
  · rintro ⟨hresult, hdata⟩
    unfold toJson withoutNull
    cases hcase : r.error with
    | none => rw [hresult]; rfl
    | some e =>
        rw [hresult]
        have hsame := ErrorObject.toJson_withoutNull_iff.mpr (hdata e hcase)
        simp only [Option.map_some, hsame]

/-! ## Everything that is built -/

section Built

variable {id : RequestId} (fits : id.Fits)
include fits

theorem request_survives (method : String) (params : Json) :
    Survives Request.toJson Request.ofJson? (request id method params) :=
  (Request.survives_iff fits).mpr (optionalParams_ne_null params)

theorem success_ofJson? (result : Json) :
    Response.ofJson? (success id result).toJson = some ⟨version, id, present (some result), none⟩ :=
  Response.ofJson?_toJson (r := success id result) fits nofun

theorem success_survives_iff {result : Json} :
    Survives Response.toJson Response.ofJson? (success id result) ↔ result ≠ .null := by
  rw [Response.survives_iff (r := success id result) fits nofun]
  constructor
  · rintro ⟨hresult, -⟩ rfl
    exact hresult rfl
  · intro hresult
    exact ⟨fun h => hresult (Option.some.inj h), nofun⟩

variable {code : Int} (codeFits : -0x80000000 ≤ code ∧ code < 0x80000000)
include codeFits

theorem failure_ofJson? (text : String) (data : Option Json) :
    Response.ofJson? (failure id code text data).toJson =
      some (failure id code text (present data)) := by
  refine Response.ofJson?_toJson fits ?_
  rintro e ⟨⟩
  exact codeFits

theorem failure_survives_iff {text : String} {data : Option Json} :
    Survives Response.toJson Response.ofJson? (failure id code text data) ↔ data ≠ some .null := by
  have herror : ∀ e ∈ (failure id code text data).error, e.Fits := by
    rintro e ⟨⟩
    exact codeFits
  rw [Response.survives_iff fits herror]
  constructor
  · rintro ⟨-, hdata⟩
    exact hdata _ rfl
  · intro hdata
    refine ⟨nofun, ?_⟩
    rintro e ⟨⟩
    exact hdata

end Built

/-- **Envelopes survive, except for `null`.** Every request, every notification and every refusal of
a method is read back and written again as the same JSON value. The response to a request that
succeeded is so exactly if its result is not `null`, and the response to one that failed exactly if
it has no data that is `null`. So a success can lose its result, and only one that is `null`; a
failure always keeps its error. -/
theorem built_survives_iff (id : RequestId) (fits : id.Fits) (method : String)
    (params result : Json) (code : Int) (text : String) (data : Option Json)
    (codeFits : -0x80000000 ≤ code ∧ code < 0x80000000) :
    Survives Request.toJson Request.ofJson? (request id method params) ∧
    Survives Notification.toJson Notification.ofJson? (notification method params) ∧
    Survives Response.toJson Response.ofJson? (methodNotFound id method) ∧
    (Survives Response.toJson Response.ofJson? (success id result) ↔ result ≠ .null) ∧
    (Survives Response.toJson Response.ofJson? (failure id code text data) ↔ data ≠ some .null) ∧
    Response.ofJson? (success id result).toJson = some ⟨version, id, present (some result), none⟩ ∧
    Response.ofJson? (failure id code text data).toJson =
      some (failure id code text (present data)) := by
  have hnotification : (notification method params).params ≠ some .null :=
    optionalParams_ne_null params
  have hcode : -0x80000000 ≤ methodNotFoundCode ∧ methodNotFoundCode < 0x80000000 := by decide
  have hrefusal : Survives Response.toJson Response.ofJson? (methodNotFound id method) :=
    (failure_survives_iff fits hcode).mpr nofun
  exact ⟨request_survives fits method params, Notification.survives_iff.mpr hnotification, hrefusal,
    success_survives_iff fits, failure_survives_iff fits codeFits, success_ofJson? fits result,
    failure_ofJson? fits codeFits text data⟩

/-- A result that is `false`, and data that is `null`. -/
theorem built_survives_iff_falsy :
    let id : RequestId := .text ""
    id.Fits ∧ (-0x80000000 ≤ methodNotFoundCode ∧ methodNotFoundCode < 0x80000000) ∧
      Survives Request.toJson Request.ofJson? (request id "shutdown" .null) ∧
      Survives Response.toJson Response.ofJson? (success id (.bool false)) ∧
      ¬ Survives Response.toJson Response.ofJson?
        (failure id methodNotFoundCode "" (some .null)) := by
  intro id
  have fits : id.Fits := trivial
  have codeFits : -0x80000000 ≤ methodNotFoundCode ∧ methodNotFoundCode < 0x80000000 := by decide
  obtain ⟨hrequest, -, -, hsuccess, hfailure, -⟩ :=
    built_survives_iff id fits "shutdown" .null (.bool false) methodNotFoundCode "" (some .null)
      codeFits
  exact ⟨fits, codeFits, hrequest, hsuccess.mpr nofun, fun h => hfailure.mp h rfl⟩

/-- A success whose result is `null` is read and written again without any result, and without an
error either. -/
theorem null_result_lost :
    (Response.ofJson? (success (.number 1) .null).toJson).map Response.toJson =
        some (.mkObj [("jsonrpc", .str "2.0"), ("id", .ofInt 1)]) ∧
      (success (.number 1) .null).toJson.member? "result" = some .null ∧
      ¬ Survives Response.toJson Response.ofJson? (success (.number 1) .null) := by
  have fits : (RequestId.number 1).Fits := ⟨by decide, by decide⟩
  refine ⟨?_, ?_, fun h => (success_survives_iff fits).mp h rfl⟩
  · rw [success_ofJson? fits]
    rfl
  · rw [Response.member?_toJson]
    rfl

end LanguageClient.Rpc
