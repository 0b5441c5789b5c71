import LanguageClient.Proofs.Json.Members
import LanguageClient.Proofs.Rpc.Inbound

/-!
# Envelopes told apart

Every envelope that can be built is taken for what it was built as, once it is written and told apart
(`classify_built`). What is written is an object with the members of the envelope and no others
(`member?_toJson`, one for each envelope), so the kind is read off the presence of `id` and `method`,
and what was left out as `null` or absent is read as `null` or absent again.
-/

namespace LanguageClient.Rpc

open RequestId

/-! ## What is written -/

theorem ErrorObject.member?_toJson (e : ErrorObject) (key : String) :
    e.toJson.member? key =
      if "code" = key then some (.ofInt e.code)
      else if "message" = key then some (.str e.message)
      else if "data" = key then e.data
      else none := by
  rw [toJson, Json.member?_mkObj_of_nodup ?distinct]
  case distinct => cases e.data <;> simp [Members.optional]
  simp [Members.find?, Members.find?_optional]

theorem Request.member?_toJson (r : Request) (key : String) :
    r.toJson.member? key =
      if "jsonrpc" = key then some (.str r.version)
      else if "id" = key then some r.id.toJson
      else if "method" = key then some (.str r.method)
      else if "params" = key then r.params
      else none := by
  rw [toJson, Json.member?_mkObj_of_nodup ?distinct]
  case distinct => cases r.params <;> simp [Members.optional]
  simp [Members.find?, Members.find?_optional]

theorem Response.member?_toJson (r : Response) (key : String) :
    r.toJson.member? key =
      if "jsonrpc" = key then some (.str r.version)
      else if "id" = key then some r.id.toJson
      else if "result" = key then r.result
      else if "error" = key then r.error.map ErrorObject.toJson
      else none := by
  rw [toJson, Json.member?_mkObj_of_nodup ?distinct]
  case distinct => cases r.result <;> cases r.error <;> simp [Members.optional]
  simp only [Members.find?, List.cons_append, List.nil_append, Members.find?_append,
    Members.find?_optional]
  by_cases hresult : "result" = key
  · subst hresult
    simp
  · simp [hresult]

theorem Notification.member?_toJson (n : Notification) (key : String) :
    n.toJson.member? key =
      if "jsonrpc" = key then some (.str n.version)
      else if "method" = key then some (.str n.method)
      else if "params" = key then n.params
      else none := by
  rw [toJson, Json.member?_mkObj_of_nodup ?distinct]
  case distinct => cases n.params <;> simp [Members.optional]
  simp [Members.find?, Members.find?_optional]

theorem Request.get_id (r : Request) : r.toJson.get "id" = r.id.toJson := by
  simp [Json.get, member?_toJson]

theorem Request.get_params (r : Request) : r.toJson.get "params" = r.params.getD .null := by
  simp [Json.get, member?_toJson]

theorem Notification.get_params (n : Notification) :
    n.toJson.get "params" = n.params.getD .null := by
  simp [Json.get, member?_toJson]

/-! ## What is read back -/

theorem getD_optionalParams (params : Json) : (optionalParams params).getD .null = params := by
  cases params <;> rfl

/-- The error codes that can travel: the signed 32-bit numbers. -/
def ErrorObject.Fits (e : ErrorObject) : Prop := -0x80000000 ≤ e.code ∧ e.code < 0x80000000

theorem ErrorObject.ofJson?_toJson {e : ErrorObject} (h : e.Fits) :
    ErrorObject.ofJson? e.toJson = some { e with data := present e.data } := by
  have hmembers : recordMembers? ["code", "message", "data"] e.toJson =
      some (["code", "message", "data"].map fun key => e.toJson.member? key) := rfl
  have hcode : (Json.ofInt e.code).int32? = some e.code := if_pos h
  unfold ErrorObject.ofJson?
  rw [hmembers]
  simp [member?_toJson, hcode, requiredText, Json.str?]

/-! ## What is told apart -/

theorem Request.classify_toJson {r : Request} (h : r.id.Fits) :
    Inbound.classify r.toJson = some (.request r.id r.method (r.params.getD .null)) := by
  refine classify_request_iff.mpr ⟨⟨h, ?_, ?_⟩, r.get_params.symm⟩
  · simp [member?_toJson]
  · simp [member?_toJson]

theorem Notification.classify_toJson (n : Notification) :
    Inbound.classify n.toJson = some (.notification n.method (n.params.getD .null)) := by
  refine classify_notification_iff.mpr ⟨?_, ?_, n.get_params.symm⟩
  · simp [Inbound.idMember, present, member?_toJson]
  · simp [member?_toJson]

/-- A response is a reply whether or not it has a result: it names no method. -/
theorem Response.classify_toJson {r : Response} (h : r.id.Fits) :
    Inbound.classify r.toJson = some (.reply r.id (r.result.getD .null)
      ((r.error.map ErrorObject.toJson).bind ErrorObject.ofJson?)) := by
  refine classify_reply_iff.mpr ⟨rfl, ?_, ?_, ?_, ?_⟩
  · exact identifier_eq_some_iff.mpr ⟨h, by simp [member?_toJson]⟩
  · simp [Inbound.methodMember, member?_toJson]
  · simp [Json.get, member?_toJson]
  · simp [member?_toJson]

/-- **Envelopes are told apart.** Whatever is built as a request, a notification, or the response to a
request that succeeded or failed, is taken for just that once it is written: with its identifier, its
method and its parameters, or its result, or its error. Nothing is lost but data that is `null`, which
counts as absent. Different identifiers are written differently, so they stay different. -/
theorem classify_built (id : RequestId) (fits : id.Fits) (method : String) (params result : Json)
    (code : Int) (text : String) (data : Option Json)
    (codeFits : -0x80000000 ≤ code ∧ code < 0x80000000) :
    Inbound.classify (request id method params).toJson = some (.request id method params) ∧
    Inbound.classify (notification method params).toJson = some (.notification method params) ∧
    Inbound.classify (success id result).toJson = some (.reply id result none) ∧
    Inbound.classify (failure id code text data).toJson =
      some (.reply id .null (some ⟨code, text, present data⟩)) ∧
    ∀ id' : RequestId, id' ≠ id → id'.toJson ≠ id.toJson := by
  have hparams : (optionalParams params).getD .null = params := getD_optionalParams params
  have hrequest := Request.classify_toJson (r := request id method params) fits
  have hnotification := (notification method params).classify_toJson
  have hfailure := Response.classify_toJson (r := failure id code text data) fits
  have herror : ErrorObject.ofJson? (ErrorObject.toJson ⟨code, text, data⟩) =
      some ⟨code, text, present data⟩ := ErrorObject.ofJson?_toJson codeFits
  refine ⟨?_, ?_, Response.classify_toJson fits, ?_, fun id' hne h => hne (toJson_injective h)⟩
  · rw [hrequest]
    exact congrArg (fun p => some (Inbound.request id method p)) hparams
  · rw [hnotification]
    exact congrArg (fun p => some (Inbound.notification method p)) hparams
  · rw [hfailure]
    exact congrArg (fun e => some (Inbound.reply id .null e)) herror

/-- The lowest number that can travel, with nothing but `null` around it. -/
theorem classify_built_null :
    let id : RequestId := .number (-0x8000000000000000)
    id.Fits ∧ (-0x80000000 ≤ methodNotFoundCode ∧ methodNotFoundCode < 0x80000000) ∧
      Inbound.classify (request id "exit" .null).toJson = some (.request id "exit" .null) ∧
      Inbound.classify (success id .null).toJson = some (.reply id .null none) ∧
      Inbound.classify (failure id methodNotFoundCode "" (some .null)).toJson =
        some (.reply id .null (some ⟨methodNotFoundCode, "", none⟩)) := by
  intro id
  have fits : id.Fits := ⟨by decide, by decide⟩
  have codeFits : -0x80000000 ≤ methodNotFoundCode ∧ methodNotFoundCode < 0x80000000 := by decide
  obtain ⟨hrequest, -, hsuccess, hfailure, -⟩ :=
    classify_built id fits "exit" .null .null methodNotFoundCode "" (some .null) codeFits
  exact ⟨fits, codeFits, hrequest, hsuccess, hfailure⟩

end LanguageClient.Rpc
