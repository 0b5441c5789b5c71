import LanguageClient.Rpc.Id

/-!
# Message envelopes

Requests, responses and notifications around their payloads. Absent optional members are left out
when an envelope is written. When one is read, an optional member may be absent or `null`, unknown
members are ignored, and an array that holds the members in order stands for the object.
-/

namespace LanguageClient.Rpc

/-- The protocol version every envelope states. -/
def version : String := "2.0"

/-- Why a request failed. -/
structure ErrorObject where
  code : Int
  message : String
  data : Option Json

/-- A request: it expects a response. -/
structure Request where
  version : String
  id : RequestId
  method : String
  params : Option Json

/-- The response to a request. -/
structure Response where
  version : String
  id : RequestId
  result : Option Json
  error : Option ErrorObject

/-- A message that expects no response. -/
structure Notification where
  version : String
  method : String
  params : Option Json

/-! ## Building -/

/-- Parameters, absent when `null`. -/
def optionalParams (params : Json) : Option Json :=
  if params.isNull then none else some params

/-- A request; `null` parameters are left out. -/
def request (id : RequestId) (method : String) (params : Json) : Request :=
  ⟨version, id, method, optionalParams params⟩

/-- A notification; `null` parameters are left out. -/
def notification (method : String) (params : Json) : Notification :=
  ⟨version, method, optionalParams params⟩

/-- The response to a request that succeeded. -/
def success (id : RequestId) (result : Json) : Response :=
  ⟨version, id, some result, none⟩

/-- The response to a request that failed. -/
def failure (id : RequestId) (code : Int) (message : String) (data : Option Json) : Response :=
  ⟨version, id, none, some ⟨code, message, data⟩⟩

/-- The code of the error "method not found". -/
def methodNotFoundCode : Int := -32601

/-- The response to a request whose method is not supported. -/
def methodNotFound (id : RequestId) (method : String) : Response :=
  failure id methodNotFoundCode s!"Method not found: {method}" none

/-! ## Writing -/

/-- An error as a JSON object. -/
def ErrorObject.toJson (e : ErrorObject) : Json :=
  .mkObj ([("code", .ofInt e.code), ("message", .str e.message)] ++ Members.optional "data" e.data)

/-- A request as a JSON object. -/
def Request.toJson (r : Request) : Json :=
  .mkObj ([("jsonrpc", .str r.version), ("id", r.id.toJson), ("method", .str r.method)] ++
    Members.optional "params" r.params)

/-- A response as a JSON object. -/
def Response.toJson (r : Response) : Json :=
  .mkObj ([("jsonrpc", .str r.version), ("id", r.id.toJson)] ++
    Members.optional "result" r.result ++
    Members.optional "error" (r.error.map ErrorObject.toJson))

/-- A notification as a JSON object. -/
def Notification.toJson (n : Notification) : Json :=
  .mkObj ([("jsonrpc", .str n.version), ("method", .str n.method)] ++
    Members.optional "params" n.params)

/-! ## Reading -/

/-- The members of a record: by key from an object, in order from an array of that many items. -/
def recordMembers? (keys : List String) : Json → Option (List (Option Json))
  | .obj members => some (keys.map fun key => Members.find? key members)
  | .arr items => if items.length = keys.length then some (items.map some) else none
  | _ => none

/-- A required text. -/
def requiredText (j : Option Json) : Option String := j.bind Json.str?

/-- An optional value; `null` counts as absent. -/
def present (j : Option Json) : Option Json := j.filter (¬ ·.isNull)

/-- Reads an error object. -/
def ErrorObject.ofJson? (j : Json) : Option ErrorObject :=
  match recordMembers? ["code", "message", "data"] j with
  | some [code, message, data] => do
      return ⟨← code.bind Json.int32?, ← requiredText message, present data⟩
  | _ => none

/-- Reads a request. -/
def Request.ofJson? (j : Json) : Option Request :=
  match recordMembers? ["jsonrpc", "id", "method", "params"] j with
  | some [version, id, method, params] => do
      return ⟨← requiredText version, ← id.bind RequestId.ofJson?, ← requiredText method,
        present params⟩
  | _ => none

/-- Reads a response; an error that is present must be an error object. -/
def Response.ofJson? (j : Json) : Option Response :=
  match recordMembers? ["jsonrpc", "id", "result", "error"] j with
  | some [version, id, result, error] => do
      let version ← requiredText version
      let id ← id.bind RequestId.ofJson?
      match present error with
      | none => return ⟨version, id, present result, none⟩
      | some e => return ⟨version, id, present result, some (← ErrorObject.ofJson? e)⟩
  | _ => none

/-- Reads a notification. -/
def Notification.ofJson? (j : Json) : Option Notification :=
  match recordMembers? ["jsonrpc", "method", "params"] j with
  | some [version, method, params] => do
      return ⟨← requiredText version, ← requiredText method, present params⟩
  | _ => none

end LanguageClient.Rpc
