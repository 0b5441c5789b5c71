import LanguageClient.Json.Writer
import LanguageClient.Log
import LanguageClient.Rpc.Envelope

/-!
# Inbound messages

What arrives is told apart by two members: an `id` without a `method` answers one of our
requests, an `id` with a `method` asks for an answer, a `method` alone is a notification.
-/

namespace LanguageClient.Rpc

/-- One message from the server. -/
inductive Inbound where
  | reply (id : RequestId) (result : Json) (error : Option ErrorObject)
  | request (id : RequestId) (method : String) (params : Json)
  | notification (method : String) (params : Json)

namespace Inbound

/-- The identifier member of a message; `null` counts as absent. -/
def idMember (message : Json) : Option Json := present (message.member? "id")

/-- The method member of a message; anything but a text counts as absent. -/
def methodMember (message : Json) : Option String := (message.member? "method").bind Json.str?

/-- Tells what a message is; nothing for a message that is none of the three. -/
def classify (message : Json) : Option Inbound :=
  if ¬ message.isObj then none
  else match idMember message, methodMember message with
    | some raw, method =>
        match RequestId.ofJson? raw with
        | none => none
        | some id =>
            match method with
            | some method => some (.request id method (message.get "params"))
            | none =>
                let error := (message.member? "error").bind ErrorObject.ofJson?
                some (.reply id (message.get "result") error)
    | none, some method => some (.notification method (message.get "params"))
    | none, none => none

/-- What is logged while a message is told apart: an identifier of a wrong kind. -/
def classifyLog (message : Json) : List LogEvent :=
  match idMember message with
  | some raw =>
      if (RequestId.ofJson? raw).isNone then
        [.warn .protocol s!"Discarding frame with unsupported id {raw.render}"]
      else []
  | none => []

end Inbound

end LanguageClient.Rpc
