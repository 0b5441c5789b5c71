import LanguageClient.Client.Calls

/-!
# Messages from the server

What a client does with one message. A reply goes to the continuation of the request that it
answers; a request for an edit goes into the window and to the subscriber, and any other request
is answered with an error; diagnostics and highlighting go to the subscriber.

This is done in two steps. A message is first taken: the request that it answers is no longer
pending, or the edit that it asks for is in the window. Only then, and after whatever else was done
with the client in between, the continuation gets the result, or the subscriber the edit. So a
continuation looks at the state anew.
-/

namespace LanguageClient.Client

open Rpc Document

/-- The handshake is answered: the server's capabilities are known, and the session runs. Only the
result counts: an error is no obstacle. -/
def completeHandshake (c : Client) (result : Json) : Turn Unit :=
  if c.state ≠ .started then
    ⟨(), c, [.log (.debug .client s!"Ignoring initialize reply in state {c.state.name}")]⟩
  else
    let c := { c with capabilities := Capabilities.ofJson (result.get "capabilities") }
    let moved := c.moveTo .running
    ⟨(), moved.client,
      c.writeOrLog (.notification (notification "initialized" Params.initialized))
        (fun e => .warn .client s!"Failed to send initialized: {e.message}") ++
      [.log (.info .client "Server initialized")] ++ moved.effects⟩

/-- Hands a result to a handler whose owner is still alive. -/
def deliver (c : Client) (normal : Normalizer) (kind : RequestKind) (h : Handler) (result : Json) :
    List Effect :=
  if c.isAlive h then [.invoke h (h.type.read normal result)]
  else
    [.log (.debug .correlator s!"Dropping {kind.method} reply for a released receiver"),
      .discard h]

/-- Continues a request with its result. -/
def resume (c : Client) (normal : Normalizer) (p : Pending) (result : Json) : Turn Unit :=
  match p.continuation with
  | .handshake => c.completeHandshake result
  | .handler h => ⟨(), c, c.deliver normal p.kind h result⟩

/-- The warning about a request that failed. -/
def failureLog (kind : RequestKind) (id : RequestId) : Option ErrorObject → List Effect
  | some e =>
      [.log (.warn .dispatcher
        s!"{kind.method} request {id.shown} failed: {e.message} ({e.code})")]
  | none => []

/-- What is left to do about a message that was taken. -/
inductive Remainder where
  /-- The request that it answers is to be continued with its result. -/
  | resume (p : Pending) (result : Json)
  /-- The subscriber is to hear of the edit that it asks for. -/
  | announce (id : RequestId) (edit : ApplyEdit)

/-- Takes a reply. The request that it answers is no longer pending, even if it failed. -/
def takeReply (c : Client) (id : RequestId) (result : Json) (error : Option ErrorObject) :
    Turn (Option Remainder) :=
  match id.toNat?.bind c.pending? with
  | none => ⟨none, c, [.log (.debug .dispatcher s!"No handler for reply {id.shown}, discarding")]⟩
  | some p =>
      ⟨some (.resume p result), c.forget p.id,
        .log (.exchanged .dispatcher "incoming" p.kind.method) :: failureLog p.kind id error⟩

/-- The method by which a server asks for an edit. -/
def applyEditMethod : String := "workspace/applyEdit"

/-- The warning about a request that had to leave the window. -/
def evictionLog : Option RequestId → List Effect
  | some id =>
      [.log (.warn .dispatcher
        s!"Too many pending server requests, dropping request {id.shown}")]
  | none => []

/-- Takes a request. -/
def takeRequest (c : Client) (normal : Normalizer) (id : RequestId) (method : String)
    (params : Json) : Turn (Option Remainder) :=
  let arrived : Effect := .log (.exchanged .dispatcher "incoming" method)
  if method = applyEditMethod then
    ⟨some (.announce id (ApplyEdit.ofJson normal params)), { c with window := c.window.track id },
      arrived :: evictionLog c.window.evicted?⟩
  else
    ⟨none, c, arrived ::
      .log (.warn .dispatcher s!"Unsupported server request {method}, answering MethodNotFound") ::
      c.writeOrLog (.response (methodNotFound id method))
        (fun e => .warn .dispatcher s!"Failed to answer {method}: {e.message}")⟩

/-- The method by which a server sends semantic highlighting. -/
def highlightingMethod : String := "textDocument/semanticHighlighting"

/-- What comes of a notification. -/
def notificationEffects (normal : Normalizer) (method : String) (params : Json) : List Effect :=
  if method = "textDocument/publishDiagnostics" then
    match Published.ofJson? normal params with
    | some p => [.event (.diagnostics p)]
    | none => [.log (.warn .dispatcher "Discarding publishDiagnostics without a valid uri")]
  else if method = highlightingMethod then
    (Highlighting.readLog params).map .log ++
      [.event (.highlighting (Highlighting.ofJson normal params))]
  else [.log (.debug .dispatcher s!"Ignoring unhandled notification {method}")]

/-- Takes one message. -/
def take (c : Client) (normal : Normalizer) (message : Json) : Turn (Option Remainder) :=
  let classified := (Inbound.classifyLog message).map Effect.log
  let turn : Turn (Option Remainder) := match Inbound.classify message with
    | none => ⟨none, c, [.log (.debug .dispatcher "Discarding unclassifiable frame")]⟩
    | some (.reply id result error) => c.takeReply id result error
    | some (.request id method params) => c.takeRequest normal id method params
    | some (.notification method params) =>
        ⟨none, c, .log (.exchanged .dispatcher "incoming" method) ::
          notificationEffects normal method params⟩
  ⟨turn.value, turn.client, classified ++ turn.effects⟩

/-- Does what is left to do. -/
def finish (c : Client) (normal : Normalizer) : Option Remainder → Turn Unit
  | none => ⟨(), c, []⟩
  | some (.resume p result) => c.resume normal p result
  | some (.announce id edit) => ⟨(), c, [.event (.applyEdit id edit)]⟩

/-- Takes one message and does at once what is left to do about it. -/
def receive (c : Client) (normal : Normalizer) (message : Json) : Turn Unit :=
  let taken := c.take normal message
  let finished := taken.client.finish normal taken.value
  ⟨(), finished.client, taken.effects ++ finished.effects⟩

end LanguageClient.Client
