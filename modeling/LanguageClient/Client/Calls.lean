import LanguageClient.Client.Basic

/-!
# Calls of a client

What a client can be asked to do. The handshake may be the first message only; everything else is
refused unless the session runs.
-/

namespace LanguageClient.Client

open Rpc Document

/-- Begins the session: sends the handshake, unless it was begun already. The state changes before
anything is sent, and keeps its change if nothing can be sent. -/
def handshake (c : Client) : Turn (Option Nat) :=
  if c.state ≠ .absent then
    ⟨none, c, [.log (.debug .client s!"initialize in state {c.state.name}, ignoring")]⟩
  else
    let started := c.moveTo .started
    let sent := started.client.writeRequest .handshake
      (Params.handshake c.processId c.workspace) .handshake
    ⟨sent.value, sent.client, started.effects ++ sent.effects⟩

/-- The warning about a message that comes at a wrong time. -/
def refusal (c : Client) (method : String) : Effect :=
  .log (.warn .client s!"send {method} for non-running server ({c.state.name})")

/-- Sends a request. Without a running server the handler is given up at once. -/
def send (c : Client) (kind : RequestKind) (params : Json) (h : Handler) : Turn (Option Nat) :=
  if c.state = .running then c.writeRequest kind params (.handler h)
  else ⟨none, c, [c.refusal kind.method, .discard h]⟩

/-- Sends a notification. -/
def notify (c : Client) (method : String) (params : Json) : Turn (Except SendError Unit) :=
  if c.state = .running then
    let (result, effects) := c.write (.notification (notification method params))
    ⟨result, c, effects⟩
  else ⟨.error (.notRunning c.state), c, [c.refusal method]⟩

/-- Gives up a pending request and tells the server; of any other identifier nothing comes. -/
def cancel (c : Client) (id : Nat) : Turn Unit :=
  match c.pending? id with
  | none => ⟨(), c, []⟩
  | some p =>
      let refused (e : SendError) : LogEvent :=
        .debug .client s!"Failed to send cancellation for {id}: {e.message}"
      ⟨(), c.forget id, .log (.debug .client s!"Cancelling request {id}") ::
        p.continuation.abandon ++
        c.writeOrLog (.notification (notification "$/cancelRequest" (Params.cancel id))) refused⟩

/-- The writer has ended. A connection that was given up stays given up. -/
def writerEnded (c : Client) : Client :=
  if c.link = .up then { c with link := .down } else c

/-- Ends the session: gives up what is pending and tells the server to shut down and to exit. The
reply to the shutdown request is not waited for. The two messages are sent one by one; the session is
severed if the writer ends between them. -/
def shutdown (c : Client) (severed : Bool := false) : Turn Unit :=
  if c.state ≠ .running then ⟨(), c, []⟩
  else
    let id := c.lastId + 1
    let request := request (.ofNat id) RequestKind.shutdown.method .null
    let left := { c with pending := [], lastId := id }
    let rest := if severed then left.writerEnded else left
    let moved := rest.moveTo .shutdown
    ⟨(), moved.client,
      c.abandonAll ++
      [.log (.info .client
        s!"Shutting down server, abandoning {c.pending.length} pending requests")] ++
      left.writeOrLog (.request request)
        (fun e => .warn .client s!"Failed to send shutdown: {e.message}") ++
      rest.writeOrLog (.notification (notification "exit" .null))
        (fun e => .warn .client s!"Failed to send exit: {e.message}") ++
      moved.effects⟩

/-- The server is gone: everything is given up, for good. -/
def connectionLost (c : Client) : Turn Unit :=
  let moved := { c with pending := [], window := [], link := .lost }.moveTo .absent
  let warning : List Effect :=
    if c.pending.isEmpty then []
    else [.log (.warn .client s!"Server went away with {c.pending.length} pending requests")]
  ⟨(), moved.client, c.abandonAll ++ warning ++ moved.effects⟩

/-- Answers a request for an edit. The answer counts only if the request is still in the window
and the answer can be queued. -/
def respond (c : Client) (id : RequestId) (outcome : EditOutcome) : Turn Bool :=
  if id ∈ c.window then
    let c := { c with window := c.window.complete id }
    match c.write (.response (success id (Params.applyEditResponse outcome))) with
    | (.ok (), effects) => ⟨true, c, effects⟩
    | (.error e, effects) =>
        ⟨false, c, effects ++
          [.log (.warn .dispatcher s!"Failed to send applyEdit response: {e.message}")]⟩
  else
    ⟨false, c,
      [.log (.warn .dispatcher s!"Request {id.shown} no longer tracked, discarding response")]⟩

/-- An owner of handlers is no more. -/
def release (c : Client) (owner : Nat) : Client := { c with released := owner :: c.released }

end LanguageClient.Client
