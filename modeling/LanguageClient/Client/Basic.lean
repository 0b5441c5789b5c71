import LanguageClient.Client.Request
import LanguageClient.Client.State
import LanguageClient.Client.Window
import LanguageClient.Document.Params
import LanguageClient.Document.SemanticTokens
import LanguageClient.Rpc.Inbound

/-!
# The client and its effects

A client is a value; a call takes a client and gives a turn: an answer for the caller, the client
afterwards, and what the call brought about, in order. Nothing happens but by these effects.
-/

namespace LanguageClient

open Rpc Document

/-- Who waits for a reply: a caller's handler for one type of reply. The ticket names the handler;
an owner, if there is one, must still be alive when the reply arrives. -/
structure Handler where
  ticket : Nat
  type : ReplyType
  owner : Option Nat := none
deriving DecidableEq, Repr

/-- What becomes of the reply to a request. -/
inductive Continuation where
  /-- The client completes its own handshake. -/
  | handshake
  /-- The reply goes to a handler. -/
  | handler (h : Handler)
deriving DecidableEq, Repr

/-- A request whose reply has not arrived. -/
structure Pending where
  id : Nat
  kind : RequestKind
  continuation : Continuation
deriving DecidableEq, Repr

/-- The way to the server. -/
inductive Link where
  /-- Messages are taken. -/
  | up
  /-- The writer has ended: messages are refused. -/
  | down
  /-- The client has given the connection up. -/
  | lost
deriving DecidableEq, Repr

/-- What a session reports to its subscriber. -/
inductive SessionEvent where
  | state (s : SessionState)
  | diagnostics (p : Published)
  | highlighting (h : Highlighting)
  /-- The server asks for an edit; the answer goes by the identifier. -/
  | applyEdit (id : RequestId) (edit : ApplyEdit)

/-- A message to the server. -/
inductive Outbound where
  | request (r : Request)
  | notification (n : Notification)
  | response (r : Response)

namespace Outbound

/-- The message as a JSON object. -/
def toJson : Outbound → Json
  | .request r => r.toJson
  | .notification n => n.toJson
  | .response r => r.toJson

/-- What the message is called when it is logged. -/
def title : Outbound → String
  | .request r => r.method
  | .notification n => n.method
  | .response _ => "<response>"

end Outbound

/-- Something that a client brings about. -/
inductive Effect where
  | log (e : LogEvent)
  /-- A message is queued for the server. -/
  | queue (m : Outbound)
  /-- The subscriber is told. -/
  | event (e : SessionEvent)
  /-- A handler gets its reply. -/
  | invoke (h : Handler) (r : Reply)
  /-- A handler is given up without a reply. -/
  | discard (h : Handler)

/-- What a client is and knows. -/
structure Client where
  workspace : Params.Workspace
  processId : Nat := 0
  state : SessionState := .absent
  capabilities : Capabilities := {}
  /-- The identifier used last. -/
  lastId : Nat := 0
  pending : List Pending := []
  window : Window := []
  link : Link := .up
  /-- Owners of handlers that are no more. -/
  released : List Nat := []

/-- The outcome of a call. -/
structure Turn (α : Type) where
  value : α
  client : Client
  effects : List Effect := []

/-- Why a message is not sent. -/
inductive SendError where
  | notRunning (state : SessionState)
  | transportClosed
deriving DecidableEq, Repr

/-- The wording of an error. -/
def SendError.message : SendError → String
  | .notRunning state => s!"Server not running (state: {state.name})"
  | .transportClosed => "Transport to the server is closed"

namespace Continuation

/-- What happens to a continuation that is given up. -/
def abandon : Continuation → List Effect
  | .handshake => []
  | .handler h => [.discard h]

end Continuation

namespace Client

/-- Does the handler's owner, if it has one, still live? -/
def isAlive (c : Client) (h : Handler) : Bool :=
  match h.owner with
  | some owner => !c.released.contains owner
  | none => true

/-- Changes the state; the subscriber hears of it only if it is another one. -/
def moveTo (c : Client) (s : SessionState) : Turn Unit :=
  if c.state = s then ⟨(), c, []⟩
  else ⟨(), { c with state := s },
    [.log (.debug .client s!"Session state {c.state.name} -> {s.name}"), .event (.state s)]⟩

/-- Queues a message, whatever the state. A lost connection takes nothing; one whose writer has
ended refuses the message after it was logged. -/
def write (c : Client) (m : Outbound) : Except SendError Unit × List Effect :=
  match c.link with
  | .up => (.ok (), [.log (.exchanged .client "outgoing" m.title), .queue m])
  | .down => (.error .transportClosed, [.log (.exchanged .client "outgoing" m.title)])
  | .lost => (.error .transportClosed, [])

/-- Queues a message; a refusal is only logged, at the given level and behind the given words. -/
def writeOrLog (c : Client) (m : Outbound) (refused : SendError → LogEvent) : List Effect :=
  match c.write m with
  | (.ok (), effects) => effects
  | (.error e, effects) => effects ++ [.log (refused e)]

/-- Queues a request under a fresh identifier and remembers it. An identifier is used up even if
the request is refused; then there is no identifier to answer, and the continuation is given up. -/
def writeRequest (c : Client) (kind : RequestKind) (params : Json) (k : Continuation) :
    Turn (Option Nat) :=
  let id := c.lastId + 1
  match c.write (.request (request (.ofNat id) kind.method params)) with
  | (.ok (), effects) =>
      ⟨some id, { c with lastId := id, pending := c.pending ++ [⟨id, kind, k⟩] }, effects⟩
  | (.error e, effects) =>
      ⟨none, { c with lastId := id },
        effects ++ [.log (.warn .client s!"Failed to send {kind.method}: {e.message}")] ++
          k.abandon⟩

/-- The pending request with an identifier. -/
def pending? (c : Client) (id : Nat) : Option Pending := c.pending.find? (·.id = id)

/-- Forgets the pending request with an identifier. -/
def forget (c : Client) (id : Nat) : Client :=
  { c with pending := c.pending.filter (·.id ≠ id) }

/-- What happens when all pending requests are given up. -/
def abandonAll (c : Client) : List Effect := c.pending.flatMap (·.continuation.abandon)

end Client

end LanguageClient
