import LanguageClient.Client.Dispatch

/-!
# Runs of a client

Every way in which a client can be used, as one type of actions; a run is a sequence of them, each
taken as one step. What one step answers to its caller is kept beside its effects.
-/

namespace LanguageClient

open Rpc Document

/-- One use of a client. -/
inductive Action where
  | handshake
  | send (kind : RequestKind) (params : Json) (h : Handler)
  | notify (method : String) (params : Json)
  | cancel (id : Nat)
  | shutdown
  | connectionLost
  | respond (id : RequestId) (outcome : EditOutcome)
  | receive (message : Json)
  /-- The owner of handlers is no more. -/
  | release (owner : Nat)
  | writerEnded

/-- What an action answers. -/
inductive Answer where
  | done
  /-- The identifier of a request, if it was sent. -/
  | sent (id : Option Nat)
  | notified (result : Except SendError Unit)
  | responded (counted : Bool)

namespace Client

/-- One step of a client. -/
def step (normal : Normalizer) (c : Client) : Action → Turn Answer
  | .handshake => let t := c.handshake; ⟨.sent t.value, t.client, t.effects⟩
  | .send kind params h => let t := c.send kind params h; ⟨.sent t.value, t.client, t.effects⟩
  | .notify method params =>
      let t := c.notify method params; ⟨.notified t.value, t.client, t.effects⟩
  | .cancel id => let t := c.cancel id; ⟨.done, t.client, t.effects⟩
  | .shutdown => let t := c.shutdown; ⟨.done, t.client, t.effects⟩
  | .connectionLost => let t := c.connectionLost; ⟨.done, t.client, t.effects⟩
  | .respond id outcome =>
      let t := c.respond id outcome; ⟨.responded t.value, t.client, t.effects⟩
  | .receive message => let t := c.receive normal message; ⟨.done, t.client, t.effects⟩
  | .release owner => ⟨.done, c.release owner, []⟩
  | .writerEnded => ⟨.done, c.writerEnded, []⟩

/-- A run: the client after the actions, and all that they brought about, in order. -/
def run (normal : Normalizer) (c : Client) : List Action → Client × List Effect
  | [] => (c, [])
  | a :: rest =>
      let t := c.step normal a
      let (last, effects) := t.client.run normal rest
      (last, t.effects ++ effects)

end Client

end LanguageClient
