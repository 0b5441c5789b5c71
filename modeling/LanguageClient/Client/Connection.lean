import LanguageClient.Client.Pipes
import LanguageClient.Client.Run

/-!
# A client with its pipes

One client between two pipes, with a subscriber that may leave and an owner that may drop the
client. Every action is followed by all that comes of it: messages are written, and a pipe that
nobody can write to any more is shut.
-/

namespace LanguageClient

open Document

/-- A client, as long as it is not dropped, and its surroundings. -/
structure Connection where
  client : Option Client
  subscribed : Bool := true
  outlet : Outlet := {}
  inlet : Inlet := {}

/-- Something that was observed from outside. -/
inductive Observation where
  | log (e : LogEvent)
  /-- A message arrived at the server's end. -/
  | arrived (m : Outbound)
  | event (e : SessionEvent)
  | invoked (h : Handler) (r : Reply)
  | discarded (h : Handler)

namespace Observation

/-- The log event that was observed. -/
def log? : Observation → Option LogEvent
  | .log e => some e
  | _ => none

/-- The message that was observed. -/
def message? : Observation → Option Outbound
  | .arrived m => some m
  | _ => none

/-- The event that was observed. -/
def event? : Observation → Option SessionEvent
  | .event e => some e
  | _ => none

/-- What was observed to become of a request, by the ticket of its handler: a reply, or nothing. -/
def outcome? : Observation → Option (Nat × Option Reply)
  | .invoked h r => some (h.ticket, some r)
  | .discarded h => some (h.ticket, none)
  | _ => none

end Observation

namespace Connection

/-- What is observed of an effect at once. Without a subscriber an event is only logged. -/
def observe (subscribed : Bool) : Effect → List Observation
  | .log e => [.log e]
  | .queue _ => []
  | .event e =>
      if subscribed then [.event e]
      else [.log (.trace .client "No event subscriber, dropping session event")]
  | .invoke h r => [.invoked h r]
  | .discard h => [.discarded h]

/-- The messages among effects. -/
def queued (effects : List Effect) : List Outbound :=
  effects.filterMap fun
    | .queue m => some m
    | _ => none

/-- Can the client still write? -/
def canWrite (k : Connection) : Bool :=
  match k.client with
  | some c => c.link != .lost
  | none => false

/-- The writer's work behind some effects: what was queued is written, and if nobody can write any
more the pipe is shut. A client learns of a writer that has ended. -/
def settle (k : Connection) (effects : List Effect) : Connection × List Observation :=
  let (outlet, arrived, log) := k.outlet.write Outbound.size (queued effects)
  let (outlet, shutLog) := if k.canWrite then (outlet, []) else outlet.shut
  let client := if outlet.ended then k.client.map Client.writerEnded else k.client
  ({ k with outlet := outlet, client := client },
    effects.flatMap (observe k.subscribed) ++ (log ++ shutLog).map .log ++ arrived.map .arrived)

/-- Uses the client; without one nothing happens. -/
def act (k : Connection) (normal : Normalizer) (a : Action) :
    Connection × Option Answer × List Observation :=
  match k.client with
  | none => (k, none, [])
  | some c =>
      let turn := c.step normal a
      let (k, seen) := { k with client := some turn.client }.settle turn.effects
      (k, some turn.value, seen)

/-- Hands on messages, one after the other. -/
def handOn (normal : Normalizer) (c : Client) (messages : List Json) : Client × List Effect :=
  c.run normal (messages.map .receive)

/-- Takes one chunk. Without a client its messages go nowhere, and neither do later ones. -/
def takeChunk (normal : Normalizer) (k : Connection) (chunk : Bytes) : Connection × List Effect :=
  if ¬ k.inlet.handing then (k, [])
  else
    let d := k.inlet.frames.push chunk
    let inlet := { k.inlet with frames := d.reader }
    let log := d.log.map Effect.log
    if d.messages.isEmpty then ({ k with inlet := inlet }, log)
    else match k.client with
      | some c =>
          let (c, effects) := handOn normal c d.messages
          ({ k with inlet := inlet, client := some c }, log ++ effects)
      | none =>
          let (inlet, finished) := inlet.finishHanding
          ({ k with inlet := inlet }, log ++ finished.map .log)

/-- Takes chunks, one after the other. -/
def takeChunks (normal : Normalizer) (k : Connection) : List Bytes → Connection × List Effect
  | [] => (k, [])
  | chunk :: rest =>
      let (k, first) := takeChunk normal k chunk
      let (k, later) := takeChunks normal k rest
      (k, first ++ later)

/-- Bytes arrive from the server. Once messages are no longer handed on, the reading ends with the
next bytes. -/
def arrive (k : Connection) (normal : Normalizer) (bytes : Bytes) :
    Connection × List Observation :=
  if bytes.isEmpty ∨ ¬ k.inlet.reading then (k, [])
  else if k.inlet.handing then
    let (k, effects) := takeChunks normal k (chunks bytes)
    k.settle effects
  else
    ({ k with inlet := { k.inlet with reading := false } },
      [.log (.trace .transport "StdioTransport: stdout receiver dropped, stopping reader")])

/-- The server's end of its pipe was closed. -/
def eof (k : Connection) : Connection × List Observation :=
  let (inlet, log) := k.inlet.eof
  ({ k with inlet := inlet }, log.map .log)

/-- Reading failed. -/
def readError (k : Connection) (cause : String) : Connection × List Observation :=
  let (inlet, log) := k.inlet.fail cause
  ({ k with inlet := inlet }, log.map .log)

/-- The client is dropped: its pending handlers are given up, and nobody can write any more. -/
def drop (k : Connection) : Connection × List Observation :=
  match k.client with
  | none => (k, [])
  | some c => { k with client := none }.settle c.abandonAll

/-- Answers a request for an edit; without a client the answer goes nowhere. -/
def respond (k : Connection) (normal : Normalizer) (id : Rpc.RequestId) (outcome : EditOutcome) :
    Connection × Bool × List Observation :=
  match k.act normal (.respond id outcome) with
  | (k, some (.responded counted), seen) => (k, counted, seen)
  | (k, _, _) =>
      (k, false,
        [.log (.debug .dispatcher s!"Session gone, discarding applyEdit response {id.shown}")])

end Connection

end LanguageClient
