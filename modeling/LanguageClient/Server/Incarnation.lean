import LanguageClient.Client.Connection
import LanguageClient.Server.Process

/-!
# One process of a session

A session may start a server several times. Each process has a client of its own, which is told when
the process has ended: by the one who waits for that end, or by a start or a stop that notices
first.
The steps of a start, of a stop and of the end are separate definitions, for they can fall between
one another in any order.
-/

namespace LanguageClient.Server

open Host (Ending)
open Document (Normalizer)

/-- The client of one process, and what is known of the process. -/
structure Incarnation where
  normal : Normalizer
  connection : Connection
  /-- Is the process not known to have ended? -/
  running : Bool := true
  /-- Does the one who waits for the end know the client? -/
  watched : Bool := false
  /-- What the client has written since the pipes were last looked at. -/
  outbox : Bytes := []
  /-- What was observed of the client and is not yet taken by the session. -/
  seen : List Observation := []

namespace Incarnation

/-- The client's state; without a client there is no server either. -/
def state (i : Incarnation) : SessionState :=
  match i.connection.client with
  | some c => c.state
  | none => .absent

/-- The bytes of the messages among observations. -/
def written (seen : List Observation) : Bytes :=
  (seen.filterMap (·.message?)).flatMap Outbound.frame

/-- What the session takes of observations. -/
def kept (seen : List Observation) : List Observation :=
  seen.filter fun o => o.event?.isSome ∨ o.outcome?.isSome

/-- Notes what came of the connection. -/
def note (i : Incarnation) (connection : Connection) (seen : List Observation) :
    Incarnation × List LogEvent :=
  ({ i with
      connection := connection
      outbox := i.outbox ++ written seen
      seen := i.seen ++ kept seen }, seen.filterMap (·.log?))

/-- Uses the client; the log events come last. -/
def act (i : Incarnation) (a : Action) : Incarnation × Option Answer × List LogEvent :=
  let (connection, answer, seen) := i.connection.act i.normal a
  let (i, log) := i.note connection seen
  (i, answer, log)

/-- Uses the client for its effects alone. -/
def perform (i : Incarnation) (a : Action) : Incarnation × List LogEvent :=
  let (i, _, log) := i.act a
  (i, log)

/-! ## The steps of a start -/

/-- A process that was just started, with a new client. -/
def begin (normal : Normalizer) (workspace : Document.Params.Workspace) (fault : String) :
    Incarnation where
  normal := normal
  connection := { client := some { workspace := workspace }, outlet := { fault := fault } }

/-- The one who waits for the end learns of the client. -/
def watch (i : Incarnation) : Incarnation := { i with watched := true }

/-- The client begins its handshake. -/
def handshake (i : Incarnation) : Incarnation × List LogEvent := i.perform .handshake

/-- The client is told if the process is known to have ended. -/
def recheck (i : Incarnation) : Incarnation × List LogEvent :=
  if i.running then (i, []) else i.perform .connectionLost

/-! ## The steps of a stop -/

/-- The server is told to shut down, if the session runs. -/
def farewell (i : Incarnation) : Incarnation × List LogEvent := i.perform .shutdown

/-! A stop ends like a start, with a look at the process: `recheck`. -/

/-! ## The steps of the end -/

/-- The process is known to have ended. -/
def reap (i : Incarnation) : Incarnation := { i with running := false }

/-- The client is told of the end. -/
def report (i : Incarnation) : Incarnation × List LogEvent :=
  if i.watched then i.perform .connectionLost else (i, [])

/-! ## Pipes -/

/-- What is logged of the end of the process with a number. -/
def endLog (number : Nat) (e : Ending) : LogEvent :=
  if e.success then .info .session s!"Server {number} exited"
  else .warn .session s!"Server {number} exited with {endingText e}"

/-- What is done with the pipes at a moment. -/
def use (i : Incarnation) (traffic : Traffic) : Incarnation × PipeUse :=
  let outlet := { i.connection.outlet with refusesWrites := traffic.deaf }
  let (connection, seen) := { i.connection with outlet := outlet }.arrive i.normal traffic.arrived
  let (i, arriveLog) := i.note connection seen
  let (connection, seen) := if traffic.ends then i.connection.eof else (i.connection, [])
  let (i, endLog) := i.note connection seen
  ({ i with outbox := [] },
    { written := i.outbox, finished := i.connection.outlet.ended
      left := ¬ i.connection.inlet.reading, log := arriveLog ++ endLog })

instance : PipeHolder Incarnation where
  use := use
  ended i number e :=
    let (i, log) := i.reap.report
    (i, endLog number e :: log)
  release i := i

end Incarnation

end LanguageClient.Server
