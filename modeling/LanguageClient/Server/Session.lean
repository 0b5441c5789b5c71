import LanguageClient.Client.Feature
import LanguageClient.Server.Config
import LanguageClient.Server.Incarnation
import LanguageClient.Server.Supervisor
import LanguageClient.Text.Shown

/-!
# Server sessions

A session starts one server at a time, for one configuration, and stops it. The events of all its
servers come to one subscriber, in the order in which they happened.
-/

namespace LanguageClient.Server

open Host (Timed)
open Document (Normalizer EditOutcome)

/-- A session. -/
structure Session where
  config : Config
  normal : Normalizer
  supervisor : Supervisor Incarnation
  /-- Events that nobody has taken, each with the number of its process. -/
  events : List (Nat × SessionEvent) := []
  /-- What became of requests, by ticket: a reply, or nothing. -/
  outcomes : List (Nat × Option Reply) := []
  nextTicket : Nat := 0

namespace Session

/-- A session that has not started its server. -/
def new (site : Host.Site) (directory : Files.Location) (config : Config) : Session where
  config := config
  normal := Uri.normalize (.ofTree site.tree)
  supervisor :=
    { site := site, directory := directory, command := config.program, arguments := config.args
      workingDirectory := some config.rootPath, grace := config.shutdownTimeout }

/-- The newest process, with its client. -/
def current? (s : Session) : Option Incarnation := s.supervisor.processes.head?.map (·.pipes)

/-- How far the session has come. -/
def state (s : Session) : SessionState :=
  match s.current? with
  | some i => i.state
  | none => .absent

/-- The number of the process while it runs. -/
def running? (s : Session) : Option Nat := s.supervisor.running?

/-- What the server can do, as far as is known. -/
def capabilities (s : Session) : Document.Capabilities :=
  match s.current?.bind (·.connection.client) with
  | some c => c.capabilities
  | none => {}

/-! ## What was observed -/

/-- Takes what was observed of the processes, of the oldest first. -/
def gather (s : Session) : Session :=
  s.supervisor.processes.foldr
    (fun p s =>
      let taken := { p with pipes := { p.pipes with seen := [] } }
      { s with
        supervisor := { s.supervisor with processes := taken :: s.supervisor.processes }
        events := s.events ++ (p.pipes.seen.filterMap (·.event?)).map fun e => (p.number, e)
        outcomes := s.outcomes ++ p.pipes.seen.filterMap (·.outcome?) })
    { s with supervisor := { s.supervisor with processes := [] } }

/-- Logs events. -/
def logAll (s : Session) (log : List LogEvent) : Session :=
  { s with supervisor := s.supervisor.logAll log }

instance : Timed Session where
  now s := s.supervisor.now
  settle s := gather { s with supervisor := s.supervisor.settle }
  next? s := s.supervisor.next?
  moveTo s t := { s with supervisor := Timed.moveTo s.supervisor t }

/-- Does one step of the newest process. -/
def stepCurrent (s : Session) (f : Incarnation → Incarnation × List LogEvent) : Session :=
  match s.supervisor.processes with
  | [] => s
  | p :: rest =>
      let (i, log) := f p.pipes
      gather { s with supervisor :=
        { s.supervisor with processes := { p with pipes := i } :: rest }.logAll log }

/-! ## Starting and stopping -/

/-- The wording of an error. -/
def startMessage (e : StartError) : String := "Process error: " ++ e.message

/-- The error as diagnostic text. -/
def startShown (e : StartError) : String := "Process(" ++ e.shown ++ ")"

/-- Starts the server and the handshake. A session that has begun already stays as it is. -/
def start (s : Session) : Except StartError Unit × Session :=
  if s.state ≠ .absent then
    (.ok (), s.logAll [.debug .session s!"Session already {s.state.name}, start ignored"])
  else
    let workspace : Document.Params.Workspace :=
      ⟨s.config.rootPath, s.config.rootUri, s.config.initializationOptions,
        s.config.semanticHighlighting⟩
    let fresh := { s.supervisor with receivesLines := s.config.receivesErrors }
    let (result, supervisor) := fresh.start (Incarnation.begin s.normal workspace unreadPipe)
    let s := { s with supervisor := supervisor }
    match result with
    | .error e =>
        (.error e,
          s.logAll [.error .session s!"Failed to start {s.config.program}: {e.message}"])
    | .ok () =>
        let s := s.stepCurrent fun i => (i.watch, [])
        let s := s.stepCurrent Incarnation.handshake
        (.ok (), s.stepCurrent Incarnation.recheck)

/-- Stops the server: a running session is shut down, and the process is stopped by stages. -/
def stop (grace kill : Option Nat) (s : Session) : StopOutcome × Session :=
  match s.running? with
  | none => (.notRunning, s)
  | some _ =>
      let s := s.stepCurrent Incarnation.farewell
      let (outcome, supervisor) := s.supervisor.stop grace kill
      let s := (gather { s with supervisor := supervisor }).stepCurrent Incarnation.recheck
      (outcome, s.logAll
        [.debug .session "Performance timing",
          .info .session s!"Server stopped: {outcome.name}"])

/-- Drops the session: a running one is shut down, and the process is ended by and by. -/
def drop (s : Session) : Session :=
  let s := s.stepCurrent Incarnation.farewell
  gather { s with supervisor := s.supervisor.drop false }

/-! ## Using the server -/

/-- Uses the client of the newest process; before the first start there is none. -/
def act (s : Session) (a : Action) : Option Answer × Session :=
  match s.supervisor.processes with
  | [] => (none, s)
  | p :: rest =>
      let (i, answer, log) := p.pipes.act a
      (answer, gather { s with supervisor :=
        { s.supervisor with processes := { p with pipes := i } :: rest }.logAll log })

/-- Tells the server something. -/
def notify (s : Session) (method : String) (params : Json) :
    Option (Except SendError Unit) × Session :=
  match s.act (.notify method params) with
  | (some (.notified result), s) => (some result, s)
  | (_, s) => (none, s)

/-- A request that was made: its ticket, and its identifier if it was sent. -/
structure Asked where
  ticket : Nat
  id : Option Nat
deriving DecidableEq, Repr

/-- Asks the server something. -/
def ask (s : Session) (kind : RequestKind) (type : ReplyType) (params : Json) :
    Option Asked × Session :=
  let ticket := s.nextTicket
  let handler : Handler := { ticket := ticket, type := type }
  match { s with nextTicket := ticket + 1 }.act (.send kind params handler) with
  | (some (.sent id), s) => (some ⟨ticket, id⟩, s)
  | (_, s) => (none, s)

/-- Tells the server one of the usual things. -/
def tell (s : Session) (n : Notice) : Option (Except SendError Unit) × Session :=
  s.notify n.method n.params

/-- Asks the server one of the usual things. -/
def query (s : Session) (q : Query) : Option Asked × Session :=
  s.ask q.kind q.kind.replyType q.params

/-- What became of a request. -/
inductive Settled where
  | replied (r : Reply)
  | abandoned
  | timedOut

/-- Waits some milliseconds at most until it is known what became of a request. -/
def awaitReply (s : Session) (ticket time : Nat) : Settled × Session :=
  let (_, s) := Timed.await (fun s => (s.outcomes.lookup ticket).isSome) (Host.milliseconds time) s
  (match s.outcomes.lookup ticket with
    | some (some r) => .replied r
    | some none => .abandoned
    | none => .timedOut, s)

/-- Waits some milliseconds at most for `n` events, and takes them. -/
def takeEvents (s : Session) (n time : Nat) : List (Nat × SessionEvent) × Session :=
  let (_, s) := Timed.await (fun s => n ≤ s.events.length) (Host.milliseconds time) s
  (s.events.take n, { s with events := s.events.drop n })

/-- Answers a request for an edit that came from the process with a number. -/
def respond (s : Session) (number : Nat) (id : Rpc.RequestId) (outcome : EditOutcome) :
    Bool × Session :=
  match s.supervisor.processes.find? (·.number = number) with
  | none => (false, s)
  | some p =>
      let (connection, counted, seen) := p.pipes.connection.respond p.pipes.normal id outcome
      let (i, log) := p.pipes.note connection seen
      let supervisor := s.supervisor.mapProcess number fun q => { q with pipes := i }
      (counted, gather { s with supervisor := supervisor.logAll log })

/-- The session as diagnostic text; `shownNumber` writes the number of the process. -/
def shown (s : Session) (shownNumber : Nat → String) : String :=
  Text.shownRecord "ServerSession"
    [("command", Text.quotedList s.config.command), ("state", s.state.shown),
      ("pid", Text.shownOption (s.running?.map shownNumber))]

end Session

end LanguageClient.Server
