import LanguageClient.Client.Pipes
import LanguageClient.Server.Supervisor

/-!
# Raw exchange with a process

The pipes of a process as somebody holds them who knows nothing of messages: bytes are queued for
its input, and chunks of its output are kept until they are asked for. Each direction can be let go
alone. A transport is handed out once; one that is not belongs to the supervisor.
-/

namespace LanguageClient.Server

/-- A transport. -/
structure Transport where
  queue : List Bytes := []
  outlet : Outlet := { fault := unreadPipe }
  /-- Can more be queued? -/
  sending : Bool := true
  /-- Chunks that nobody has asked for yet, oldest first. -/
  received : List Bytes := []
  /-- Does somebody ask for chunks? -/
  receiving : Bool := true
  /-- Is the output still read? -/
  reading : Bool := true
  handedOut : Bool := false

namespace Transport

/-- Writes what is queued. The input is closed once nobody can queue any more, or a write fails. -/
def writeQueue (t : Transport) (deaf : Bool) : Transport × Bytes × List LogEvent :=
  let (outlet, written, log) :=
    { t.outlet with refusesWrites := deaf }.write List.length t.queue
  let (outlet, shutLog) := if t.sending then (outlet, []) else outlet.shut
  ({ t with queue := [], outlet := outlet }, written.flatten, log ++ shutLog)

/-- Keeps what arrives. With nobody to ask for it, the first chunk ends the reading. -/
def keep (t : Transport) (arrived : Bytes) : Transport × List LogEvent :=
  if ¬ t.reading ∨ arrived.isEmpty then (t, [])
  else if t.receiving then ({ t with received := t.received ++ chunks arrived }, [])
  else
    ({ t with reading := false },
      [.trace .transport "StdioTransport: stdout receiver dropped, stopping reader"])

/-- Nothing more will arrive. -/
def finish (t : Transport) : Transport × List LogEvent :=
  if t.reading then
    ({ t with reading := false },
      [.trace .transport "StdioTransport: stdout reader reached EOF",
        .trace .transport "StdioTransport: stdout reader task finished"])
  else (t, [])

/-- What is done with the pipes at a moment. -/
def use (t : Transport) (traffic : Traffic) : Transport × PipeUse :=
  let (t, written, writeLog) := t.writeQueue traffic.deaf
  let (t, keepLog) := t.keep traffic.arrived
  let (t, finishLog) := if traffic.ends then t.finish else (t, [])
  (t, { written := written, finished := t.outlet.ended, left := ¬ t.reading
        log := writeLog ++ keepLog ++ finishLog })

/-- Lets the input go. -/
def closeInput (t : Transport) : Transport := { t with sending := false }

/-- Lets the output go. -/
def closeOutput (t : Transport) : Transport := { t with receiving := false, received := [] }

instance : PipeHolder Transport where
  use := use
  ended t _ _ := (t, [])
  release t := if t.handedOut then t else t.closeInput.closeOutput

/-- Takes chunks until there are `n` bytes: the bytes, and the chunks that are left. -/
def takeBytes : Nat → List Bytes → Bytes × List Bytes
  | _, [] => ([], [])
  | n, chunk :: rest =>
      if n = 0 then ([], chunk :: rest)
      else
        let (bytes, left) := takeBytes (n - chunk.length) rest
        (chunk ++ bytes, left)

/-- How many bytes are kept. -/
def waiting (t : Transport) : Nat := t.received.flatten.length

end Transport

/-- Why bytes are not sent. -/
inductive TransportError where
  | disconnected
deriving DecidableEq, Repr

/-- The wording of an error. -/
def TransportError.message : TransportError → String
  | .disconnected => "Transport is disconnected"

/-- Why no transport is handed out. -/
inductive HandOutError where
  | notStarted
deriving DecidableEq, Repr

/-- The wording of an error. -/
def HandOutError.message : HandOutError → String
  | .notStarted => "Process not started"

namespace Supervisor

/-- The transport of the process with a number. -/
def transport? (s : Supervisor Transport) (number : Nat) : Option Transport :=
  (s.processes.find? (·.number = number)).map (·.pipes)

/-- Changes the transport of the process with a number. -/
def mapTransport (s : Supervisor Transport) (number : Nat) (f : Transport → Transport) :
    Supervisor Transport :=
  s.mapProcess number fun p => { p with pipes := f p.pipes }

/-- Hands out the transport of the newest process, named by the number of the process. -/
def handOut (s : Supervisor Transport) : Except HandOutError Nat × Supervisor Transport :=
  match s.processes with
  | [] => (.error .notStarted, s)
  | p :: _ =>
      if p.pipes.handedOut then (.error .notStarted, s)
      else (.ok p.number, s.mapTransport p.number fun t => { t with handedOut := true })

/-- Can bytes still be sent? -/
def isConnected (s : Supervisor Transport) (number : Nat) : Bool :=
  (s.transport? number).any fun t => ¬ t.outlet.ended

/-- Sends bytes. -/
def send (s : Supervisor Transport) (number : Nat) (bytes : Bytes) :
    Except TransportError Unit × Supervisor Transport :=
  if s.isConnected number then
    (.ok (), s.mapTransport number fun t => { t with queue := t.queue ++ [bytes] })
  else (.error .disconnected, s)

/-- Waits some milliseconds at most until `n` bytes have arrived or no more can: the bytes, and
whether no more can. -/
def receive (s : Supervisor Transport) (number n time : Nat) :
    (Bytes × Bool) × Supervisor Transport :=
  let arrived (s : Supervisor Transport) : Bool :=
    (s.transport? number).any fun t => n ≤ t.waiting ∨ ¬ t.reading
  let (_, s) := Host.Timed.await arrived (Host.milliseconds time) s
  match s.transport? number with
  | none => (([], true), s)
  | some t =>
      let (bytes, left) := Transport.takeBytes n t.received
      ((bytes, bytes.length < n ∧ ¬ t.reading),
        s.mapTransport number fun t => { t with received := left })

end Supervisor

/-! ## Holding a transport -/

/-- A supervisor, and the numbers of the processes to which the two halves belong that somebody
holds. -/
structure Attached where
  supervisor : Supervisor Transport
  sender : Option Nat := none
  receiver : Option Nat := none

namespace Attached

/-- Lets the sending half go. -/
def dropSender (a : Attached) : Attached where
  supervisor := match a.sender with
    | some number => a.supervisor.mapTransport number Transport.closeInput
    | none => a.supervisor
  receiver := a.receiver

/-- Lets the receiving half go. -/
def dropReceiver (a : Attached) : Attached where
  supervisor := match a.receiver with
    | some number => a.supervisor.mapTransport number Transport.closeOutput
    | none => a.supervisor
  sender := a.sender

/-- Takes the transport of the newest process; what was held before is let go. -/
def attach (a : Attached) : Except HandOutError Unit × Attached :=
  match a.supervisor.handOut with
  | (.error e, _) => (.error e, a)
  | (.ok number, s) =>
      let a := ({ a with supervisor := s } : Attached).dropSender.dropReceiver
      (.ok (), { a with sender := some number, receiver := some number })

/-- Can bytes still be sent? Without a sending half that is not known. -/
def isConnected? (a : Attached) : Option Bool := a.sender.map a.supervisor.isConnected

/-- Sends bytes. -/
def send? (a : Attached) (bytes : Bytes) : Option (Except TransportError Unit) × Attached :=
  match a.sender with
  | none => (none, a)
  | some number =>
      let (result, s) := a.supervisor.send number bytes
      (some result, { a with supervisor := s })

/-- Receives bytes. -/
def receive? (a : Attached) (n time : Nat) : Option (Bytes × Bool) × Attached :=
  match a.receiver with
  | none => (none, a)
  | some number =>
      let (result, s) := a.supervisor.receive number n time
      (some result, { a with supervisor := s })

end Attached

end LanguageClient.Server
