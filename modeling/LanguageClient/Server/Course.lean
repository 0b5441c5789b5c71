import LanguageClient.Server.Incarnation

/-!
# The course of a session

Starting and stopping a server takes several steps, and while they are taken a process may end, be
noticed to have ended, write, or be used. Every such step is a move here, and a course is what has
become of a session after some moves, in whatever order they were made. A move whose time has not come
changes nothing.

| who | moves |
| :-- | :-- |
| a start | `start`, then `spawn` or `fail`, `watch`, `handshake`, `recheck` |
| a stop | `stop`, `farewell`, then `recheck` or `leave` |
| the one who waits for the end of a process | `publish`, `signal`, `report` |
| the pipes of a process | `use` |
| whoever holds a client | `act` |

A session does one start or stop at a time; everything else goes on beside it, also for processes that
have been replaced.
-/

namespace LanguageClient.Server

open Document (Normalizer)

/-- How far the one who waits for the end of a process has come. -/
inductive Vigil where
  /-- The process is not known to have ended. -/
  | waiting
  /-- Its end is known. -/
  | published
  /-- Those who wait for the end have been woken. -/
  | signalled
  /-- The end has been reported to the client, as far as it was known. -/
  | finished
deriving DecidableEq, Repr

/-- One process of a session, and the one who waits for its end. -/
structure Episode where
  number : Nat
  incarnation : Incarnation
  vigil : Vigil := .waiting

/-- A step of the one who waits for the end of the process, if its time has come. -/
def Episode.attend (p : Episode) (now : Vigil) (f : Incarnation → Incarnation) (next : Vigil) :
    Episode :=
  if p.vigil = now then { p with incarnation := f p.incarnation, vigil := next } else p

/-- What is left of a process when the session has taken what was observed of it. -/
def Episode.taken (p : Episode) : Episode :=
  { p with incarnation := { p.incarnation with seen := [] } }

/-- Which step of a start or a stop comes next. -/
inductive Phase where
  | idle
  /-- A start has found the session absent. -/
  | starting
  /-- The process has been spawned. -/
  | spawned
  /-- The one who waits for its end knows the client. -/
  | watched
  /-- The handshake has been asked for. -/
  | greeted
  /-- A stop has found the process running. -/
  | stopping
  /-- The server has been told to shut down; the stop waits for the end, or for its time to be up. -/
  | parted
deriving DecidableEq, Repr

/-- A step of a session, or of what goes on beside it. -/
inductive Move where
  | start
  | spawn (normal : Normalizer) (workspace : Document.Params.Workspace) (fault : String)
  /-- The process cannot be spawned. -/
  | fail
  | watch
  | handshake
  /-- The last step of a start and of a stop. -/
  | recheck
  | stop
  | farewell
  /-- Nobody waits for the stop any more. -/
  | leave
  | publish (number : Nat)
  | signal (number : Nat)
  | report (number : Nat)
  | use (number : Nat) (traffic : Traffic)
  | act (number : Nat) (a : Action)

/-- A session with all its processes, newest first. -/
structure Course where
  episodes : List Episode := []
  phase : Phase := .idle
  /-- What the subscriber was told, in order, each with the number of the process. -/
  events : List (Nat × SessionEvent) := []

namespace Course

/-- How far the session has come. -/
def state (x : Course) : SessionState :=
  match x.episodes with
  | p :: _ => p.incarnation.state
  | [] => .absent

/-- Is the newest process not known to have ended? -/
def running (x : Course) : Bool :=
  match x.episodes with
  | p :: _ => p.incarnation.running
  | [] => false

/-- Changes the process with a number, and takes what is observed of it. -/
def change (x : Course) (number : Nat) (f : Episode → Episode) : Course :=
  match x.episodes.find? (·.number = number) with
  | none => x
  | some p =>
      { x with
        episodes := x.episodes.map fun e => if e.number = number then (f p).taken else e
        events := x.events ++ ((f p).incarnation.seen.filterMap (·.event?)).map (number, ·) }

/-- A step of a start or a stop, if its time has come: something is done with the newest process. -/
def advance (x : Course) (now : List Phase) (f : Incarnation → Incarnation) (next : Phase) : Course :=
  match x.episodes with
  | p :: _ =>
      if x.phase ∈ now then
        { x.change p.number fun e => { e with incarnation := f e.incarnation } with phase := next }
      else x
  | [] => x

/-- A step of the one who waits for the end of the process with a number. -/
def attend (x : Course) (number : Nat) (now : Vigil) (f : Incarnation → Incarnation) (next : Vigil) :
    Course :=
  x.change number (·.attend now f next)

/-- One move. -/
def step (x : Course) : Move → Course
  | .start => if x.phase = .idle ∧ x.state = .absent then { x with phase := .starting } else x
  | .spawn normal workspace fault =>
      if x.phase = .starting then
        let e : Episode :=
          { number := x.episodes.length + 1
            incarnation := Incarnation.begin normal workspace fault }
        { x with episodes := e :: x.episodes, phase := .spawned }
      else x
  | .fail => if x.phase = .starting then { x with phase := .idle } else x
  | .watch => x.advance [.spawned] (·.watch) .watched
  | .handshake => x.advance [.watched] (·.handshake.1) .greeted
  | .recheck => x.advance [.greeted, .parted] (·.recheck.1) .idle
  | .stop => if x.phase = .idle ∧ x.running then { x with phase := .stopping } else x
  | .farewell => x.advance [.stopping] (·.farewell.1) .parted
  | .leave => x.advance [.parted] id .idle
  | .publish number => x.attend number .waiting (·.reap) .published
  | .signal number => x.attend number .published id .signalled
  | .report number => x.attend number .signalled (·.report.1) .finished
  | .use number traffic =>
      x.change number fun e => { e with incarnation := (e.incarnation.use traffic).1 }
  | .act number a =>
      x.change number fun e => { e with incarnation := (e.incarnation.perform a).1 }

/-- The course after some moves. -/
def run (x : Course) (moves : List Move) : Course := moves.foldl step x

end Course

end LanguageClient.Server
