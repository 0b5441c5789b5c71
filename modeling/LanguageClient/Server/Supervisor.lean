import LanguageClient.Files.Shown
import LanguageClient.Host.Clock
import LanguageClient.Server.Process
import LanguageClient.Server.Stop
import LanguageClient.Text.Escaped

/-!
# Supervising a process

A supervisor starts a process, hands on its errors, learns of its end, and stops it. After the
process has ended it can be started anew. A supervisor that is dropped while its process runs has
the process ended by and by, and still learns of its end.
-/

namespace LanguageClient.Server

open Host (Time Child Ending Signal)

/-- What is known of the process. -/
inductive ProcessState where
  | notStarted
  | running (number : Nat)
  | stopped
deriving DecidableEq, Repr

/-- The name of a state. -/
def ProcessState.name : ProcessState → String
  | .notStarted => "not_started"
  | .running _ => "running"
  | .stopped => "stopped"

/-- Why a process cannot be started. -/
inductive StartError where
  | system (cause : Files.FileError)
  | alreadyStarted
deriving DecidableEq, Repr

/-- The wording of an error. -/
def StartError.message : StartError → String
  | .system cause => "I/O error: " ++ cause.message
  | .alreadyStarted => "Process already started"

/-- The error as diagnostic text. -/
def StartError.shown : StartError → String
  | .system cause => "Io(" ++ cause.shown ++ ")"
  | .alreadyStarted => "AlreadyStarted"

/-- A signal that is sent later, if the process still runs then. -/
structure Duty where
  moment : Time
  number : Nat
  signal : Signal
deriving DecidableEq, Repr

/-- A supervisor, with the world around it. -/
structure Supervisor (τ : Type) where
  site : Host.Site
  directory : Files.Location := []
  now : Time := 0
  command : String
  arguments : List String
  workingDirectory : Option String := none
  /-- Does somebody receive the lines of its next process's errors? -/
  receivesLines : Bool := false
  /-- How long a dropped supervisor's process may take in each stage, in milliseconds; without a
  time it is left alone. -/
  grace : Option Nat := some 200
  /-- The number of its next process. -/
  nextNumber : Nat := 1
  /-- Its processes, newest first. -/
  processes : List (Process τ) := []
  duties : List Duty := []
  /-- What was received, oldest first. -/
  lines : List String := []
  endings : List Ending := []
  passedOn : Bytes := []
  log : List LogEvent := []

namespace Supervisor

variable {τ : Type}

/-- What is known of the process. -/
def state (s : Supervisor τ) : ProcessState :=
  match s.processes with
  | [] => .notStarted
  | p :: _ => if p.ending.isNone then .running p.number else .stopped

/-- The number of the process while it runs. -/
def running? (s : Supervisor τ) : Option Nat :=
  match s.state with
  | .running number => some number
  | _ => none

/-- Logs events. -/
def logAll (s : Supervisor τ) (events : List LogEvent) : Supervisor τ :=
  { s with log := s.log ++ events }

/-- Changes the process with a number. -/
def mapProcess (s : Supervisor τ) (number : Nat) (f : Process τ → Process τ) : Supervisor τ :=
  { s with processes := s.processes.map fun p => if p.number = number then f p else p }

/-- Starts a process whose pipes are held by `pipes`. -/
def start (s : Supervisor τ) (pipes : τ) : Except StartError Unit × Supervisor τ :=
  if s.running?.isSome then (.error .alreadyStarted, s)
  else
    let s := s.logAll [.info .process
      ("Starting process: " ++ s.command ++ " " ++ Text.quotedList s.arguments)]
    match s.site.launch s.directory s.workingDirectory s.command s.arguments with
    | .error cause => (.error (.system cause), s)
    | .ok program =>
        let p : Process τ :=
          { number := s.nextNumber, child := Child.begin program s.now, pipes := pipes
            reader := if s.receivesLines then some {} else none }
        let s := { s with
          processes := p :: s.processes, nextNumber := s.nextNumber + 1, receivesLines := false }
        (.ok (), s.logAll
          [.info .process s!"Process started with PID: {p.number}",
            .trace .process s!"ProcessSupervisor: Starting wait task for PID {p.number}"])

/-- Sends a signal to the process with a number. -/
def signal (s : Supervisor τ) (number : Nat) (signal : Signal) : Supervisor τ :=
  s.mapProcess number fun p => { p with child := p.child.signal s.now signal }

/-! ## Time -/

section

variable [PipeHolder τ]

/-- Settles the processes, oldest first. -/
def settleProcesses (s : Supervisor τ) : Supervisor τ :=
  s.processes.foldr
    (fun p s =>
      let (p, r) := p.settle s.now
      { s with
        processes := p :: s.processes, lines := s.lines ++ r.lines
        passedOn := s.passedOn ++ r.passedOn, endings := s.endings ++ r.ending.toList
        log := s.log ++ r.log })
    { s with processes := [] }

/-- Does what is due: signals go to processes that still run. -/
def doDuty (s : Supervisor τ) (d : Duty) : Supervisor τ :=
  if s.processes.any fun p => p.number = d.number ∧ p.isRunning then
    let warning : List LogEvent :=
      if d.signal = .kill then [.warn .process s!"Process {d.number} ignored SIGTERM, killing"]
      else []
    (s.signal d.number d.signal).logAll
      (warning ++ [.info .process s!"Sent {signalName d.signal} to process {d.number}"])
  else s

/-- Does all that is to be done at the moment. -/
def settle (s : Supervisor τ) : Supervisor τ :=
  let s := s.settleProcesses
  let (due, later) := s.duties.partition fun d => d.moment ≤ s.now
  if due.isEmpty then s
  else (due.foldl doDuty { s with duties := later }).settleProcesses

/-- The next moment, up to a limit, at which something happens. -/
def next? (s : Supervisor τ) (limit : Time) : Option Time :=
  (s.processes.filterMap fun p => p.child.next? s.now limit) ++ s.duties.map (·.moment) |>.min?

instance : Host.Timed (Supervisor τ) where
  now := now
  settle := settle
  next? := next?
  moveTo s t := { s with now := t }

/-- Waits until the process has ended, some milliseconds at most; without a process nothing is
waited for. -/
def waitEnded (time : Nat) (s : Supervisor τ) : Bool × Supervisor τ :=
  match s.processes with
  | [] => (true, s)
  | p :: _ =>
      Host.Timed.await (fun s => s.processes.any fun q => q.number = p.number ∧ ¬ q.isRunning)
        (Host.milliseconds time) s

/-- The supervisor's hold on its process. -/
def control : Control (Supervisor τ) where
  running? := running?
  wait := waitEnded
  signal number signal s :=
    if s.running? = some number then (true, s.signal number signal) else (false, s)
  log e s := s.logAll [e]

/-- Stops the process by stages. -/
def stop (grace kill : Option Nat) (s : Supervisor τ) : StopOutcome × Supervisor τ :=
  control.stop grace kill s

/-- Kills the process at once; its errors are read no more. -/
def killNow (s : Supervisor τ) : Supervisor τ :=
  match s.running? with
  | none => s
  | some number =>
      let s := s.logAll
        [.info .process s!"Synchronously force killing process with PID: {number}"]
      let s := control.signalRunning number .kill s
      s.mapProcess number fun p => { p with
        reader := p.reader.map fun r => { r with finished := true }
        child := p.child.leaveErrors s.now }

/-- Lets the pipes go that nobody else holds. -/
def release (s : Supervisor τ) : Supervisor τ :=
  { s with processes := match s.processes with
    | p :: rest => { p with pipes := PipeHolder.release p.pipes } :: rest
    | [] => [] }

/-- Drops the supervisor. A process that still runs is ended by and by, or at once if nobody could
see to that later. -/
def drop (s : Supervisor τ) (atOnce : Bool) : Supervisor τ :=
  let s := s.release
  match s.running?, s.grace with
  | none, _ => s
  | some number, none =>
      s.logAll [.debug .process s!"Leaving process {number} running on drop"]
  | some number, some grace =>
      if atOnce then s.killNow
      else
        let s := s.logAll
          [.debug .process s!"Detaching shutdown escalation for PID {number}"]
        let time := Host.milliseconds grace
        { s with duties := s.duties ++
          [⟨s.now + time, number, .terminate⟩, ⟨s.now + 2 * time, number, .kill⟩] }

end

end Supervisor

end LanguageClient.Server
