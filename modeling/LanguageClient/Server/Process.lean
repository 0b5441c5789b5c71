import LanguageClient.Host.Child
import LanguageClient.Log
import LanguageClient.Text.Blank

/-!
# A watched process

A started process, with whoever holds its input and output pipes, the reader of its errors, and what
is known of its end.
-/

namespace LanguageClient.Server

open Host (Time Child Ending)

/-- How a process has ended, as log events show it. -/
def endingText : Ending → String
  | .exited code => s!"exit status: {code}"
  | .signalled 9 => "signal: 9 (SIGKILL)"
  | .signalled 13 => "signal: 13 (SIGPIPE)"
  | .signalled 15 => "signal: 15 (SIGTERM)"
  | .signalled n => s!"signal: {n}"

/-! ## Lines of errors -/

/-- The reader of a process's standard error. It hands on lines, without white space at their ends
and without empty ones, and stops at the first line that is no text. -/
structure LineReader where
  /-- Bytes of a line that has not ended. -/
  waiting : Bytes := []
  finished : Bool := false

namespace LineReader

/-- The line that some bytes are; is it worth handing on? -/
def lineOf? (bytes : Bytes) : Option (Option String) :=
  (Utf8.decode? bytes).map fun s =>
    let line := String.ofList (Text.trimEnd s.toList)
    if line = "" then none else some line

/-- Hands on complete lines: the lines, and whether all of them were texts. -/
def handOn : List Bytes → List String × Bool
  | [] => ([], true)
  | bytes :: rest =>
      match lineOf? bytes with
      | none => ([], false)
      | some line =>
          let (later, good) := handOn rest
          (line.toList ++ later, good)

/-- Takes bytes, and perhaps the end behind them. -/
def take (r : LineReader) (bytes : Bytes) (ends : Bool) :
    LineReader × List String × List LogEvent :=
  if r.finished then (r, [], [])
  else
    let pieces := (r.waiting ++ bytes).splitOn 10
    let whole := if ends then pieces else pieces.dropLast
    let (lines, good) := handOn whole
    if ¬ good then
      ({ finished := true }, lines,
        [.error .process "Failed to read from stderr: stream did not contain valid UTF-8"])
    else if ends then
      ({ finished := true }, lines, [.trace .process "ProcessSupervisor: stderr EOF reached"])
    else ({ waiting := (pieces.getLast?).getD [] }, lines, [])

end LineReader

/-! ## Pipes -/

/-- The system's word for a pipe that nobody reads. -/
def unreadPipe : String := "Broken pipe (os error 32)"

/-- What comes through the pipes at a moment. -/
structure Traffic where
  arrived : Bytes
  /-- Nothing more will come. -/
  ends : Bool
  /-- What is written is lost. -/
  deaf : Bool

/-- What the holder of the pipes does at a moment. -/
structure PipeUse where
  written : Bytes := []
  /-- Nothing more will be written. -/
  finished : Bool := false
  /-- Nothing more will be read. -/
  left : Bool := false
  log : List LogEvent := []

/-- Whoever holds the pipes of a process. -/
class PipeHolder (τ : Type) where
  use : τ → Traffic → τ × PipeUse
  /-- The process with a number has ended. -/
  ended : τ → Nat → Ending → τ × List LogEvent
  /-- The one who started the process lets go of the pipes, as far as nobody else holds them. -/
  release : τ → τ

/-! ## Processes -/

/-- A watched process. -/
structure Process (τ : Type) where
  number : Nat
  child : Child
  pipes : τ
  /-- The reader of its errors; without one they are passed on as they are. -/
  reader : Option LineReader
  /-- How it ended, once that is known. -/
  ending : Option Ending := none

/-- What is observed of a process at a moment. -/
structure Report where
  lines : List String := []
  passedOn : Bytes := []
  ending : Option Ending := none
  log : List LogEvent := []

namespace Process

variable {τ : Type} [PipeHolder τ]

/-- Does it run, as far as is known? -/
def isRunning (p : Process τ) : Bool := p.ending.isNone

/-- What is done with the pipes at a moment. -/
def usePipes (p : Process τ) (now : Time) (news : Child.News) : Process τ × List LogEvent :=
  let (pipes, use) := PipeHolder.use p.pipes ⟨news.output, news.outputEnds, news.deaf⟩
  let child := if use.written.isEmpty then p.child else p.child.write now use.written
  let child := if use.finished then child.closeInput now else child
  let child := if use.left then child.leaveOutput now else child
  ({ p with pipes := pipes, child := child }, use.log)

/-- What is done with its errors at a moment. -/
def useErrors (p : Process τ) (now : Time) (news : Child.News) : Process τ × Report :=
  match p.reader with
  | none => (p, { passedOn := news.errors })
  | some r =>
      let (r, lines, log) := r.take news.errors news.errorsEnd
      let leaves := r.finished ∧ ¬ news.errorsEnd ∧ ¬ p.child.errorsEnded
      let child := if leaves then p.child.leaveErrors now else p.child
      ({ p with reader := some r, child := child }, { lines := lines, log := log })

/-- Notes that it has ended. -/
def reap (p : Process τ) (news : Child.News) : Process τ × Report :=
  match p.ending, news.ending with
  | none, some e =>
      let (pipes, log) := PipeHolder.ended p.pipes p.number e
      ({ p with ending := some e, pipes := pipes },
        { ending := some e
          log := .info .process s!"Process PID {p.number} exited with status: {endingText e}" ::
            log ++ [.trace .process s!"ProcessSupervisor: Wait task finished for PID {p.number}"] })
  | _, _ => (p, {})

/-- Does all that is to be done at a moment. What the process has written comes before its end. -/
def settle (p : Process τ) (now : Time) : Process τ × Report :=
  let (child, news) := p.child.read now
  let (p, pipesLog) := { p with child := child }.usePipes now news
  let (p, errors) := p.useErrors now news
  let (p, ending) := p.reap news
  (p, { errors with
    ending := ending.ending, log := pipesLog ++ errors.log ++ ending.log })

end Process

end LanguageClient.Server
