import LanguageClient.Host.Basic
import LanguageClient.Scripted.Server

/-!
# The scripted server in time

What the scripted server does when it is started as a program. It answers as soon as it can read
what it is sent.
-/

namespace LanguageClient.Scripted

open Host

/-- A program between two moments. -/
structure Progress where
  server : Server
  output : Stream := {}
  errors : Stream := {}
  ending : Option (Time × Ending) := none

/-- What the program says when it cannot write. -/
def brokenPipe : String :=
  "Error: Os \x7b code: 32, kind: BrokenPipe, message: \"Broken pipe\" \x7d\n"

namespace Progress

/-- The program takes what it can read at a moment; its output may have no reader any more. -/
def take (p : Progress) (left : Option Time) (t : Time) (bytes : Bytes) : Progress :=
  if p.ending.isSome then p
  else
    let (server, sent) := p.server.receive bytes
    if ¬ sent.isEmpty ∧ left.any (· < t) then
      { p with errors := p.errors.write t (Utf8.encode brokenPipe), ending := some (t, .exited 1) }
    else
      { p with
        server := server.getD p.server
        output := p.output.write t sent
        ending := if server.isNone then some (t, .exited 0) else none }

end Progress

/-- Bytes that can be read at the same moment, in one piece; none can be read before `start`. -/
def bursts (start : Time) (s : Stream) : List (Time × Bytes) :=
  s.bytes.toList.foldr (fun (t, b) all =>
    let t := max t start
    match all with
    | (u, bytes) :: rest => if t = u then (t, b :: bytes) :: rest else (t, [b]) :: all
    | [] => [(t, [b])]) []

/-- The first signal that ends the server. Before it has started, every signal does. -/
def fatal? (manners : Manners) (start : Time) (signals : List (Time × Signal)) :
    Option (Time × Signal) :=
  signals.find? fun (t, s) => s = .kill ∨ ¬ manners.ignoresTermination ∨ t ≤ start

/-- The server as a program. -/
def serve (s : Server) : Program := fun around now =>
  let start := around.born + startingTime
  let fatal := fatal? s.manners start around.signals
  let alive (t : Time) : Bool := t ≤ now ∧ fatal.all fun (d, _) => t < d
  let all := bursts start around.input
  let p : Progress := (all.filter fun (t, _) => alive t).foldl
    (fun p (t, bytes) => Progress.take p around.outputLeft t bytes) { server := s }
  let closing := around.input.closed.map fun t => max t start
  let p : Progress := match closing with
    | some t =>
        if p.ending.isNone ∧ alive t ∧ ¬ s.manners.ignoresExit then
          { p with ending := some (t, .exited 0) }
        else p
    | none => p
  let ending := p.ending.orElse fun _ =>
    (fatal.filter fun (t, _) => t ≤ now).map fun (t, s) => (t, .signalled s.number)
  let gone := ending.map (·.1)
  { output := { p.output with closed := gone }, errors := { p.errors with closed := gone },
    inputLeft := gone, ending := ending }

/-- The program that arguments make the server. -/
def run (arguments : List String) : Program :=
  match start arguments with
  | .ends code output errors => brief code (Utf8.encode output) (Utf8.encode errors)
  | .serves s => serve s

end LanguageClient.Scripted
