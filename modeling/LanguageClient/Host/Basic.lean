import LanguageClient.Text.Utf8

/-!
# Programs in time

A model of what a started program does, as far as the one who started it can see: what it writes
and when, whether it still reads, and how it ends. A program is a function of what it meets, so
what it has done by some moment can be computed at any later one. Time is counted in microseconds.
-/

namespace LanguageClient.Host

/-- A moment, or a length of time, in microseconds. -/
abbrev Time := Nat

/-- A whole number of milliseconds. -/
def milliseconds (n : Nat) : Time := 1000 * n

/-- A signal sent to a program. -/
inductive Signal where
  /-- Asks the program to end; it may ignore that. -/
  | terminate
  /-- Ends the program. -/
  | kill
deriving DecidableEq, Repr

/-- The number of a signal. -/
def Signal.number : Signal → Nat
  | .terminate => 15
  | .kill => 9

/-- The number of the signal that ends a program which writes where nobody reads. -/
def brokenPipeSignal : Nat := 13

/-- How a program has ended. -/
inductive Ending where
  | exited (code : Nat)
  | signalled (signal : Nat)
deriving DecidableEq, Repr

/-- Did the program end well? -/
def Ending.success (e : Ending) : Bool := e = .exited 0

/-- A stream of bytes, each with the moment at which it can be read. -/
structure Stream where
  bytes : Array (Time × UInt8) := #[]
  /-- When its end can be read. -/
  closed : Option Time := none

namespace Stream

/-- Adds bytes that can be read from some moment on. -/
def write (s : Stream) (t : Time) (bytes : Bytes) : Stream :=
  { s with bytes := bytes.foldl (fun all b => all.push (t, b)) s.bytes }

/-- Closes a stream; the first closing counts. -/
def close (s : Stream) (t : Time) : Stream := { s with closed := some (s.closed.getD t) }

/-- A stream whose bytes are in the order in which they can be read. -/
def sorted (s : Stream) : Stream :=
  { s with bytes := s.bytes.toList.mergeSort (fun a b => a.1 ≤ b.1) |>.toArray }

/-- The bytes behind the first `n`, as far as they can be read at a moment. -/
def readable (s : Stream) (n : Nat) (now : Time) : Bytes :=
  ((s.bytes.extract n s.bytes.size).toList.takeWhile (·.1 ≤ now)).map (·.2)

/-- Can the end be read? -/
def isClosed (s : Stream) (now : Time) : Bool := s.closed.any (· ≤ now)

/-- The earliest moment after `now` at which there is more to read behind the first `n` bytes. -/
def next? (s : Stream) (n : Nat) (now : Time) : Option Time :=
  match s.bytes[n]? with
  | some (t, _) => some (max t (now + 1))
  | none => s.closed.map (max · (now + 1))

end Stream

/-- What a program meets. -/
structure Surroundings where
  /-- When it was started. -/
  born : Time
  /-- Its standard input. -/
  input : Stream := {}
  /-- When the last reader of its standard output, or of its standard error, went away. -/
  outputLeft : Option Time := none
  errorsLeft : Option Time := none
  /-- The signals sent to it, in order. -/
  signals : List (Time × Signal) := []

/-- What a program has done. -/
structure Conduct where
  output : Stream := {}
  errors : Stream := {}
  /-- When it stopped to read its input for good. -/
  inputLeft : Option Time := none
  ending : Option (Time × Ending) := none

/-- A program: what it has done by a moment, given what it met until then. -/
abbrev Program := Surroundings → Time → Conduct

/-- How long it takes until a started program does anything. -/
def startingTime : Time := milliseconds 1

/-- How long it takes until what is written to a program can be read by it. -/
def pipeTime : Time := 100

/-- How long it takes until the end of a program is known to the one who started it. -/
def reapingTime : Time := 100

/-- A program that writes something, leaves everything else alone, and ends. -/
def brief (code : Nat) (output errors : Bytes) : Program := fun around now =>
  let start := around.born + startingTime
  let early := around.signals.find? (·.1 ≤ start)
  match early with
  | some (t, signal) =>
      if t ≤ now then
        { output := { closed := some t }, errors := { closed := some t }, inputLeft := some t,
          ending := some (t, .signalled signal.number) }
      else {}
  | none =>
      if start ≤ now then
        { output := (({} : Stream).write start output).close start,
          errors := (({} : Stream).write start errors).close start,
          inputLeft := some start, ending := some (start, .exited code) }
      else {}

end LanguageClient.Host
