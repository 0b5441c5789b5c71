import LanguageClient.Files.Tree
import LanguageClient.Host.Basic

/-!
# Started programs

A host starts programs; what a program does from then on is the host's matter. The one who started it
holds what it has met so far, and how much of what it wrote has been read.
-/

namespace LanguageClient.Host

/-- A host, as one knows it who starts programs there. -/
structure Site where
  tree : Files.Tree
  environment : List (String × String) := []
  /-- Starts a program by its name, with arguments, seen from a directory or from another one that is
  named: what the program does, or why it cannot be started. -/
  launch : Files.Location → Option String → String → List String →
    Except Files.FileError Program

/-- A started program. -/
structure Child where
  program : Program
  around : Surroundings
  outputTaken : Nat := 0
  errorsTaken : Nat := 0
  /-- Has the end of its output been read? -/
  outputEnded : Bool := false
  errorsEnded : Bool := false

namespace Child

/-- A program that is started now. -/
def begin (program : Program) (now : Time) : Child :=
  { program := program, around := { born := now } }

/-- What the program has done by a moment, if it meets nothing else until then. -/
def conduct (c : Child) (t : Time) : Conduct := c.program c.around t

/-- Writes to its input. -/
def write (c : Child) (now : Time) (bytes : Bytes) : Child :=
  { c with around := { c.around with input := c.around.input.write (now + pipeTime) bytes } }

/-- Closes its input. -/
def closeInput (c : Child) (now : Time) : Child :=
  { c with around := { c.around with input := c.around.input.close (now + pipeTime) } }

/-- Reads its output no more. -/
def leaveOutput (c : Child) (now : Time) : Child :=
  { c with around := { c.around with outputLeft := some (c.around.outputLeft.getD now) } }

/-- Reads its errors no more. -/
def leaveErrors (c : Child) (now : Time) : Child :=
  { c with around := { c.around with errorsLeft := some (c.around.errorsLeft.getD now) } }

/-- Sends it a signal. -/
def signal (c : Child) (now : Time) (s : Signal) : Child :=
  { c with around := { c.around with signals := c.around.signals ++ [(now, s)] } }

/-- What can be read of it. -/
structure News where
  output : Bytes
  /-- Has its output just ended? -/
  outputEnds : Bool
  errors : Bytes
  errorsEnd : Bool
  /-- Would what is written to it now be lost? -/
  deaf : Bool
  ending : Option Ending

/-- Reads all that can be read at a moment. -/
def read (c : Child) (now : Time) : Child × News :=
  let did := c.conduct now
  let reads := c.around.outputLeft.isNone
  let readsErrors := c.around.errorsLeft.isNone
  let output := if reads then did.output.readable c.outputTaken now else []
  let errors := if readsErrors then did.errors.readable c.errorsTaken now else []
  let outputEnds := reads && ¬ c.outputEnded && did.output.isClosed now
  let errorsEnd := readsErrors && ¬ c.errorsEnded && did.errors.isClosed now
  ({ c with
      outputTaken := c.outputTaken + output.length
      errorsTaken := c.errorsTaken + errors.length
      outputEnded := c.outputEnded || outputEnds
      errorsEnded := c.errorsEnded || errorsEnd },
    { output := output, outputEnds := outputEnds, errors := errors, errorsEnd := errorsEnd
      deaf := did.inputLeft.any (· ≤ now)
      ending := (did.ending.filter (·.1 + reapingTime ≤ now)).map (·.2) })

/-- The next moment, up to a limit, at which there is more to read of it, or at which its end becomes
known. -/
def next? (c : Child) (now limit : Time) : Option Time :=
  let did := c.conduct limit
  let output := if c.around.outputLeft.isSome ∨ c.outputEnded then none
    else did.output.next? c.outputTaken now
  let errors := if c.around.errorsLeft.isSome ∨ c.errorsEnded then none
    else did.errors.next? c.errorsTaken now
  ([output, errors, did.ending.map (·.1 + reapingTime)].filterMap id).filter (now < ·) |>.min?

end Child

end LanguageClient.Host
