import LanguageClient.Inspection.Run
import LanguageClient.Scripted.Server
import LanguageClient.Scripted.Site

/-!
# The programs

The inspecting program, on a host whose files are the working directory and the document that is
named; and, behind its name, the scripted server on standard input and output.
-/

namespace LanguageClient

/-- The name by which the scripted server is called. -/
def scriptedName : String := "mock-language-server"

/-- The variables that the inspecting program looks at. -/
def variableNames : List String :=
  ["LSP_SERVER", "RUST_LOG", "LSP_LOG_FILE", "LSP_LOG_UNIQUE", "LSP_LOG_JSON", "NO_COLOR"]

/-- The environment, as far as the inspecting program looks at it. -/
def readEnvironment : IO (List (String × String)) := do
  let values ← variableNames.mapM fun name => return (name, ← IO.getEnv name)
  return values.filterMap fun (name, value) => value.map fun value => (name, value)

/-- The document that a command line names. -/
def documentOf (arguments : List String) : Option String :=
  match CommandLine.read Inspection.program arguments with
  | .ok (.run given) => (Inspection.Options.ofGiven given).file
  | _ => none

/-- The files of the host. -/
def readTree (directory : Files.Location) (arguments : List String) : IO Files.Tree := do
  let tree := Scripted.emptyTree.makeDirectories directory
  match documentOf arguments with
  | none => return tree
  | some path =>
      try
        let content ← IO.FS.readBinFile path
        let place := tree.newPlace directory path
        return (tree.makeDirectories place.dropLast).put place (.file content.toList)
      catch _ => return tree

/-- Writes the events of a run to its log file, or to standard error. -/
def writeEvents (outcome : Inspection.Outcome) (time : String) : IO Unit := do
  let lines := outcome.events.map (outcome.style.write time)
  match outcome.logFile with
  | none => lines.forM IO.eprintln
  | some path =>
      try IO.FS.withFile path .append fun file => lines.forM file.putStrLn
      catch _ => pure ()

/-- Runs the inspecting program. -/
def inspect (arguments : List String) : IO UInt32 := do
  let time := toString (← IO.monoMsNow)
  let directory := (Files.Tree.names (← IO.currentDir).toString).filter (· ≠ "")
  let site := Scripted.site (← readTree directory arguments) (← readEnvironment)
  let outcome := Inspection.run site directory time arguments
  writeEvents outcome time
  IO.eprint outcome.errors
  IO.print outcome.output
  return outcome.code.toUInt32

/-- Serves until the input ends or the server exits. -/
partial def serve (input output : IO.FS.Stream) (s : Scripted.Server) : IO UInt32 := do
  let bytes ← input.read chunkSize.toUSize
  if bytes.isEmpty then return 0
  let (next, written) := s.receive bytes.toList
  output.write (ByteArray.mk written.toArray)
  output.flush
  match next with
  | some s => serve input output s
  | none => return 0

/-- Runs the scripted server. -/
def runScripted (arguments : List String) : IO UInt32 := do
  match Scripted.start arguments with
  | .ends code output errors =>
      IO.print output
      IO.eprint errors
      return code.toUInt32
  | .serves s => serve (← IO.getStdin) (← IO.getStdout) s

end LanguageClient

/-- Runs the program that the arguments call. -/
def main (arguments : List String) : IO UInt32 :=
  match arguments with
  | first :: rest =>
      if first = LanguageClient.scriptedName then LanguageClient.runScripted rest
      else LanguageClient.inspect arguments
  | [] => LanguageClient.inspect arguments
