import LanguageClient.Files.Path
import LanguageClient.Files.Tree

/-!
# Where log lines go

What is logged, into which file and in which form, as the environment and the command line say.
The command line wins over the environment, and the environment over the defaults.
-/

namespace LanguageClient

/-- The environment's say about logging. -/
structure LogEnvironment where
  level : Option String := none
  file : Option String := none
  unique : Option String := none
  json : Option String := none

/-- What the variables of an environment say about logging. -/
def LogEnvironment.ofVariables (value? : String → Option String) : LogEnvironment where
  level := value? "RUST_LOG"
  file := value? "LSP_LOG_FILE"
  unique := value? "LSP_LOG_UNIQUE"
  json := value? "LSP_LOG_JSON"

/-- How to log. -/
structure LogSetup where
  /-- Which events are kept, as a list of directives. -/
  level : String := "info"
  /-- Where the lines go, if not to standard error. -/
  file : Option String := none
  /-- One JSON object a line, instead of text. -/
  json : Bool := false
deriving DecidableEq, Repr

namespace LogSetup

/-- A flag is on only if it reads `true`. -/
def isOn (flag : Option String) : Bool := flag = some "true"

/-- The setup that the environment asks for. A unique file has `tag` in its name. -/
def ofEnvironment (tag : String) (e : LogEnvironment) : LogSetup where
  level := e.level.getD "info"
  file := e.file.map fun path => if isOn e.unique then Files.Path.tagged tag path else path
  json := isOn e.json

/-- The setup with what the command line states. -/
def override (s : LogSetup) (level file : Option String) : LogSetup :=
  { s with level := level.getD s.level, file := file.orElse fun _ => s.file }

end LogSetup

/-- Why logging cannot begin. -/
inductive LogSetupError where
  | file (cause : Files.FileError)
  /-- Somebody else receives the events already. -/
  | alreadyReceived
deriving DecidableEq, Repr

/-- The wording of an error. -/
def LogSetupError.message : LogSetupError → String
  | .file cause => cause.message
  | .alreadyReceived => "a global default trace dispatcher has already been set"

namespace LogSetup

/-- Opens the log file, which is made if it is missing. -/
def openFile (s : LogSetup) (tree : Files.Tree) (directory : Files.Location) :
    Except LogSetupError Files.Tree :=
  match s.file with
  | none => .ok tree
  | some path => (tree.append directory path []).mapError .file

/-- Begins to log. The file is opened first, so it is there even if the events are received by
somebody else (`received`) already; the tree afterwards comes back in either case. -/
def start (s : LogSetup) (tree : Files.Tree) (directory : Files.Location) (received : Bool) :
    Files.Tree × Except LogSetupError Unit :=
  match s.openFile tree directory with
  | .error e => (tree, .error e)
  | .ok tree => (tree, if received then .error .alreadyReceived else .ok ())

end LogSetup

end LanguageClient
