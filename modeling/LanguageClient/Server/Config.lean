import LanguageClient.Files.Shown
import LanguageClient.Json.Described
import LanguageClient.Text.Duration
import LanguageClient.Text.Shown
import LanguageClient.Uri.Normal

/-!
# Configuration of a server session

Which server to start, for which workspace, and what it is told at first. A draft collects the
wishes; building checks them. The command is checked before the workspace root, which must be an
existing directory and is replaced by its real place.
-/

namespace LanguageClient.Server

/-- The server that is started when nobody names one. -/
def defaultProgram : String := "clangd"

/-- The server program: what the command line names, else what the environment names. An empty
name counts as none, but on the command line it still hides the environment's. -/
def chooseProgram (commandLine environment : Option String) : String :=
  match commandLine.orElse fun _ => environment with
  | some program => if program = "" then defaultProgram else program
  | none => defaultProgram

/-- Why a workspace root cannot be used. -/
inductive RootFault where
  | unreachable (cause : Files.FileError)
  | notDirectory
deriving DecidableEq, Repr

namespace RootFault

/-- The wording of a fault. -/
def message : RootFault → String
  | .unreachable cause => cause.message
  | .notDirectory => "Workspace root is not a directory"

/-- The fault as diagnostic text. -/
def shown : RootFault → String
  | .unreachable cause => cause.shown
  | .notDirectory =>
      Text.shownRecord "Custom"
        [("kind", "InvalidInput"), ("error", Text.quoted (message .notDirectory))]

end RootFault

/-- Why a configuration is refused. -/
inductive ConfigError where
  | missing (field : String)
  | invalidCommand (command : List String) (reason : String)
  /-- The workspace root cannot be used. -/
  | root (path : String) (cause : RootFault)
  /-- The place of the root is not the path of any URI. -/
  | rootUri (path : String)
deriving DecidableEq, Repr

/-- The wording of an error. -/
def ConfigError.message : ConfigError → String
  | .missing field => "Missing required field: " ++ field
  | .invalidCommand command reason =>
      "Invalid command " ++ Text.quotedList command ++ " - " ++ reason
  | .root path _ => "Workspace root validation failed: " ++ path
  | .rootUri path => "Workspace root cannot be expressed as a file URI: " ++ path

/-- The error as diagnostic text. -/
def ConfigError.shown : ConfigError → String
  | .missing field => Text.shownRecord "MissingField" [("field", Text.quoted field)]
  | .invalidCommand command reason =>
      Text.shownRecord "InvalidCommand"
        [("command", Text.quotedList command), ("reason", Text.quoted reason)]
  | .root path cause =>
      Text.shownRecord "RootValidation"
        [("root", Text.shownPath path), ("source", cause.shown)]
  | .rootUri path => Text.shownRecord "RootUri" [("root", Text.shownPath path)]

/-- A configuration that passed all checks. -/
structure Config where
  program : String
  args : List String
  /-- The real place of the workspace root, where the server runs. -/
  root : Files.Location
  rootUri : String
  /-- Handed to the server as it is. -/
  initializationOptions : Json
  semanticHighlighting : Bool
  /-- How long a dropped session waits for its server in each stage, in milliseconds. -/
  shutdownTimeout : Option Nat
  /-- Does somebody receive the lines of the server's standard error? -/
  receivesErrors : Bool

namespace Config

/-- The wishes for a configuration. -/
structure Draft where
  command : List String := []
  root : Option String := none
  initializationOptions : Json := .null
  semanticHighlighting : Bool := false
  shutdownTimeout : Option Nat := some 200
  receivesErrors : Bool := false

namespace Draft

/-- Sets the program and keeps the arguments. -/
def setProgram (d : Draft) (program : String) : Draft :=
  { d with command := program :: d.command.drop 1 }

/-- Adds arguments. The first part of a command is its program, so without one the first argument
takes its place. -/
def addArgs (d : Draft) (args : List String) : Draft :=
  { d with command := d.command ++ args }

end Draft

/-- The command as program and arguments, if both can be handed to the system. -/
def checkCommand (command : List String) : Except ConfigError (String × List String) :=
  match command with
  | [] => .error (.missing "command")
  | program :: args =>
      if program = "" then .error (.invalidCommand command "Program cannot be empty")
      else if command.any fun part => part.toList.any (·.toNat = 0) then
        .error (.invalidCommand command "Command contains null character")
      else .ok (program, args)

/-- The real place of a workspace root. -/
def checkRoot (tree : Files.Tree) (directory : Files.Location) (path : String) :
    Except ConfigError Files.Location :=
  match tree.resolve directory path with
  | .error e => .error (.root path (.unreachable e))
  | .ok place =>
      if tree.entry? place = some .directory then .ok place
      else .error (.root path .notDirectory)

/-- The configuration that a draft describes, as seen from a directory. -/
def build (tree : Files.Tree) (directory : Files.Location) (d : Draft) :
    Except ConfigError Config := do
  let (program, args) ← checkCommand d.command
  let path ← match d.root with
    | some path => .ok path
    | none => .error (.missing "root")
  let root ← checkRoot tree directory path
  let rootUri ← match Uri.reference? (Uri.Url.ofLocation root).chars with
    | some uri => .ok uri
    | none => .error (.rootUri (Files.Tree.text root))
  pure
    { program := program
      args := args
      root := root
      rootUri := rootUri
      initializationOptions := d.initializationOptions
      semanticHighlighting := d.semanticHighlighting
      shutdownTimeout := d.shutdownTimeout
      receivesErrors := d.receivesErrors }

/-- The path of the workspace root. -/
def rootPath (c : Config) : String := Files.Tree.text c.root

/-- Program and arguments. -/
def command (c : Config) : List String := c.program :: c.args

/-- The configuration as a JSON object. -/
def toJson (c : Config) : Json :=
  .mkObj [("program", .str c.program), ("args", .arr (c.args.map .str)),
    ("root", .str c.rootPath), ("root_uri", .str c.rootUri),
    ("initialization_options", c.initializationOptions),
    ("semantic_highlighting", .bool c.semanticHighlighting),
    ("shutdown_timeout", Json.ofOption .ofNat c.shutdownTimeout),
    ("stderr_handler", .bool c.receivesErrors)]

/-- The file URI of a root, part by part. -/
def shownRootUri (c : Config) : String :=
  let host := Text.shownRecord "Host" [("text", "\"\""), ("data", "RegName(\"\")")]
  let authority := Text.shownRecord "Authority"
    [("userinfo", "None"), ("host", host), ("port", "None")]
  let path := Text.quoted (c.rootUri.drop "file://".length).toString
  "Uri(" ++ Text.shownRecord "Uri"
    [("scheme", "Some(\"file\")"), ("authority", "Some(" ++ authority ++ ")"),
    ("path", path), ("query", "None"), ("fragment", "None")] ++ ")"

/-- The configuration as diagnostic text. -/
def shown (c : Config) : String :=
  Text.shownRecord "ServerConfig"
    [("command", Text.quotedList c.command), ("root", Text.shownPath c.rootPath),
      ("root_uri", c.shownRootUri),
      ("initialization_options", c.initializationOptions.describe),
      ("semantic_highlighting", toString c.semanticHighlighting),
      ("shutdown_timeout", Text.shownOption (c.shutdownTimeout.map Text.duration)),
      ("stderr_handler",
        Text.shownOption (if c.receivesErrors then some "\"Fn(String)\"" else none))]

end Config

end LanguageClient.Server
