import LanguageClient.CommandLine.Help
import LanguageClient.CommandLine.Reading

/-!
# The inspector's command line

What the inspecting program can be told, and what it was told.
-/

namespace LanguageClient.Inspection

open CommandLine

/-- The switches of the program, in the order of its help text. -/
def switches : List Switch :=
  [{ name := "root", value := some (.path, "DIR")
     about := "Workspace root handed to the server (defaults to current directory)" },
    { name := "server", value := some (.text, "PATH")
      about := "Server executable (overrides LSP_SERVER env var)" },
    { name := "file", value := some (.path, "FILE")
      about := "Document to open; its symbols are printed" },
    { name := "language-id", value := some (.text, "LANGUAGE_ID")
      about := "languageId sent with didOpen", standard := some "cpp" },
    { name := "line", value := some (.nat32, "LINE"), needs := ["file", "character"]
      about := "Zero-based line for a hover request on --file" },
    { name := "character", value := some (.nat32, "CHARACTER"), needs := ["file", "line"]
      about := "Zero-based UTF-16 column for a hover request on --file" },
    { name := "semantic-highlighting"
      about := "Advertise the semantic highlighting capability" },
    { name := "timeout-ms", value := some (.nat64, "MS"), standard := some "10000"
      about := "How long to wait for the handshake and for each reply" },
    { name := "stop-timeout-ms", value := some (.nat64, "MS"), standard := some "500"
      about := "Per-stage grace period when stopping the server" },
    { name := "log-level", value := some (.text, "LEVEL")
      about := "Log level (overrides RUST_LOG env var)" },
    { name := "log-file", value := some (.path, "FILE")
      about := "Log file path (overrides LSP_LOG_FILE env var)" }]

/-- The program. -/
def program : Program where
  name := "lsp-stdio-client"
  version := some "0.1.0"
  about := "Language Server Protocol client core: spawns a server, speaks JSON-RPC over its " ++
    "stdio and exposes a typed request surface"
  switches := switches
  passedOn := some ("SERVER_ARGS", "Extra arguments passed to the server, after \x60--\x60")

/-- What the program was told. -/
structure Options where
  root : Option String
  server : Option String
  file : Option String
  languageId : String
  /-- Where the hover request is asked for. -/
  position : Option (Nat × Nat)
  semanticHighlighting : Bool
  /-- How long the handshake and each reply may take, in milliseconds. -/
  timeout : Nat
  /-- How long each stage of the stop may take, in milliseconds. -/
  stopTimeout : Nat
  logLevel : Option String
  logFile : Option String
  serverArguments : List String

/-- The options that a command line holds. -/
def Options.ofGiven (g : Given) : Options where
  root := g.value? "root"
  server := g.value? "server"
  file := g.value? "file"
  languageId := (g.value? "language-id").getD "cpp"
  position := do return (← g.number program "line", ← g.number program "character")
  semanticHighlighting := g.has "semantic-highlighting"
  timeout := (g.number program "timeout-ms").getD 10000
  stopTimeout := (g.number program "stop-timeout-ms").getD 500
  logLevel := g.value? "log-level"
  logFile := g.value? "log-file"
  serverArguments := g.passedOn

end LanguageClient.Inspection
