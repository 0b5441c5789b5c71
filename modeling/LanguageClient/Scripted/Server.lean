import LanguageClient.CommandLine.Help
import LanguageClient.CommandLine.Reading
import LanguageClient.Document.Position
import LanguageClient.Frame.Chunk
import LanguageClient.Frame.Encoder
import LanguageClient.Frame.Reader

/-!
# A scripted server

A language server that knows nothing about any language, for trying a client out. It answers a few
requests with fixed values and every other one with `null`, reports one diagnostic for each
document that is opened, and asks for an edit whenever one is saved. What it is answered then it
reports as a diagnostic of its own.
-/

namespace LanguageClient.Scripted

open Document

/-- What the server is told not to do. -/
structure Manners where
  /-- Stays when it is told to exit. -/
  ignoresExit : Bool := false
  /-- Stays when it is terminated. -/
  ignoresTermination : Bool := false
  /-- Never answers the handshake. -/
  silent : Bool := false
deriving DecidableEq, Repr

/-- The server's command line. -/
def program : CommandLine.Program where
  name := "mock-language-server"
  about := "Scripted LSP server used by the integration tests"
  switches :=
    [{ name := "ignore-exit", about := "Stay alive after the `exit` notification" },
     { name := "ignore-term", about := "Ignore SIGTERM so only SIGKILL stops the process" },
     { name := "silent", about := "Never answer `initialize`" }]

/-- The manners that a command line asks for. -/
def Manners.ofGiven (g : CommandLine.Given) : Manners :=
  ⟨g.has "ignore-exit", g.has "ignore-term", g.has "silent"⟩

/-! ## Messages -/

/-- A range within one line. -/
def span (line first last : Nat) : Json := Range.toJson ⟨⟨line, first⟩, ⟨line, last⟩⟩

/-- The answer to a request. -/
def reply (id result : Json) : Json :=
  .mkObj [("jsonrpc", .str "2.0"), ("id", id), ("result", result)]

/-- A report about a document. -/
def report (uri diagnostic : Json) : Json :=
  .mkObj [("jsonrpc", .str "2.0"), ("method", .str "textDocument/publishDiagnostics"),
    ("params", .mkObj [("uri", uri), ("diagnostics", .arr [diagnostic])])]

/-- What the server can do. -/
def capabilities : Json :=
  .mkObj
    [("textDocumentSync", .mkObj [("openClose", .bool true), ("change", .ofNat 2),
        ("save", .mkObj [("includeText", .bool false)])]),
     ("hoverProvider", .bool true),
     ("documentSymbolProvider", .mkObj []),
     ("definitionProvider", .bool true),
     ("completionProvider", .mkObj [("triggerCharacters", .arr [.str ".", .str "->"])]),
     ("signatureHelpProvider", .mkObj [("triggerCharacters", .arr [.str "("])]),
     ("executeCommandProvider", .mkObj [("commands", .arr [.str "mock.apply"])])]

/-- The symbols of every document. -/
def symbols : Json :=
  let range := Range.toJson ⟨⟨0, 0⟩, ⟨2, 1⟩⟩
  .arr [.mkObj [("name", .str "main"), ("detail", .str "int ()"), ("kind", .ofNat 12),
    ("range", range), ("selectionRange", range), ("children", .arr [])]]

/-- The hover text at a line; without a line it is the first. -/
def hover (params : Json) : Json :=
  let line := (((params.get "position").get "line").nat64?).getD 0
  .mkObj [("contents", .mkObj
    [("kind", .str "markdown"), ("value", .str s!"hover at line {line}")])]

/-- The diagnostic of an opened document. -/
def unused : Json :=
  .mkObj [("range", span 1 4 9), ("severity", .ofNat 1), ("code", .ofNat 1001),
    ("source", .str "mock"), ("message", .str "unused variable")]

/-- The diagnostic that tells whether an edit was applied. -/
def applied (message : Json) : Json :=
  let answer := (((message.get "result").get "applied").bool?).getD false
  .mkObj [("range", span 0 0 0), ("message", .str s!"applied:{answer}")]

/-- The request for the edit of a saved document. -/
def editRequest (number : Nat) (uri : Json) : Json :=
  let edit := .mkObj [("range", span 0 0 0), ("newText", .str "// saved\n")]
  .mkObj [("jsonrpc", .str "2.0"), ("id", .str s!"edit-{number}"),
    ("method", .str "workspace/applyEdit"),
    ("params", .mkObj [("label", .str "mock edit"),
      ("edit", .mkObj [("changes", .mkObj [(uri.str?.getD "", .arr [edit])])])])]

/-! ## The server -/

/-- The server between two messages. -/
structure Server where
  manners : Manners := {}
  frames : Frame.Reader := {}
  /-- How many edits were asked for. -/
  edits : Nat := 0

namespace Server

/-- The answer to a request. -/
def answer (s : Server) (method : String) (id message : Json) : List Json :=
  match method with
  | "" => [report (.str "file:///applied") (applied message)]
  | "initialize" =>
      if s.manners.silent then [] else [reply id (.mkObj [("capabilities", capabilities)])]
  | "textDocument/documentSymbol" => [reply id symbols]
  | "textDocument/hover" => [reply id (hover (message.get "params"))]
  | _ => [reply id .null]

/-- Takes one message: the server afterwards, if it goes on, and what it sends. A message with any
identifier, be it `null`, is a request. -/
def take (s : Server) (message : Json) : Option Server × List Json :=
  let method := ((message.get "method").str?).getD ""
  let uri := ((message.get "params").get "textDocument").get "uri"
  match message.member? "id", method with
  | some id, _ => (some s, s.answer method id message)
  | none, "textDocument/didOpen" => (some s, [report uri unused])
  | none, "textDocument/didSave" =>
      (some { s with edits := s.edits + 1 }, [editRequest (s.edits + 1) uri])
  | none, "exit" => (if s.manners.ignoresExit then some s else none, [])
  | none, _ => (some s, [])

/-- Takes messages until the server exits. -/
def takeAll (s : Server) : List Json → Option Server × List Json
  | [] => (some s, [])
  | message :: rest =>
      match s.take message with
      | (none, sent) => (none, sent)
      | (some s, sent) =>
          let (last, later) := takeAll s rest
          (last, sent ++ later)

/-- Takes one chunk of its input. -/
def takeChunk (s : Server) (chunk : Bytes) : Option Server × List Json :=
  let d := s.frames.push chunk
  takeAll { s with frames := d.reader } d.messages

/-- Takes chunks, one after the other. -/
def takeChunks (s : Server) : List Bytes → Option Server × List Json
  | [] => (some s, [])
  | chunk :: rest =>
      match s.takeChunk chunk with
      | (none, sent) => (none, sent)
      | (some s, sent) =>
          let (last, later) := takeChunks s rest
          (last, sent ++ later)

/-- Bytes arrive on its input: the server afterwards, if it goes on, and what it writes. -/
def receive (s : Server) (bytes : Bytes) : Option Server × Bytes :=
  let (last, sent) := s.takeChunks (chunks bytes)
  (last, sent.flatMap Frame.encode)

end Server

/-! ## Starting -/

/-- How a start goes. -/
inductive Start where
  | serves (s : Server)
  /-- The program ends at once, with what it writes to its output and to standard error. -/
  | ends (code : Nat) (output errors : String)

/-- Starts the server with the arguments of a command line. -/
def start (arguments : List String) : Start :=
  match CommandLine.read program arguments with
  | .error refusal => .ends 2 "" (refusal.report program)
  | .ok .help => .ends 0 program.help ""
  | .ok .version => .ends 0 program.versionText ""
  | .ok (.run g) => .serves { manners := Manners.ofGiven g }

/-- A server that reads all of an input, and then its end: the exit code, unless it stays, and what
it writes to its output. -/
def session (arguments : List String) (input : List Bytes) : Option Nat × Bytes :=
  match start arguments with
  | .ends code output _ => (some code, Utf8.encode output)
  | .serves s =>
      let (last, sent) := s.takeChunks (input.flatMap chunks)
      (if last.isSome ∧ s.manners.ignoresExit then none else some 0, sent.flatMap Frame.encode)

end LanguageClient.Scripted
