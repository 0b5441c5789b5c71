import LanguageClient.Document.Capabilities
import LanguageClient.Document.Edit

/-!
# Parameters of outbound messages

The `params` member of each request and notification that the client sends.
-/

namespace LanguageClient.Document.Params

/-- A document by its URI. -/
def document (uri : String) : Json := .mkObj [("uri", .str uri)]

/-- The members that name a document. -/
def documentMember (uri : String) : List (String × Json) := [("textDocument", document uri)]

/-- The members that name a place in a document. -/
def placeMembers (uri : String) (position : Position) : List (String × Json) :=
  documentMember uri ++ [("position", position.toJson)]

/-- Parameters of `initialized`. -/
def initialized : Json := .mkObj []

/-- Parameters of a cancellation. Identifiers beyond 31 bits travel as text. -/
def cancel (id : Nat) : Json :=
  .mkObj [("id", if id < 0x80000000 then .ofNat id else .str (toString id))]

/-- Parameters that name a place in a document. -/
def position (uri : String) (position : Position) : Json := .mkObj (placeMembers uri position)

/-- Parameters that name a document. -/
def documentOnly (uri : String) : Json := .mkObj (documentMember uri)

/-- Parameters of opening a document. -/
def didOpen (uri : String) (version : Int) (language text : String) : Json :=
  .mkObj [("textDocument", .mkObj [("uri", .str uri), ("languageId", .str language),
    ("version", .ofInt version), ("text", .str text)])]

/-- A change of a document: a range and its new text, or the whole new text. -/
structure Change where
  range : Option Range
  text : String
deriving DecidableEq, Repr

/-- Writes a change. -/
def Change.toJson (c : Change) : Json :=
  .mkObj (("text", .str c.text) :: Members.optional "range" (c.range.map Range.toJson))

/-- Parameters of changing a document. A version that is not known is left out. -/
def didChange (uri : String) (version : Option Int) (changes : List Change) : Json :=
  .mkObj [("textDocument", .mkObj (("uri", .str uri) ::
      Members.optional "version" (version.map .ofInt))),
    ("contentChanges", .arr (changes.map Change.toJson))]

/-- Parameters of saving a document. -/
def didSave (uri : String) (text : Option String) : Json :=
  .mkObj (documentMember uri ++ Members.optional "text" (text.map .str))

/-- Parameters of asking for references. -/
def references (uri : String) (position : Position) (includeDeclaration : Bool) : Json :=
  .mkObj (placeMembers uri position ++
    [("context", .mkObj [("includeDeclaration", .bool includeDeclaration)])])

/-- How a document is to be formatted. -/
structure FormattingOptions where
  tabSize : Nat := 4
  insertSpaces : Bool := true
  /-- Further properties; they never replace the two above. -/
  extra : Members := []

/-- Writes formatting options. -/
def FormattingOptions.toJson (o : FormattingOptions) : Json :=
  .mkObj (o.extra ++ [("tabSize", .ofNat o.tabSize), ("insertSpaces", .bool o.insertSpaces)])

/-- Parameters of formatting a document. -/
def formatting (uri : String) (options : FormattingOptions) : Json :=
  .mkObj (documentMember uri ++ [("options", options.toJson)])

/-- Parameters of formatting a range. -/
def rangeFormatting (uri : String) (range : Range) (options : FormattingOptions) : Json :=
  .mkObj (documentMember uri ++ [("range", range.toJson), ("options", options.toJson)])

/-- Parameters of formatting while a character is typed. -/
def onTypeFormatting (uri : String) (position : Position) (typed : Char)
    (options : FormattingOptions) : Json :=
  .mkObj (placeMembers uri position ++
    [("ch", .str (String.singleton typed)), ("options", options.toJson)])

/-- Parameters of renaming a symbol. -/
def rename (uri : String) (position : Position) (newName : String) : Json :=
  .mkObj (placeMembers uri position ++ [("newName", .str newName)])

/-- Parameters of asking for code actions; without kinds all are wanted. -/
def codeAction (uri : String) (range : Range) (kinds : List String)
    (diagnostics : List Diagnostic) : Json :=
  let only := if kinds.isEmpty then none else some (Json.arr (kinds.map .str))
  .mkObj (documentMember uri ++ [("range", range.toJson),
    ("context", .mkObj (("diagnostics", .arr (diagnostics.map Diagnostic.toWire)) ::
      Members.optional "only" only))])

/-- The arguments of a command: an array stands for its items, `null` for none. -/
def commandArguments : Json → List Json
  | .arr items => items
  | .null => []
  | single => [single]

/-- Parameters of executing a command. -/
def executeCommand (command : String) (arguments : Json) : Json :=
  .mkObj [("command", .str command), ("arguments", .arr (commandArguments arguments))]

/-- Parameters of changing the configuration. -/
def didChangeConfiguration (settings : Json) : Json := .mkObj [("settings", settings)]

/-- The result of an edit that the server asked for. -/
def applyEditResponse (outcome : EditOutcome) : Json :=
  .mkObj (("applied", .bool outcome.applied) ::
    Members.optional "failureReason" (outcome.failureReason.map .str))

/-- The name the client gives itself. -/
def clientName : String := "lsp-stdio-client"

/-- The version the client states. -/
def clientVersion : String := "0.1.0"

/-- What the client tells about its workspace in its first request. -/
structure Workspace where
  rootPath : String
  rootUri : String
  options : Json
  semanticHighlighting : Bool

/-- The capabilities of the client, with its wish for semantic highlighting. -/
def advertised (wanted : Bool) : Json :=
  match advertiseHighlighting clientCapabilities wanted with
  | .ok j => j
  | .error _ => clientCapabilities

/-- Parameters of the first request; options that are `null` are left out. -/
def handshake (processId : Nat) (w : Workspace) : Json :=
  let options := if w.options.isNull then none else some w.options
  .mkObj ([("processId", .ofNat processId), ("rootPath", .str w.rootPath),
    ("rootUri", .str w.rootUri), ("capabilities", advertised w.semanticHighlighting),
    ("clientInfo", .mkObj [("name", .str clientName), ("version", .str clientVersion)])] ++
    Members.optional "initializationOptions" options)

end LanguageClient.Document.Params
