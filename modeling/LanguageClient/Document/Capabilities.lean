import LanguageClient.Json.Basic

/-!
# Capabilities

What the server declares in its answer to `initialize`, and what the client declares in asking.
Whatever is absent or mistyped in the server's declaration counts as not supported.
-/

namespace LanguageClient.Document

/-- How changes of a document are sent. -/
inductive SyncKind where
  | none | full | incremental
deriving DecidableEq, Repr

/-- Reads the number of a kind. -/
def SyncKind.ofJson (j : Json) : SyncKind :=
  match j.nat64? with
  | some 1 => .full
  | some 2 => .incremental
  | _ => .none

/-- The name of a kind. -/
def SyncKind.name : SyncKind → String
  | .none => "None"
  | .full => "Full"
  | .incremental => "Incremental"

/-- A feature with the characters that trigger it. -/
structure Triggered where
  provider : Bool := false
  triggers : List Char := []
deriving DecidableEq, Repr

/-- What a server declares. -/
structure Capabilities where
  sync : SyncKind := .none
  hover : Bool := false
  completion : Triggered := {}
  resolvesCompletions : Bool := false
  signatureHelp : Triggered := {}
  definition : Bool := false
  declaration : Bool := false
  references : Bool := false
  documentSymbol : Bool := false
  documentHighlight : Bool := false
  formatting : Bool := false
  rangeFormatting : Bool := false
  onTypeFormatting : Triggered := {}
  rename : Bool := false
  codeAction : Bool := false
  /-- The names of each highlighting scope. -/
  scopes : List (List String) := []
deriving DecidableEq, Repr

namespace Capabilities

/-- A feature is declared by `true` or by an object of options. -/
def flag (j : Json) : Bool := j.bool?.getD j.isObj

/-- The first characters of an array of texts. -/
def triggers (j : Json) : List Char :=
  j.items.filterMap fun t => t.str?.bind (·.toList.head?)

/-- A feature that only an object of options declares. -/
def triggered (j : Json) (read : Json → List Char) : Triggered :=
  if j.isObj then ⟨true, read j⟩ else {}

/-- The first trigger character, then the others. -/
def typeTriggers (j : Json) : List Char :=
  ((j.get "firstTriggerCharacter").str?.bind (·.toList.head?)).toList ++
    triggers (j.get "moreTriggerCharacter")

/-- Reads the declaration of a server. -/
def ofJson (j : Json) : Capabilities :=
  let sync := j.get "textDocumentSync"
  let completion := j.get "completionProvider"
  { sync := SyncKind.ofJson (if sync.isObj then sync.get "change" else sync)
    hover := flag (j.get "hoverProvider")
    completion := triggered completion fun c => triggers (c.get "triggerCharacters")
    resolvesCompletions := (completion.get "resolveProvider").bool?.getD false
    signatureHelp := triggered (j.get "signatureHelpProvider") fun s =>
      triggers (s.get "triggerCharacters")
    definition := flag (j.get "definitionProvider")
    declaration := flag (j.get "declarationProvider")
    references := flag (j.get "referencesProvider")
    documentSymbol := flag (j.get "documentSymbolProvider")
    documentHighlight := flag (j.get "documentHighlightProvider")
    formatting := flag (j.get "documentFormattingProvider")
    rangeFormatting := flag (j.get "documentRangeFormattingProvider")
    onTypeFormatting := triggered (j.get "documentOnTypeFormattingProvider") typeTriggers
    rename := flag (j.get "renameProvider")
    codeAction := flag (j.get "codeActionProvider")
    scopes := ((j.get "semanticHighlighting").get "scopes").items.map fun entry =>
      entry.items.map fun name => name.str?.getD "" }

/-- Writes a feature with its trigger characters. -/
def triggeredMembers (t : Triggered) : List (String × Json) :=
  [("provider", .bool t.provider),
    ("trigger_characters", .arr (t.triggers.map fun c => .str (String.singleton c)))]

/-- Writes a declaration for reports. -/
def toJson (c : Capabilities) : Json := .mkObj
  [("text_document_sync", .str c.sync.name),
    ("hover_provider", .bool c.hover),
    ("completion_provider", .mkObj
      (("resolve_provider", .bool c.resolvesCompletions) :: triggeredMembers c.completion)),
    ("signature_help_provider", .mkObj (triggeredMembers c.signatureHelp)),
    ("definition_provider", .bool c.definition),
    ("declaration_provider", .bool c.declaration),
    ("references_provider", .bool c.references),
    ("document_symbol_provider", .bool c.documentSymbol),
    ("document_highlight_provider", .bool c.documentHighlight),
    ("document_formatting_provider", .bool c.formatting),
    ("document_range_formatting_provider", .bool c.rangeFormatting),
    ("document_on_type_formatting_provider", .mkObj (triggeredMembers c.onTypeFormatting)),
    ("rename_provider", .bool c.rename),
    ("code_action_provider", .bool c.codeAction),
    ("semantic_highlighting_provider", .mkObj
      [("scopes", .arr (c.scopes.map fun names => .arr (names.map .str)))])]

end Capabilities

/-! ## What the client declares -/

/-- The client's declaration, without semantic highlighting. -/
def clientCapabilities : Json :=
  .mkObj [("textDocument", .mkObj
    [("documentSymbol", .mkObj [("hierarchicalDocumentSymbolSupport", .bool true)]),
      ("publishDiagnostics", .mkObj [("relatedInformation", .bool true)]),
      ("codeAction", .mkObj [("codeActionLiteralSupport", .mkObj
        [("codeActionKind", .mkObj [("valueSet", .arr [])])])])])]

/-- A member was to be set in a value that is no object. -/
structure AccessError where
  key : String
  value : Json

/-- The wording of the error. -/
def AccessError.message (e : AccessError) : String :=
  let kind := match e.value with
    | .null => "null"
    | .bool _ => "boolean"
    | .num _ => "number"
    | .str _ => "string"
    | .arr _ => "array"
    | .obj _ => "object"
  s!"cannot access key \"{e.key}\" in JSON {kind}"

/-- Changes a member of an object, `null` when it is missing; `null` counts as the empty object. -/
def modifyMember (j : Json) (key : String) (change : Json → Except AccessError Json) :
    Except AccessError Json :=
  match j with
  | .obj members => do
      let value ← change ((Members.find? key members).getD .null)
      .ok (.obj (Members.insert key value members))
  | .null => do
      let value ← change .null
      .ok (.obj [(key, value)])
  | j => .error ⟨key, j⟩

/-- Declares whether semantic highlighting is wanted. -/
def advertiseHighlighting (capabilities : Json) (wanted : Bool) : Except AccessError Json :=
  modifyMember capabilities "textDocument" fun document =>
    modifyMember document "semanticHighlightingCapabilities" fun _ =>
      .ok (.mkObj [("semanticHighlighting", .bool wanted)])

end LanguageClient.Document
