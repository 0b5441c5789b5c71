import LanguageClient.Document.Completion
import LanguageClient.Document.Edit
import LanguageClient.Document.Markup
import LanguageClient.Document.Signature
import LanguageClient.Document.Symbol

/-!
# Requests and the types of their replies

The requests that a client sends, and the kinds of values that a reply is read as. Which of them a
request expects is the caller's choice; each can be read from any result.
-/

namespace LanguageClient

open Document

/-- What a request asks for. -/
inductive RequestKind where
  | handshake | shutdown | documentSymbol | definition | declaration | hover | documentHighlight
  | references | completion | signatureHelp | formatting | rangeFormatting | onTypeFormatting
  | rename | codeAction | executeCommand
deriving DecidableEq, Repr

/-- Every kind of request, with its name. -/
def RequestKind.named : List (String × RequestKind) :=
  [("Initialize", .handshake), ("Shutdown", .shutdown), ("DocumentSymbol", .documentSymbol),
    ("Definition", .definition), ("Declaration", .declaration), ("Hover", .hover),
    ("DocumentHighlight", .documentHighlight), ("References", .references),
    ("Completion", .completion), ("SignatureHelp", .signatureHelp),
    ("Formatting", .formatting), ("RangeFormatting", .rangeFormatting),
    ("OnTypeFormatting", .onTypeFormatting), ("Rename", .rename), ("CodeAction", .codeAction),
    ("ExecuteCommand", .executeCommand)]

/-- The method that names a request on the wire. -/
def RequestKind.method : RequestKind → String
  | .handshake => "initialize"
  | .shutdown => "shutdown"
  | .documentSymbol => "textDocument/documentSymbol"
  | .definition => "textDocument/definition"
  | .declaration => "textDocument/declaration"
  | .hover => "textDocument/hover"
  | .documentHighlight => "textDocument/documentHighlight"
  | .references => "textDocument/references"
  | .completion => "textDocument/completion"
  | .signatureHelp => "textDocument/signatureHelp"
  | .formatting => "textDocument/formatting"
  | .rangeFormatting => "textDocument/rangeFormatting"
  | .onTypeFormatting => "textDocument/onTypeFormatting"
  | .rename => "textDocument/rename"
  | .codeAction => "textDocument/codeAction"
  | .executeCommand => "workspace/executeCommand"

/-- What a result is read as. -/
inductive ReplyType where
  | value | symbols | locations | hover | highlights | completion | signature | edits
  | workspaceEdit | actions
deriving DecidableEq, Repr

/-- What the result of a request is read as if nobody wishes otherwise. -/
def RequestKind.replyType : RequestKind → ReplyType
  | .documentSymbol => .symbols
  | .definition | .declaration | .references => .locations
  | .hover => .hover
  | .documentHighlight => .highlights
  | .completion => .completion
  | .signatureHelp => .signature
  | .formatting | .rangeFormatting | .onTypeFormatting => .edits
  | .rename => .workspaceEdit
  | .codeAction => .actions
  | .handshake | .shutdown | .executeCommand => .value

/-- A result that has been read. -/
inductive Reply where
  | value (v : Json)
  | symbols (items : List Symbol)
  | locations (items : List Location)
  | hover (h : Hover)
  | highlights (items : List Highlight)
  | completion (items : List Completion)
  | signature (s : SignatureHelp)
  | edits (items : List TextEdit)
  | workspaceEdit (e : WorkspaceEdit)
  | actions (items : List CodeAction)

/-- Reads a result as a type of reply. Every value can be read; what does not fit is left out. -/
def ReplyType.read (normal : Normalizer) (result : Json) : ReplyType → Reply
  | .value => .value result
  | .symbols => .symbols (Symbol.listOfJson result)
  | .locations => .locations (Location.listOfJson normal result)
  | .hover => .hover (Hover.ofJson result)
  | .highlights => .highlights (Highlight.listOfJson result)
  | .completion => .completion (Completion.listOfJson result)
  | .signature => .signature (SignatureHelp.ofJson result)
  | .edits => .edits (TextEdit.listOfJson result)
  | .workspaceEdit => .workspaceEdit (WorkspaceEdit.ofJson normal result)
  | .actions => .actions (CodeAction.listOfJson normal result)

/-- Writes a reply. -/
def Reply.toJson : Reply → Json
  | .value v => v
  | .symbols items => .arr (items.map Symbol.toJson)
  | .locations items => .arr (items.map Location.toJson)
  | .hover h => h.toJson
  | .highlights items => .arr (items.map Highlight.toJson)
  | .completion items => .arr (items.map Completion.toJson)
  | .signature s => s.toJson
  | .edits items => .arr (items.map TextEdit.toJson)
  | .workspaceEdit e => e.toJson
  | .actions items => .arr (items.map CodeAction.toJson)

end LanguageClient
