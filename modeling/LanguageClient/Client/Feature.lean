import LanguageClient.Client.Run

/-!
# Notices and queries

What a client tells a server about its documents and its settings, and what it asks about them. Each of
these calls has a method and parameters of its own, and a query is answered by one type of reply. Beside
them a client passes on whatever messages its callers make (`Client.notify`, `Client.send`).
-/

namespace LanguageClient

open Document

/-- What a server is told. -/
inductive Notice where
  | didOpen (uri : String) (version : Int) (language text : String)
  | didChange (uri : String) (version : Option Int) (changes : List Params.Change)
  | didSave (uri : String) (text : Option String)
  | didClose (uri : String)
  | didChangeConfiguration (settings : Json)

namespace Notice

def method : Notice → String
  | didOpen .. => "textDocument/didOpen"
  | didChange .. => "textDocument/didChange"
  | didSave .. => "textDocument/didSave"
  | didClose .. => "textDocument/didClose"
  | didChangeConfiguration .. => "workspace/didChangeConfiguration"

def params : Notice → Json
  | didOpen uri version language text => Params.didOpen uri version language text
  | didChange uri version changes => Params.didChange uri version changes
  | didSave uri text => Params.didSave uri text
  | didClose uri => Params.documentOnly uri
  | didChangeConfiguration settings => Params.didChangeConfiguration settings

/-- The use of a client that tells its server. -/
def action (n : Notice) : Action := .notify n.method n.params

end Notice

/-- What a server is asked. -/
inductive Query where
  | documentSymbols (uri : String)
  | definition (uri : String) (position : Position)
  | declaration (uri : String) (position : Position)
  | hover (uri : String) (position : Position)
  | documentHighlight (uri : String) (position : Position)
  | references (uri : String) (position : Position) (includeDeclaration : Bool)
  | completion (uri : String) (position : Position)
  | signatureHelp (uri : String) (position : Position)
  | formatting (uri : String) (options : Params.FormattingOptions)
  | rangeFormatting (uri : String) (range : Range) (options : Params.FormattingOptions)
  | onTypeFormatting (uri : String) (position : Position) (typed : Char)
      (options : Params.FormattingOptions)
  | rename (uri : String) (position : Position) (newName : String)
  | codeAction (uri : String) (range : Range) (kinds : List String) (diagnostics : List Diagnostic)
  | executeCommand (command : String) (arguments : Json)

namespace Query

def kind : Query → RequestKind
  | documentSymbols .. => .documentSymbol
  | definition .. => .definition
  | declaration .. => .declaration
  | hover .. => .hover
  | documentHighlight .. => .documentHighlight
  | references .. => .references
  | completion .. => .completion
  | signatureHelp .. => .signatureHelp
  | formatting .. => .formatting
  | rangeFormatting .. => .rangeFormatting
  | onTypeFormatting .. => .onTypeFormatting
  | rename .. => .rename
  | codeAction .. => .codeAction
  | executeCommand .. => .executeCommand

def params : Query → Json
  | documentSymbols uri => Params.documentOnly uri
  | definition uri position | declaration uri position | hover uri position
  | documentHighlight uri position | completion uri position | signatureHelp uri position =>
      Params.position uri position
  | references uri position includeDeclaration => Params.references uri position includeDeclaration
  | formatting uri options => Params.formatting uri options
  | rangeFormatting uri range options => Params.rangeFormatting uri range options
  | onTypeFormatting uri position typed options => Params.onTypeFormatting uri position typed options
  | rename uri position newName => Params.rename uri position newName
  | codeAction uri range kinds diagnostics => Params.codeAction uri range kinds diagnostics
  | executeCommand command arguments => Params.executeCommand command arguments

/-- The use of a client that asks its server; the handler takes the replies of this kind. -/
def action (q : Query) (ticket : Nat) (owner : Option Nat) : Action :=
  .send q.kind q.params ⟨ticket, q.kind.replyType, owner⟩

end Query

end LanguageClient
