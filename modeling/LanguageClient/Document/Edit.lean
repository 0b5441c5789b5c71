import LanguageClient.Document.Diagnostic

/-!
# Edits, commands and code actions
-/

namespace LanguageClient.Document

/-- A range of text and what replaces it. -/
structure TextEdit where
  range : Range
  newText : String
deriving DecidableEq, Repr

namespace TextEdit

/-- Reads an edit; without a range it is none. -/
def ofJson? (j : Json) : Option TextEdit :=
  (Range.ofJson? (j.get "range")).map fun range => ⟨range, textMember j "newText"⟩

/-- Reads the edits of an array. -/
def listOfJson (j : Json) : List TextEdit := j.items.filterMap ofJson?

/-- Writes an edit. -/
def toJson (e : TextEdit) : Json :=
  .mkObj [("range", e.range.toJson), ("newText", .str e.newText)]

end TextEdit

/-- Edits of several documents, by URI. -/
structure WorkspaceEdit where
  changes : List (String × List TextEdit)
deriving DecidableEq, Repr

namespace WorkspaceEdit

/-- Appends edits to those of a document. -/
def append (uri : String) (edits : List TextEdit) :
    List (String × List TextEdit) → List (String × List TextEdit)
  | [] => [(uri, edits)]
  | (u, es) :: rest =>
      if u = uri then (u, es ++ edits) :: rest else (u, es) :: append uri edits rest

/-- Adds edits of one document; a document whose URI is refused is passed over. -/
def add (normal : Normalizer) (changes : List (String × List TextEdit)) (raw : Option String)
    (edits : Json) : List (String × List TextEdit) :=
  match raw.bind normal with
  | some uri => append uri (TextEdit.listOfJson edits) changes
  | none => changes

/-- The members of an object; anything else has none. -/
def membersOf : Json → Members
  | .obj members => members
  | _ => []

/-- Reads the edits of a workspace: those listed by document, then those of the document changes.
Creating, renaming and deleting documents is passed over. -/
def ofJson (normal : Normalizer) (j : Json) : WorkspaceEdit :=
  let listed := (membersOf (j.get "changes")).foldl
    (fun changes member => add normal changes (some member.1) member.2) []
  let changed := (j.get "documentChanges").items.filter fun c => (c.member? "kind").isNone
  ⟨changed.foldl (fun changes c =>
    add normal changes ((c.get "textDocument").get "uri").str? (c.get "edits")) listed⟩

/-- Writes the edits of a workspace. -/
def toJson (e : WorkspaceEdit) : Json :=
  .mkObj [("changes", .mkObj (e.changes.map fun (uri, edits) =>
    (uri, .arr (edits.map TextEdit.toJson))))]

end WorkspaceEdit

/-- A command that the server can be asked to execute. -/
structure Command where
  title : String
  command : String
  arguments : List Json

namespace Command

/-- Reads a command. -/
def ofJson (j : Json) : Command :=
  ⟨textMember j "title", textMember j "command", (j.get "arguments").items⟩

/-- Writes a command. -/
def toJson (c : Command) : Json :=
  .mkObj [("title", .str c.title), ("command", .str c.command), ("arguments", .arr c.arguments)]

end Command

/-- What a user can choose to do about a place in a document. -/
inductive CodeAction where
  | command (command : Command)
  | action (title : String) (kind : Option String) (diagnostics : List Diagnostic)
      (edit : WorkspaceEdit) (offered : Option Command)

namespace CodeAction

/-- Reads an entry: a command when its `command` is a text, an action otherwise. -/
def ofJson (normal : Normalizer) (j : Json) : CodeAction :=
  let command := j.get "command"
  if command.isStr then .command (Command.ofJson j)
  else .action (textMember j "title") (optionalText j "kind")
    (Diagnostic.listOfJson normal (j.get "diagnostics"))
    (WorkspaceEdit.ofJson normal (j.get "edit"))
    (if command.isObj then some (Command.ofJson command) else none)

/-- Reads the entries of a reply. -/
def listOfJson (normal : Normalizer) (j : Json) : List CodeAction := j.items.map (ofJson normal)

/-- Writes an entry, marked with what it is. -/
def toJson : CodeAction → Json
  | .command c => .mkObj [("Command", c.toJson)]
  | .action title kind diagnostics edit offered => .mkObj [("CodeAction", .mkObj
      [("title", .str title), ("kind", .ofOption .str kind),
        ("diagnostics", .arr (diagnostics.map Diagnostic.toJson)), ("edit", edit.toJson),
        ("command", .ofOption Command.toJson offered)])]

end CodeAction

/-- What the server asks for when it wants the client to apply an edit. -/
structure ApplyEdit where
  label : Option String
  edit : WorkspaceEdit

namespace ApplyEdit

/-- Reads the request. -/
def ofJson (normal : Normalizer) (j : Json) : ApplyEdit :=
  ⟨optionalText j "label", WorkspaceEdit.ofJson normal (j.get "edit")⟩

/-- Writes the request. -/
def toJson (a : ApplyEdit) : Json :=
  .mkObj [("label", .ofOption .str a.label), ("edit", a.edit.toJson)]

end ApplyEdit

/-- How an edit went that the server asked for. -/
structure EditOutcome where
  applied : Bool := false
  failureReason : Option String := none
deriving DecidableEq, Repr

end LanguageClient.Document
