import LanguageClient.Host.Shell.Word

/-!
# Commands of the shell language

What a script asks for, with words not yet expanded.
-/

namespace LanguageClient.Host.Shell

/-- What a redirection does with a descriptor. -/
inductive Redirection where
  /-- It reads a file. -/
  | fromFile
  /-- It writes a file, from its start or behind its end. -/
  | toFile (append : Bool)
  /-- It becomes another descriptor, or is closed when the word is a dash. -/
  | duplicate
  /-- It reads the word itself. -/
  | fromText
deriving DecidableEq, Repr

/-- A redirection of one descriptor. -/
structure Redirect where
  descriptor : Nat
  kind : Redirection
  target : Word
deriving DecidableEq, Repr

/-- A command. -/
inductive Command where
  | nothing
  | simple (assignments : List (String × Word)) (words : List Word)
  | redirected (body : Command) (redirects : List Redirect)
  | sequence (first second : Command)
  /-- The second only if the first succeeds. -/
  | both (first second : Command)
  /-- The second only if the first fails. -/
  | either (first second : Command)
  | negated (body : Command)
  /-- What the first writes, the second reads. -/
  | pipe (first second : Command)
  /-- A command in a process of its own. -/
  | subshell (body : Command)
  /-- A command that is not waited for. -/
  | background (body : Command)
  | choice (test yes no : Command)
  /-- Runs the body as long as the test succeeds, or until it does. -/
  | loop (untilSuccess : Bool) (test body : Command)
  /-- Runs the body for each word; without words, for each argument. -/
  | each (name : String) (words : Option (List Word)) (body : Command)
  /-- Runs the first of the arms that matches. -/
  | select (word : Word) (arms : Command)
  | arm (patterns : List Word) (body others : Command)
  | define (name : String) (body : Command)
deriving DecidableEq, Repr

end LanguageClient.Host.Shell
