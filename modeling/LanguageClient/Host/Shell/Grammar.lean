import LanguageClient.Host.Shell.Command

/-!
# Reading scripts

A script is read from left to right, from the loosest form down: lists, conditional lists,
pipelines, commands. Each step is bounded by a number that the length of the script gives.
-/

namespace LanguageClient.Host.Shell

/-- A command, and the text behind it. -/
abbrev Read := Except Fault (Command × List Char)

/-! ## Tokens -/

/-- Skips blanks, joined lines and comments. -/
def blanks : List Char → List Char
  | [] => []
  | '\\' :: '\n' :: rest => blanks rest
  | c :: rest =>
      if c = ' ' ∨ c = '\t' then blanks rest
      else if c = '#' then (c :: rest).dropWhile (· ≠ '\n')
      else c :: rest

/-- Skips blanks and line ends; the number bounds the steps. -/
def gaps : Nat → List Char → List Char
  | 0, cs => cs
  | fuel + 1, cs =>
      match blanks cs with
      | '\n' :: rest => gaps fuel rest
      | cs => cs

/-- Skips blanks and line ends. -/
def skipGaps (cs : List Char) : List Char := gaps cs.length cs

/-- The token at the start of a text, as far as it is not quoted. -/
def ahead (cs : List Char) : String := String.ofList (cs.takeWhile (¬ isMeta ·))

/-- The words that end a list. -/
def closers : List String := ["then", "else", "elif", "fi", "do", "done", "esac", "\x7d"]

/-- Does the text begin with what ends a list? -/
def endsList (cs : List Char) : Bool :=
  match cs with
  | [] => true
  | ')' :: _ => true
  | ';' :: ';' :: _ => true
  | cs => closers.contains (ahead cs)

/-- What a text begins with, as faults name it. -/
def found (cs : List Char) : String :=
  match cs with
  | [] => "end of file"
  | '\n' :: _ => "newline"
  | c :: _ => if isMeta c then "\"" ++ c.toString ++ "\"" else "\"" ++ ahead cs ++ "\""

/-- Reads one word of the language. -/
def expect (word : String) (cs : List Char) : Except Fault (List Char) :=
  let cs := skipGaps cs
  if word.toList.isPrefixOf cs ∧ (word = ")" ∨ ahead cs = word) then .ok (cs.drop word.length)
  else .error (.unexpected (found cs) (some word))

/-! ## Redirections -/

/-- The lines up to one that is `stop`, and the text behind that; the number bounds the steps. -/
def linesUpTo (stop : List Char) : Nat → List Char → List Char × List Char
  | 0, cs => ([], cs)
  | _, [] => ([], [])
  | fuel + 1, cs =>
      let line := cs.takeWhile (· ≠ '\n')
      let rest := (cs.dropWhile (· ≠ '\n')).drop 1
      if line = stop then ([], rest)
      else
        let (body, rest) := linesUpTo stop fuel rest
        (line ++ '\n' :: body, rest)

/-- The text that follows the current line, up to a line that is the given word. With a quoted word
the text stands for itself. -/
def textBelow (word : Word) (cs : List Char) : Except Fault (Word × List Char) := do
  let stop := word.flatMap fun
    | .text _ s => s.toList
    | _ => []
  let line := cs.takeWhile (· ≠ '\n')
  let (body, rest) := linesUpTo stop cs.length ((cs.dropWhile (· ≠ '\n')).drop 1)
  let text := String.ofList body
  let target ← if (plainText? word).isSome then wholeWord true text else pure [.text true text]
  return (target, line ++ '\n' :: rest)

/-- The operator of a redirection at the start of a text, with the descriptor that it has when none
is named. -/
def redirection? : List Char → Option (Redirection × Nat × List Char)
  | '<' :: '<' :: rest => some (.fromText, 0, rest)
  | '<' :: '&' :: rest => some (.duplicate, 0, rest)
  | '<' :: rest => some (.fromFile, 0, rest)
  | '>' :: '>' :: rest => some (.toFile true, 1, rest)
  | '>' :: '&' :: rest => some (.duplicate, 1, rest)
  | '>' :: '|' :: rest => some (.toFile false, 1, rest)
  | '>' :: rest => some (.toFile false, 1, rest)
  | _ => none

/-- Reads a redirection, if one begins the text. -/
def readRedirect (cs : List Char) : Except Fault (Option (Redirect × List Char)) :=
  let digits := cs.takeWhile Char.isDigit
  match redirection? (cs.drop digits.length) with
  | none => .ok none
  | some (kind, standard, rest) => do
      let descriptor := if digits.isEmpty then standard else (String.ofList digits).toNat?.getD 0
      let (target, rest) ← readWord (blanks rest)
      if target.isEmpty then throw (.unexpected (found rest) none)
      if kind = .fromText then
        let (text, rest) ← textBelow target rest
        return some (⟨descriptor, kind, text⟩, rest)
      else return some (⟨descriptor, kind, target⟩, rest)

/-- Reads redirections, as far as there are any; the number bounds the steps. -/
def readRedirects : Nat → List Char → Except Fault (List Redirect × List Char)
  | 0, cs => .ok ([], cs)
  | fuel + 1, cs => do
      match ← readRedirect (blanks cs) with
      | none => return ([], cs)
      | some (r, rest) =>
          let (later, rest) ← readRedirects fuel rest
          return (r :: later, rest)

/-- Puts redirections around a command. -/
def redirect (body : Command) (redirects : List Redirect) : Command :=
  if redirects.isEmpty then body else .redirected body redirects

/-! ## Simple commands -/

/-- A word as an assignment, if it is one. -/
def assignment? (w : Word) : Option (String × Word) :=
  let plain := w.takeWhile fun p => p.plain?.isSome
  let text := (plain.filterMap Part.plain?).flatMap String.toList
  match text.dropWhile (· ≠ '=') with
  | _ :: value =>
      let name := String.ofList (text.takeWhile (· ≠ '='))
      if isName name then some (name, .text false (String.ofList value) :: w.drop plain.length)
      else none
  | [] => none

/-- The pieces of a simple command. -/
structure Pieces where
  assignments : List (String × Word) := []
  words : List Word := []
  redirects : List Redirect := []

/-- Reads the pieces of a simple command; the number bounds the steps. -/
def readPieces : Nat → Pieces → List Char → Except Fault (Pieces × List Char)
  | 0, p, cs => .ok (p, cs)
  | fuel + 1, p, cs => do
      let cs := blanks cs
      match ← readRedirect cs with
      | some (r, rest) => readPieces fuel { p with redirects := p.redirects ++ [r] } rest
      | none =>
          let (word, rest) ← readWord cs
          if word.isEmpty then return (p, cs)
          match p.words, assignment? word with
          | [], some a => readPieces fuel { p with assignments := p.assignments ++ [a] } rest
          | _, _ => readPieces fuel { p with words := p.words ++ [word] } rest

/-- Reads words up to the end of a line; the number bounds the steps. -/
def readWords : Nat → List Char → Except Fault (List Word × List Char)
  | 0, cs => .ok ([], cs)
  | fuel + 1, cs => do
      let (word, rest) ← readWord (blanks cs)
      if word.isEmpty then return ([], blanks cs)
      let (later, rest) ← readWords fuel rest
      return (word :: later, rest)

/-- Reads the patterns of an arm, up to the closing bracket; the number bounds the steps. -/
def readPatterns : Nat → List Char → Except Fault (List Word × List Char)
  | 0, cs => .error (.unexpected (found cs) none)
  | fuel + 1, cs => do
      let (word, rest) ← readWord (blanks cs)
      if word.isEmpty then throw (.unexpected (found rest) none)
      match blanks rest with
      | '|' :: rest =>
          let (later, rest) ← readPatterns fuel rest
          return (word :: later, rest)
      | ')' :: rest => return ([word], rest)
      | rest => throw (.unexpected (found rest) (some ")"))

/-- Skips what separates a list of words from the body that follows. -/
def skipSeparator (cs : List Char) : List Char :=
  match blanks cs with
  | ';' :: rest => skipGaps rest
  | cs => skipGaps cs

/-! ## Commands -/

/-- A command followed by another one, if there is another one. -/
def andThen (first second : Command) : Command :=
  if second = .nothing then first else .sequence first second

mutual

/-- Reads commands up to what ends a list. -/
def readList : Nat → List Char → Read
  | 0, cs => .error (.unexpected (found cs) none)
  | fuel + 1, cs => do
      let cs := skipGaps cs
      if endsList cs then return (.nothing, cs)
      let (first, rest) ← readConditional fuel cs
      match blanks rest with
      | ';' :: ';' :: rest => return (first, ';' :: ';' :: rest)
      | ';' :: rest | '\n' :: rest =>
          let (others, rest) ← readList fuel rest
          return (andThen first others, rest)
      | '&' :: rest =>
          let (others, rest) ← readList fuel rest
          return (andThen (.background first) others, rest)
      | rest => return (first, rest)

/-- Reads pipelines that depend on each other. -/
def readConditional : Nat → List Char → Read
  | 0, cs => .error (.unexpected (found cs) none)
  | fuel + 1, cs => do
      let (first, rest) ← readPipeline fuel cs
      readDependent fuel first rest

/-- Reads what depends on a command that was read. -/
def readDependent : Nat → Command → List Char → Read
  | 0, _, cs => .error (.unexpected (found cs) none)
  | fuel + 1, first, cs =>
      match blanks cs with
      | '&' :: '&' :: rest => do
          let (second, rest) ← readPipeline fuel (skipGaps rest)
          readDependent fuel (.both first second) rest
      | '|' :: '|' :: rest => do
          let (second, rest) ← readPipeline fuel (skipGaps rest)
          readDependent fuel (.either first second) rest
      | cs => .ok (first, cs)

/-- Reads commands joined by pipes. -/
def readPipeline : Nat → List Char → Read
  | 0, cs => .error (.unexpected (found cs) none)
  | fuel + 1, cs => do
      let cs := blanks cs
      if ahead cs = "!" then
        let (body, rest) ← readPipeline fuel (cs.drop 1)
        return (.negated body, rest)
      let (first, rest) ← readCommand fuel cs
      match blanks rest with
      | '|' :: '|' :: rest => return (first, '|' :: '|' :: rest)
      | '|' :: rest =>
          let (second, rest) ← readPipeline fuel (skipGaps rest)
          return (.pipe first second, rest)
      | rest => return (first, rest)

/-- Reads one command with its redirections. -/
def readCommand : Nat → List Char → Read
  | 0, cs => .error (.unexpected (found cs) none)
  | fuel + 1, cs => do
      let cs := blanks cs
      let compound (read : Read) : Read := do
        let (body, rest) ← read
        let (redirects, rest) ← readRedirects rest.length rest
        return (redirect body redirects, rest)
      match cs, ahead cs with
      | '(' :: rest, _ => compound do
          let (body, rest) ← readList fuel rest
          return (.subshell body, ← expect ")" rest)
      | _, "\x7b" => compound do
          let (body, rest) ← readList fuel (cs.drop 1)
          return (body, ← expect "\x7d" rest)
      | _, "if" => compound (readChoice fuel (cs.drop 2))
      | _, "while" => compound (readLoop fuel false (cs.drop 5))
      | _, "until" => compound (readLoop fuel true (cs.drop 5))
      | _, "for" => compound (readEach fuel (cs.drop 3))
      | _, "case" => compound do
          let (word, rest) ← readWord (blanks (cs.drop 4))
          let rest ← expect "in" rest
          let (arms, rest) ← readArms fuel rest
          return (.select word arms, rest)
      | _, _ => readSimple fuel cs

/-- Reads a simple command, or the definition of a function. -/
def readSimple : Nat → List Char → Read
  | 0, cs => .error (.unexpected (found cs) none)
  | fuel + 1, cs => do
      if endsList cs then throw (.unexpected (found cs) none)
      let (p, rest) ← readPieces cs.length {} cs
      if p.words.isEmpty ∧ p.assignments.isEmpty ∧ p.redirects.isEmpty then
        throw (.unexpected (found cs) none)
      match p.words.map plainText?, blanks rest with
      | [some name], '(' :: rest =>
          if ¬ isName name then throw (.unexpected "\"(\"" none)
          let (body, rest) ← readCommand fuel (skipGaps (← expect ")" rest))
          return (.define name body, rest)
      | _, '(' :: rest => throw (.unexpected (found ('(' :: rest)) none)
      | _, _ => return (redirect (.simple p.assignments p.words) p.redirects, rest)

/-- Reads a choice behind its first word. -/
def readChoice : Nat → List Char → Read
  | 0, cs => .error (.unexpected (found cs) none)
  | fuel + 1, cs => do
      let (test, rest) ← readList fuel cs
      let (yes, rest) ← readList fuel (← expect "then" rest)
      let rest := skipGaps rest
      match ahead rest with
      | "elif" =>
          let (no, rest) ← readChoice fuel (rest.drop 4)
          return (.choice test yes no, rest)
      | "else" =>
          let (no, rest) ← readList fuel (rest.drop 4)
          return (.choice test yes no, ← expect "fi" rest)
      | _ => return (.choice test yes .nothing, ← expect "fi" rest)

/-- Reads a loop behind its first word. -/
def readLoop : Nat → Bool → List Char → Read
  | 0, _, cs => .error (.unexpected (found cs) none)
  | fuel + 1, untilSuccess, cs => do
      let (test, rest) ← readList fuel cs
      let (body, rest) ← readList fuel (← expect "do" rest)
      return (.loop untilSuccess test body, ← expect "done" rest)

/-- Reads a loop over words behind its first word. -/
def readEach : Nat → List Char → Read
  | 0, cs => .error (.unexpected (found cs) none)
  | fuel + 1, cs => do
      let (word, rest) ← readWord (blanks cs)
      let name := (plainText? word).getD ""
      if ¬ isName name then throw (.unexpected (found (blanks cs)) none)
      let rest := skipGaps rest
      let (words, rest) ←
        if ahead rest = "in" then do
          let (words, rest) ← readWords rest.length (rest.drop 2)
          pure (some words, rest)
        else pure (none, rest)
      let (body, rest) ← readList fuel (← expect "do" (skipSeparator rest))
      return (.each name words body, ← expect "done" rest)

/-- Reads arms up to their end. -/
def readArms : Nat → List Char → Read
  | 0, cs => .error (.unexpected (found cs) none)
  | fuel + 1, cs => do
      let cs := skipGaps cs
      if ahead cs = "esac" then return (.nothing, cs.drop 4)
      let cs := match cs with | '(' :: rest => rest | cs => cs
      let (patterns, rest) ← readPatterns cs.length cs
      let (body, rest) ← readList fuel rest
      let rest := match skipGaps rest with | ';' :: ';' :: rest => rest | rest => rest
      let (others, rest) ← readArms fuel rest
      return (.arm patterns body others, rest)

end

/-- Reads a whole script. -/
def readScript (source : String) : Except Fault Command := do
  let cs := source.toList
  let (command, rest) ← readList (20 * (cs.length + 2)) cs
  match rest with
  | [] => return command
  | rest => throw (.unexpected (found rest) none)

end LanguageClient.Host.Shell
