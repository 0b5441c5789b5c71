/-!
# Words of the shell language

A word is made of texts and of parts that stand for other texts: parameters, the output of a
command, the value of an arithmetic expression. Shell texts are bytes; each byte is written as the
character of the same number. What stands inside a part is kept as source text and read when the
part is expanded.
-/

namespace LanguageClient.Host.Shell

/-- A part of a word. A quoted part is never split into fields, and is no pattern. -/
inductive Part where
  | text (quoted : Bool) (s : String)
  /-- A parameter; the operation, if there is one, has a word of its own. -/
  | parameter (quoted : Bool) (name : String) (operation : Option (String × String))
  /-- The length of a parameter. -/
  | length (quoted : Bool) (name : String)
  /-- The output of a command. -/
  | command (quoted : Bool) (source : String)
  | arithmetic (quoted : Bool) (source : String)
deriving DecidableEq, Repr

/-- A word. -/
abbrev Word := List Part

/-- Why a source text cannot be read. -/
inductive Fault where
  | unterminatedQuote
  | badSubstitution
  /-- Something stands where it cannot; perhaps only one thing could. -/
  | unexpected (found : String) (expected : Option String)
deriving DecidableEq, Repr

/-- The wording of a fault. -/
def Fault.message : Fault → String
  | .unterminatedQuote => "Syntax error: Unterminated quoted string"
  | .badSubstitution => "Syntax error: Bad substitution"
  | .unexpected found expected =>
      "Syntax error: " ++ found ++ " unexpected" ++
        match expected with
        | some word => " (expecting \"" ++ word ++ "\")"
        | none => ""

/-- Ends a word, unless it is quoted. -/
def isMeta (c : Char) : Bool := " \t\n;&|<>()".contains c

/-- Can begin a name. -/
def isNameStart (c : Char) : Bool := c.isAlpha ∨ c = '_'

/-- Can stand in a name. -/
def isNameChar (c : Char) : Bool := c.isAlphanum ∨ c = '_'

/-- Is the text a name? -/
def isName (s : String) : Bool :=
  match s.toList with
  | c :: rest => isNameStart c && rest.all isNameChar
  | [] => false

/-- The text up to a character, and what stands behind that. -/
def upTo (stop : Char) (cs : List Char) : Option (String × List Char) :=
  match cs.dropWhile (· ≠ stop) with
  | _ :: rest => some (String.ofList (cs.takeWhile (· ≠ stop)), rest)
  | [] => none

/-- The text up to the bracket that closes an opened one, and what stands behind it. Brackets in
quotes do not count. The first number bounds the steps, `depth` counts opened brackets; the text
gathered so far comes last character first. -/
def enclosed (opening closing : Char) : Nat → Nat → List Char → List Char →
    Option (String × List Char)
  | 0, _, _, _ => none
  | _, _, _, [] => none
  | fuel + 1, depth, acc, c :: rest =>
      if c = closing then
        if depth = 0 then some (String.ofList acc.reverse, rest)
        else enclosed opening closing fuel (depth - 1) (c :: acc) rest
      else if c = opening then enclosed opening closing fuel (depth + 1) (c :: acc) rest
      else match c, rest with
        | '\\', d :: rest => enclosed opening closing fuel depth (d :: c :: acc) rest
        | '\x27', rest =>
            match upTo '\x27' rest with
            | some (s, rest) =>
                enclosed opening closing fuel depth ('\x27' :: s.toList.reverse ++ c :: acc) rest
            | none => none
        | '"', rest =>
            match enclosed '"' '"' fuel 0 [] rest with
            | some (s, rest) =>
                enclosed opening closing fuel depth ('"' :: s.toList.reverse ++ c :: acc) rest
            | none => none
        | c, rest => enclosed opening closing fuel depth (c :: acc) rest

/-- What stands inside brackets whose opening one was read. -/
def inside (opening closing : Char) (cs : List Char) : Except Fault (String × List Char) :=
  match enclosed opening closing (cs.length + 1) 0 [] cs with
  | some found => .ok found
  | none => .error .unterminatedQuote

/-- The name of a parameter at the start of a text, if there is one. -/
def parameterName? (cs : List Char) : Option (String × List Char) :=
  match cs with
  | [] => none
  | c :: rest =>
      if isNameStart c then
        some (String.ofList (cs.takeWhile isNameChar), cs.dropWhile isNameChar)
      else if c.isDigit ∨ "@*#?$!-".contains c then some (c.toString, rest)
      else none

/-- The operations on a parameter, longer ones first. -/
def operations : List String := [":-", ":=", ":+", ":?", "##", "%%", "-", "=", "+", "?", "#", "%"]

/-- The part that an expression in braces stands for. -/
def bracedPart (quoted : Bool) (source : String) : Except Fault Part :=
  let cs := source.toList
  let plain : Except Fault Part :=
    let name? := match cs.takeWhile Char.isDigit with
      | [] => parameterName? cs
      | digits => some (String.ofList digits, cs.dropWhile Char.isDigit)
    match name? with
    | some (name, []) => .ok (.parameter quoted name none)
    | some (name, rest) =>
        match operations.find? fun op => op.toList.isPrefixOf rest with
        | some op =>
            let word := String.ofList (rest.drop op.length)
            .ok (.parameter quoted name (some (op, word)))
        | none => .error .badSubstitution
    | none => .error .badSubstitution
  match cs with
  | '#' :: rest =>
      match parameterName? rest with
      | some (name, []) => .ok (.length quoted name)
      | _ => plain
  | _ => plain

/-- The part behind a dollar sign. A dollar sign that begins nothing stands for itself. -/
def dollarPart (quoted : Bool) (cs : List Char) : Except Fault (Part × List Char) :=
  match cs with
  | '(' :: rest => do
      let (source, rest) ← inside '(' ')' rest
      match source.toList with
      | '(' :: inner =>
          if inner.getLast? = some ')' then
            return (.arithmetic quoted (String.ofList inner.dropLast), rest)
          else return (.command quoted source, rest)
      | _ => return (.command quoted source, rest)
  | '\x7b' :: rest => do
      let (source, rest) ← inside '\x7b' '\x7d' rest
      return (← bracedPart quoted source, rest)
  | cs =>
      match parameterName? cs with
      | some (name, rest) => .ok (.parameter quoted name none, rest)
      | none => .ok (.text quoted "$", cs)

/-- The command between backquotes: a backslash makes a backquote or another backslash plain. -/
def backquoted : List Char → Option (List Char × List Char)
  | [] => none
  | '\x60' :: rest => some ([], rest)
  | '\\' :: c :: rest =>
      (backquoted rest).map fun (inner, rest) =>
        ((if c = '\x60' ∨ c = '\\' then [c] else ['\\', c]) ++ inner, rest)
  | c :: rest => (backquoted rest).map fun (inner, rest) => (c :: inner, rest)

/-- The parts of a word, up to an unquoted character at which it stops, or of a quoted stretch, up
to its closing quote. The number bounds the steps. -/
def readParts (quoted : Bool) (stop : Char → Bool) : Nat → List Char →
    Except Fault (List Part × List Char)
  | 0, _ => .error .unterminatedQuote
  | _, [] => .ok ([], [])
  | fuel + 1, c :: rest =>
      if stop c then .ok ([], c :: rest)
      else
        let next (part : Part) (rest : List Char) : Except Fault (List Part × List Char) := do
          let (parts, rest) ← readParts quoted stop fuel rest
          return (part :: parts, rest)
        match c, rest with
        | '\\', '\n' :: rest => readParts quoted stop fuel rest
        | '\\', d :: rest =>
            if quoted ∧ ¬ "$`\"\\".contains d then next (.text true (String.ofList ['\\', d])) rest
            else next (.text true d.toString) rest
        | '$', rest => do
            let (part, rest) ← dollarPart quoted rest
            next part rest
        | '\x60', rest =>
            match backquoted rest with
            | some (inner, rest) => next (.command quoted (String.ofList inner)) rest
            | none => .error .unterminatedQuote
        | c, rest =>
            if ¬ quoted ∧ c = '\x27' then
              match upTo '\x27' rest with
              | some (s, rest) => next (.text true s) rest
              | none => .error .unterminatedQuote
            else if ¬ quoted ∧ c = '"' then do
              let (parts, rest) ← readParts true (· = '"') fuel rest
              match rest with
              | _ :: rest => do
                  let (later, rest) ← readParts quoted stop fuel rest
                  -- without arguments, a quoted list of them is nothing at all
                  let mark := if parts = [.parameter true "@" none] then [] else [.text true ""]
                  return (mark ++ parts ++ later, rest)
              | [] => .error .unterminatedQuote
            else next (.text quoted c.toString) rest

/-- Reads a word at the start of a text. -/
def readWord (cs : List Char) : Except Fault (Word × List Char) :=
  readParts false isMeta (cs.length + 1) cs

/-- Reads a whole text as one word. -/
def wholeWord (quoted : Bool) (source : String) : Except Fault Word := do
  let (parts, _) ← readParts quoted (fun _ => false) (source.length + 1) source.toList
  return parts

/-- The text of a word without quotes and expansions, if it is one. -/
def Part.plain? : Part → Option String
  | .text false s => some s
  | _ => none

/-- The text of an unquoted word without expansions. -/
def plainText? (w : Word) : Option String := (w.mapM Part.plain?).map String.join

end LanguageClient.Host.Shell
