/-!
# Fields and patterns

What the parts of a word expand to is split into fields, or read as a pattern. Only characters that
come from unquoted expansions split, and only unquoted characters are special in a pattern.
-/

namespace LanguageClient.Host.Shell

/-- A piece of an expanded word. -/
inductive Atom where
  /-- A character; `quoted` ones are never special, and only `splits` ones can divide fields. -/
  | char (c : Char) (quoted splits : Bool)
  /-- Here a field ends, as between the arguments of a quoted argument list. -/
  | boundary
  /-- A quoted text stands here, and be it empty. -/
  | quotes
deriving DecidableEq, Repr

/-- The text of atoms, joined. -/
def textOf (atoms : List Atom) : String :=
  String.ofList (atoms.filterMap fun
    | .char c _ _ => some c
    | .boundary => some ' '
    | .quotes => none)

/-- Blanks among the dividing characters; several of them divide like one. -/
def isBlankDivider (dividers : String) (c : Char) : Bool :=
  dividers.contains c ∧ " \t\n".contains c

/-- Splits atoms into fields. The field read so far comes last character first; without one, an end
of a field leaves none behind. -/
def fieldsFrom (dividers : String) : Option (List Char) → List Atom → List String
  | none, [] => []
  | some field, [] => [String.ofList field.reverse]
  | field, .quotes :: rest => fieldsFrom dividers (some (field.getD [])) rest
  | field, .boundary :: rest =>
      String.ofList (field.getD []).reverse :: fieldsFrom dividers none rest
  | field, .char c _ splits :: rest =>
      if splits ∧ isBlankDivider dividers c then
        match field with
        | none => fieldsFrom dividers none rest
        | some cs => String.ofList cs.reverse :: fieldsFrom dividers none rest
      else if splits ∧ dividers.contains c then
        String.ofList (field.getD []).reverse :: fieldsFrom dividers none rest
      else fieldsFrom dividers (some (c :: field.getD [])) rest

/-- The fields of an expanded word. -/
def fields (dividers : String) (atoms : List Atom) : List String := fieldsFrom dividers none atoms

/-! ## Patterns -/

/-- A piece of a pattern. -/
inductive Glob where
  | char (c : Char)
  /-- Any one character. -/
  | any
  /-- Any text. -/
  | all
  /-- One character of some ranges, or one of no such range. -/
  | ranges (negated : Bool) (items : List (Char × Char))
deriving DecidableEq, Repr

/-- The ranges that a bracket expression lists. -/
def rangesOf : List Char → List (Char × Char)
  | a :: '-' :: b :: rest => (a, b) :: rangesOf rest
  | a :: rest => (a, a) :: rangesOf rest
  | [] => []

/-- Reads a bracket expression behind its opening bracket. -/
def bracket? (atoms : List Atom) : Option (Glob × List Atom) :=
  let chars := atoms.map fun | .char c _ _ => c | _ => '\x00'
  let (negated, skipped) := match chars with
    | '!' :: _ | '^' :: _ => (true, 1)
    | _ => (false, 0)
  let body := chars.drop skipped
  -- a closing bracket in the first place stands for itself
  let (first, others) := match body with
    | ']' :: rest => ([']'], rest)
    | rest => ([], rest)
  let listed := others.takeWhile (· ≠ ']')
  if listed.length = others.length then none
  else
    let used := skipped + first.length + listed.length + 1
    some (.ranges negated (rangesOf (first ++ listed)), atoms.drop used)

/-- Reads a pattern; the number bounds the steps. -/
def globOf : Nat → List Atom → List Glob
  | 0, _ => []
  | _, [] => []
  | fuel + 1, .char c quoted _ :: rest =>
      if quoted then .char c :: globOf fuel rest
      else if c = '*' then .all :: globOf fuel rest
      else if c = '?' then .any :: globOf fuel rest
      else if c = '[' then
        match bracket? rest with
        | some (g, rest) => g :: globOf fuel rest
        | none => .char c :: globOf fuel rest
      else .char c :: globOf fuel rest
  | fuel + 1, _ :: rest => globOf fuel rest

/-- The pattern that an expanded word is. -/
def glob (atoms : List Atom) : List Glob := globOf (atoms.length + 1) atoms

/-- Does one piece of a pattern match a character? -/
def Glob.accepts (g : Glob) (c : Char) : Bool :=
  match g with
  | .char d => c = d
  | .any | .all => true
  | .ranges negated items => items.any (fun (a, b) => a ≤ c ∧ c ≤ b) != negated

/-- Does a text match a pattern as a whole? -/
def matchesGlob : List Glob → List Char → Bool
  | [], cs => cs.isEmpty
  | .all :: gs, [] => matchesGlob gs []
  | .all :: gs, c :: cs => matchesGlob gs (c :: cs) || matchesGlob (.all :: gs) cs
  | _ :: _, [] => false
  | g :: gs, c :: cs => g.accepts c && matchesGlob gs cs
termination_by gs cs => (gs.length, cs.length)

/-- The ways to cut a text in two, shortest front first. -/
def cuts (cs : List Char) : List (List Char × List Char) :=
  (List.range (cs.length + 1)).map fun n => (cs.take n, cs.drop n)

/-- The text without a front that matches: the shortest or the longest. -/
def withoutFront (longest : Bool) (g : List Glob) (s : String) : String :=
  let candidates := cuts s.toList
  match (if longest then candidates.reverse else candidates).find? fun (front, _) =>
      matchesGlob g front with
  | some (_, rest) => String.ofList rest
  | none => s

/-- The text without an end that matches: the shortest or the longest. -/
def withoutEnd (longest : Bool) (g : List Glob) (s : String) : String :=
  let candidates := cuts s.toList
  match (if longest then candidates else candidates.reverse).find? fun (_, rest) =>
      matchesGlob g rest with
  | some (front, _) => String.ofList front
  | none => s

end LanguageClient.Host.Shell
