import LanguageClient.CommandLine.Basic

/-!
# Texts about a command line

What a program says of itself: its help text, its version, and the words for a refusal. Names and
explanations stand in two columns.
-/

namespace LanguageClient.CommandLine

/-- Rows in two columns; the first is as wide as its widest cell. -/
def columns (rows : List (String × String)) : List String :=
  let width := rows.foldl (fun w (left, _) => max w left.length) 0
  rows.map fun (left, right) =>
    "  " ++ left ++ String.ofList (List.replicate (width - left.length) ' ') ++ "  " ++ right

/-- The explanation of a switch, with its standard value. -/
def Switch.explained (s : Switch) : String :=
  match s.standard with
  | some value => s!"{s.about} [default: {value}]"
  | none => s.about

namespace Program

/-- How the program is called. -/
def usage (p : Program) : String :=
  let passedOn := match p.passedOn with
    | some (placeholder, _) => s!" [-- <{placeholder}>...]"
    | none => ""
  s!"Usage: {p.name} [OPTIONS]{passedOn}"

/-- How the program is called with some of its switches. -/
def usageWith (p : Program) (given : List String) : String :=
  if given.isEmpty then p.usage else s!"Usage: {p.name} " ++ " ".intercalate given

/-- The rows about switches; the questions that every program answers come last. -/
def switchRows (p : Program) : List (String × String) :=
  p.switches.map (fun s => ("    " ++ s.shown, s.explained)) ++ [("-h, --help", "Print help")] ++
    (if p.version.isSome then [("-V, --version", "Print version")] else [])

/-- The help text. -/
def help (p : Program) : String :=
  let arguments := match p.passedOn with
    | some (placeholder, about) =>
        ["Arguments:"] ++ columns [(s!"[{placeholder}]...", about)] ++ [""]
    | none => []
  "\n".intercalate ([p.about, "", p.usage, ""] ++ arguments ++
    ["Options:"] ++ columns p.switchRows) ++ "\n"

/-- The text about the version. -/
def versionText (p : Program) : String := p.name ++ " " ++ p.version.getD "" ++ "\n"

end Program

namespace Refusal

/-- The wording of a refusal. -/
def message : Refusal → String
  | .unexpected argument _ => s!"unexpected argument '{argument}' found"
  | .valueForFlag value shown _ =>
      s!"unexpected value '{value}' for '{shown}' found; no more were expected"
  | .valueMissing shown => s!"a value is required for '{shown}' but none was supplied"
  | .repeated shown => s!"the argument '{shown}' cannot be used multiple times"
  | .badValue value shown cause => s!"invalid value '{value}' for '{shown}': {cause}"
  | .required _ _ => "the following required arguments were not provided:"

/-- The lines that a program writes about a refusal. -/
def report (p : Program) (r : Refusal) : String :=
  let usage := match r with
    | .unexpected _ given | .valueForFlag _ _ given => ["", p.usageWith given]
    | .repeated _ => ["", p.usage]
    | .required lacking given => lacking.map ("  " ++ ·) ++ ["", p.usageWith (lacking ++ given)]
    | .valueMissing _ | .badValue _ _ _ => []
  "\n".intercalate (["error: " ++ r.message] ++ usage ++
    ["", "For more information, try '--help'."]) ++ "\n"

end Refusal

end LanguageClient.CommandLine
