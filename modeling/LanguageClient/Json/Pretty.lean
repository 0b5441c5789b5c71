import LanguageClient.Json.Writer

/-!
# JSON text for readers

The same values as in the compact form, but every item and every member stands on a line of its own,
two spaces further in than its array or object. What is empty stays in one line.
-/

namespace LanguageClient.Json

/-- The start of a line that is some levels in. -/
def indent (level : Nat) : String := "\n" ++ String.ofList (List.replicate (2 * level) ' ')

mutual

/-- The text of a value that begins some levels in. -/
def prettyAt (level : Nat) : Json → String
  | .null => "null"
  | .bool b => if b then "true" else "false"
  | .num n => n.text
  | .str s => quote s
  | .arr [] => "[]"
  | .arr (j :: rest) =>
      "[" ++ ",".intercalate (prettyItems (level + 1) (j :: rest)) ++ indent level ++ "]"
  | .obj [] => "\x7b\x7d"
  | .obj (m :: rest) =>
      "\x7b" ++ ",".intercalate (prettyMembers (level + 1) (m :: rest)) ++ indent level ++ "\x7d"

/-- The items of an array, each with the start of its line. -/
def prettyItems (level : Nat) : List Json → List String
  | [] => []
  | j :: rest => (indent level ++ prettyAt level j) :: prettyItems level rest

/-- The members of an object, each with the start of its line. -/
def prettyMembers (level : Nat) : List (String × Json) → List String
  | [] => []
  | (key, j) :: rest =>
      (indent level ++ quote key ++ ": " ++ prettyAt level j) :: prettyMembers level rest

end

/-- The text of a value. -/
def pretty (j : Json) : String := prettyAt 0 j

end LanguageClient.Json
