import LanguageClient.Text.Escaped

/-!
# Records as text

The form in which records appear in diagnostic texts: the name of the record, and its fields in
braces. A path is shown like other text, but an apostrophe in it is escaped too.
-/

namespace LanguageClient.Text

/-- A record with its fields. -/
def shownRecord (name : String) (fields : List (String × String)) : String :=
  name ++ " \x7b " ++ ", ".intercalate (fields.map fun (k, v) => k ++ ": " ++ v) ++ " \x7d"

/-- An optional value. -/
def shownOption (value : Option String) : String :=
  match value with
  | some v => "Some(" ++ v ++ ")"
  | none => "None"

/-- A path between double quotes. -/
def shownPath (path : String) : String :=
  let escape (c : Char) : List Char := if c = '\'' then ['\\', '\''] else escaped c
  String.ofList ('"' :: path.toList.flatMap escape ++ ['"'])

end LanguageClient.Text
