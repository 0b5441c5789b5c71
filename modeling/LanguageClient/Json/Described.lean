import LanguageClient.Json.Writer
import LanguageClient.Text.Escaped

/-!
# JSON values described

The form in which values appear in diagnostic texts: each value under the name of its kind.
-/

namespace LanguageClient.Json

mutual

/-- The description of a value. -/
def describe : Json → String
  | .null => "Null"
  | .bool b => s!"Bool({b})"
  | .num n => s!"Number({n.text})"
  | .str s => "String(" ++ Text.quoted s ++ ")"
  | .arr items => "Array [" ++ ", ".intercalate (describeItems items) ++ "]"
  | .obj members => "Object \x7b" ++ ", ".intercalate (describeMembers members) ++ "\x7d"

/-- The descriptions of the items of an array. -/
def describeItems : List Json → List String
  | [] => []
  | j :: rest => describe j :: describeItems rest

/-- The descriptions of the members of an object. -/
def describeMembers : List (String × Json) → List String
  | [] => []
  | (k, j) :: rest => (Text.quoted k ++ ": " ++ describe j) :: describeMembers rest

end

end LanguageClient.Json
