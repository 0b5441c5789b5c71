/-!
# Paths as text

The last name of a path, the two parts of that name around its last dot, and the path with another
last name. Nothing is looked up: repeated slashes and single dots are passed over as they stand in
the text.
-/

namespace LanguageClient.Files.Path

/-- Drops the names at the end that name nothing: empty ones and single dots. The names come last
one first. -/
def dropIdle (names : List String) : List String :=
  names.dropWhile fun name => name = "" ∨ name = "."

/-- A path as its start, which may be a root or the current directory, and the names behind it. -/
def cut (path : String) : String × List String :=
  if path.startsWith "/" then ("/", (path.drop 1).toString.splitOn "/")
  else if path = "." ∨ path.startsWith "./" then (".", (path.drop 1).toString.splitOn "/")
  else ("", path.splitOn "/")

/-- The text in front of the last name, and that name. A path that ends in its root or in a parent
directory has no last name. -/
def split? (path : String) : Option (String × String) :=
  let (start, names) := cut path
  match dropIdle names.reverse with
  | [] => none
  | last :: front =>
      if last = ".." then none
      else some (start ++ "/".intercalate (dropIdle front).reverse, last)

/-- The parts of a name around its last dot. A dot in front of everything does not count. -/
def stemAndExtension (name : String) : String × Option String :=
  let parts := name.splitOn "."
  let stem := ".".intercalate parts.dropLast
  if stem = "" then (name, none) else (stem, parts.getLast?)

/-- Puts a name behind a path. -/
def join (front name : String) : String :=
  if front = "" ∨ front.endsWith "/" then front ++ name else front ++ "/" ++ name

/-- The path with `tag` between the parts of its last name: `a/trace.log` becomes
`a/trace.<tag>.log`. A path without a last name stays as it is. -/
def tagged (tag path : String) : String :=
  match split? path with
  | none => path
  | some (front, last) =>
      let (stem, extension) := stemAndExtension last
      let name := match extension with
        | some e => stem ++ "." ++ tag ++ "." ++ e
        | none => stem ++ "." ++ tag
      join front name

end LanguageClient.Files.Path
