import LanguageClient.Text.Utf8

/-!
# File trees

Directories, files and symbolic links under one root, and the resolution of paths: every link on
the way is followed, `.` and `..` are taken where they stand, and the result names what the path
leads to without any of them.
-/

namespace LanguageClient.Files

/-- Why a path cannot be used. -/
inductive FileError where
  | notFound | notDirectory | isDirectory | tooManyLinks | nameTooLong | accessDenied
  | invalidName | invalidEncoding | readOnly
  /-- A text that is handed to the system holds a null character. -/
  | embeddedNull
deriving DecidableEq, Repr

namespace FileError

/-- The system's number of an error; one that is noticed before the system is asked has none. -/
def number? : FileError → Option Nat
  | .notFound => some 2
  | .accessDenied => some 13
  | .notDirectory => some 20
  | .isDirectory => some 21
  | .readOnly => some 30
  | .nameTooLong => some 36
  | .tooManyLinks => some 40
  | .invalidName | .invalidEncoding | .embeddedNull => none

/-- The words for an error. -/
def words : FileError → String
  | .notFound => "No such file or directory"
  | .accessDenied => "Permission denied"
  | .notDirectory => "Not a directory"
  | .isDirectory => "Is a directory"
  | .readOnly => "Read-only file system"
  | .nameTooLong => "File name too long"
  | .tooManyLinks => "Too many levels of symbolic links"
  | .invalidName => "file name contained an unexpected NUL byte"
  | .invalidEncoding => "stream did not contain valid UTF-8"
  | .embeddedNull => "nul byte found in provided data"

/-- The wording of an error. -/
def message (e : FileError) : String :=
  match e.number? with
  | some number => s!"{e.words} (os error {number})"
  | none => e.words

end FileError

/-- What stands under a name. -/
inductive Entry where
  | directory
  | file (content : Bytes)
  | link (target : String)
deriving DecidableEq, Repr

/-- The names on the way from the root. -/
abbrev Location := List String

/-- A tree: what stands where. The root itself is always a directory. -/
structure Tree where
  entries : List (Location × Entry) := []

namespace Tree

/-- What stands at a place. -/
def entry? (t : Tree) (place : Location) : Option Entry :=
  if place.isEmpty then some .directory
  else (t.entries.find? (·.1 = place)).map (·.2)

/-- Puts an entry at a place; what stood there is replaced. -/
def put (t : Tree) (place : Location) (e : Entry) : Tree :=
  { t with entries := t.entries.filter (·.1 ≠ place) ++ [(place, e)] }

/-- The names of a path; repeated slashes count once, and a trailing slash leaves an empty name. -/
def names (path : String) : List String :=
  let parts := (path.toList.splitOn '/').map String.ofList
  let last := parts.getLast?.getD ""
  (parts.dropLast.filter (· ≠ "")) ++ [last]

/-- How many links may be followed on one way. -/
def linkLimit : Nat := 40

/-- Walks from a place without links along names. The fuel bounds the number of steps: it is
consumed by names, and by the names of followed links. -/
def walk (t : Tree) : Nat → Nat → Location → List String → Except FileError Location
  | _, _, place, [] => .ok place
  | 0, _, _, _ :: _ => .error .tooManyLinks
  | fuel + 1, links, place, name :: rest =>
      let here := t.entry? place
      if here ≠ some .directory then .error .notDirectory
      else if name = "" ∨ name = "." then walk t fuel links place rest
      else if name = ".." then walk t fuel links place.dropLast rest
      else if name.utf8ByteSize > 255 then .error .nameTooLong
      else match t.entry? (place ++ [name]) with
        | none => .error .notFound
        | some (.link target) =>
            if links = 0 then .error .tooManyLinks
            else
              let start := if target.startsWith "/" then [] else place
              walk t fuel (links - 1) start (names target ++ rest)
        | some _ => walk t fuel links (place ++ [name]) rest

/-- The longest path that can be resolved, in bytes. -/
def pathLimit : Nat := 4096

/-- Resolves a path seen from a directory. -/
def resolve (t : Tree) (directory : Location) (path : String) : Except FileError Location :=
  if path.toList.any (·.toNat = 0) then .error .invalidName
  else if path = "" then .error .notFound
  else if path.utf8ByteSize ≥ pathLimit then .error .nameTooLong
  else
    let start := if path.startsWith "/" then [] else directory
    t.walk ((linkLimit + 1) * (pathLimit + 1)) linkLimit start (names path)

/-- The text of a place. -/
def text (place : Location) : String :=
  if place.isEmpty then "/" else String.join (place.map ("/" ++ ·))

/-- The content of a file. -/
def read (t : Tree) (directory : Location) (path : String) : Except FileError Bytes := do
  let place ← t.resolve directory path
  match t.entry? place with
  | some (.file content) => .ok content
  | _ => .error .isDirectory

/-- The place of a new entry whose path is seen from a directory: links on the way to it are
followed, as far as there is a way. -/
def newPlace (t : Tree) (directory : Location) (path : String) : Location :=
  let parts := (names path).filter (· ≠ "")
  let front := parts.dropLast
  let above := match t.walk ((linkLimit + 1) * (pathLimit + 1)) linkLimit directory front with
    | .ok place => place
    | .error _ => directory ++ front
  above ++ parts.drop front.length

/-- Makes a directory and those above it, as far as they are missing. -/
def makeDirectories (t : Tree) (place : Location) : Tree :=
  (List.range place.length).foldl (fun t n =>
    let above := place.take (n + 1)
    if (t.entry? above).isSome then t else t.put above .directory) t

/-- Is the name no name of an entry, but of the directory itself or the one above? -/
def isDotName (name : String) : Bool := name = "" ∨ name = "." ∨ name = ".."

/-- Changes the file that a path leads to from a directory, or makes it from nothing; a link in
the last place is followed even if nothing stands where it leads. A path that ends in a slash
names a directory. The first number bounds the links that may be followed in the last place. -/
def change (t : Tree) (f : Bytes → Bytes) : Nat → Location → String → Except FileError Tree
  | 0, _, _ => .error .tooManyLinks
  | links + 1, directory, path => do
      if path.toList.any (·.toNat = 0) then throw .invalidName
      if path = "" then throw .notFound
      if path.utf8ByteSize ≥ pathLimit then throw .nameTooLong
      let trimmed := String.ofList (path.toList.reverse.dropWhile (· == '/')).reverse
      let start := if path.startsWith "/" then [] else directory
      let last := (names trimmed).getLast?.getD ""
      let above := (names trimmed).dropLast
      let parent ← t.walk ((linkLimit + 1) * (pathLimit + 1)) linkLimit start above
      if t.entry? parent ≠ some .directory then throw .notDirectory
      if isDotName last ∨ path.endsWith "/" then throw .isDirectory
      if last.utf8ByteSize > 255 then throw .nameTooLong
      match t.entry? (parent ++ [last]) with
      | none => pure (t.put (parent ++ [last]) (.file (f [])))
      | some (.file content) => pure (t.put (parent ++ [last]) (.file (f content)))
      | some .directory => throw .isDirectory
      | some (.link target) => t.change f links parent target

/-- Adds bytes at the end of the file that a path leads to, which is made if it is missing. -/
def append (t : Tree) (directory : Location) (path : String) (bytes : Bytes) :
    Except FileError Tree :=
  t.change (· ++ bytes) linkLimit directory path

/-- The names of the entries right below a place. -/
def children (t : Tree) (place : Location) : List String :=
  t.entries.filterMap fun (entry, _) =>
    if entry.length = place.length + 1 ∧ place.isPrefixOf entry then entry.getLast? else none

/-- Does the path lead to a file? -/
def isFile (t : Tree) (directory : Location) (path : String) : Bool :=
  match t.resolve directory path with
  | .ok place => match t.entry? place with
    | some (.file _) => true
    | _ => false
  | .error _ => false

/-- Does the path lead to a directory? -/
def isDirectory (t : Tree) (directory : Location) (path : String) : Bool :=
  match t.resolve directory path with
  | .ok place => t.entry? place = some .directory
  | .error _ => false

end Tree

end LanguageClient.Files
