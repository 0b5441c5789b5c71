import LanguageClient.Uri.Domain
import LanguageClient.Uri.Percent

/-!
# Absolute URLs

A forgiving reader for absolute URLs, as browsers have one, and the text of what was read. The
schemes of the web and of files always have an authority and a path; their hosts are domain names
or addresses, and a backslash counts as a slash in them. Other schemes keep their host as it
stands and may have an opaque path.
-/

namespace LanguageClient.Uri

/-- How a scheme is read. -/
inductive SchemeKind where
  | file | web | other
deriving DecidableEq, Repr

/-- The kind of a scheme. -/
def SchemeKind.of (scheme : String) : SchemeKind :=
  if scheme = "file" then .file
  else if ["http", "https", "ws", "wss", "ftp"].contains scheme then .web
  else .other

/-- Schemes of files and of the web. -/
def SchemeKind.isSpecial (k : SchemeKind) : Bool := k != .other

/-- The port that a scheme uses when none is stated. -/
def defaultPort? (scheme : String) : Option Nat :=
  if scheme = "http" ∨ scheme = "ws" then some 80
  else if scheme = "https" ∨ scheme = "wss" then some 443
  else if scheme = "ftp" then some 21
  else none

/-- A path: opaque text, or encoded segments behind a slash each. -/
inductive UrlPath where
  | opaquePath (text : List Char)
  | segments (parts : List (List Char))
deriving DecidableEq, Repr

/-- An absolute URL, its parts encoded. -/
structure Url where
  scheme : String
  /-- What stands between the two slashes and the path. -/
  authority : Option (List Char)
  /-- Is there a host in the authority? -/
  hasHost : Bool
  path : UrlPath
  query : Option (List Char)
  fragment : Option (List Char)
deriving DecidableEq, Repr

/-! ## Writing -/

/-- The text of a path. -/
def UrlPath.chars : UrlPath → List Char
  | .opaquePath text => text
  | .segments parts => parts.flatMap ('/' :: ·)

/-- A part behind its mark, if present. -/
def markedPart (mark : Char) : Option (List Char) → List Char
  | some part => mark :: part
  | none => []

/-- The text of a URL. Without an authority, a path that begins with two slashes gets `/.` in
front, so that it is not read as one. -/
def Url.chars (u : Url) : List Char :=
  let path := u.path.chars
  let front := match u.authority with
    | some authority => '/' :: '/' :: authority
    | none => if path.take 2 = ['/', '/'] then ['/', '.'] else []
  u.scheme.toList ++ ':' :: front ++ path ++ markedPart '?' u.query ++ markedPart '#' u.fragment

/-! ## Hosts -/

/-- Characters that no opaque host holds. -/
def forbiddenInHost (c : Char) : Bool :=
  c.toNat == 0 || c == '\t' || c == '\n' || c == '\r' || " #/:<>?@[\\]^|".toList.contains c

/-- A host between brackets. -/
def bracketedHost? (rest : List Char) : Option (List Char) :=
  if rest.getLast? = some ']' then
    (address6? rest.dropLast).map fun groups => '[' :: (address6Text groups).toList ++ [']']
  else none

/-- The host of a scheme of the web or of files. -/
def domainHost? (cs : List Char) : Option (List Char) :=
  match cs with
  | '[' :: rest => bracketedHost? rest
  | cs => do
      let name ← Utf8.decode? (percentDecode cs)
      let ascii ← domainToAscii? name.toList
      if ascii.isEmpty then none
      else if endsInNumber ascii then (address4? ascii).map fun n => (address4Text n).toList
      else some ascii

/-- The host of another scheme. -/
def opaqueHost? (cs : List Char) : Option (List Char) :=
  match cs with
  | '[' :: rest => bracketedHost? rest
  | cs => if cs.any forbiddenInHost then none else some (percentEncode controlSet cs)

/-! ## Paths -/

/-- Does a letter and a colon or bar make the segment a drive name? -/
def isDriveName : List Char → Bool
  | [c, mark] => c.isAlpha && (mark == ':' || mark == '|')
  | _ => false

/-- The spellings of a segment that names the same directory. -/
def isDot (segment : List Char) : Bool :=
  let s := (String.ofList segment).toLower
  s == "." || s == "%2e"

/-- The spellings of a segment that names the parent directory. -/
def isDoubleDot (segment : List Char) : Bool :=
  let s := (String.ofList segment).toLower
  s == ".." || s == ".%2e" || s == "%2e." || s == "%2e%2e"

/-- Cuts a path into segments; a backslash separates too in special schemes. -/
def pathSegments (special : Bool) : List Char → List (List Char)
  | [] => [[]]
  | c :: rest =>
      if c = '/' ∨ (special ∧ c = '\\') then [] :: pathSegments special rest
      else match pathSegments special rest with
        | [] => [[c]]
        | part :: parts => (c :: part) :: parts

/-- Removes the last segment, unless it is a drive name. -/
def leaveSegment (done : List (List Char)) : List (List Char) :=
  match done with
  | last :: front => if isDriveName last then done else front
  | [] => []

/-- Resolves dot segments; `done` holds the segments so far, newest first. A path that ends in a
dot segment names a directory: it ends in an empty segment. -/
def resolveDots : List (List Char) → List (List Char) → List (List Char)
  | done, [] => done
  | done, [last] =>
      let segment := percentEncode pathSet last
      if isDoubleDot segment then [] :: leaveSegment done
      else if isDot segment then [] :: done
      else segment :: done
  | done, next :: rest =>
      let segment := percentEncode pathSet next
      if isDoubleDot segment then resolveDots (leaveSegment done) rest
      else if isDot segment then resolveDots done rest
      else resolveDots (segment :: done) rest

/-- The segments of the text behind the first slash of a path. -/
def segmentsOf (special : Bool) (text : List Char) : UrlPath :=
  .segments (resolveDots [] (pathSegments special text)).reverse

/-- The path behind an authority. A special scheme always has one. -/
def pathAfterAuthority (special : Bool) (text : List Char) : UrlPath :=
  match text with
  | c :: rest =>
      if c = '/' ∨ (special ∧ c = '\\') then segmentsOf special rest
      else segmentsOf special text
  | [] => if special then .segments [[]] else .segments []

/-! ## Authorities -/

/-- Does the character end an authority? -/
def endsAuthority (special : Bool) (c : Char) : Bool :=
  c == '/' || (special && c == '\\')

/-- Splits at the last occurrence of a character. -/
def splitLast (mark : Char) (cs : List Char) : Option (List Char × List Char) :=
  let parts := splitAt mark cs
  if parts.length > 1 then some ([mark].intercalate parts.dropLast, parts.getLast?.getD [])
  else none

/-- The user information in front of the host, encoded; an empty password is left out. -/
def userInfo (cs : List Char) : List Char :=
  let (name, password) := (cs.takeWhile (· ≠ ':'), (cs.dropWhile (· ≠ ':')).drop 1)
  let name := percentEncode userInfoSet name
  let password := percentEncode userInfoSet password
  if name.isEmpty ∧ password.isEmpty then []
  else if password.isEmpty then name ++ ['@']
  else name ++ ':' :: password ++ ['@']

/-- Splits host and port at the first colon outside brackets. -/
def splitPort : Bool → List Char → List Char × List Char
  | _, [] => ([], [])
  | inside, c :: rest =>
      if c = ':' ∧ ¬ inside then ([], c :: rest)
      else
        let inside := if c = '[' then true else if c = ']' then false else inside
        let (host, port) := splitPort inside rest
        (c :: host, port)

/-- A port behind its colon: nothing when it is not below 65536; empty when it is the scheme's own
or not stated. -/
def portText? (scheme : String) (digits : List Char) : Option (List Char) := do
  let n ← Text.digitsValue? digits
  if n > 65535 then none
  else if digits.isEmpty ∨ defaultPort? scheme = some n then some []
  else some (':' :: (toString n).toList)

/-- Reads an authority: its text, and whether it has a host. -/
def authority? (scheme : String) (special : Bool) (cs : List Char) (atEnd : Bool) :
    Option (List Char × Bool) := do
  let (user, hostPort) ← match splitLast '@' cs with
    | none => some ([], cs)
    | some ([], rest) => if rest.isEmpty ∧ ¬ atEnd then none else some ([], rest)
    | some (user, rest) => some (userInfo user, rest)
  let (host, port) := splitPort false hostPort
  let hostText ← if special then (if host.isEmpty then none else domainHost? host)
    else opaqueHost? host
  if host.isEmpty ∧ (¬ port.isEmpty ∨ ¬ user.isEmpty) then none
  else
    let portText ← match port with
      | [] => some []
      | _ :: digits => portText? scheme digits
    some (user ++ hostText ++ portText, ¬ host.isEmpty)

/-! ## Reading -/

/-- Queries and fragments, split off and encoded. -/
def splitTail (special : Bool) (cs : List Char) :
    List Char × Option (List Char) × Option (List Char) :=
  let front := cs.takeWhile (· ≠ '#')
  let fragment := match cs.dropWhile (· ≠ '#') with
    | _ :: rest => some (percentEncode fragmentSet rest)
    | [] => none
  let query := match front.dropWhile (· ≠ '?') with
    | _ :: rest => some (percentEncode (if special then specialQuerySet else querySet) rest)
    | [] => none
  (front.takeWhile (· ≠ '?'), query, fragment)

/-- The host part of a file URL, when it is not a drive name. -/
def fileHost? (cs : List Char) : Option (List Char × Bool) :=
  if cs.isEmpty then some ([], false)
  else do
    let host ← domainHost? cs
    if host = "localhost".toList then some ([], false) else some (host, true)

/-- What follows `file:`. -/
def readFile (front : List Char) : Option (List Char × Bool × UrlPath) :=
  let slash (c : Char) : Bool := c == '/' || c == '\\'
  match front with
  | a :: b :: rest =>
      if slash a && slash b then
        let host := rest.takeWhile (¬ slash ·)
        if isDriveName host then some ([], false, segmentsOf true rest)
        else (fileHost? host).map fun (text, hasHost) =>
          (text, hasHost, pathAfterAuthority true (rest.dropWhile (¬ slash ·)))
      else some ([], false, pathAfterAuthority true front)
  | front => some ([], false, pathAfterAuthority true front)

/-- What follows `http:` and the like, however many slashes there are. -/
def readWeb (scheme : String) (front : List Char) (atEnd : Bool) :
    Option (List Char × Bool × UrlPath) := do
  let rest := front.dropWhile fun c => c == '/' || c == '\\'
  let after := rest.dropWhile (¬ endsAuthority true ·)
  let (text, hasHost) ←
    authority? scheme true (rest.takeWhile (¬ endsAuthority true ·)) (atEnd && after.isEmpty)
  some (text, hasHost, pathAfterAuthority true after)

/-- Controls and spaces are dropped at both ends, tabs and line breaks everywhere. -/
def cleaned (cs : List Char) : List Char :=
  let blank (c : Char) : Bool := c.toNat ≤ 0x20
  let trimmed := ((cs.dropWhile blank).reverse.dropWhile blank).reverse
  trimmed.filter fun c => c ≠ '\t' ∧ c ≠ '\n' ∧ c ≠ '\r'

/-- Reads an absolute URL. -/
def Url.read? (raw : List Char) : Option Url := do
  let cs := cleaned raw
  let (name, rest) := (cs.takeWhile (· ≠ ':'), cs.dropWhile (· ≠ ':'))
  let valid : Bool := match name with
    | c :: more => c.isAlpha && more.all fun c => c.isAlphanum || c == '+' || c == '-' || c == '.'
    | [] => false
  if ¬ valid ∨ rest.isEmpty then none
  else
    let scheme := String.ofList (name.map Char.toLower)
    let kind := SchemeKind.of scheme
    let (front, query, fragment) := splitTail kind.isSpecial (rest.drop 1)
    let atEnd := query.isNone && fragment.isNone
    match kind with
    | .file =>
        let (text, hasHost, path) ← readFile front
        some ⟨scheme, some text, hasHost, path, query, fragment⟩
    | .web =>
        let (text, hasHost, path) ← readWeb scheme front atEnd
        some ⟨scheme, some text, hasHost, path, query, fragment⟩
    | .other =>
        match front with
        | '/' :: '/' :: more =>
            let after := more.dropWhile (· ≠ '/')
            let (text, hasHost) ←
              authority? scheme false (more.takeWhile (· ≠ '/')) (atEnd && after.isEmpty)
            some ⟨scheme, some text, hasHost, pathAfterAuthority false after, query, fragment⟩
        | '/' :: more => some ⟨scheme, none, false, segmentsOf false more, query, fragment⟩
        | front =>
            let path := percentEncode controlSet front
            some ⟨scheme, none, false, .opaquePath path, query, fragment⟩

end LanguageClient.Uri
