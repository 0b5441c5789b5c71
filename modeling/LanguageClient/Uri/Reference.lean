import LanguageClient.Uri.Address

/-!
# URI references

The grammar of RFC 3986: a URI with a scheme, or a relative reference. Only ASCII text can be one.
-/

namespace LanguageClient.Uri

/-- Letters, digits and four marks. -/
def isUnreserved (c : Char) : Bool :=
  c.isAlphanum || c == '-' || c == '.' || c == '_' || c == '~'

/-- Delimiters that keep their meaning to the scheme. -/
def isSubDelim (c : Char) : Bool :=
  "!$&'()*+,;=".toList.contains c

/-- Are all characters allowed or parts of escapes? -/
def allowed (extra : Char → Bool) : List Char → Bool
  | [] => true
  | '%' :: a :: b :: rest =>
      (Text.hexValue? a).isSome && (Text.hexValue? b).isSome && allowed extra rest
  | c :: rest => (isUnreserved c || isSubDelim c || extra c) && allowed extra rest

/-- The characters of a path segment. -/
def isSegmentExtra (c : Char) : Bool := c == ':' || c == '@'

/-- The characters of a path. -/
def isPathExtra (c : Char) : Bool := isSegmentExtra c || c == '/'

/-- The characters of a query or fragment. -/
def isQueryExtra (c : Char) : Bool := isPathExtra c || c == '?'

/-- A letter, then letters, digits and three marks. -/
def isSchemeName : List Char → Bool
  | [] => false
  | c :: rest =>
      c.isAlpha && rest.all fun c => c.isAlphanum || c == '+' || c == '-' || c == '.'

/-- Splits before the first character that satisfies a test. -/
def splitBefore (p : Char → Bool) (cs : List Char) : List Char × List Char :=
  (cs.takeWhile (¬ p ·), cs.dropWhile (¬ p ·))

/-- A host between brackets: a version 6 address, or a later version with its number. -/
def isBracketedHost (cs : List Char) : Bool :=
  match cs with
  | c :: rest =>
      if c == 'v' || c == 'V' then
        let (number, rest) := splitBefore (· == '.') rest
        !number.isEmpty && number.all (fun c => (Text.hexValue? c).isSome) &&
          match rest with
          | '.' :: address =>
              !address.isEmpty && address.all fun c => isUnreserved c || isSubDelim c || c == ':'
          | _ => false
      else (address6? cs).isSome
  | [] => false

/-- An optional port behind a host. -/
def isPortPart : List Char → Bool
  | [] => true
  | ':' :: digits => digits.all Char.isDigit
  | _ => false

/-- A host with an optional port. -/
def isHostPort (cs : List Char) : Bool :=
  match cs with
  | '[' :: rest =>
      let (inside, rest) := splitBefore (· == ']') rest
      match rest with
      | ']' :: port => isBracketedHost inside && isPortPart port
      | _ => false
  | cs =>
      let (name, port) := splitBefore (· == ':') cs
      allowed (fun _ => false) name && isPortPart port

/-- User information, host and port. -/
def isAuthority (cs : List Char) : Bool :=
  let (user, rest) := splitBefore (· == '@') cs
  match rest with
  | '@' :: host => allowed (· == ':') user && isHostPort host
  | _ => isHostPort cs

/-- What follows the scheme: an authority behind two slashes, and a path. -/
def isHierarchical (cs : List Char) : Bool :=
  match cs with
  | '/' :: '/' :: rest =>
      let (authority, path) := splitBefore (· == '/') rest
      isAuthority authority && allowed isPathExtra path
  | cs => allowed isPathExtra cs

/-- Is the text a URI reference? -/
def isReference (cs : List Char) : Bool :=
  let (front, fragment) := splitBefore (· == '#') cs
  let (front, query) := splitBefore (· == '?') front
  let (first, rest) := splitBefore (fun c => c == ':' || c == '/') front
  allowed isQueryExtra (fragment.drop 1) && allowed isQueryExtra (query.drop 1) &&
    match rest with
    | ':' :: after => isSchemeName first && isHierarchical after
    | _ => isHierarchical front

/-- Where a text stops to be a URI reference: the length of its longest part from the start that is
one. -/
def referenceLength (cs : List Char) : Nat :=
  ((List.range (cs.length + 1)).filter fun n => isReference (cs.take n)).getLast?.getD 0

end LanguageClient.Uri
