import LanguageClient.Files.Tree
import LanguageClient.Uri.Reference
import LanguageClient.Uri.Url

/-!
# Document URIs in normal form

Documents are compared by their URIs, so a URI is brought to a normal form first. An absolute URL
is written anew, which resolves its dot segments; one that names an existing local file is replaced
by the URL of that file's real place. The result must be a URI reference. A text that is no
absolute URL stays as it is.

What a URL is and where a file really is are questions to others. They are asked of a `Resolver`,
and the normal form is defined for every one; `Resolver.ofTree` is the one for a file tree.
-/

namespace LanguageClient.Uri

/-- What normal forms rest on: absolute URLs, the paths that file URLs name, the real places of
paths, and the grammar of URI references. -/
structure Resolver (υ π : Type) where
  /-- Reads an absolute URL. -/
  read? : String → Option υ
  text : υ → String
  scheme : υ → String
  /-- The path of the local file that a URL names. -/
  path? : υ → Option π
  /-- The URL of a path. -/
  ofPath? : π → Option υ
  /-- The path without links and dots to what is there, if there is something. -/
  real? : π → Option π
  isReference : String → Bool

namespace Resolver

variable {υ π : Type} (k : Resolver υ π)

/-- A URL with an existing local file replaced by its real place. -/
def replaced (u : υ) : υ :=
  if k.scheme u = "file" then (((k.path? u).bind k.real?).bind k.ofPath?).getD u else u

/-- The text, if it is a URI reference. -/
def reference? (text : String) : Option String := if k.isReference text then some text else none

end Resolver

/-- The normal form of a document URI. -/
def normalize {υ π : Type} (k : Resolver υ π) (raw : String) : Option String :=
  match k.read? raw with
  | none => k.reference? raw
  | some u => k.reference? (k.text (k.replaced u))

/-! ## File trees -/

/-- The bytes of the path of the local file that a URL names. -/
def Url.pathBytes? (u : Url) : Option Bytes :=
  match u.hasHost, u.path with
  | false, .segments parts =>
      let bytes := parts.flatMap fun part => 47 :: percentDecode part
      -- a drive name is a directory
      match bytes.reverse with
      | mark :: letter :: _ :: _ =>
          if (mark = 58 ∨ mark = 124) ∧ (Char.ofNat letter.toNat).isAlpha then some (bytes ++ [47])
          else some bytes
      | _ => some bytes
  | _, _ => none

/-- The URL of a place in the file tree. -/
def Url.ofLocation (place : Files.Location) : Url :=
  let parts := place.map fun name => percentEncode segmentSet name.toList
  { scheme := "file", authority := some [], hasHost := false
    path := .segments (if parts.isEmpty then [[]] else parts), query := none, fragment := none }

/-- The URL of an absolute path; repeated slashes and single dots are passed over. -/
def Url.ofPath? (path : String) : Option Url :=
  match path.toList with
  | '/' :: _ => some (.ofLocation ((Files.Tree.names path).filter fun n => n ≠ "" ∧ n ≠ "."))
  | _ => none

/-- The text, if it is a URI reference. -/
def reference? (cs : List Char) : Option String :=
  if isReference cs then some (String.ofList cs) else none

/-- The resolver for the files of a tree, whose names are texts. -/
def Resolver.ofTree (tree : Files.Tree) : Resolver Url String where
  read? raw := Url.read? raw.toList
  text u := String.ofList u.chars
  scheme := Url.scheme
  path? u := u.pathBytes?.bind Utf8.decode?
  ofPath? := Url.ofPath?
  real? path := (tree.resolve [] path).toOption.map Files.Tree.text
  isReference text := Uri.isReference text.toList

end LanguageClient.Uri
