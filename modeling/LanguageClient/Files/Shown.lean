import LanguageClient.Files.Tree
import LanguageClient.Text.Shown

/-!
# File errors as diagnostic text
-/

namespace LanguageClient.Files.FileError

open Text

/-- The kind of an error. -/
def kind : FileError → String
  | .notFound => "NotFound"
  | .accessDenied => "PermissionDenied"
  | .notDirectory => "NotADirectory"
  | .isDirectory => "IsADirectory"
  | .readOnly => "ReadOnlyFilesystem"
  | .nameTooLong => "InvalidFilename"
  | .tooManyLinks => "FilesystemLoop"
  | .invalidName | .embeddedNull => "InvalidInput"
  | .invalidEncoding => "InvalidData"

/-- An error of the system has a number; any other one has a kind and words only. -/
def shown (e : FileError) : String :=
  match e.number? with
  | some number =>
      shownRecord "Os"
        [("code", toString number), ("kind", e.kind), ("message", quoted e.words)]
  | none => shownRecord "Error" [("kind", e.kind), ("message", quoted e.words)]

end LanguageClient.Files.FileError
