import LanguageClient.Json.Writer
import LanguageClient.Text.Utf8

/-!
# Frames from messages
-/

namespace LanguageClient.Frame

/-- The header block of a payload of `length` bytes. -/
def header (length : Nat) : Bytes :=
  Utf8.encode s!"Content-Length: {length}\r\n\r\n"

/-- A message as it travels: its header block, then its compact text. -/
def encode (message : Json) : Bytes :=
  let body := Utf8.encode message.render
  header body.length ++ body

end LanguageClient.Frame
