import LanguageClient.Frame.Decoder

/-!
# Messages from chunks

A reader gathers the chunks of a stream and hands out every message that is complete.
-/

namespace LanguageClient.Frame

/-- Gathered bytes, and how far they are searched. -/
structure Reader where
  buffer : Bytes := []
  decoder : Decoder := {}

namespace Reader

/-- A drained reader: the messages taken off in order, what is left, and what was logged. -/
structure Drained where
  messages : List Json
  reader : Reader
  log : List LogEvent

/-- Takes messages off until none is complete. -/
def drain (d : Decoder) (buffer : Bytes) : Drained :=
  match _h : d.decode buffer with
  | ⟨none, d', rest, log⟩ => ⟨[], ⟨rest, d'⟩, log⟩
  | ⟨some value, d', rest, log⟩ =>
      let after := drain d' rest
      ⟨value :: after.messages, after.reader, log ++ after.log⟩
termination_by buffer.length
decreasing_by
  simpa [_h] using (d.decode_buffer buffer).2 (by simp [_h])

/-- Appends a chunk and hands out the messages that are now complete. -/
def push (r : Reader) (chunk : Bytes) : Drained :=
  drain r.decoder (r.buffer ++ chunk)

/-- Number of bytes waiting for the rest of a message. -/
def buffered (r : Reader) : Nat := r.buffer.length

end Reader

end LanguageClient.Frame
