import LanguageClient.Text.Utf8

/-!
# Chunks of a stream

A stream is read in pieces of limited size.
-/

namespace LanguageClient

/-- How much is read from a pipe at a time, in bytes. -/
def chunkSize : Nat := 4096

/-- Cuts bytes into pieces of a size; a size of nothing counts as one. -/
def pieces (size : Nat) (bytes : Bytes) : List Bytes :=
  if _h : bytes = [] then []
  else bytes.take (max 1 size) :: pieces size (bytes.drop (max 1 size))
termination_by bytes.length
decreasing_by
  have : 0 < bytes.length := List.length_pos_iff.mpr ‹_›
  simp only [List.length_drop]
  omega

/-- Cuts bytes into chunks. -/
def chunks (bytes : Bytes) : List Bytes := pieces chunkSize bytes

end LanguageClient
