import LanguageClient.Json.Reader
import LanguageClient.Log
import LanguageClient.Text.Blank
import LanguageClient.Text.Digits
import LanguageClient.Text.Escaped

/-!
# Frames from a byte buffer

A message travels as a header block and a payload: the token `Content-Length:`, the payload's
length in bytes, an empty line, the payload. `Decoder.decode` takes the first complete message off
a buffer. It never fails: a header whose length cannot be read is skipped, a payload that is no
JSON object is dropped, and two rules drop the whole buffer (a declared length above
`maxMessageSize`, and more than `garbageLimit` bytes without a token).

The decoder remembers how much of the buffer is already searched, so that a message arriving byte
by byte is searched once.
-/

namespace LanguageClient.Frame

/-- The token that starts a header block. -/
def token : Bytes := Utf8.encode "Content-Length:"

/-- The empty line that ends a header block. -/
def headerEnd : Bytes := [13, 10, 13, 10]

/-- A line break inside a header block. -/
def lineBreak : Bytes := [13, 10]

/-- Bytes without a token beyond which a buffer is dropped. -/
def garbageLimit : Nat := 1048576

/-- The largest payload length accepted from a peer. -/
def maxMessageSize : Nat := 536870912

/-- The first place in `bytes` where `needle` occurs, counted from `at`. -/
def findFrom (needle : Bytes) : Bytes → Nat → Option Nat
  | [], _ => none
  | b :: rest, place =>
      if needle.isPrefixOf (b :: rest) then some place else findFrom needle rest (place + 1)

/-- The first occurrence of a nonempty `needle` in `bytes` that begins at or after `start`. -/
def find (needle bytes : Bytes) (start : Nat) : Option Nat :=
  findFrom needle (bytes.drop start) start

/-- The bytes from `start` up to but without `stop`. -/
def slice (bytes : Bytes) (start stop : Nat) : Bytes :=
  (bytes.drop start).take (stop - start)

/-- The length a header states: an unsigned 64-bit decimal with blanks around it. -/
def length? (raw : Bytes) : Option Nat :=
  (Utf8.decode? raw).bind fun text => Text.readNat? 0x10000000000000000 (Text.trim text.toList)

/-- How far the buffer has been searched. -/
structure Decoder where
  /-- No token begins before this place. -/
  tokenScan : Nat := 0
  /-- No header end begins before this place. -/
  headerScan : Nat := 0
deriving DecidableEq, Repr

/-- What one look at a buffer leads to. -/
inductive Progress where
  /-- More bytes are needed. -/
  | wait (decoder : Decoder) (buffer : Bytes)
  /-- Something unusable was dropped; look again. -/
  | dropped (buffer : Bytes)
  /-- A message was taken off. -/
  | message (value : Json) (buffer : Bytes)

/-- Judges a payload that is complete. -/
def payload (bytes rest : Bytes) : Progress × LogEvent :=
  match Json.parse bytes with
  | .ok value =>
      if value.isObj then
        (.message value rest,
          .trace .framing s!"LspFrameCodec: parsed complete message ({bytes.length} bytes)")
      else (.dropped rest, .warn .framing "LspFrameCodec: discarding non-object payload")
  | .error e =>
      (.dropped rest,
        .warn .framing s!"LspFrameCodec: discarding invalid JSON payload: {e.message}")

/-- Where the first header block of a buffer lies. -/
inductive Header where
  | absent
  /-- The token begins at `start`, the end has not arrived. -/
  | cut (start : Nat)
  /-- The token begins at `start`, the header end at `stop`. -/
  | whole (start stop : Nat)

/-- Finds the first header block beyond what is already searched. -/
def Decoder.header (d : Decoder) (buffer : Bytes) : Header :=
  match find token buffer d.tokenScan with
  | none => .absent
  | some start =>
      match find headerEnd buffer (max d.headerScan (start + token.length)) with
      | none => .cut start
      | some stop => .whole start stop

/-- The bytes between the token and the end of its line. The header end is itself a line break, so
a line end always exists. -/
def lengthField (buffer : Bytes) (start stop : Nat) : Bytes :=
  let valueStart := start + token.length
  slice buffer valueStart ((find lineBreak buffer valueStart).getD stop)

/-- Looks at a buffer whose header block is whole. -/
def lookWhole (buffer : Bytes) (start stop : Nat) : Progress × LogEvent :=
  let field := lengthField buffer start stop
  let body := buffer.drop (stop + headerEnd.length)
  match length? field with
  | none =>
      let shown := Text.quoted (Utf8.lossy field)
      (.dropped body,
        .warn .framing s!"LspFrameCodec: invalid Content-Length {shown}, skipping header")
  | some length =>
      if length > maxMessageSize then
        (.dropped [],
          .warn .framing (s!"LspFrameCodec: declared length {length} exceeds " ++
            s!"{maxMessageSize}, discarding buffer"))
      else if body.length < length then
        (.wait { tokenScan := start, headerScan := stop } buffer,
          .trace .framing
            s!"LspFrameCodec: incomplete message - need {length - body.length} more bytes")
      else payload (body.take length) (body.drop length)

/-- Looks once at the buffer. -/
def Decoder.look (d : Decoder) (buffer : Bytes) : Progress × List LogEvent :=
  match d.header buffer with
  | .absent =>
      if buffer.length > garbageLimit then
        (.wait {} [],
          [.warn .framing
            s!"LspFrameCodec: no header in {buffer.length} buffered bytes, discarding"])
      else
        -- a token may straddle the end of the buffer
        (.wait { d with tokenScan := buffer.length - (token.length - 1) } buffer, [])
  | .cut start =>
      let searched := max (buffer.length - (headerEnd.length - 1)) (start + token.length)
      (.wait { tokenScan := start, headerScan := searched } buffer, [])
  | .whole start stop =>
      let (progress, event) := lookWhole buffer start stop
      (progress, [event])

/-! ## Every look that does not wait shortens the buffer -/

theorem findFrom_lt {needle bytes : Bytes} {place found : Nat}
    (h : findFrom needle bytes place = some found) : found < place + bytes.length := by
  induction bytes generalizing place with
  | nil => simp [findFrom] at h
  | cons b rest ih =>
    simp only [findFrom] at h
    split at h
    · simp only [Option.some.injEq] at h
      simp; omega
    · have := ih h
      simp; omega

theorem find_lt {needle bytes : Bytes} {start found : Nat}
    (h : find needle bytes start = some found) : found < bytes.length := by
  have := findFrom_lt h
  simp only [List.length_drop] at this
  by_cases hs : start ≤ bytes.length
  · omega
  · simp [find, List.drop_eq_nil_of_le (by omega : bytes.length ≤ start), findFrom] at h

theorem Decoder.header_whole_lt {d : Decoder} {buffer : Bytes} {start stop : Nat}
    (h : d.header buffer = .whole start stop) : stop < buffer.length := by
  unfold Decoder.header at h
  split at h
  · simp at h
  · split at h
    · simp at h
    · simp only [Header.whole.injEq] at h
      exact h.2 ▸ find_lt ‹_›

/-- The buffer left by a look. -/
def Progress.buffer : Progress → Bytes
  | .wait _ buffer => buffer
  | .dropped buffer => buffer
  | .message _ buffer => buffer

/-- Does the look ask for more bytes? -/
def Progress.isWait : Progress → Bool
  | .wait _ _ => true
  | _ => false

theorem payload_buffer (bytes rest : Bytes) : (payload bytes rest).1.buffer = rest := by
  unfold payload
  split
  · split <;> rfl
  · rfl

theorem payload_isWait (bytes rest : Bytes) : (payload bytes rest).1.isWait = false := by
  unfold payload
  split
  · split <;> rfl
  · rfl

theorem lookWhole_buffer {buffer : Bytes} {start stop : Nat} (hlt : stop < buffer.length) :
    (lookWhole buffer start stop).1.buffer.length ≤ buffer.length ∧
      ((lookWhole buffer start stop).1.isWait = false →
        (lookWhole buffer start stop).1.buffer.length < buffer.length) := by
  unfold lookWhole
  dsimp only
  split
  · simp [Progress.buffer, headerEnd]; omega
  · split
    · simp [Progress.buffer]; omega
    · split
      · simp [Progress.buffer, Progress.isWait]
      · simp only [payload_buffer, List.length_drop, headerEnd, List.length_cons]
        omega

theorem Decoder.look_buffer (d : Decoder) (buffer : Bytes) :
    (d.look buffer).1.buffer.length ≤ buffer.length ∧
      ((d.look buffer).1.isWait = false →
        (d.look buffer).1.buffer.length < buffer.length) := by
  unfold Decoder.look
  split
  · split <;> simp [Progress.buffer, Progress.isWait]
  · simp [Progress.buffer, Progress.isWait]
  · rename_i start stop h
    exact lookWhole_buffer (Decoder.header_whole_lt h)

/-- What decoding leaves: a message or none, how far the rest is searched, the rest, and what was
logged. -/
structure Decoded where
  message? : Option Json
  decoder : Decoder
  buffer : Bytes
  log : List LogEvent

/-- Takes the first complete message off the buffer, dropping what is unusable before it. -/
def Decoder.decode (d : Decoder) (buffer : Bytes) : Decoded :=
  match _h : d.look buffer with
  | (.wait d' rest, log) => ⟨none, d', rest, log⟩
  | (.message value rest, log) => ⟨some value, {}, rest, log⟩
  | (.dropped rest, log) =>
      let after := Decoder.decode {} rest
      { after with log := log ++ after.log }
termination_by buffer.length
decreasing_by
  simpa [_h, Progress.buffer] using (d.look_buffer buffer).2 (by simp [_h, Progress.isWait])

theorem Decoder.decode_buffer (d : Decoder) (buffer : Bytes) :
    (d.decode buffer).buffer.length ≤ buffer.length ∧
      ((d.decode buffer).message?.isSome →
        (d.decode buffer).buffer.length < buffer.length) := by
  fun_induction Decoder.decode d buffer with
  | case1 d buffer d' rest log h =>
    have := (d.look_buffer buffer).1
    simp only [h, Progress.buffer] at this
    exact ⟨this, by simp⟩
  | case2 d buffer value rest log h =>
    have := (d.look_buffer buffer).2 (by simp [h, Progress.isWait])
    simp only [h, Progress.buffer] at this
    exact ⟨by simp; omega, by simp; omega⟩
  | case3 d buffer rest log h after ih =>
    have := (d.look_buffer buffer).2 (by simp [h, Progress.isWait])
    simp only [h, Progress.buffer] at this
    refine ⟨?_, fun hm => ?_⟩
    · have := ih.1; simp only [after]; omega
    · have := ih.2 hm; simp only [after]; omega

/-- Decodes at the end of the stream: when no message is complete, what is left is dropped. -/
def Decoder.decodeEnd (d : Decoder) (buffer : Bytes) : Decoded :=
  let r := d.decode buffer
  if r.message?.isNone ∧ r.buffer ≠ [] then
    { message? := none, decoder := {}, buffer := []
      log := r.log ++
        [.trace .framing s!"LspFrameCodec: {r.buffer.length} trailing bytes at end of stream"] }
  else r

end LanguageClient.Frame
