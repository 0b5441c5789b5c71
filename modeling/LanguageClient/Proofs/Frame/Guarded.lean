import LanguageClient.Proofs.Frame.Cutting

/-!
# Decoding never fails

`Guarded` is the decoder with nothing taken for granted. A sum has to fit a machine word, a
difference must not fall below zero, a slice has to lie within the bytes, no more is taken off a
buffer than it holds, and a loop goes round a limited number of times; whatever does not hold is a
fault. The offsets that a decoder remembers may be any numbers, also ones that were left by another
buffer. Yet there is no fault, and what comes out is what `Decoder.decode` and `Reader.push` give
(`decoding_never_fails`). Two facts carry this: every place that a look works with was found in the
buffer at hand, wherever the search for it began (`Decoder.header_inside`), and a look after which
the loop goes on leaves a shorter buffer (`Decoder.look_buffer`).
-/

namespace LanguageClient.Frame

/-- How many numbers a machine word can hold. -/
def wordSize : Nat := 0x10000000000000000

/-- The most bytes that a buffer can hold. -/
def bufferLimit : Nat := 0x7fffffffffffffff

/-- Why a step cannot be made. -/
inductive Fault where
  /-- A sum does not fit a machine word. -/
  | overflow
  /-- A difference is below zero. -/
  | underflow
  /-- A slice ends before it begins, or behind the bytes. -/
  | slice
  /-- More bytes are taken off than there are. -/
  | advance
  /-- Nothing is looked for. -/
  | needle
  /-- A loop has used up its turns. -/
  | turns
deriving DecidableEq, Repr

namespace Guarded

/-! ## The steps -/

/-- The sum of two offsets. -/
def add (a b : Nat) : Except Fault Nat := if a + b < wordSize then .ok (a + b) else .error .overflow

/-- The difference of two offsets. -/
def sub (a b : Nat) : Except Fault Nat := if b ≤ a then .ok (a - b) else .error .underflow

/-- The bytes from `start` up to but without `stop`. -/
def slice (bytes : Bytes) (start stop : Nat) : Except Fault Bytes :=
  if start ≤ stop ∧ stop ≤ bytes.length then .ok (Frame.slice bytes start stop)
  else .error .slice

/-- Takes the first `count` bytes off a buffer. -/
def advance (buffer : Bytes) (count : Nat) : Except Fault (Bytes × Bytes) :=
  if count ≤ buffer.length then .ok (buffer.take count, buffer.drop count) else .error .advance

/-- The first occurrence of a needle that begins at or after `start`. It is looked for in the bytes
from `start` on, and counted from there. -/
def find (needle bytes : Bytes) (start : Nat) : Except Fault (Option Nat) :=
  if bytes.length < start then .ok none
  else if needle = [] then .error .needle
  else do
    let behind ← slice bytes start bytes.length
    match findFrom needle behind 0 with
    | none => return none
    | some place => return some (← add place start)

/-! ## A look at a buffer -/

/-- Finds the first header block beyond what is already searched. -/
def header (d : Decoder) (buffer : Bytes) : Except Fault Header := do
  match ← find token buffer d.tokenScan with
  | none => return .absent
  | some start =>
      let valueStart ← add start token.length
      match ← find headerEnd buffer (max d.headerScan valueStart) with
      | none => return .cut start
      | some stop => return .whole start stop

/-- The bytes between the token and the end of its line. -/
def lengthField (buffer : Bytes) (start stop : Nat) : Except Fault Bytes := do
  let valueStart ← add start token.length
  let line ← find lineBreak buffer valueStart
  slice buffer valueStart (line.getD stop)

/-- Looks at a buffer whose header block is whole. -/
def lookWhole (buffer : Bytes) (start stop : Nat) : Except Fault (Progress × LogEvent) := do
  let field ← lengthField buffer start stop
  let bodyStart ← add stop headerEnd.length
  match length? field with
  | none =>
      let (_, body) ← advance buffer bodyStart
      let shown := Text.quoted (Utf8.lossy field)
      return (.dropped body,
        .warn .framing s!"LspFrameCodec: invalid Content-Length {shown}, skipping header")
  | some length =>
      if length > maxMessageSize then
        return (.dropped [],
          .warn .framing (s!"LspFrameCodec: declared length {length} exceeds " ++
            s!"{maxMessageSize}, discarding buffer"))
      else
        let needed ← add bodyStart length
        if buffer.length < needed then
          let missing ← sub needed buffer.length
          return (.wait { tokenScan := start, headerScan := stop } buffer,
            .trace .framing s!"LspFrameCodec: incomplete message - need {missing} more bytes")
        else
          let (_, body) ← advance buffer bodyStart
          let (text, rest) ← advance body length
          return payload text rest

/-- Looks once at the buffer. -/
def look (d : Decoder) (buffer : Bytes) : Except Fault (Progress × List LogEvent) := do
  match ← header d buffer with
  | .absent =>
      if buffer.length > garbageLimit then
        return (.wait {} [],
          [.warn .framing
            s!"LspFrameCodec: no header in {buffer.length} buffered bytes, discarding"])
      else
        -- this difference, and the one below, may stop at zero
        return (.wait { d with tokenScan := buffer.length - (token.length - 1) } buffer, [])
  | .cut start =>
      let searched := max (buffer.length - (headerEnd.length - 1)) (← add start token.length)
      return (.wait { tokenScan := start, headerScan := searched } buffer, [])
  | .whole start stop =>
      let (progress, event) ← lookWhole buffer start stop
      return (progress, [event])

/-! ## The loops, with a number of turns -/

/-- Takes the first complete message off the buffer: looks again as long as something is dropped. -/
def decode : Nat → Decoder → Bytes → Except Fault Decoded
  | 0, _, _ => .error .turns
  | turns + 1, d, buffer => do
      let (progress, log) ← look d buffer
      match progress with
      | .wait d' rest => return ⟨none, d', rest, log⟩
      | .message value rest => return ⟨some value, {}, rest, log⟩
      | .dropped rest =>
          let after ← decode turns {} rest
          return { after with log := log ++ after.log }

/-- Decodes at the end of the stream: when no message is complete, what is left is dropped. -/
def decodeEnd (turns : Nat) (d : Decoder) (buffer : Bytes) : Except Fault Decoded := do
  let r ← decode turns d buffer
  if r.message?.isNone ∧ r.buffer ≠ [] then
    return {
      message? := none, decoder := {}, buffer := []
      log := r.log ++
        [.trace .framing s!"LspFrameCodec: {r.buffer.length} trailing bytes at end of stream"] }
  else return r

/-- Takes messages off until none is complete. -/
def drain : Nat → Decoder → Bytes → Except Fault Reader.Drained
  | 0, _, _ => .error .turns
  | turns + 1, d, buffer => do
      let decoded ← decode (turns + 1) d buffer
      match decoded.message? with
      | none => return ⟨[], ⟨decoded.buffer, decoded.decoder⟩, decoded.log⟩
      | some value =>
          let after ← drain turns decoded.decoder decoded.buffer
          return ⟨value :: after.messages, after.reader, decoded.log ++ after.log⟩

/-- Appends a chunk and hands out the messages that are now complete. -/
def push (turns : Nat) (r : Reader) (chunk : Bytes) : Except Fault Reader.Drained :=
  drain turns r.decoder (r.buffer ++ chunk)

/-! ## No step is a fault -/

theorem ok_bind {α β : Type} (a : α) (f : α → Except Fault β) : (Except.ok a >>= f) = f a := rfl

theorem add_eq {a b : Nat} (h : a + b < wordSize) : add a b = .ok (a + b) := if_pos h

theorem sub_eq {a b : Nat} (h : b ≤ a) : sub a b = .ok (a - b) := if_pos h

theorem slice_eq {bytes : Bytes} {start stop : Nat} (hle : start ≤ stop)
    (hin : stop ≤ bytes.length) : slice bytes start stop = .ok (Frame.slice bytes start stop) :=
  if_pos ⟨hle, hin⟩

theorem advance_eq {buffer : Bytes} {count : Nat} (h : count ≤ buffer.length) :
    advance buffer count = .ok (buffer.take count, buffer.drop count) := if_pos h

/-- It does not matter from where places are counted. -/
theorem findFrom_shift {needle : Bytes} (hne : needle ≠ []) (bytes : Bytes) (start : Nat) :
    findFrom needle bytes start = (findFrom needle bytes 0).map (· + start) := by
  cases hfound : findFrom needle bytes 0 with
  | none =>
      rw [findFrom_eq_none_iff hne] at hfound
      exact (findFrom_eq_none_iff hne).mpr hfound
  | some found =>
      obtain ⟨k, rfl, hk, hfirst⟩ := (findFrom_eq_some_iff hne).mp hfound
      rw [Option.map_some, Nat.zero_add, Nat.add_comm]
      exact (findFrom_eq_some_iff hne).mpr ⟨k, rfl, hk, hfirst⟩

theorem find_eq {needle bytes : Bytes} (hne : needle ≠ []) (hfits : bytes.length < wordSize)
    (start : Nat) : find needle bytes start = .ok (Frame.find needle bytes start) := by
  unfold find
  rcases Nat.lt_or_ge bytes.length start with hbehind | hin
  · rw [if_pos hbehind]
    unfold Frame.find
    rw [List.drop_eq_nil_of_le (Nat.le_of_lt hbehind)]
    rfl
  · have hslice : Frame.slice bytes start bytes.length = bytes.drop start := by
      unfold Frame.slice
      exact List.take_of_length_le (Nat.le_of_eq List.length_drop)
    have hshift := findFrom_shift hne (bytes.drop start) start
    rw [if_neg (Nat.not_lt.mpr hin), if_neg hne, slice_eq hin (Nat.le_refl _), ok_bind, hslice]
    cases hfound : findFrom needle (bytes.drop start) 0 with
    | none =>
        rw [hfound] at hshift
        exact congrArg Except.ok hshift.symm
    | some place =>
        rw [hfound] at hshift
        have hplace := find_lt hshift
        dsimp only
        rw [add_eq (Nat.lt_trans hplace hfits)]
        exact congrArg Except.ok hshift.symm

end Guarded

/-! ## Where a look works -/

/-- The parts of a whole header block lie one behind the other, within the buffer. -/
structure Inside (buffer : Bytes) (start stop : Nat) : Prop where
  line : ∃ line, find lineBreak buffer (start + token.length) = some line ∧
    start + token.length ≤ line ∧ line ≤ stop
  stop : stop + headerEnd.length ≤ buffer.length

theorem Decoder.header_inside {d : Decoder} {buffer : Bytes} {start stop : Nat}
    (h : d.header buffer = .whole start stop) : Inside buffer start stop := by
  obtain ⟨-, hend⟩ := Decoder.header_whole_iff.mp h
  obtain ⟨hfrom, hstands, -⟩ := (find_eq_some_iff headerEnd_ne_nil).mp hend
  -- the search for the end may begin anywhere, but not before the token ends
  have hbehind : start + token.length ≤ stop := Nat.le_trans (Nat.le_max_right _ _) hfrom
  obtain ⟨line, hline, hto⟩ := lineBreak_of_stands hbehind hstands
  exact ⟨⟨line, hline, ((find_eq_some_iff lineBreak_ne_nil).mp hline).1, hto⟩,
    hstands.le headerEnd_ne_nil⟩

/-- The token of a header block that has not arrived as a whole lies within the buffer too. -/
theorem Decoder.header_cut_inside {d : Decoder} {buffer : Bytes} {start : Nat}
    (h : d.header buffer = .cut start) : start + token.length ≤ buffer.length := by
  obtain ⟨htoken, -⟩ := Decoder.header_cut_iff.mp h
  exact find_inside token_ne_nil htoken

namespace Guarded

section Fits

variable {buffer : Bytes} (fits : buffer.length ≤ bufferLimit)
include fits

theorem length_lt_wordSize : buffer.length < wordSize :=
  Nat.lt_of_le_of_lt fits (by decide)

theorem add_message_lt {place length : Nat} (hplace : place ≤ buffer.length)
    (hlength : length ≤ maxMessageSize) : place + length < wordSize := by
  have hroom : bufferLimit + maxMessageSize < wordSize := by decide
  omega

theorem header_eq (d : Decoder) : header d buffer = .ok (d.header buffer) := by
  have hword := length_lt_wordSize fits
  unfold header Decoder.header
  rw [find_eq token_ne_nil hword, ok_bind]
  cases htoken : Frame.find token buffer d.tokenScan with
  | none => rfl
  | some start =>
      have hin := find_inside token_ne_nil htoken
      dsimp only
      rw [add_eq (Nat.lt_of_le_of_lt hin hword), ok_bind, find_eq headerEnd_ne_nil hword, ok_bind]
      cases Frame.find headerEnd buffer (max d.headerScan (start + token.length)) with
      | none => rfl
      | some stop => rfl

theorem lengthField_eq {start stop : Nat} (h : Inside buffer start stop) :
    lengthField buffer start stop = .ok (Frame.lengthField buffer start stop) := by
  have hword := length_lt_wordSize fits
  obtain ⟨line, hline, hfrom, hto⟩ := h.line
  have hstop := h.stop
  have hin : line ≤ buffer.length := by omega
  unfold lengthField Frame.lengthField
  rw [add_eq (by omega), ok_bind, find_eq lineBreak_ne_nil hword, ok_bind]
  dsimp only
  rw [hline, Option.getD_some, slice_eq hfrom hin]

theorem lookWhole_eq {start stop : Nat} (h : Inside buffer start stop) :
    lookWhole buffer start stop = .ok (Frame.lookWhole buffer start stop) := by
  have hword := length_lt_wordSize fits
  have hstop := h.stop
  have hbody : (buffer.drop (stop + headerEnd.length)).length =
      buffer.length - (stop + headerEnd.length) := List.length_drop
  unfold lookWhole Frame.lookWhole
  rw [lengthField_eq fits h, ok_bind, add_eq (Nat.lt_of_le_of_lt hstop hword), ok_bind]
  dsimp only
  cases length? (Frame.lengthField buffer start stop) with
  | none =>
      dsimp only
      rw [advance_eq hstop, ok_bind]
      rfl
  | some length =>
      dsimp only
      rcases Nat.lt_or_ge maxMessageSize length with hlarge | hsmall
      · rw [if_pos hlarge, if_pos hlarge]
        rfl
      · rw [if_neg (Nat.not_lt.mpr hsmall), if_neg (Nat.not_lt.mpr hsmall),
          add_eq (add_message_lt fits hstop hsmall), ok_bind]
        rcases Nat.lt_or_ge buffer.length (stop + headerEnd.length + length) with hshort | hfull
        · have hmissing : stop + headerEnd.length + length - buffer.length =
              length - (buffer.drop (stop + headerEnd.length)).length := by omega
          rw [if_pos hshort, if_pos (by omega), sub_eq (Nat.le_of_lt hshort), ok_bind, hmissing]
          rfl
        · rw [if_neg (Nat.not_lt.mpr hfull), if_neg (by omega), advance_eq hstop, ok_bind]
          dsimp only
          rw [advance_eq (by omega), ok_bind]
          rfl

theorem look_eq (d : Decoder) : look d buffer = .ok (d.look buffer) := by
  unfold look Decoder.look
  rw [header_eq fits, ok_bind]
  cases hheader : d.header buffer with
  | absent =>
      dsimp only
      split
      · rfl
      · rfl
  | cut start =>
      have hin := Decoder.header_cut_inside hheader
      dsimp only
      rw [add_eq (Nat.lt_of_le_of_lt hin (length_lt_wordSize fits)), ok_bind]
      rfl
  | whole start stop =>
      dsimp only
      rw [lookWhole_eq fits (Decoder.header_inside hheader), ok_bind]
      rfl

end Fits

/-! ## No loop goes round for ever -/

section Turns

variable {d : Decoder} {buffer : Bytes} {turns : Nat}

/-- The decoder looks at a shorter buffer each time, so it needs no more turns than there are bytes,
and one in which it stops. -/
theorem decode_eq (fits : buffer.length ≤ bufferLimit) (enough : buffer.length < turns) :
    decode turns d buffer = .ok (d.decode buffer) := by
  induction turns generalizing d buffer with
  | zero => exact absurd enough (Nat.not_lt_zero _)
  | succ turns ih =>
      have hshort := (d.look_buffer buffer).2
      unfold decode
      rw [look_eq fits, ok_bind]
      dsimp only
      cases hlook : (d.look buffer).1 with
      | wait d' rest =>
          rw [decode_wait hlook]
          rfl
      | message value rest =>
          rw [decode_message hlook]
          rfl
      | dropped rest =>
          rw [hlook] at hshort
          have hrest : rest.length < buffer.length := hshort rfl
          rw [decode_dropped hlook]
          dsimp only
          rw [ih (by omega) (by omega), ok_bind]
          rfl

theorem decodeEnd_eq (fits : buffer.length ≤ bufferLimit) (enough : buffer.length < turns) :
    decodeEnd turns d buffer = .ok (d.decodeEnd buffer) := by
  unfold decodeEnd Decoder.decodeEnd
  rw [decode_eq fits enough, ok_bind]
  dsimp only
  split
  · rfl
  · rfl

theorem drain_eq (fits : buffer.length ≤ bufferLimit) (enough : buffer.length < turns) :
    drain turns d buffer = .ok (Reader.drain d buffer) := by
  induction turns generalizing d buffer with
  | zero => exact absurd enough (Nat.not_lt_zero _)
  | succ turns ih =>
      have hshort := (d.decode_buffer buffer).2
      unfold drain
      rw [decode_eq fits enough, ok_bind, Reader.drain]
      rcases hdecoded : d.decode buffer with ⟨message, d', rest, log⟩
      rw [hdecoded] at hshort
      cases message with
      | none => rfl
      | some value =>
          have hrest : rest.length < buffer.length := hshort rfl
          dsimp only
          rw [ih (by omega) (by omega), ok_bind]
          rfl

end Turns

end Guarded

/-- **Decoding never fails.** Whatever a buffer holds, and whatever a decoder remembers of it or of
another one, decoding it, decoding it at the end of the stream and pushing the last of its bytes to a
reader make every step without a fault, and their loops end after no more turns than there are
bytes, and one. A header block that is looked at lies within the buffer, its parts one behind the
other. What is skipped or handed out was taken off: the buffer is shorter afterwards. -/
theorem decoding_never_fails (d : Decoder) (buffer : Bytes) :
    (∀ turns, buffer.length ≤ bufferLimit → buffer.length < turns →
      Guarded.decode turns d buffer = .ok (d.decode buffer) ∧
      Guarded.decodeEnd turns d buffer = .ok (d.decodeEnd buffer) ∧
      ∀ held chunk, held ++ chunk = buffer →
        Guarded.push turns ⟨held, d⟩ chunk = .ok (Reader.push ⟨held, d⟩ chunk)) ∧
    (∀ start stop, d.header buffer = .whole start stop → Inside buffer start stop) ∧
    ((d.look buffer).1.isWait = false → (d.look buffer).1.buffer.length < buffer.length) ∧
    ((d.decode buffer).message?.isSome → (d.decode buffer).buffer.length < buffer.length) := by
  refine ⟨fun turns fits enough => ⟨?decode, ?decodeEnd, ?push⟩, ?header, ?look, ?message⟩
  case decode => exact Guarded.decode_eq fits enough
  case decodeEnd => exact Guarded.decodeEnd_eq fits enough
  case push =>
    rintro held chunk rfl
    exact Guarded.drain_eq fits enough
  case header => exact fun _ _ => Decoder.header_inside
  case look => exact (d.look_buffer buffer).2
  case message => exact (d.decode_buffer buffer).2

/-- A header without a length, and a message behind it. -/
def strayed : Bytes :=
  Utf8.encode "Content-Length: x\r\n\r\nContent-Length: 2\r\n\r\n\x7b\x7d"

/-- A decoder that remembers offsets of another buffer. -/
def straying : Decoder := { tokenScan := 3, headerScan := 2 }

theorem straying_header : straying.header strayed = .whole 21 38 := by with_unfolding_all rfl

theorem straying_look : (straying.look strayed).1 = .message (.obj []) [] := by
  have hlength : length? (lengthField strayed 21 38) = some 2 := by decide
  have hwhole := lookWhole_full hlength (by decide) (by decide)
  unfold Decoder.look
  rw [straying_header]
  refine hwhole.trans ?_
  with_unfolding_all rfl

/-- The first header is not seen, and the message is handed out. -/
theorem decoding_never_fails_strayed :
    strayed.length ≤ bufferLimit ∧ strayed.length < 45 ∧
      Guarded.decode 45 straying strayed = .ok (straying.decode strayed) ∧
      Guarded.push 45 ⟨strayed.take 30, straying⟩ (strayed.drop 30) =
        .ok (Reader.push ⟨strayed.take 30, straying⟩ (strayed.drop 30)) ∧
      straying.header strayed = .whole 21 38 ∧ Inside strayed 21 38 ∧
      (straying.look strayed).1.isWait = false ∧
      (straying.look strayed).1.buffer.length < strayed.length ∧
      (straying.decode strayed).message? = some (.obj []) ∧
      (straying.decode strayed).buffer.length < strayed.length := by
  have fits : strayed.length ≤ bufferLimit := by decide
  have enough : strayed.length < 45 := by decide
  have hlook : (straying.look strayed).1.isWait = false := by
    rw [straying_look]
    rfl
  have hmessage : (straying.decode strayed).message? = some (.obj []) :=
    congrArg Decoded.message? (decode_message straying_look)
  obtain ⟨hruns, hinside, hshorter, htaken⟩ := decoding_never_fails straying strayed
  obtain ⟨hdecode, -, hpush⟩ := hruns 45 fits enough
  refine ⟨fits, enough, hdecode, hpush _ _ (List.take_append_drop 30 strayed), straying_header,
    hinside 21 38 straying_header, hlook, hshorter hlook, hmessage, htaken ?_⟩
  rw [hmessage]
  rfl

end LanguageClient.Frame
