import LanguageClient.Frame.Encoder
import LanguageClient.Proofs.Frame.Cutting

/-!
# What a decoder remembers never shows

A decoder and its buffer may be used in any order: bytes and messages are appended, the decoder is asked
for a message, and once the stream has ended for what is left. A decoder that forgets, before it is
asked, how far the buffer is searched answers every time what the remembering one answers
(`remembering_eq_forgetting`). The invariant is that the remembered offsets skip nothing of the buffer,
whatever is appended to it (`Reader.Steady`): every branch of a look keeps it, those included that
shift the buffer, because they forget.
-/

namespace LanguageClient.Frame

/-! ## Steady readers -/

namespace Reader

/-- The offsets of the decoder skip nothing of the buffer, whatever is appended to it. -/
def Steady (r : Reader) : Prop := ∀ more, r.decoder.Fits (r.buffer ++ more)

theorem steady_fresh (buffer : Bytes) : Steady ⟨buffer, {}⟩ := by
  intro more
  exact fits_fresh _

theorem Steady.append {r : Reader} (h : r.Steady) (bytes : Bytes) :
    Steady ⟨r.buffer ++ bytes, r.decoder⟩ := by
  intro more
  show r.decoder.Fits (r.buffer ++ bytes ++ more)
  rw [List.append_assoc]
  exact h (bytes ++ more)

/-- What a steady reader remembers makes no difference to what it decodes. -/
theorem Steady.decode_eq {r : Reader} (h : r.Steady) :
    r.decoder.decode r.buffer = Decoder.decode {} r.buffer := by
  have hfits := h []
  rw [List.append_nil] at hfits
  exact decode_congr hfits.look_eq

theorem Steady.decodeEnd_eq {r : Reader} (h : r.Steady) :
    r.decoder.decodeEnd r.buffer = Decoder.decodeEnd {} r.buffer := by
  unfold Decoder.decodeEnd
  rw [h.decode_eq]

theorem steady_decode (buffer : Bytes) :
    Steady ⟨(Decoder.decode {} buffer).buffer, (Decoder.decode {} buffer).decoder⟩ := by
  have hshort : (glance buffer).isWait = false →
      (glance buffer).buffer.length < buffer.length := glance_shorter
  cases hlook : glance buffer with
  | wait d rest =>
      rw [decode_wait hlook]
      intro more
      exact fits_of_glance_wait (glance_wait_again hlook) more
  | message value rest =>
      rw [decode_message hlook]
      exact steady_fresh rest
  | dropped rest =>
      have hlt : rest.length < buffer.length := by
        rw [hlook] at hshort
        exact hshort rfl
      rw [decode_dropped hlook]
      exact steady_decode rest
termination_by buffer.length

/-- Decoding at the end of the stream leaves a steady reader: what it drops it also forgets. -/
theorem steady_decodeEnd (buffer : Bytes) :
    Steady ⟨(Decoder.decodeEnd {} buffer).buffer, (Decoder.decodeEnd {} buffer).decoder⟩ := by
  unfold Decoder.decodeEnd
  dsimp only
  split
  · exact steady_fresh []
  · exact steady_decode buffer

end Reader

/-! ## Uses of a decoder and its buffer -/

/-- One use of a decoder and its buffer. -/
inductive Use where
  /-- Bytes arrive. -/
  | append (bytes : Bytes)
  /-- The decoder is asked for a message. -/
  | decode
  /-- The decoder is asked once the stream has ended. -/
  | decodeEnd
  /-- A message is encoded into the same buffer. -/
  | encode (message : Json)

/-- The reader after something was decoded. -/
def Decoded.reader (r : Decoded) : Reader := ⟨r.buffer, r.decoder⟩

namespace Reader

/-- What a use returns, leaves and logs. -/
def use (r : Reader) : Use → Decoded
  | .append bytes => ⟨none, r.decoder, r.buffer ++ bytes, []⟩
  | .decode => r.decoder.decode r.buffer
  | .decodeEnd => r.decoder.decodeEnd r.buffer
  | .encode message => ⟨none, r.decoder, r.buffer ++ Frame.encode message, []⟩

/-- Before it decodes the reader forgets how far it has searched. -/
def forget (r : Reader) : Use → Reader
  | .append _ => r
  | .decode => { r with decoder := {} }
  | .decodeEnd => { r with decoder := {} }
  | .encode _ => r

/-- The uses one after the other, each with what it returns, leaves and logs. -/
def remembering (r : Reader) : List Use → List Decoded
  | [] => []
  | u :: uses => r.use u :: remembering (r.use u).reader uses

/-- The same with a decoder that forgets before it decodes. -/
def forgetting (r : Reader) : List Use → List Decoded
  | [] => []
  | u :: uses => (r.forget u).use u :: forgetting ((r.forget u).use u).reader uses

theorem Steady.use_forget {r : Reader} (h : r.Steady) (u : Use) : (r.forget u).use u = r.use u := by
  cases u with
  | append bytes => rfl
  | decode => exact h.decode_eq.symm
  | decodeEnd => exact h.decodeEnd_eq.symm
  | encode message => rfl

theorem Steady.use {r : Reader} (h : r.Steady) (u : Use) : (r.use u).reader.Steady := by
  cases u with
  | append bytes => exact h.append bytes
  | decode =>
      show (r.decoder.decode r.buffer).reader.Steady
      rw [h.decode_eq]
      exact steady_decode r.buffer
  | decodeEnd =>
      show (r.decoder.decodeEnd r.buffer).reader.Steady
      rw [h.decodeEnd_eq]
      exact steady_decodeEnd r.buffer
  | encode message => exact h.append (Frame.encode message)

theorem Steady.remembering_eq {r : Reader} (h : r.Steady) (uses : List Use) :
    r.remembering uses = r.forgetting uses := by
  induction uses generalizing r with
  | nil => rfl
  | cons u uses ih =>
      unfold remembering forgetting
      rw [h.use_forget u, ih (h.use u)]

/-- However a new decoder and a buffer are used, every use returns the same message or none, leaves the
same buffer and logs the same as with a decoder that forgets, before it decodes, how far the buffer is
searched. -/
theorem remembering_eq_forgetting (buffer : Bytes) (uses : List Use) :
    remembering ⟨buffer, {}⟩ uses = forgetting ⟨buffer, {}⟩ uses :=
  (steady_fresh buffer).remembering_eq uses

end Reader

end LanguageClient.Frame
