import LanguageClient.Proofs.Frame.Draining

/-!
# Discarding all that is gathered

Two things make a push drop the whole buffer: a header block that states a length above
`maxMessageSize` (`Oversized`), and more than `garbageLimit` bytes without a token (`Garbage`). The push
hands out the messages in front of it, which are those of the bytes in front of it alone, and leaves
the reader as new (`discards_cleanly`). A new reader holds no more than was pushed to it, so garbage is
not dropped again before more than `garbageLimit` bytes have arrived.
-/

namespace LanguageClient.Frame

/-- Draining the buffer comes to look at what is left of it, after these messages. -/
inductive Reaches : Decoder → Bytes → List Json → Bytes → Prop
  | start {d : Decoder} {buffer : Bytes} : Reaches d buffer [] buffer
  | dropped {d : Decoder} {buffer rest left : Bytes} {met : List Json} :
      (d.look buffer).1 = .dropped rest → Reaches {} rest met left → Reaches d buffer met left
  | message {d : Decoder} {buffer rest left : Bytes} {value : Json} {met : List Json} :
      (d.look buffer).1 = .message value rest → Reaches {} rest met left →
      Reaches d buffer (value :: met) left

/-- The first header block of the bytes is whole and states a length that is too large. -/
def Oversized (bytes : Bytes) : Prop :=
  ∃ start stop field length, HeaderAt bytes start stop field ∧ length? field = some length ∧
    maxMessageSize < length

/-- Too many bytes, and no token in them. -/
def Garbage (bytes : Bytes) : Prop := ¬ token <:+: bytes ∧ garbageLimit < bytes.length

/-! ## The look that drops everything -/

theorem Oversized.glance_eq {bytes : Bytes} (h : Oversized bytes) : glance bytes = .dropped [] := by
  obtain ⟨start, stop, field, length, hheader, hlength, hlarge⟩ := h
  obtain ⟨hwhole, rfl⟩ := headerAt_iff.mp hheader
  rw [glance_whole hwhole]
  exact lookWhole_oversized hlength hlarge

theorem Garbage.glance_eq {bytes : Bytes} (h : Garbage bytes) : glance bytes = .wait {} [] := by
  rw [glance_absent_eq (firstHeader_absent_iff_free.mpr h.1)]
  exact if_pos h.2

theorem not_oversized_nil : ¬ Oversized [] := by
  rintro ⟨start, stop, field, length, hheader, -⟩
  exact not_stands_nil token_ne_nil start hheader.token.stands

theorem not_garbage_nil : ¬ Garbage [] := by
  rintro ⟨-, hmany⟩
  exact absurd hmany (Nat.not_lt_zero _)

/-! ## The bytes in front of it -/

/-- The same look, leaving other bytes. -/
def Progress.leaving (rest : Bytes) : Progress → Progress
  | .wait d _ => .wait d rest
  | .dropped _ => .dropped rest
  | .message value _ => .message value rest

theorem payload_leaving (bytes rest other : Bytes) :
    (payload bytes rest).1.leaving other = (payload bytes other).1 := by
  unfold payload
  split
  · split <;> rfl
  · rfl

theorem firstHeader_take {buffer : Bytes} {start stop place : Nat}
    (h : firstHeader buffer = .whole start stop) (hin : stop + headerEnd.length ≤ place)
    (hle : place ≤ buffer.length) :
    firstHeader (buffer.take place) = .whole start stop ∧
      lengthField (buffer.take place) start stop = lengthField buffer start stop := by
  obtain ⟨htoken, hstop⟩ := firstHeader_whole_iff.mp h
  have hbehind := ((find_eq_some_iff headerEnd_ne_nil).mp hstop).1
  have hlen : (buffer.take place).length = place := List.length_take_of_le hle
  rw [← List.take_append_drop place buffer] at htoken hstop
  have htoken' := find_of_append token_ne_nil htoken (by omega)
  have hstop' := find_of_append headerEnd_ne_nil hstop (by omega)
  refine ⟨firstHeader_whole_iff.mpr ⟨htoken', hstop'⟩, ?_⟩
  rw [← lengthField_append hstop' (buffer.drop place), List.take_append_drop]

/-- A header block without a length is taken off also when nothing follows. -/
theorem glance_front_unsized {buffer : Bytes} {start stop : Nat}
    (hcase : firstHeader buffer = .whole start stop) (hin : stop + headerEnd.length ≤ buffer.length)
    (hlength : length? (lengthField buffer start stop) = none) :
    ({} : Decoder).discards (buffer.take (stop + headerEnd.length)) = false ∧
      glance (buffer.take (stop + headerEnd.length)) = .dropped [] := by
  obtain ⟨hheader, hfield⟩ := firstHeader_take hcase (Nat.le_refl _) hin
  rw [← hfield] at hlength
  constructor
  · rw [discards_whole hheader, hlength]
    rfl
  · rw [glance_whole hheader, lookWhole_unsized hlength]
    exact congrArg Progress.dropped List.drop_take_self

theorem glance_front_full {buffer : Bytes} {start stop n : Nat}
    (hcase : firstHeader buffer = .whole start stop)
    (hlength : length? (lengthField buffer start stop) = some n) (hfits : n ≤ maxMessageSize)
    (hle : stop + headerEnd.length + n ≤ buffer.length) :
    ({} : Decoder).discards (buffer.take (stop + headerEnd.length + n)) = false ∧
      glance (buffer.take (stop + headerEnd.length + n)) =
        (payload ((buffer.drop (stop + headerEnd.length)).take n) []).1 := by
  obtain ⟨hheader, hfield⟩ := firstHeader_take hcase (Nat.le_add_right _ n) hle
  rw [← hfield] at hlength
  have hbody : (buffer.take (stop + headerEnd.length + n)).drop (stop + headerEnd.length)
      = (buffer.drop (stop + headerEnd.length)).take n := by
    rw [List.drop_take, Nat.add_sub_cancel_left]
  have hlen : ((buffer.drop (stop + headerEnd.length)).take n).length = n := by
    refine List.length_take_of_le ?_
    rw [List.length_drop]
    omega
  constructor
  · rw [discards_whole hheader, hlength]
    exact decide_eq_false (Nat.not_lt.mpr hfits)
  · rw [glance_whole hheader,
      lookWhole_full hlength hfits (Nat.le_of_eq (by rw [hbody, hlen])), hbody, List.take_take,
      Nat.min_self, List.drop_eq_nil_of_le (Nat.le_of_eq hlen)]

/-- What a glance takes off is a beginning of the buffer, and a glance takes it off also when nothing
follows. -/
theorem glance_front {buffer : Bytes} (hwait : (glance buffer).isWait = false)
    (hrest : (glance buffer).buffer ≠ []) :
    ∃ front, buffer = front ++ (glance buffer).buffer ∧ ({} : Decoder).discards front = false ∧
      glance front = (glance buffer).leaving [] := by
  cases hcase : firstHeader buffer with
  | absent => exact absurd (glance_absent hcase) (by simp [hwait])
  | cut start => exact absurd (glance_cut hcase) (by simp [hwait])
  | whole start stop =>
      have hin := find_inside headerEnd_ne_nil (firstHeader_whole_iff.mp hcase).2
      rw [glance_whole hcase] at hwait hrest ⊢
      cases hlength : length? (lengthField buffer start stop) with
      | none =>
          rw [lookWhole_unsized hlength]
          exact ⟨_, (List.take_append_drop (stop + headerEnd.length) buffer).symm,
            glance_front_unsized hcase hin hlength⟩
      | some n =>
          rcases Nat.lt_or_ge maxMessageSize n with hlarge | hfits
          · -- nothing is left of the buffer
            rw [lookWhole_oversized hlength hlarge] at hrest
            exact absurd rfl hrest
          · rcases Nat.lt_or_ge (buffer.drop (stop + headerEnd.length)).length n with hshort | hfull
            · rw [lookWhole_short hlength hfits hshort] at hwait
              exact absurd hwait (by simp [Progress.isWait])
            · have hle : stop + headerEnd.length + n ≤ buffer.length := by
                rw [List.length_drop] at hfull
                omega
              rw [lookWhole_full hlength hfits hfull, payload_buffer, payload_leaving, List.drop_drop]
              exact ⟨_, (List.take_append_drop (stop + headerEnd.length + n) buffer).symm,
                glance_front_full hcase hlength hfits hle⟩

/-! ## What draining reaches -/

section Reached

variable {d d' : Decoder} {buffer left : Bytes} {met : List Json}

/-- Only what the first look sees hangs on the decoder. -/
theorem Reaches.congr (h : Reaches d buffer met left) (hlook : d'.look buffer = d.look buffer) :
    Reaches d' buffer met left := by
  cases h with
  | start => exact .start
  | dropped hdropped hmore => exact .dropped (hlook ▸ hdropped) hmore
  | message hmessage hmore => exact .message (hlook ▸ hmessage) hmore

theorem Reaches.length_le (h : Reaches d buffer met left) : left.length ≤ buffer.length := by
  induction h with
  | start => exact Nat.le_refl _
  | @dropped d buffer rest _ _ hlook _ ih =>
      have hshort := (d.look_buffer buffer).1
      rw [hlook] at hshort
      exact Nat.le_trans ih hshort
  | @message d buffer rest _ _ _ hlook _ ih =>
      have hshort := (d.look_buffer buffer).1
      rw [hlook] at hshort
      exact Nat.le_trans ih hshort

theorem Reaches.outcome_eq (h : Reaches d buffer met left) (hd : d = {}) :
    (Reader.drain {} buffer).outcome =
      (met ++ (Reader.drain {} left).messages, (Reader.drain {} left).reader) := by
  induction h with
  | start => rfl
  | dropped hlook _ ih =>
      subst hd
      rw [Reader.outcome_dropped hlook, ih rfl]
  | message hlook _ ih =>
      subst hd
      rw [Reader.outcome_message hlook, ih rfl]
      rfl

/-- What is met on the way is what the bytes in front of the rest hand out by themselves. -/
theorem Reaches.front (h : Reaches d buffer met left) (hd : d = {}) (hleft : left ≠ []) :
    ∃ before, buffer = before ++ left ∧ (Reader.drain {} before).outcome = (met, {}) := by
  induction h with
  | start => exact ⟨[], rfl, Reader.outcome_wait Reader.idle_fresh⟩
  | @dropped _ buffer rest left _ hlook hmore ih =>
      subst hd
      obtain ⟨before, rfl, hbefore⟩ := ih rfl hleft
      have hglance : glance buffer = .dropped (before ++ left) := hlook
      obtain ⟨front, hcut, hkeep, hfront⟩ := glance_front (by rw [hglance]; rfl)
        (by rw [hglance]; exact List.append_ne_nil_of_right_ne_nil before hleft)
      rw [hglance] at hcut hfront
      refine ⟨front ++ before, by rw [hcut, List.append_assoc]; rfl, ?_⟩
      rw [Reader.outcome_dropped (dropped_append hkeep hfront before)]
      exact hbefore
  | @message _ buffer rest left value _ hlook hmore ih =>
      subst hd
      obtain ⟨before, rfl, hbefore⟩ := ih rfl hleft
      have hglance : glance buffer = .message value (before ++ left) := hlook
      obtain ⟨front, hcut, hkeep, hfront⟩ := glance_front (by rw [hglance]; rfl)
        (by rw [hglance]; exact List.append_ne_nil_of_right_ne_nil before hleft)
      rw [hglance] at hcut hfront
      refine ⟨front ++ before, by rw [hcut, List.append_assoc]; rfl, ?_⟩
      rw [Reader.outcome_message (message_append hkeep hfront before), List.nil_append, hbefore]

end Reached

namespace Reader

theorem drain_ruined {left : Bytes} (h : Oversized left ∨ Garbage left) :
    (drain {} left).outcome = ([], {}) := by
  rcases h with hoversized | hgarbage
  · rw [outcome_dropped hoversized.glance_eq]
    exact outcome_wait idle_fresh
  · exact outcome_wait hgarbage.glance_eq

theorem drain_buffered_le (buffer : Bytes) : (drain {} buffer).reader.buffered ≤ buffer.length := by
  have hshort := ({} : Decoder).look_buffer buffer
  cases hlook : (({} : Decoder).look buffer).1 with
  | wait d rest =>
      rw [show (drain {} buffer).reader = _ from congrArg Prod.snd (outcome_wait hlook)]
      rw [hlook] at hshort
      exact hshort.1
  | dropped rest =>
      rw [show (drain {} buffer).reader = _ from congrArg Prod.snd (outcome_dropped hlook)]
      rw [hlook] at hshort
      have hlt : rest.length < buffer.length := hshort.2 rfl
      exact Nat.le_trans (drain_buffered_le rest) hshort.1
  | message value rest =>
      rw [show (drain {} buffer).reader = _ from congrArg Prod.snd (outcome_message hlook)]
      rw [hlook] at hshort
      have hlt : rest.length < buffer.length := hshort.2 rfl
      exact Nat.le_trans (drain_buffered_le rest) hshort.1
termination_by buffer.length

theorem Idle.buffered_pushAll_le {r : Reader} (h : r.Idle) (chunks : List Bytes) :
    (r.pushAll chunks).reader.buffered ≤ r.buffered + chunks.flatten.length := by
  induction chunks generalizing r with
  | nil => exact Nat.le_refl _
  | cons chunk more ih =>
      have hpush : (r.push chunk).reader.buffered ≤ r.buffered + chunk.length := by
        rw [h.push_eq]
        refine Nat.le_trans (drain_buffered_le _) (Nat.le_of_eq ?_)
        exact List.length_append
      have hmore := ih (h.push chunk)
      rw [List.flatten_cons, List.length_append]
      show ((r.push chunk).reader.pushAll more).reader.buffered ≤ _
      omega

/-- Pushing the chunk comes to look at what is left of the gathered bytes, after these messages. -/
def Meets (r : Reader) (chunk : Bytes) (met : List Json) (left : Bytes) : Prop :=
  Reaches r.decoder (r.buffer ++ chunk) met left

/-- A push that meets a length that is too large, or ends with too many bytes without a token, hands
out what it met before, which the bytes in front hand out by themselves, and leaves nothing. From then
on the reader does what a new one does, and garbage is not dropped again before more than
`garbageLimit` further bytes were pushed. -/
theorem discards_cleanly {first : List Bytes} {chunk left : Bytes} {met : List Json}
    (hmeets : (pushAll {} first).reader.Meets chunk met left)
    (hleft : Oversized left ∨ Garbage left) :
    ((pushAll {} first).reader.push chunk).messages = met ∧
      ((pushAll {} first).reader.push chunk).reader.buffered = 0 ∧
      (∃ before, (pushAll {} first).reader.buffer ++ chunk = before ++ left ∧
        (({} : Reader).push before).messages = met ∧
        (({} : Reader).push before).reader.buffered = 0) ∧
      (∀ later, ((pushAll {} first).reader.push chunk).reader.pushAll later = pushAll {} later) ∧
      ∀ later chunk' met' left',
        (((pushAll {} first).reader.push chunk).reader.pushAll later).reader.Meets
          chunk' met' left' →
        Garbage left' → garbageLimit < (later.flatten ++ chunk').length := by
  have hidle : (pushAll {} first).reader.Idle := idle_fresh.pushAll first
  have hreaches : Reaches {} ((pushAll {} first).reader.buffer ++ chunk) met left :=
    hmeets.congr (hidle.fits chunk).look_eq.symm
  have hne : left ≠ [] := by
    rintro rfl
    exact hleft.elim not_oversized_nil not_garbage_nil
  have houtcome : ((pushAll {} first).reader.push chunk).outcome = (met, {}) := by
    obtain ⟨hmessages, hreader⟩ := Prod.mk.inj (drain_ruined hleft)
    rw [hidle.push_eq, hreaches.outcome_eq rfl, hmessages, hreader, List.append_nil]
  obtain ⟨hmessages, hreader⟩ := Prod.mk.inj houtcome
  rw [hmessages, hreader]
  refine ⟨rfl, rfl, ?_, fun later => rfl, fun later chunk' met' left' hmeets' hgarbage => ?_⟩
  · obtain ⟨before, hcut, hbefore⟩ := hreaches.front rfl hne
    obtain ⟨hmet, hnothing⟩ := Prod.mk.inj hbefore
    refine ⟨before, hcut, hmet, ?_⟩
    show (drain {} before).reader.buffered = 0
    rw [hnothing]
    rfl
  · have hheld := idle_fresh.buffered_pushAll_le later
    have hgathered := hmeets'.length_le
    rw [List.length_append] at hgathered ⊢
    have hnone : ({} : Reader).buffered = 0 := rfl
    have hmany := hgarbage.2
    unfold buffered at hheld hnone
    omega

/-- A message, and behind it a header that states a length of one byte too many. -/
def overlong : Bytes :=
  Utf8.encode "Content-Length: 2\r\n\r\n\x7b\x7dContent-Length: 536870913\r\n\r\n\x7b"

/-- One byte more than is kept without a token. -/
def noise : Bytes := List.replicate (garbageLimit + 1) 120

theorem garbage_noise : Garbage noise := by
  refine ⟨fun hinfix => ?_, ?_⟩
  · have hmem : (67 : UInt8) ∈ noise := hinfix.subset (by decide)
    exact absurd (List.eq_of_mem_replicate hmem) (by decide)
  · unfold noise
    rw [List.length_replicate]
    exact Nat.lt_succ_self _

/-- The message in front of the header is handed out, and noise is dropped each time that it has come
in full. -/
theorem discards_cleanly_overlong :
    (({} : Reader).push overlong).messages = [.obj []] ∧
      (({} : Reader).push overlong).reader.buffered = 0 ∧
      (({} : Reader).push noise).messages = [] ∧
      (({} : Reader).push noise).reader.buffered = 0 ∧
      garbageLimit < (([] : List Bytes).flatten ++ noise).length := by
  have hoversized : ({} : Reader).Meets overlong [.obj []]
      (Utf8.encode "Content-Length: 536870913\r\n\r\n\x7b") := by
    refine .message ?_ .start
    with_unfolding_all rfl
  have hheader : HeaderAt (Utf8.encode "Content-Length: 536870913\r\n\r\n\x7b") 0 25
      (Utf8.encode " 536870913") := headerAt_iff.mpr ⟨by with_unfolding_all rfl, by decide⟩
  obtain ⟨hmessages, hbuffered, -⟩ := @discards_cleanly [] overlong _ _ hoversized
    (.inl ⟨0, 25, _, 536870913, hheader, by decide, by decide⟩)
  obtain ⟨hnone, hempty, -, hnew, hapart⟩ :=
    @discards_cleanly [] noise noise [] .start (.inr garbage_noise)
  refine ⟨hmessages, hbuffered, hnone, hempty, hapart [] noise [] noise ?_ garbage_noise⟩
  rw [hnew []]
  exact .start

end Reader

end LanguageClient.Frame
