import LanguageClient.Proofs.Frame.Glance

/-!
# A stream may be cut anywhere

A reader that has drained its buffer is a function of that buffer: its decoder is the one a glance at
the buffer leaves (`Reader.Idle`). So pushing a chunk drains the gathered bytes from the beginning,
and as long as no look drops the whole buffer (`Spared`) nothing hangs on where the stream was cut.
-/

namespace LanguageClient.Frame

/-- Draining the buffer triggers neither of the two rules that drop all of it: no look discards. -/
inductive Spared : Decoder → Bytes → Prop where
  | wait {d d' : Decoder} {buffer rest : Bytes} : d.discards buffer = false →
      (d.look buffer).1 = .wait d' rest → Spared d buffer
  | dropped {d : Decoder} {buffer rest : Bytes} : d.discards buffer = false →
      (d.look buffer).1 = .dropped rest → Spared {} rest → Spared d buffer
  | message {d : Decoder} {buffer rest : Bytes} {value : Json} : d.discards buffer = false →
      (d.look buffer).1 = .message value rest → Spared {} rest → Spared d buffer

theorem spared_of_wait {buffer : Bytes} (hkeep : ({} : Decoder).discards buffer = false)
    (hwait : (glance buffer).isWait = true) : Spared {} buffer := by
  cases hlook : glance buffer with
  | wait d rest => exact .wait hkeep hlook
  | dropped rest => exact absurd hwait (by simp [hlook, Progress.isWait])
  | message value rest => exact absurd hwait (by simp [hlook, Progress.isWait])

theorem Spared.of_dropped {d : Decoder} {buffer rest : Bytes} (h : Spared d buffer)
    (hlook : (d.look buffer).1 = .dropped rest) : Spared {} rest := by
  cases h with
  | wait _ hwait => exact absurd (hwait.symm.trans hlook) (by simp)
  | dropped _ hdropped hrest =>
      obtain rfl := Progress.dropped.inj (hdropped.symm.trans hlook)
      exact hrest
  | message _ hmessage _ => exact absurd (hmessage.symm.trans hlook) (by simp)

theorem Spared.of_message {d : Decoder} {buffer rest : Bytes} {value : Json} (h : Spared d buffer)
    (hlook : (d.look buffer).1 = .message value rest) : Spared {} rest := by
  cases h with
  | wait _ hwait => exact absurd (hwait.symm.trans hlook) (by simp)
  | dropped _ hdropped _ => exact absurd (hdropped.symm.trans hlook) (by simp)
  | message _ hmessage hrest =>
      obtain ⟨-, rfl⟩ := Progress.message.inj (hmessage.symm.trans hlook)
      exact hrest

theorem Spared.congr {d d' : Decoder} {buffer : Bytes} (h : Spared d buffer)
    (hlook : d'.look buffer = d.look buffer) (hdiscards : d'.discards buffer = d.discards buffer) :
    Spared d' buffer := by
  cases h with
  | wait hkeep hwait => exact .wait (hdiscards ▸ hkeep) (hlook ▸ hwait)
  | dropped hkeep hdropped hrest => exact .dropped (hdiscards ▸ hkeep) (hlook ▸ hdropped) hrest
  | message hkeep hmessage hrest => exact .message (hdiscards ▸ hkeep) (hlook ▸ hmessage) hrest

theorem Decoder.Fits.spared_iff {d : Decoder} {buffer : Bytes} (h : d.Fits buffer) :
    Spared d buffer ↔ Spared {} buffer :=
  ⟨fun hs => hs.congr h.look_eq.symm h.discards_eq.symm,
    fun hs => hs.congr h.look_eq h.discards_eq⟩

/-! ## Decoding, look by look -/

theorem decode_wait {d d' : Decoder} {buffer rest : Bytes}
    (h : (d.look buffer).1 = .wait d' rest) :
    d.decode buffer = ⟨none, d', rest, (d.look buffer).2⟩ := by
  have hlook : d.look buffer = (.wait d' rest, (d.look buffer).2) := Prod.ext h rfl
  rw [Decoder.decode, hlook]

theorem decode_message {d : Decoder} {buffer rest : Bytes} {value : Json}
    (h : (d.look buffer).1 = .message value rest) :
    d.decode buffer = ⟨some value, {}, rest, (d.look buffer).2⟩ := by
  have hlook : d.look buffer = (.message value rest, (d.look buffer).2) := Prod.ext h rfl
  rw [Decoder.decode, hlook]

theorem decode_dropped {d : Decoder} {buffer rest : Bytes}
    (h : (d.look buffer).1 = .dropped rest) :
    d.decode buffer = { Decoder.decode {} rest with
      log := (d.look buffer).2 ++ (Decoder.decode {} rest).log } := by
  have hlook : d.look buffer = (.dropped rest, (d.look buffer).2) := Prod.ext h rfl
  rw [Decoder.decode, hlook]

namespace Reader

/-- What a drained reader handed out, and the reader itself: all but the log. -/
def Drained.outcome (r : Drained) : List Json × Reader := (r.messages, r.reader)

/-! ## Draining, look by look -/

theorem decode_congr {d d' : Decoder} {buffer : Bytes} (h : d.look buffer = d'.look buffer) :
    d.decode buffer = d'.decode buffer := by
  rw [Decoder.decode, Decoder.decode, h]

theorem drain_congr {d d' : Decoder} {buffer : Bytes} (h : d.look buffer = d'.look buffer) :
    drain d buffer = drain d' buffer := by
  rw [drain, drain, decode_congr h]

theorem outcome_wait {d d' : Decoder} {buffer rest : Bytes}
    (h : (d.look buffer).1 = .wait d' rest) :
    (drain d buffer).outcome = ([], ⟨rest, d'⟩) := by
  rw [drain, decode_wait h]
  rfl

theorem outcome_dropped {d : Decoder} {buffer rest : Bytes}
    (h : (d.look buffer).1 = .dropped rest) :
    (drain d buffer).outcome = (drain {} rest).outcome := by
  rw [drain, drain, decode_dropped h]
  rcases Decoder.decode {} rest with ⟨message, d', left, log⟩
  cases message with
  | none => rfl
  | some value => rfl

theorem outcome_message {d : Decoder} {buffer rest : Bytes} {value : Json}
    (h : (d.look buffer).1 = .message value rest) :
    (drain d buffer).outcome =
      (value :: (drain {} rest).outcome.1, (drain {} rest).outcome.2) := by
  rw [drain, decode_message h]
  rfl

/-! ## Drained readers -/

/-- The reader waits for more bytes, with the decoder that a glance at its buffer leaves. -/
def Idle (r : Reader) : Prop := glance r.buffer = .wait r.decoder r.buffer

theorem idle_fresh : ({} : Reader).Idle := rfl

theorem Idle.fits {r : Reader} (h : r.Idle) (chunk : Bytes) :
    r.decoder.Fits (r.buffer ++ chunk) :=
  fits_of_glance_wait h chunk

/-- A drained reader pushes a chunk as if it had never searched what it gathered. -/
theorem Idle.push_eq {r : Reader} (h : r.Idle) (chunk : Bytes) :
    r.push chunk = drain {} (r.buffer ++ chunk) :=
  drain_congr (h.fits chunk).look_eq

theorem idle_drain (buffer : Bytes) : (drain {} buffer).reader.Idle := by
  have hshort : (glance buffer).isWait = false →
      (glance buffer).buffer.length < buffer.length := glance_shorter
  cases hlook : glance buffer with
  | wait d rest =>
      have hreader : (drain {} buffer).reader = ⟨rest, d⟩ :=
        congrArg Prod.snd (outcome_wait hlook)
      rw [hreader]
      exact glance_wait_again hlook
  | dropped rest =>
      have hreader : (drain {} buffer).reader = (drain {} rest).reader :=
        congrArg Prod.snd (outcome_dropped hlook)
      have hlt : rest.length < buffer.length := by
        rw [hlook] at hshort
        exact hshort rfl
      rw [hreader]
      exact idle_drain rest
  | message value rest =>
      have hreader : (drain {} buffer).reader = (drain {} rest).reader :=
        congrArg Prod.snd (outcome_message hlook)
      have hlt : rest.length < buffer.length := by
        rw [hlook] at hshort
        exact hshort rfl
      rw [hreader]
      exact idle_drain rest
termination_by buffer.length

theorem Idle.push {r : Reader} (h : r.Idle) (chunk : Bytes) : (r.push chunk).reader.Idle := by
  rw [h.push_eq]
  exact idle_drain _

/-! ## Chunk after chunk -/

/-- Pushes chunks one after the other. -/
def pushAll (r : Reader) : List Bytes → Drained
  | [] => ⟨[], r, []⟩
  | chunk :: more =>
      let first := r.push chunk
      let later := pushAll first.reader more
      ⟨first.messages ++ later.messages, later.reader, first.log ++ later.log⟩

/-- No push of the chunks triggers a rule that drops the whole buffer. -/
def Quiet (r : Reader) : List Bytes → Prop
  | [] => True
  | chunk :: more => Spared r.decoder (r.buffer ++ chunk) ∧ Quiet (r.push chunk).reader more

/-- Draining a longer buffer takes the same off its front, as long as nothing is discarded. -/
theorem drain_append {d : Decoder} {buffer : Bytes} (hspared : Spared d buffer) (hd : d = {})
    (more : Bytes) :
    (drain {} (buffer ++ more)).outcome =
      ((drain {} buffer).messages ++ ((drain {} buffer).reader.push more).messages,
        ((drain {} buffer).reader.push more).reader) := by
  -- along the looks that drain the first bytes; the decoder is an index, so its value is an equation
  induction hspared with
  | wait hkeep hlook =>
      subst hd
      obtain rfl := glance_wait_buffer hkeep hlook
      obtain ⟨hmessages, hreader⟩ := Prod.mk.inj (outcome_wait hlook)
      rw [hreader, hmessages, Idle.push_eq (r := ⟨_, _⟩) hlook]
      rfl
  | dropped hkeep hlook _ ih =>
      subst hd
      obtain ⟨hmessages, hreader⟩ := Prod.mk.inj (outcome_dropped hlook)
      rw [outcome_dropped (dropped_append hkeep hlook more), ih rfl, hreader, hmessages]
  | message hkeep hlook _ ih =>
      subst hd
      obtain ⟨hmessages, hreader⟩ := Prod.mk.inj (outcome_message hlook)
      rw [outcome_message (message_append hkeep hlook more), ih rfl, hreader, hmessages]
      rfl

theorem pushAll_quiet {chunks : List Bytes} {r : Reader} (hidle : r.Idle)
    (hquiet : r.Quiet chunks) :
    (r.pushAll chunks).outcome = (drain {} (r.buffer ++ chunks.flatten)).outcome := by
  induction chunks generalizing r with
  | nil =>
      rw [List.flatten_nil, List.append_nil, outcome_wait hidle]
      rfl
  | cons chunk more ih =>
      obtain ⟨hspared, hmore⟩ := hquiet
      have hfresh : Spared {} (r.buffer ++ chunk) := (hidle.fits chunk).spared_iff.mp hspared
      have hlater := ih (hidle.push chunk) hmore
      rw [← (hidle.push chunk).push_eq, hidle.push_eq] at hlater
      rw [List.flatten_cons, ← List.append_assoc, drain_append hfresh rfl more.flatten]
      obtain ⟨hmessages, hreader⟩ := Prod.mk.inj hlater
      unfold pushAll
      rw [hidle.push_eq, ← hmessages, ← hreader]
      rfl

/-- Two ways of cutting one stream hand out the same messages in the same order, leave the same number
of bytes waiting, and every further push does the same after both, as long as neither triggers a rule
that drops the whole buffer. -/
theorem cut_anywhere {first second : List Bytes} (hstream : first.flatten = second.flatten)
    (hfirst : ({} : Reader).Quiet first) (hsecond : ({} : Reader).Quiet second) :
    (pushAll {} first).messages = (pushAll {} second).messages ∧
      (pushAll {} first).reader.buffered = (pushAll {} second).reader.buffered ∧
      ∀ further, (pushAll {} first).reader.pushAll further
        = (pushAll {} second).reader.pushAll further := by
  have houtcome : (pushAll {} first).outcome = (pushAll {} second).outcome := by
    rw [pushAll_quiet idle_fresh hfirst, pushAll_quiet idle_fresh hsecond, hstream]
  have hreader : (pushAll {} first).reader = (pushAll {} second).reader :=
    congrArg Prod.snd houtcome
  exact ⟨congrArg Prod.fst houtcome, congrArg buffered hreader,
    fun further => congrArg (pushAll · further) hreader⟩

theorem spared_left {d : Decoder} {buffer more : Bytes} (hspared : Spared d buffer) (hd : d = {})
    (hlong : Spared {} (buffer ++ more)) :
    Spared {} ((drain {} buffer).reader.buffer ++ more) := by
  induction hspared with
  | wait hkeep hlook =>
      subst hd
      obtain rfl := glance_wait_buffer hkeep hlook
      obtain ⟨-, hreader⟩ := Prod.mk.inj (outcome_wait hlook)
      rw [hreader]
      exact hlong
  | dropped hkeep hlook _ ih =>
      subst hd
      obtain ⟨-, hreader⟩ := Prod.mk.inj (outcome_dropped hlook)
      rw [hreader]
      exact ih rfl (hlong.of_dropped (dropped_append hkeep hlook more))
  | message hkeep hlook _ ih =>
      subst hd
      obtain ⟨-, hreader⟩ := Prod.mk.inj (outcome_message hlook)
      rw [hreader]
      exact ih rfl (hlong.of_message (message_append hkeep hlook more))

/-- If every beginning of a stream is spared, no cutting of it triggers a discarding. -/
theorem quiet_of_prefixes {chunks : List Bytes} {r : Reader} (hidle : r.Idle)
    (h : ∀ first, first <+: chunks.flatten → Spared {} (r.buffer ++ first)) :
    r.Quiet chunks := by
  induction chunks generalizing r with
  | nil => exact trivial
  | cons chunk more ih =>
      have hchunk : Spared {} (r.buffer ++ chunk) := h chunk (List.prefix_append _ _)
      refine ⟨(hidle.fits chunk).spared_iff.mpr hchunk, ih (hidle.push chunk) fun first hfirst => ?_⟩
      rw [hidle.push_eq]
      refine spared_left hchunk rfl ?_
      rw [List.append_assoc]
      exact h _ ((List.prefix_append_right_inj chunk).mpr hfirst)

theorem quiet_cons_wait {d d' : Decoder} {buffer rest chunk : Bytes} {more : List Bytes}
    (hkeep : d.discards (buffer ++ chunk) = false)
    (hlook : (d.look (buffer ++ chunk)).1 = .wait d' rest) (hmore : Quiet ⟨rest, d'⟩ more) :
    Quiet ⟨buffer, d⟩ (chunk :: more) := by
  refine ⟨.wait hkeep hlook, ?_⟩
  obtain ⟨-, hreader⟩ := Prod.mk.inj (outcome_wait hlook)
  unfold push
  rw [hreader]
  exact hmore

/-- A frame in one piece, and cut inside its token, its header end and its payload. -/
theorem cut_anywhere_frame :
    (pushAll {} [Utf8.encode "Content-Length: 2\r\n\r\n\x7b\x7d"]).messages =
        (pushAll {} [Utf8.encode "Content-", [], Utf8.encode "Length: 2\r\n\r",
          Utf8.encode "\n\x7b", Utf8.encode "\x7d"]).messages ∧
      (pushAll {} [Utf8.encode "Content-Length: 2\r\n\r\n\x7b\x7d"]).reader.buffered =
        (pushAll {} [Utf8.encode "Content-", [], Utf8.encode "Length: 2\r\n\r",
          Utf8.encode "\n\x7b", Utf8.encode "\x7d"]).reader.buffered := by
  have hnil : Spared {} [] := .wait rfl idle_fresh
  have hwhole : Quiet {} [Utf8.encode "Content-Length: 2\r\n\r\n\x7b\x7d"] := by
    refine ⟨@Spared.message _ _ _ (.obj []) (by decide) ?_ hnil, trivial⟩
    with_unfolding_all rfl
  have hcut : Quiet {} [Utf8.encode "Content-", [], Utf8.encode "Length: 2\r\n\r",
      Utf8.encode "\n\x7b", Utf8.encode "\x7d"] := by
    refine quiet_cons_wait (by decide) rfl ?_
    refine quiet_cons_wait (by decide) rfl ?_
    refine quiet_cons_wait (by decide) rfl ?_
    refine quiet_cons_wait (by decide) rfl ?_
    refine ⟨@Spared.message _ _ _ (.obj []) (by decide) ?_ hnil, trivial⟩
    with_unfolding_all rfl
  obtain ⟨hmessages, hbuffered, -⟩ := cut_anywhere (by decide) hwhole hcut
  exact ⟨hmessages, hbuffered⟩

end Reader

end LanguageClient.Frame
