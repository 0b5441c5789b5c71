import LanguageClient.Proofs.Frame.Cutting
import LanguageClient.Proofs.Frame.Header

/-!
# What a stream is made of

A stream of frames may carry faults: noise before a header, a payload that is no object, a header
whose length cannot be read. After each of them, and after every message, the reader stands exactly
where the next segment begins, however the stream was cut (`pushAll_stream`).
-/

namespace LanguageClient.Frame

/-- The bytes up to the first line break. -/
def firstLine (text : Bytes) : Bytes := text.take ((find lineBreak text 0).getD text.length)

/-- A segment of a stream. -/
inductive Segment where
  /-- An encoded message that its text gives back. -/
  | message (value : Json) (object : value.isObj = true)
      (reads : Json.parse (Utf8.encode value.render) = .ok value)
      (fits : (Utf8.encode value.render).length ≤ maxMessageSize)
  /-- A payload of the stated length that is no object. -/
  | unusable (body : Bytes)
      (noObject : ∀ value, Json.parse body = .ok value → value.isObj = false)
      (fits : body.length ≤ maxMessageSize)
  /-- A header block, ended by its first empty line, that states no length. -/
  | unsized (text : Bytes) (ends : find headerEnd (text ++ headerEnd) 0 = some text.length)
      (noLength : length? (firstLine (text ++ headerEnd)) = none)

namespace Segment

/-- The segment as it travels. -/
def bytes : Segment → Bytes
  | .message value _ _ _ => encode value
  | .unusable body _ _ => header body.length ++ body
  | .unsized text _ _ => token ++ (text ++ headerEnd)

/-- The message that the segment carries. -/
def value? : Segment → Option Json
  | .message value _ _ _ => some value
  | .unusable _ _ _ => none
  | .unsized _ _ _ => none

end Segment

/-- A segment, with noise before it. -/
structure Stretch where
  noise : Bytes
  free : ¬ token <:+: noise
  short : noise.length ≤ garbageLimit - 14
  segment : Segment

/-- The stretch as it travels. -/
def Stretch.bytes (s : Stretch) : Bytes := s.noise ++ s.segment.bytes

/-- The message that the stretch carries. -/
def Stretch.value? (s : Stretch) : Option Json := s.segment.value?

/-- A look that takes off bytes with a message in them, or with none. -/
def Progress.taking : Option Json → Bytes → Progress
  | some value, rest => .message value rest
  | none, rest => .dropped rest

/-! ## Header blocks in a stream -/

/-- The token does not overlap itself, so noise does not hide where it begins. -/
theorem find_token {noise : Bytes} (hfree : ¬ token <:+: noise) (after : Bytes) :
    find token (noise ++ token ++ after) 0 = some noise.length := by
  refine find_append token_ne_nil ((find_eq_some_iff token_ne_nil).mpr ⟨Nat.zero_le _, ?_, ?_⟩) after
  · exact ⟨[], by rw [List.append_nil, List.drop_left]⟩
  · intro j _ hlt hstands
    rcases Nat.lt_or_ge noise.length (j + token.length) with hover | hin
    · -- a token that begins in the noise and ends behind it
      have hshift : token.drop (noise.length - j) <+: token := by
        obtain ⟨rest, hrest⟩ := hstands
        refine ⟨rest, ?_⟩
        rw [← List.drop_append_of_le_length (by omega), hrest, List.drop_drop,
          Nat.add_sub_cancel' (Nat.le_of_lt hlt), List.drop_left]
      have hnone : ∀ k < 15, 0 < k → ¬ token.drop k <+: token := by decide
      rw [token_length] at hover
      exact hnone (noise.length - j) (by omega) (by omega) hshift
    · exact hfree ((stands_append hin).mp hstands).isInfix

/-- A header block: the text behind the token holds no empty line, and it either states the length of
the payload or states none, and then no payload follows. -/
structure Block (text body : Bytes) : Prop where
  ends : find headerEnd (text ++ headerEnd) 0 = some text.length
  states : length? (firstLine (text ++ headerEnd)) = some body.length ∧
        body.length ≤ maxMessageSize ∨
      length? (firstLine (text ++ headerEnd)) = none ∧ body = []

section

variable {text body : Bytes}

theorem find_behind {needle : Bytes} (hne : needle ≠ []) {place : Nat}
    (h : find needle text 0 = some place) (noise after : Bytes) :
    find needle (noise ++ token ++ (text ++ after)) (noise.length + token.length)
      = some (noise.length + token.length + place) := by
  have hplace := find_append_right hne (noise ++ token) (text ++ after) 0
  rw [find_append hne h after, Nat.add_zero, List.length_append] at hplace
  exact hplace

theorem lengthField_eq (ends : find headerEnd (text ++ headerEnd) 0 = some text.length)
    (noise after : Bytes) (stop : Nat) :
    lengthField (noise ++ token ++ (text ++ headerEnd ++ after)) noise.length stop
      = firstLine (text ++ headerEnd) := by
  obtain ⟨line, hline, hle⟩ := lineBreak_of_end ends
  have hdrop : (noise ++ token ++ (text ++ headerEnd ++ after)).drop (noise.length + token.length)
      = text ++ headerEnd ++ after := by
    rw [← List.length_append, List.drop_left]
  unfold lengthField slice firstLine
  dsimp only
  rw [find_behind lineBreak_ne_nil hline, hline, Option.getD_some, Option.getD_some, hdrop,
    Nat.add_sub_cancel_left, List.take_append_of_le_length]
  rw [List.length_append]
  omega

theorem firstHeader_block {noise : Bytes} (hfree : ¬ token <:+: noise)
    (ends : find headerEnd (text ++ headerEnd) 0 = some text.length) (after : Bytes) :
    firstHeader (noise ++ token ++ (text ++ headerEnd ++ after))
      = .whole noise.length (noise.length + token.length + text.length) :=
  firstHeader_whole_iff.mpr ⟨find_token hfree _, find_behind headerEnd_ne_nil ends noise after⟩

theorem drop_block (noise text after : Bytes) :
    (noise ++ token ++ (text ++ headerEnd ++ after)).drop
      (noise.length + token.length + text.length + headerEnd.length) = after := by
  have hassoc : noise ++ token ++ (text ++ headerEnd ++ after)
      = noise ++ token ++ text ++ headerEnd ++ after := by
    simp only [List.append_assoc]
  rw [hassoc, ← List.length_append, ← List.length_append, ← List.length_append, List.drop_left]

/-- A block in front is taken off with its payload, and nothing else is. -/
theorem glance_block {noise : Bytes} (hfree : ¬ token <:+: noise) (h : Block text body)
    (rest : Bytes) :
    glance (noise ++ token ++ (text ++ headerEnd ++ (body ++ rest))) =
      match length? (firstLine (text ++ headerEnd)) with
      | none => .dropped rest
      | some _ => (payload body rest).1 := by
  rw [glance_whole (firstHeader_block hfree h.ends _)]
  rcases h.states with ⟨hlength, hfits⟩ | ⟨hlength, rfl⟩
  · rw [lookWhole_full (by rw [lengthField_eq h.ends, hlength]) hfits, drop_block, List.take_left,
      List.drop_left, hlength]
    rw [drop_block, List.length_append]
    exact Nat.le_add_right _ _
  · rw [lookWhole_unsized (by rw [lengthField_eq h.ends, hlength]), drop_block, hlength]
    rfl

theorem keeps_block {noise : Bytes} (hfree : ¬ token <:+: noise) (h : Block text body)
    (after : Bytes) :
    ({} : Decoder).discards (noise ++ token ++ (text ++ headerEnd ++ after)) = false := by
  rw [discards_whole (firstHeader_block hfree h.ends after), lengthField_eq h.ends]
  rcases h.states with ⟨hlength, hfits⟩ | ⟨hlength, -⟩
  · rw [hlength]
    exact decide_eq_false (Nat.not_lt.mpr hfits)
  · rw [hlength]
    rfl

/-- A block that has not arrived in full is waited for: the noise and the beginning of a token are
too short to be dropped, and a length that is stated is accepted. -/
theorem spared_part {noise part missing : Bytes} (hfree : ¬ token <:+: noise)
    (hshort : noise.length ≤ garbageLimit - 14) (h : Block text body)
    (hcut : part ++ missing = noise ++ token ++ (text ++ headerEnd ++ body))
    (hmissing : missing ≠ []) : Spared {} part := by
  have htoken : find token (part ++ missing) 0 = some noise.length := by
    rw [hcut]
    exact find_token hfree _
  have hend : find headerEnd (part ++ missing) (noise.length + token.length)
      = some (noise.length + token.length + text.length) := by
    rw [hcut]
    exact find_behind headerEnd_ne_nil h.ends noise body
  have hlen := congrArg List.length hcut
  have hpos := List.length_pos_iff.mpr hmissing
  simp only [List.length_append] at hlen
  cases hcase : firstHeader part with
  | absent =>
      have hnone := firstHeader_absent_iff.mp hcase
      -- a part that reached behind the token would hold it
      have hreach : part.length < noise.length + token.length := by
        refine Nat.lt_of_not_le fun hle => ?_
        have hstands := ((find_eq_some_iff token_ne_nil).mp htoken).2.1
        exact (find_eq_none_iff token_ne_nil).mp hnone noise.length (Nat.zero_le _)
          ((stands_append hle).mp hstands)
      refine spared_of_wait ?_ (glance_absent hcase)
      rw [discards_absent hcase]
      refine decide_eq_false ?_
      rw [token_length] at hreach
      unfold garbageLimit at hshort ⊢
      omega
  | cut start => exact spared_of_wait (discards_cut hcase) (glance_cut hcase)
  | whole start stop =>
      obtain ⟨hstart, hstop⟩ := firstHeader_whole_iff.mp hcase
      have hplace : start = noise.length :=
        Option.some.inj ((find_append token_ne_nil hstart missing).symm.trans htoken)
      subst hplace
      have hstopPlace : stop = noise.length + token.length + text.length :=
        Option.some.inj ((find_append headerEnd_ne_nil hstop missing).symm.trans hend)
      subst hstopPlace
      have hin := find_inside headerEnd_ne_nil hstop
      have hfield : lengthField part noise.length (noise.length + token.length + text.length)
          = firstLine (text ++ headerEnd) := by
        rw [← lengthField_append hstop missing, hcut, lengthField_eq h.ends]
      rcases h.states with ⟨hlength, hfits⟩ | ⟨-, rfl⟩
      · refine spared_of_wait ?_ ?_
        · rw [discards_whole hcase, hfield, hlength]
          exact decide_eq_false (Nat.not_lt.mpr hfits)
        · rw [glance_whole hcase,
            lookWhole_short (hfield ▸ hlength) hfits (by rw [List.length_drop]; omega)]
          rfl
      · -- without a payload the whole block has arrived
        rw [List.length_nil] at hlen
        omega

end

/-! ## Segments -/

theorem block_header (body : Bytes) (hfits : body.length ≤ maxMessageSize) :
    Block (statedLength body.length) body ∧
      length? (firstLine (statedLength body.length ++ headerEnd)) = some body.length := by
  have hline : firstLine (statedLength body.length ++ headerEnd) = statedLength body.length := by
    have hfind : find lineBreak (statedLength body.length ++ headerEnd) 0
        = some (statedLength body.length).length :=
      find_of_not_mem (not_mem_statedLength body.length) lineBreak
    unfold firstLine
    rw [hfind, Option.getD_some, List.take_left]
  have hstates : length? (firstLine (statedLength body.length ++ headerEnd)) = some body.length := by
    rw [hline]
    refine length?_statedLength ?_
    unfold maxMessageSize at hfits
    omega
  exact ⟨⟨find_of_not_mem (not_mem_statedLength body.length) [], .inl ⟨hstates, hfits⟩⟩, hstates⟩

theorem payload_object {bytes : Bytes} {value : Json} (hreads : Json.parse bytes = .ok value)
    (hobject : value.isObj = true) (rest : Bytes) :
    (payload bytes rest).1 = .message value rest := by
  unfold payload
  rw [hreads]
  dsimp only
  rw [if_pos hobject]

theorem payload_noObject {bytes : Bytes}
    (h : ∀ value, Json.parse bytes = .ok value → value.isObj = false) (rest : Bytes) :
    (payload bytes rest).1 = .dropped rest := by
  unfold payload
  cases hreads : Json.parse bytes with
  | error e => rfl
  | ok value =>
      dsimp only
      rw [if_neg (by rw [h value hreads]; exact Bool.false_ne_true)]

/-- Every segment is a block, and a look at the block takes the segment off. -/
theorem Segment.block (s : Segment) :
    ∃ text body, Block text body ∧ s.bytes = token ++ (text ++ headerEnd ++ body) ∧
      ∀ rest, (match length? (firstLine (text ++ headerEnd)) with
        | none => Progress.dropped rest
        | some _ => (payload body rest).1) = Progress.taking s.value? rest := by
  cases s with
  | message value object reads fits =>
      obtain ⟨hblock, hstates⟩ := block_header (Utf8.encode value.render) fits
      refine ⟨_, _, hblock, ?_, fun rest => ?_⟩
      · show header _ ++ Utf8.encode value.render = _
        rw [header_eq, List.append_assoc]
      · rw [hstates]
        exact payload_object reads object rest
  | unusable body noObject fits =>
      obtain ⟨hblock, hstates⟩ := block_header body fits
      refine ⟨_, _, hblock, ?_, fun rest => ?_⟩
      · show header body.length ++ body = _
        rw [header_eq, List.append_assoc]
      · rw [hstates]
        exact payload_noObject noObject rest
  | unsized text ends noLength =>
      refine ⟨text, [], ⟨ends, .inr ⟨noLength, rfl⟩⟩, ?_, fun rest => ?_⟩
      · show token ++ (text ++ headerEnd) = _
        rw [List.append_nil]
      · rw [noLength]
        rfl

theorem Stretch.block (s : Stretch) :
    ∃ text body, Block text body ∧ s.bytes = s.noise ++ token ++ (text ++ headerEnd ++ body) ∧
      ∀ rest, (match length? (firstLine (text ++ headerEnd)) with
        | none => Progress.dropped rest
        | some _ => (payload body rest).1) = Progress.taking s.value? rest := by
  obtain ⟨text, body, hblock, hbytes, hprogress⟩ := s.segment.block
  refine ⟨text, body, hblock, ?_, hprogress⟩
  unfold Stretch.bytes
  rw [hbytes]
  exact (List.append_assoc _ _ _).symm

theorem Stretch.glance_eq (s : Stretch) (rest : Bytes) :
    glance (s.bytes ++ rest) = Progress.taking s.value? rest := by
  obtain ⟨text, body, hblock, hbytes, hprogress⟩ := s.block
  rw [hbytes, List.append_assoc, List.append_assoc (text ++ headerEnd),
    glance_block s.free hblock rest, hprogress rest]

theorem Stretch.keeps (s : Stretch) (rest : Bytes) :
    ({} : Decoder).discards (s.bytes ++ rest) = false := by
  obtain ⟨text, body, hblock, hbytes, -⟩ := s.block
  rw [hbytes, List.append_assoc, List.append_assoc (text ++ headerEnd), keeps_block s.free hblock]

theorem Stretch.spared_part (s : Stretch) {part missing : Bytes} (hcut : part ++ missing = s.bytes)
    (hmissing : missing ≠ []) : Spared {} part := by
  obtain ⟨text, body, hblock, hbytes, -⟩ := s.block
  exact Frame.spared_part s.free s.short hblock (hcut.trans hbytes) hmissing

/-! ## Streams -/

/-- Stretches one behind the other. -/
def stream (stretches : List Stretch) : Bytes := stretches.flatMap Stretch.bytes

/-- The messages that a stream carries, in order. -/
def carried (stretches : List Stretch) : List Json :=
  stretches.filterMap Stretch.value?

namespace Reader

theorem drain_stream (stretches : List Stretch) :
    (drain {} (stream stretches)).outcome = (carried stretches, {}) := by
  induction stretches with
  | nil => exact outcome_wait idle_fresh
  | cons s more ih =>
      have hlook := s.glance_eq (stream more)
      have hstream : stream (s :: more) = s.bytes ++ stream more := List.flatMap_cons
      rw [hstream]
      cases hvalue : s.value? with
      | none =>
          rw [hvalue] at hlook
          rw [outcome_dropped hlook, ih, carried, carried, List.filterMap_cons_none hvalue]
      | some value =>
          rw [hvalue] at hlook
          rw [outcome_message hlook, ih, carried, carried, List.filterMap_cons_some hvalue]

/-- No beginning of a stream triggers a discarding. -/
theorem spared_stream (stretches : List Stretch) {first : Bytes}
    (h : first <+: stream stretches) : Spared {} first := by
  induction stretches generalizing first with
  | nil =>
      obtain rfl : first = [] := List.prefix_nil.mp h
      exact .wait rfl idle_fresh
  | cons s more ih =>
      have hstream : stream (s :: more) = s.bytes ++ stream more := List.flatMap_cons
      rw [hstream] at h
      rcases Nat.lt_or_ge first.length s.bytes.length with hpart | hwhole
      · obtain ⟨missing, hcut⟩ :=
          List.prefix_of_prefix_length_le h (List.prefix_append _ _) (Nat.le_of_lt hpart)
        refine s.spared_part hcut fun hnil => ?_
        rw [hnil, List.append_nil] at hcut
        exact absurd hcut (fun heq => absurd (heq ▸ hpart) (Nat.lt_irrefl _))
      · obtain ⟨later, rfl⟩ := List.prefix_of_prefix_length_le (List.prefix_append _ _) h hwhole
        have hlater : Spared {} later := ih ((List.prefix_append_right_inj _).mp h)
        have hlook := s.glance_eq later
        cases hvalue : s.value? with
        | none =>
            rw [hvalue] at hlook
            exact .dropped (s.keeps later) hlook hlater
        | some value =>
            rw [hvalue] at hlook
            exact .message (s.keeps later) hlook hlater

/-- However a stream of messages and faults is cut, a new reader hands out exactly the messages, in
order, and nothing is left. -/
theorem pushAll_stream (stretches : List Stretch) {chunks : List Bytes}
    (hcut : chunks.flatten = stream stretches) :
    (pushAll {} chunks).messages = carried stretches ∧
      (pushAll {} chunks).reader.buffered = 0 := by
  have hquiet : ({} : Reader).Quiet chunks :=
    quiet_of_prefixes idle_fresh fun first hfirst => spared_stream stretches (hcut ▸ hfirst)
  have houtcome := pushAll_quiet idle_fresh hquiet
  rw [List.nil_append, hcut, drain_stream] at houtcome
  obtain ⟨hmessages, hreader⟩ := Prod.mk.inj houtcome
  refine ⟨hmessages, ?_⟩
  rw [hreader]
  rfl

/-- Noise that ends in the beginning of a token, a message, a payload that itself is a whole frame, a
header without a length, and another message. -/
def faulty : List Stretch :=
  [ { noise := Utf8.encode "noise Content-Len"
      free := not_infix_of_find token_ne_nil (by decide)
      short := by decide
      segment := .message (.obj [("a", .num (.int 1))]) rfl
        (by
          rw [show Json.render _ = "\x7b\"a\":1\x7d" by with_unfolding_all rfl]
          with_unfolding_all rfl)
        (by decide) },
    { noise := []
      free := not_infix_of_find token_ne_nil rfl
      short := Nat.zero_le _
      segment := .unusable (Utf8.encode "Content-Length: 2\r\n\r\n\x7b\x7d")
        (fun value h => by
          have herror : Json.parse (Utf8.encode "Content-Length: 2\r\n\r\n\x7b\x7d")
              = .error ⟨.expectedValue, 1, 1⟩ := by with_unfolding_all rfl
          exact absurd (herror.symm.trans h) (by simp))
        (by decide) },
    { noise := []
      free := not_infix_of_find token_ne_nil rfl
      short := Nat.zero_le _
      segment := .unsized (Utf8.encode " many\r\nX: y") (by decide) (by decide) },
    { noise := []
      free := not_infix_of_find token_ne_nil rfl
      short := Nat.zero_le _
      segment := .message (.obj []) rfl
        (by
          rw [show Json.render _ = "\x7b\x7d" by with_unfolding_all rfl]
          with_unfolding_all rfl)
        (by decide) } ]

/-- The faulty stream arrives byte by byte. -/
theorem pushAll_stream_faulty :
    (pushAll {} ((stream faulty).map fun b => [b])).messages
        = [.obj [("a", .num (.int 1))], .obj []] ∧
      (pushAll {} ((stream faulty).map fun b => [b])).reader.buffered = 0 :=
  pushAll_stream faulty (by rw [← List.flatMap_def, List.flatMap_singleton'])

end Reader

end LanguageClient.Frame
