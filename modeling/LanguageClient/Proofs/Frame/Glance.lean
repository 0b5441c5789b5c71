import LanguageClient.Frame.Reader
import LanguageClient.Proofs.Frame.Search

/-!
# Looking at a buffer without a memory

`glance` is the look of a decoder that has searched nothing yet. Two facts make it the meaning of
every look. A decoder whose offsets skip nothing (`Decoder.Fits`) sees what a glance sees, and the
offsets that a waiting look leaves skip nothing, whatever arrives later. And what a glance takes off a
buffer it also takes off a longer one (`glance_append`), unless a rule dropped the whole buffer.
-/

namespace LanguageClient.Frame

theorem token_ne_nil : token ≠ [] := by decide

theorem headerEnd_ne_nil : headerEnd ≠ [] := by decide

theorem lineBreak_ne_nil : lineBreak ≠ [] := by decide

theorem token_length : token.length = 15 := by decide

theorem headerEnd_length : headerEnd.length = 4 := rfl

/-- What a decoder that remembers nothing sees. -/
def glance (buffer : Bytes) : Progress := (({} : Decoder).look buffer).1

/-- The first header block of a buffer. -/
def firstHeader (buffer : Bytes) : Header := ({} : Decoder).header buffer

/-! ## Where the first header block lies -/

section Header

variable {d : Decoder} {buffer : Bytes} {start stop : Nat}

/-! A decoder finds the token first, each part from where it was searched to. -/

theorem Decoder.header_absent_iff :
    d.header buffer = .absent ↔ find token buffer d.tokenScan = none := by
  unfold Decoder.header
  cases find token buffer d.tokenScan with
  | none => exact ⟨fun _ => rfl, fun _ => rfl⟩
  | some start =>
      dsimp only
      cases find headerEnd buffer (max d.headerScan (start + token.length)) <;> simp

theorem Decoder.header_cut_iff :
    d.header buffer = .cut start ↔
      find token buffer d.tokenScan = some start ∧
        find headerEnd buffer (max d.headerScan (start + token.length)) = none := by
  unfold Decoder.header
  cases find token buffer d.tokenScan with
  | none => simp
  | some start' =>
      dsimp only
      cases hstop : find headerEnd buffer (max d.headerScan (start' + token.length)) with
      | none =>
          simp only [Header.cut.injEq, Option.some.injEq]
          exact ⟨fun h => h ▸ ⟨rfl, hstop⟩, fun h => h.1⟩
      | some stop =>
          simp only [reduceCtorEq, Option.some.injEq, false_iff]
          rintro ⟨rfl, hnone⟩
          exact absurd (hstop.symm.trans hnone) (by simp)

theorem Decoder.header_whole_iff :
    d.header buffer = .whole start stop ↔
      find token buffer d.tokenScan = some start ∧
        find headerEnd buffer (max d.headerScan (start + token.length)) = some stop := by
  unfold Decoder.header
  cases find token buffer d.tokenScan with
  | none => simp
  | some start' =>
      dsimp only
      cases hstop : find headerEnd buffer (max d.headerScan (start' + token.length)) with
      | none =>
          simp only [reduceCtorEq, Option.some.injEq, false_iff]
          rintro ⟨rfl, hsome⟩
          exact absurd (hstop.symm.trans hsome) (by simp)
      | some stop' =>
          simp only [Header.whole.injEq, Option.some.injEq]
          constructor
          · rintro ⟨rfl, rfl⟩
            exact ⟨rfl, hstop⟩
          · rintro ⟨rfl, hsome⟩
            exact ⟨rfl, Option.some.inj (hstop.symm.trans hsome)⟩

theorem firstHeader_absent_iff :
    firstHeader buffer = .absent ↔ find token buffer 0 = none :=
  Decoder.header_absent_iff

theorem firstHeader_cut_iff :
    firstHeader buffer = .cut start ↔
      find token buffer 0 = some start ∧ find headerEnd buffer (start + token.length) = none := by
  have hcut : firstHeader buffer = .cut start ↔ _ := Decoder.header_cut_iff
  rwa [Nat.zero_max] at hcut

theorem firstHeader_whole_iff :
    firstHeader buffer = .whole start stop ↔
      find token buffer 0 = some start ∧
        find headerEnd buffer (start + token.length) = some stop := by
  have hwhole : firstHeader buffer = .whole start stop ↔ _ := Decoder.header_whole_iff
  rwa [Nat.zero_max] at hwhole

end Header

/-! ## What a glance sees, by how far the first header block has arrived -/

theorem glance_absent_eq {buffer : Bytes} (h : firstHeader buffer = .absent) :
    glance buffer =
      if buffer.length > garbageLimit then .wait {} []
      else .wait { tokenScan := buffer.length - (token.length - 1) } buffer := by
  have hheader : ({} : Decoder).header buffer = .absent := h
  unfold glance Decoder.look
  rw [hheader]
  dsimp only
  split
  · rfl
  · rfl

theorem glance_cut_eq {buffer : Bytes} {start : Nat} (h : firstHeader buffer = .cut start) :
    glance buffer =
      .wait { tokenScan := start,
              headerScan := max (buffer.length - (headerEnd.length - 1)) (start + token.length) }
        buffer := by
  have hheader : ({} : Decoder).header buffer = .cut start := h
  unfold glance Decoder.look
  rw [hheader]

theorem glance_whole {buffer : Bytes} {start stop : Nat}
    (h : firstHeader buffer = .whole start stop) :
    glance buffer = (lookWhole buffer start stop).1 := by
  have hheader : ({} : Decoder).header buffer = .whole start stop := h
  unfold glance Decoder.look
  rw [hheader]

theorem glance_absent {buffer : Bytes} (h : firstHeader buffer = .absent) :
    (glance buffer).isWait = true := by
  rw [glance_absent_eq h]
  split
  · rfl
  · rfl

theorem glance_cut {buffer : Bytes} {start : Nat} (h : firstHeader buffer = .cut start) :
    (glance buffer).isWait = true := by
  rw [glance_cut_eq h]
  rfl

/-! ## Offsets that skip nothing -/

/-- The offsets of a decoder skip nothing of a buffer. -/
structure Decoder.Fits (d : Decoder) (buffer : Bytes) : Prop where
  token : ∀ j < d.tokenScan, ¬ Stands token buffer j
  header : ∀ start, find Frame.token buffer 0 = some start → ∀ j,
    start + Frame.token.length ≤ j → j < d.headerScan → ¬ Stands headerEnd buffer j
  /-- Without a token no header end was looked for. -/
  idle : find Frame.token buffer 0 = none → d.headerScan = 0

theorem fits_fresh (buffer : Bytes) : ({} : Decoder).Fits buffer where
  token j hj := absurd hj (Nat.not_lt_zero j)
  header _ _ j _ hj := absurd hj (Nat.not_lt_zero j)
  idle _ := rfl

theorem Decoder.Fits.header_eq {d : Decoder} {buffer : Bytes} (h : d.Fits buffer) :
    d.header buffer = firstHeader buffer := by
  have htoken : find Frame.token buffer d.tokenScan = find Frame.token buffer 0 :=
    find_skip token_ne_nil (Nat.zero_le _) fun j _ hj => h.token j hj
  unfold firstHeader Decoder.header
  rw [htoken]
  cases hstart : find Frame.token buffer 0 with
  | none => rfl
  | some start =>
      have hstop : find headerEnd buffer (max d.headerScan (start + Frame.token.length))
          = find headerEnd buffer (start + Frame.token.length) :=
        find_skip headerEnd_ne_nil (Nat.le_max_right _ _) fun j hj hlt =>
          h.header start hstart j hj (by omega)
      dsimp only
      rw [hstop, Nat.zero_max]

/-- Offsets that skip nothing do not matter. -/
theorem Decoder.Fits.look_eq {d : Decoder} {buffer : Bytes} (h : d.Fits buffer) :
    d.look buffer = ({} : Decoder).look buffer := by
  have hheader : d.header buffer = ({} : Decoder).header buffer := h.header_eq
  unfold Decoder.look
  rw [hheader]
  cases hcase : ({} : Decoder).header buffer with
  | absent => rw [h.idle (firstHeader_absent_iff.mp hcase)]
  | cut start => rfl
  | whole start stop => rfl

section Whole

variable {buffer : Bytes} {start stop n : Nat}

/-! What a look at a whole header block does, by the length that it states. -/

theorem lookWhole_unsized (h : length? (lengthField buffer start stop) = none) :
    (lookWhole buffer start stop).1 = .dropped (buffer.drop (stop + headerEnd.length)) := by
  unfold lookWhole
  dsimp only
  rw [h]

theorem lookWhole_oversized (h : length? (lengthField buffer start stop) = some n)
    (hlarge : maxMessageSize < n) : (lookWhole buffer start stop).1 = .dropped [] := by
  unfold lookWhole
  dsimp only
  rw [h]
  dsimp only
  rw [if_pos hlarge]

theorem lookWhole_short (h : length? (lengthField buffer start stop) = some n)
    (hfits : n ≤ maxMessageSize) (hshort : (buffer.drop (stop + headerEnd.length)).length < n) :
    (lookWhole buffer start stop).1 = .wait { tokenScan := start, headerScan := stop } buffer := by
  unfold lookWhole
  dsimp only
  rw [h]
  dsimp only
  rw [if_neg (Nat.not_lt.mpr hfits), if_pos hshort]

theorem lookWhole_full (h : length? (lengthField buffer start stop) = some n)
    (hfits : n ≤ maxMessageSize) (hfull : n ≤ (buffer.drop (stop + headerEnd.length)).length) :
    (lookWhole buffer start stop).1 =
      (payload ((buffer.drop (stop + headerEnd.length)).take n)
        ((buffer.drop (stop + headerEnd.length)).drop n)).1 := by
  unfold lookWhole
  dsimp only
  rw [h]
  dsimp only
  rw [if_neg (Nat.not_lt.mpr hfits), if_neg (Nat.not_lt.mpr hfull)]

theorem lookWhole_isWait (h : (lookWhole buffer start stop).1.isWait = true) :
    ∃ n, length? (lengthField buffer start stop) = some n ∧ n ≤ maxMessageSize ∧
      (buffer.drop (stop + headerEnd.length)).length < n := by
  cases hlength : length? (lengthField buffer start stop) with
  | none =>
      rw [lookWhole_unsized hlength] at h
      exact absurd h Bool.false_ne_true
  | some n =>
      rcases Nat.lt_or_ge maxMessageSize n with hlarge | hfits
      · rw [lookWhole_oversized hlength hlarge] at h
        exact absurd h Bool.false_ne_true
      · rcases Nat.lt_or_ge (buffer.drop (stop + headerEnd.length)).length n with hshort | hfull
        · exact ⟨n, rfl, hfits, hshort⟩
        · -- a payload that has arrived does not wait
          rw [lookWhole_full hlength hfits hfull, payload_isWait] at h
          exact absurd h Bool.false_ne_true

theorem lookWhole_wait {rest : Bytes} {d : Decoder}
    (h : (lookWhole buffer start stop).1 = .wait d rest) :
    d = { tokenScan := start, headerScan := stop } ∧ rest = buffer := by
  obtain ⟨n, hlength, hfits, hshort⟩ := lookWhole_isWait (congrArg Progress.isWait h)
  rw [lookWhole_short hlength hfits hshort] at h
  obtain ⟨hd, hrest⟩ := Progress.wait.inj h
  exact ⟨hd.symm, hrest.symm⟩

end Whole

/-- What a glance waits with skips nothing, whatever is appended. -/
theorem fits_of_glance_wait {d : Decoder} {buffer : Bytes} (h : glance buffer = .wait d buffer)
    (more : Bytes) : d.Fits (buffer ++ more) := by
  have htoken_append : ∀ start, find token buffer 0 = some start →
      ∀ start', find token (buffer ++ more) 0 = some start' → start' = start := by
    intro start hstart start' hstart'
    rw [find_append token_ne_nil hstart more] at hstart'
    exact (Option.some.inj hstart').symm
  cases hcase : firstHeader buffer with
  | absent =>
      have hnone := (find_eq_none_iff token_ne_nil).mp (firstHeader_absent_iff.mp hcase)
      rw [glance_absent_eq hcase] at h
      split at h
      · -- the whole buffer was dropped, so it was empty and nothing is remembered
        obtain ⟨rfl, -⟩ := Progress.wait.inj h
        exact fits_fresh _
      · obtain ⟨rfl, -⟩ := Progress.wait.inj h
        refine ⟨fun j hj => ?_, fun _ _ j _ hj => absurd hj (Nat.not_lt_zero j), fun _ => rfl⟩
        rw [stands_append (by dsimp only at hj; omega)]
        exact hnone j (Nat.zero_le j)
  | cut start =>
      obtain ⟨hstart, hnone⟩ := firstHeader_cut_iff.mp hcase
      rw [glance_cut_eq hcase] at h
      obtain ⟨rfl, -⟩ := Progress.wait.inj h
      refine ⟨fun j hj => ?_, fun start' hstart' j hj hlt => ?_, fun hn => ?_⟩
      · exact ((find_eq_some_iff token_ne_nil).mp (find_append token_ne_nil hstart more)).2.2 j
          (Nat.zero_le j) hj
      · rw [htoken_append start hstart start' hstart'] at hj
        dsimp only at hlt
        have hin : j + headerEnd.length ≤ buffer.length := by
          rw [headerEnd_length] at hlt ⊢; omega
        rw [stands_append hin]
        exact (find_eq_none_iff headerEnd_ne_nil).mp hnone j hj
      · rw [find_append token_ne_nil hstart more] at hn
        exact absurd hn (by simp)
  | whole start stop =>
      obtain ⟨hstart, hstop⟩ := firstHeader_whole_iff.mp hcase
      rw [glance_whole hcase] at h
      obtain ⟨rfl, -⟩ := lookWhole_wait h
      refine ⟨fun j hj => ?_, fun start' hstart' j hj hlt => ?_, fun hn => ?_⟩
      · exact ((find_eq_some_iff token_ne_nil).mp (find_append token_ne_nil hstart more)).2.2 j
          (Nat.zero_le j) hj
      · rw [htoken_append start hstart start' hstart'] at hj
        exact ((find_eq_some_iff headerEnd_ne_nil).mp
          (find_append headerEnd_ne_nil hstop more)).2.2 j hj hlt
      · rw [find_append token_ne_nil hstart more] at hn
        exact absurd hn (by simp)

/-! ## What a glance takes stays taken -/

theorem glance_shorter {buffer : Bytes} (hwait : (glance buffer).isWait = false) :
    (glance buffer).buffer.length < buffer.length :=
  (({} : Decoder).look_buffer buffer).2 hwait

/-- The look, with more bytes behind the buffer. -/
def Progress.extend (more : Bytes) : Progress → Progress
  | .wait d buffer => .wait d (buffer ++ more)
  | .dropped buffer => .dropped (buffer ++ more)
  | .message value buffer => .message value (buffer ++ more)

/-- Does the look trigger a rule that drops the whole buffer: too many bytes without a token, or a
declared length that is too large? -/
def Decoder.discards (d : Decoder) (buffer : Bytes) : Bool :=
  match d.header buffer with
  | .absent => decide (buffer.length > garbageLimit)
  | .cut _ => false
  | .whole start stop => (length? (lengthField buffer start stop)).any (· > maxMessageSize)

theorem Decoder.Fits.discards_eq {d : Decoder} {buffer : Bytes} (h : d.Fits buffer) :
    d.discards buffer = ({} : Decoder).discards buffer := by
  have hheader : d.header buffer = ({} : Decoder).header buffer := h.header_eq
  unfold Decoder.discards
  rw [hheader]

theorem discards_absent {buffer : Bytes} (h : firstHeader buffer = .absent) :
    ({} : Decoder).discards buffer = decide (buffer.length > garbageLimit) := by
  have hheader : ({} : Decoder).header buffer = .absent := h
  unfold Decoder.discards
  rw [hheader]

theorem discards_cut {buffer : Bytes} {start : Nat} (h : firstHeader buffer = .cut start) :
    ({} : Decoder).discards buffer = false := by
  have hheader : ({} : Decoder).header buffer = .cut start := h
  unfold Decoder.discards
  rw [hheader]

theorem discards_whole {buffer : Bytes} {start stop : Nat}
    (h : firstHeader buffer = .whole start stop) :
    ({} : Decoder).discards buffer
      = (length? (lengthField buffer start stop)).any (· > maxMessageSize) := by
  have hheader : ({} : Decoder).header buffer = .whole start stop := h
  unfold Decoder.discards
  rw [hheader]

theorem lineBreak_of_stands {buffer : Bytes} {start stop : Nat} (hle : start ≤ stop)
    (hstop : Stands headerEnd buffer stop) :
    ∃ line, find lineBreak buffer start = some line ∧ line ≤ stop := by
  have hbreak : Stands lineBreak buffer stop :=
    (by decide : lineBreak <+: headerEnd).trans hstop
  cases hline : find lineBreak buffer start with
  | none => exact absurd hbreak ((find_eq_none_iff lineBreak_ne_nil).mp hline stop hle)
  | some line =>
      refine ⟨line, rfl, Nat.le_of_not_lt fun hlt => ?_⟩
      exact ((find_eq_some_iff lineBreak_ne_nil).mp hline).2.2 stop hle hlt hbreak

theorem lineBreak_of_end {buffer : Bytes} {start stop : Nat}
    (h : find headerEnd buffer start = some stop) :
    ∃ line, find lineBreak buffer start = some line ∧ line ≤ stop := by
  obtain ⟨hle, hstop, -⟩ := (find_eq_some_iff headerEnd_ne_nil).mp h
  exact lineBreak_of_stands hle hstop

theorem lengthField_append {buffer : Bytes} {start stop : Nat}
    (h : find headerEnd buffer (start + token.length) = some stop) (more : Bytes) :
    lengthField (buffer ++ more) start stop = lengthField buffer start stop := by
  obtain ⟨line, hline, -⟩ := lineBreak_of_end h
  have hin := find_inside lineBreak_ne_nil hline
  have hle := ((find_eq_some_iff lineBreak_ne_nil).mp hline).1
  unfold lengthField slice
  dsimp only
  rw [hline, find_append lineBreak_ne_nil hline more, Option.getD_some,
    List.drop_append_of_le_length (by omega), List.take_append_of_le_length]
  rw [List.length_drop]
  omega

theorem payload_extend (bytes rest more : Bytes) :
    (payload bytes (rest ++ more)).1 = (payload bytes rest).1.extend more := by
  unfold payload
  split
  · split <;> rfl
  · rfl

theorem lookWhole_append {buffer : Bytes} {start stop : Nat}
    (h : find headerEnd buffer (start + token.length) = some stop)
    (hsize : (length? (lengthField buffer start stop)).any (· > maxMessageSize) = false)
    (hwait : (lookWhole buffer start stop).1.isWait = false) (more : Bytes) :
    (lookWhole (buffer ++ more) start stop).1 = (lookWhole buffer start stop).1.extend more := by
  have hin := find_inside headerEnd_ne_nil h
  have hbody : (buffer ++ more).drop (stop + headerEnd.length)
      = buffer.drop (stop + headerEnd.length) ++ more :=
    List.drop_append_of_le_length hin
  have hfield := lengthField_append h more
  cases hlength : length? (lengthField buffer start stop) with
  | none =>
      rw [lookWhole_unsized hlength, lookWhole_unsized (by rw [hfield, hlength]), hbody]
      rfl
  | some n =>
      have hfits : n ≤ maxMessageSize := by
        rw [hlength] at hsize
        simpa using hsize
      rcases Nat.lt_or_ge (buffer.drop (stop + headerEnd.length)).length n with hshort | hfull
      · rw [lookWhole_short hlength hfits hshort] at hwait
        exact absurd hwait (by simp [Progress.isWait])
      · have hmore : n ≤ ((buffer ++ more).drop (stop + headerEnd.length)).length := by
          rw [hbody, List.length_append]
          omega
        rw [lookWhole_full hlength hfits hfull,
          lookWhole_full (by rw [hfield, hlength]) hfits hmore, hbody,
          List.take_append_of_le_length hfull, List.drop_append_of_le_length hfull, payload_extend]

/-- A glance that takes something off a buffer takes it off every longer one. -/
theorem glance_append {buffer : Bytes} (hkeep : ({} : Decoder).discards buffer = false)
    (hwait : (glance buffer).isWait = false) (more : Bytes) :
    glance (buffer ++ more) = (glance buffer).extend more := by
  cases hcase : firstHeader buffer with
  | absent => exact absurd (glance_absent hcase) (by simp [hwait])
  | cut start => exact absurd (glance_cut hcase) (by simp [hwait])
  | whole start stop =>
      obtain ⟨hstart, hstop⟩ := firstHeader_whole_iff.mp hcase
      have hlong : firstHeader (buffer ++ more) = .whole start stop :=
        firstHeader_whole_iff.mpr
          ⟨find_append token_ne_nil hstart more, find_append headerEnd_ne_nil hstop more⟩
      rw [discards_whole hcase] at hkeep
      rw [glance_whole hcase] at hwait ⊢
      rw [glance_whole hlong]
      exact lookWhole_append hstop hkeep hwait more

theorem dropped_append {buffer rest : Bytes} (hkeep : ({} : Decoder).discards buffer = false)
    (h : glance buffer = .dropped rest) (more : Bytes) :
    glance (buffer ++ more) = .dropped (rest ++ more) := by
  rw [glance_append hkeep (by rw [h]; rfl), h]
  rfl

theorem message_append {buffer rest : Bytes} {value : Json}
    (hkeep : ({} : Decoder).discards buffer = false) (h : glance buffer = .message value rest)
    (more : Bytes) : glance (buffer ++ more) = .message value (rest ++ more) := by
  rw [glance_append hkeep (by rw [h]; rfl), h]
  rfl

theorem glance_wait_cases {buffer rest : Bytes} {d : Decoder} (h : glance buffer = .wait d rest) :
    rest = buffer ∨ ({} : Decoder).discards buffer = true ∧ d = {} ∧ rest = [] := by
  cases hcase : firstHeader buffer with
  | absent =>
      rw [glance_absent_eq hcase] at h
      split at h
      · rename_i hmany
        obtain ⟨hd, hrest⟩ := Progress.wait.inj h
        rw [discards_absent hcase]
        exact .inr ⟨decide_eq_true hmany, hd.symm, hrest.symm⟩
      · exact .inl (Progress.wait.inj h).2.symm
  | cut start =>
      rw [glance_cut_eq hcase] at h
      exact .inl (Progress.wait.inj h).2.symm
  | whole start stop =>
      rw [glance_whole hcase] at h
      exact .inl (lookWhole_wait h).2

theorem glance_wait_buffer {buffer rest : Bytes} {d : Decoder}
    (hkeep : ({} : Decoder).discards buffer = false) (h : glance buffer = .wait d rest) :
    rest = buffer := by
  rcases glance_wait_cases h with hrest | ⟨hdiscards, -⟩
  · exact hrest
  · exact absurd hdiscards (by simp [hkeep])

/-- The buffer a glance waits with is waited with again. -/
theorem glance_wait_again {buffer rest : Bytes} {d : Decoder} (h : glance buffer = .wait d rest) :
    glance rest = .wait d rest := by
  rcases glance_wait_cases h with rfl | ⟨-, rfl, rfl⟩
  · exact h
  · rfl

end LanguageClient.Frame
