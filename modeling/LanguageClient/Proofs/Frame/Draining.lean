import LanguageClient.Proofs.Frame.Cutting
import Mathlib.Logic.ExistsUnique

/-!
# What a push leaves

A reader that was pushed to waits for exactly one thing (`pushAll_wants_one`): for a token, for the
empty line that ends a header block, or for the rest of a payload. No message, no header without a length
and no length that is too large is left behind for the next push. The reason is that a drained reader
is idle, and a look waits in these three cases only.
-/

namespace LanguageClient.Frame

/-! ## The first header block, as it stands in the bytes -/

/-- The first header block of the bytes is whole: its token stands at `start`, the empty line that ends
it at `stop`, and `field` is what the token's line holds behind the token. -/
structure HeaderAt (bytes : Bytes) (start stop : Nat) (field : Bytes) : Prop where
  token : FirstAt Frame.token bytes 0 start
  stop : FirstAt headerEnd bytes (start + Frame.token.length) stop
  field : ∃ line, FirstAt lineBreak bytes (start + Frame.token.length) line ∧
    field = slice bytes (start + Frame.token.length) line

theorem headerAt_iff {bytes field : Bytes} {start stop : Nat} :
    HeaderAt bytes start stop field ↔
      firstHeader bytes = .whole start stop ∧ field = lengthField bytes start stop := by
  rw [firstHeader_whole_iff]
  constructor
  · rintro ⟨htoken, hstop, line, hline, rfl⟩
    rw [← find_iff_firstAt token_ne_nil] at htoken
    rw [← find_iff_firstAt headerEnd_ne_nil] at hstop
    rw [← find_iff_firstAt lineBreak_ne_nil] at hline
    refine ⟨⟨htoken, hstop⟩, ?_⟩
    unfold lengthField
    dsimp only
    rw [hline, Option.getD_some]
  · rintro ⟨⟨htoken, hstop⟩, rfl⟩
    obtain ⟨line, hline, -⟩ := lineBreak_of_end hstop
    refine ⟨(find_iff_firstAt token_ne_nil).mp htoken,
      (find_iff_firstAt headerEnd_ne_nil).mp hstop, line,
      (find_iff_firstAt lineBreak_ne_nil).mp hline, ?_⟩
    unfold lengthField
    dsimp only
    rw [hline, Option.getD_some]

theorem firstHeader_absent_iff_free {bytes : Bytes} :
    firstHeader bytes = .absent ↔ ¬ token <:+: bytes := by
  rw [firstHeader_absent_iff]
  constructor
  · exact not_infix_of_find token_ne_nil
  · intro hfree
    refine (find_eq_none_iff token_ne_nil).mpr fun j _ hstands => ?_
    exact hfree hstands.isInfix

/-! ## What a buffer waits for -/

/-- What a buffer can wait for. -/
inductive Want where
  /-- The token of a header block. -/
  | token
  /-- The empty line that ends a header block. -/
  | headerEnd
  /-- The rest of a payload. -/
  | payload

/-- The bytes wait for it. -/
def Want.In (bytes : Bytes) : Want → Prop
  | .token => ¬ Frame.token <:+: bytes ∧ bytes.length ≤ garbageLimit
  | .headerEnd => ∃ start, FirstAt Frame.token bytes 0 start ∧
      ∀ j, start + Frame.token.length ≤ j → ¬ Stands Frame.headerEnd bytes j
  | .payload => ∃ start stop field length, HeaderAt bytes start stop field ∧
      length? field = some length ∧ length ≤ maxMessageSize ∧
      (bytes.drop (stop + Frame.headerEnd.length)).length < length

theorem Reader.Idle.wants {r : Reader} (h : r.Idle) : ∃ want : Want, want.In r.buffer := by
  have hidle : glance r.buffer = .wait r.decoder r.buffer := h
  cases hcase : firstHeader r.buffer with
  | absent =>
      refine ⟨.token, firstHeader_absent_iff_free.mp hcase, ?_⟩
      rw [glance_absent_eq hcase] at hidle
      split at hidle
      · -- a buffer that is too long would have been dropped
        obtain ⟨-, hbuffer⟩ := Progress.wait.inj hidle
        rw [← hbuffer]
        exact Nat.zero_le _
      · rename_i hfew
        exact Nat.le_of_not_lt hfew
  | cut start =>
      obtain ⟨htoken, hnone⟩ := firstHeader_cut_iff.mp hcase
      exact ⟨.headerEnd, start, (find_iff_firstAt token_ne_nil).mp htoken,
        (find_eq_none_iff headerEnd_ne_nil).mp hnone⟩
  | whole start stop =>
      rw [glance_whole hcase] at hidle
      obtain ⟨length, hlength, hsmall, hshort⟩ := lookWhole_isWait (congrArg Progress.isWait hidle)
      exact ⟨.payload, start, stop, _, length, headerAt_iff.mpr ⟨hcase, rfl⟩, hlength, hsmall,
        hshort⟩

/-- What is missing of a header block, or of the payload behind it. -/
def Want.behind : Header → Want
  | .absent => .token
  | .cut _ => .headerEnd
  | .whole _ _ => .payload

/-- What the bytes wait for hangs on how far their first header block has arrived. -/
theorem Want.In.eq_behind {bytes : Bytes} {want : Want} (h : want.In bytes) :
    want = .behind (firstHeader bytes) := by
  cases want with
  | token =>
      rw [firstHeader_absent_iff_free.mpr h.1]
      rfl
  | headerEnd =>
      obtain ⟨start, htoken, hnone⟩ := h
      have hcut : firstHeader bytes = .cut start :=
        firstHeader_cut_iff.mpr ⟨(find_iff_firstAt token_ne_nil).mpr htoken,
          (find_eq_none_iff headerEnd_ne_nil).mpr hnone⟩
      rw [hcut]
      rfl
  | payload =>
      obtain ⟨start, stop, field, length, hheader, -⟩ := h
      rw [(headerAt_iff.mp hheader).1]
      rfl

namespace Reader

theorem Idle.pushAll {r : Reader} (h : r.Idle) (chunks : List Bytes) :
    (r.pushAll chunks).reader.Idle := by
  induction chunks generalizing r with
  | nil => exact h
  | cons chunk more ih => exact ih (h.push chunk)

/-- After every push the buffer waits for exactly one of a token, an empty line and the rest of a
payload, and reading on without new bytes hands out nothing and changes nothing. -/
theorem pushAll_wants_one (chunks : List Bytes) :
    (∃! want : Want, want.In (pushAll {} chunks).reader.buffer) ∧
      ((pushAll {} chunks).reader.push []).outcome = ([], (pushAll {} chunks).reader) := by
  have hidle : (pushAll {} chunks).reader.Idle := idle_fresh.pushAll chunks
  obtain ⟨want, hwant⟩ := hidle.wants
  refine ⟨⟨want, hwant, fun other hother => ?_⟩, ?_⟩
  · rw [hother.eq_behind, hwant.eq_behind]
  · rw [hidle.push_eq, List.append_nil]
    exact outcome_wait hidle

end Reader

end LanguageClient.Frame
