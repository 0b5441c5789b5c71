/-!
# UTF-8 text in byte lists

`encode` writes a text as bytes. Reading goes through `scan`, which cuts a byte list into
characters and ill-formed stretches: each stretch is a maximal subpart, the longest start of a
well-formed sequence, or a single byte when no sequence starts there. `decode?` accepts what has
no ill-formed stretch, and `lossy` replaces each of them by U+FFFD.
-/

namespace LanguageClient

/-- Raw bytes, as pipes carry them. -/
abbrev Bytes := List UInt8

namespace Utf8

/-- The bytes of a text. -/
def encode (s : String) : Bytes :=
  s.toList.flatMap String.utf8EncodeChar

/-- Number of bytes of a text. -/
def size (s : String) : Nat := (encode s).length

/-- A started sequence: its payload bits so far, how many bytes are missing, and the range the
next byte must lie in. -/
structure Partial where
  bits : Nat
  missing : Nat
  low : UInt8
  high : UInt8

/-- What a lead byte begins. -/
inductive Lead where
  | char (c : Char)
  | sequence (p : Partial)
  | illFormed

/-- Classifies a byte where a character must begin. The narrowed ranges exclude overlong forms,
surrogates and code points above U+10FFFF. -/
def lead (b : UInt8) : Lead :=
  if b < 0x80 then .char (Char.ofNat b.toNat)
  else if b < 0xC2 then .illFormed
  else if b < 0xE0 then .sequence ⟨b.toNat % 32, 1, 0x80, 0xBF⟩
  else if b == 0xE0 then .sequence ⟨0, 2, 0xA0, 0xBF⟩
  else if b == 0xED then .sequence ⟨13, 2, 0x80, 0x9F⟩
  else if b < 0xF0 then .sequence ⟨b.toNat % 16, 2, 0x80, 0xBF⟩
  else if b == 0xF0 then .sequence ⟨0, 3, 0x90, 0xBF⟩
  else if b < 0xF4 then .sequence ⟨b.toNat % 8, 3, 0x80, 0xBF⟩
  else if b == 0xF4 then .sequence ⟨4, 3, 0x80, 0x8F⟩
  else .illFormed

/-- Starts a character at `b`: what is emitted at once, newest first, and what is left open. -/
def begin (b : UInt8) (acc : List (Option Char)) : List (Option Char) × Option Partial :=
  match lead b with
  | .char c => (some c :: acc, none)
  | .sequence p => (acc, some p)
  | .illFormed => (none :: acc, none)

/-- Cuts bytes into characters (`some`) and ill-formed stretches (`none`), newest first. -/
def scanFrom : Bytes → Option Partial → List (Option Char) → List (Option Char)
  | [], none, acc => acc
  | [], some _, acc => none :: acc
  | b :: rest, none, acc =>
      let (acc, open?) := begin b acc
      scanFrom rest open? acc
  | b :: rest, some p, acc =>
      if p.low ≤ b ∧ b ≤ p.high then
        let bits := p.bits * 64 + b.toNat % 64
        if p.missing ≤ 1 then scanFrom rest none (some (Char.ofNat bits) :: acc)
        else scanFrom rest (some ⟨bits, p.missing - 1, 0x80, 0xBF⟩) acc
      else
        let (acc, open?) := begin b (none :: acc)
        scanFrom rest open? acc

/-- The characters and ill-formed stretches of a byte list, in order. -/
def scan (bytes : Bytes) : List (Option Char) :=
  (scanFrom bytes none []).reverse

/-- The text of well-formed bytes. -/
def decode? (bytes : Bytes) : Option String :=
  let pieces := scan bytes
  if pieces.all Option.isSome then some (String.ofList (pieces.filterMap id)) else none

/-- The text of any bytes, with U+FFFD for each ill-formed stretch. -/
def lossy (bytes : Bytes) : String :=
  String.ofList ((scan bytes).map (·.getD '\ufffd'))

end Utf8

end LanguageClient
