import LanguageClient.Text.Utf8

/-!
# Base64

The standard alphabet with padding. Decoding accepts exactly what encoding produces: the padding
must be there, and the bits that the last symbol does not need must be zero.
-/

namespace LanguageClient.Base64

/-- The symbol of a value below 64. -/
def symbol (n : Nat) : UInt8 :=
  if n < 26 then (65 + n).toUInt8
  else if n < 52 then (71 + n).toUInt8
  else if n < 62 then (n - 4).toUInt8
  else if n == 62 then 43
  else 47

/-- The value of a symbol. -/
def value? (b : UInt8) : Option Nat :=
  if 65 ≤ b && b ≤ 90 then some (b.toNat - 65)
  else if 97 ≤ b && b ≤ 122 then some (b.toNat - 71)
  else if 48 ≤ b && b ≤ 57 then some (b.toNat + 4)
  else if b == 43 then some 62
  else if b == 47 then some 63
  else none

/-- The padding symbol. -/
def pad : UInt8 := 61

/-- Writes bytes, three at a time in four symbols. -/
def encodeBytes : Bytes → Bytes
  | a :: b :: c :: rest =>
      symbol (a.toNat / 4) :: symbol (a.toNat % 4 * 16 + b.toNat / 16) ::
        symbol (b.toNat % 16 * 4 + c.toNat / 64) :: symbol (c.toNat % 64) :: encodeBytes rest
  | [a, b] =>
      [symbol (a.toNat / 4), symbol (a.toNat % 4 * 16 + b.toNat / 16), symbol (b.toNat % 16 * 4),
        pad]
  | [a] => [symbol (a.toNat / 4), symbol (a.toNat % 4 * 16), pad, pad]
  | [] => []

/-- Writes bytes as text. -/
def encode (bytes : Bytes) : String :=
  String.ofList ((encodeBytes bytes).map fun b => Char.ofNat b.toNat)

/-- Why a text is not Base64. -/
inductive DecodeError where
  | invalidByte (offset : Nat) (byte : UInt8)
  | invalidLength (length : Nat)
  | invalidLastSymbol (offset : Nat) (byte : UInt8)
  | invalidPadding
deriving DecidableEq, Repr

/-- The wording of an error. -/
def DecodeError.message : DecodeError → String
  | .invalidByte offset byte => s!"Invalid symbol {byte}, offset {offset}."
  | .invalidLength length => s!"Invalid input length: {length}"
  | .invalidLastSymbol offset byte => s!"Invalid last symbol {byte}, offset {offset}."
  | .invalidPadding => "Invalid padding"

/-- The three bytes of four values. -/
def tripleOf (a b c d : Nat) : Bytes :=
  [(a * 4 + b / 16).toUInt8, (b % 16 * 16 + c / 4).toUInt8, (c % 4 * 64 + d).toUInt8]

/-- The symbols of the last quantum, which begins at `offset`: its values, its last symbol, and the
number of pads. A pad stands third or fourth, with nothing but pads after it. -/
def lastQuantum (offset : Nat) (quantum : Bytes) : Except DecodeError (List Nat × UInt8 × Nat) :=
  let rec go (i : Nat) (values : List Nat) (last : UInt8) (pads : Nat) (firstPad : Nat) :
      Bytes → Except DecodeError (List Nat × UInt8 × Nat)
    | [] => .ok (values.reverse, last, pads)
    | b :: rest =>
        if b = pad then
          if i < 2 then .error (.invalidByte (offset + i) b)
          else go (i + 1) values last (pads + 1) (if pads = 0 then i else firstPad) rest
        else if pads > 0 then .error (.invalidByte (offset + firstPad) pad)
        else match value? b with
          | none => .error (.invalidByte (offset + i) b)
          | some v => go (i + 1) (v :: values) b 0 0 rest
  go 0 [] 0 0 0 quantum

/-- Reads the last quantum. -/
def decodeLast (offset : Nat) (quantum : Bytes) : Except DecodeError Bytes := do
  let (values, last, pads) ← lastQuantum offset quantum
  if values.length < 2 then .error (.invalidLength (offset + values.length))
  else if (values.length + pads) % 4 ≠ 0 then .error .invalidPadding
  else match values with
    | [a, b] =>
        if b % 16 ≠ 0 then .error (.invalidLastSymbol (offset + 1) last)
        else .ok [(a * 4 + b / 16).toUInt8]
    | [a, b, c] =>
        if c % 4 ≠ 0 then .error (.invalidLastSymbol (offset + 2) last)
        else .ok [(a * 4 + b / 16).toUInt8, (b % 16 * 16 + c / 4).toUInt8]
    | [a, b, c, d] => .ok (tripleOf a b c d)
    | _ => .error .invalidPadding

/-- Reads whole quanta, and the last one by `decodeLast`. -/
def decodeFrom (offset : Nat) : Bytes → Except DecodeError Bytes
  | a :: b :: c :: d :: e :: rest =>
      match value? a, value? b, value? c, value? d with
      | some va, some vb, some vc, some vd => do
          .ok (tripleOf va vb vc vd ++ (← decodeFrom (offset + 4) (e :: rest)))
      | none, _, _, _ => .error (.invalidByte offset a)
      | _, none, _, _ => .error (.invalidByte (offset + 1) b)
      | _, _, none, _ => .error (.invalidByte (offset + 2) c)
      | _, _, _, none => .error (.invalidByte (offset + 3) d)
  | quantum => decodeLast offset quantum

/-- Reads bytes that were written as text. A single stray byte behind whole quanta is reported
before anything else. -/
def decodeBytes (input : Bytes) : Except DecodeError Bytes :=
  match input.getLast? with
  | none => .ok []
  | some last =>
      if input.length % 4 = 1 ∧ last ≠ pad ∧ (value? last).isNone then
        .error (.invalidByte (input.length - 1) last)
      else decodeFrom 0 input

/-- Reads bytes from a text. -/
def decode (s : String) : Except DecodeError Bytes :=
  decodeBytes (Utf8.encode s)

end LanguageClient.Base64
