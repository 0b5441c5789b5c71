import LanguageClient.Json.Basic
import LanguageClient.Json.Double
import LanguageClient.Text.Utf8

/-!
# JSON values from bytes

A reader for one JSON document. Integers that fit 64 bits stay integers, every other number is a
double; of repeated keys the last wins; containers nest at most 127 deep. The first fault ends the
reading, with its cause and its place: the line, and the number of bytes in it up to the fault.
-/

namespace LanguageClient.Json

/-- Why a text is no JSON document. -/
inductive Cause where
  | eofList | eofObject | eofString | eofValue
  | expectedColon | expectedListCommaOrEnd | expectedObjectCommaOrEnd
  | expectedIdent | expectedValue
  | invalidEscape | invalidNumber | numberOutOfRange | invalidCodePoint
  | controlCharacter | keyMustBeString | loneSurrogate | trailingComma
  | trailingCharacters | unexpectedEndOfHexEscape | tooDeep
deriving DecidableEq, Repr

/-- The wording of a cause. -/
def Cause.message : Cause → String
  | .eofList => "EOF while parsing a list"
  | .eofObject => "EOF while parsing an object"
  | .eofString => "EOF while parsing a string"
  | .eofValue => "EOF while parsing a value"
  | .expectedColon => "expected `:`"
  | .expectedListCommaOrEnd => "expected `,` or `]`"
  | .expectedObjectCommaOrEnd => "expected `,` or `\x7d`"
  | .expectedIdent => "expected ident"
  | .expectedValue => "expected value"
  | .invalidEscape => "invalid escape"
  | .invalidNumber => "invalid number"
  | .numberOutOfRange => "number out of range"
  | .invalidCodePoint => "invalid unicode code point"
  | .controlCharacter =>
      "control character (\\u0000-\\u001F) found while parsing a string"
  | .keyMustBeString => "key must be a string"
  | .loneSurrogate => "lone leading surrogate in hex escape"
  | .trailingComma => "trailing comma"
  | .trailingCharacters => "trailing characters"
  | .unexpectedEndOfHexEscape => "unexpected end of hex escape"
  | .tooDeep => "recursion limit exceeded"

/-- A fault, with the bytes that were still to be read. -/
structure Fault where
  cause : Cause
  rest : Bytes
  /-- The fault is the next byte, not yet consumed. -/
  ahead : Bool

/-- A fault right after the consumed bytes. -/
def faultAt {α : Type} (cause : Cause) (rest : Bytes) : Except Fault α :=
  .error ⟨cause, rest, false⟩

/-- A fault on the next byte. -/
def faultAhead {α : Type} (cause : Cause) (rest : Bytes) : Except Fault α :=
  .error ⟨cause, rest, true⟩

/-- Skips blanks between tokens. -/
def skipBlanks : Bytes → Bytes
  | [] => []
  | b :: rest => if b == 32 || b == 10 || b == 9 || b == 13 then skipBlanks rest else b :: rest

/-- Is the byte a decimal digit? -/
def isDigitByte (b : UInt8) : Bool := 48 ≤ b && b ≤ 57

/-- Reads the rest of a literal name. -/
def literal : Bytes → Bytes → Except Fault Bytes
  | [], rest => .ok rest
  | _ :: _, [] => faultAt .eofValue []
  | want :: more, b :: rest =>
      if b == want then literal more rest else faultAt .expectedIdent rest

/-! ## Strings -/

/-- The value of four hexadecimal digits, and what follows them. -/
def hexQuad : Bytes → Except Fault (Nat × Bytes)
  | a :: b :: c :: d :: rest =>
      let digit (x : UInt8) : Option Nat :=
        if 48 ≤ x && x ≤ 57 then some (x.toNat - 48)
        else if 97 ≤ x && x ≤ 102 then some (x.toNat - 87)
        else if 65 ≤ x && x ≤ 70 then some (x.toNat - 55)
        else none
      match digit a, digit b, digit c, digit d with
      | some a, some b, some c, some d => .ok (((a * 16 + b) * 16 + c) * 16 + d, rest)
      | _, _, _, _ => faultAt .invalidEscape rest
  | _ => faultAt .eofString []

/-- The character of a `\u` escape, whose four digits come next. A leading surrogate must be
followed by the escape of a trailing one. -/
def unicodeEscape (bytes : Bytes) : Except Fault (Char × Bytes) := do
  let (n, rest) ← hexQuad bytes
  if 0xDC00 ≤ n ∧ n ≤ 0xDFFF then faultAt .loneSurrogate rest
  else if n < 0xD800 ∨ 0xDBFF < n then .ok (Char.ofNat n, rest)
  else match rest with
    | [] => faultAt .eofString []
    | b :: rest =>
        if b != 92 then faultAt .unexpectedEndOfHexEscape rest
        else match rest with
          | [] => faultAt .eofString []
          | b :: rest =>
              if b != 117 then faultAt .unexpectedEndOfHexEscape rest
              else do
                let (low, rest) ← hexQuad rest
                if low < 0xDC00 ∨ 0xDFFF < low then faultAt .loneSurrogate rest
                else .ok (Char.ofNat (0x10000 + (n - 0xD800) * 1024 + (low - 0xDC00)), rest)

/-- The character of an escape, whose backslash is consumed. -/
def escape : Bytes → Except Fault (Char × Bytes)
  | [] => faultAt .eofString []
  | b :: rest =>
      if b == 34 then .ok ('"', rest)
      else if b == 92 then .ok ('\\', rest)
      else if b == 47 then .ok ('/', rest)
      else if b == 98 then .ok (Char.ofNat 8, rest)
      else if b == 102 then .ok (Char.ofNat 12, rest)
      else if b == 110 then .ok ('\n', rest)
      else if b == 114 then .ok ('\r', rest)
      else if b == 116 then .ok ('\t', rest)
      else if b == 117 then unicodeEscape rest
      else faultAt .invalidEscape rest

/-- The bytes of a string up to its closing quote, newest first. The fuel is at least the number
of bytes. -/
def stringBody : Nat → Bytes → Bytes → Except Fault (String × Bytes)
  | 0, _, rest => faultAt .eofString rest
  | _, _, [] => faultAt .eofString []
  | fuel + 1, acc, b :: rest =>
      if b == 34 then
        match Utf8.decode? acc.reverse with
        | some s => .ok (s, rest)
        | none => faultAt .invalidCodePoint rest
      else if b == 92 then do
        let (c, rest) ← escape rest
        stringBody fuel ((String.utf8EncodeChar c).reverse ++ acc) rest
      else if b < 32 then faultAt .controlCharacter rest
      else stringBody fuel (b :: acc) rest

/-! ## Numbers -/

/-- One decimal digit more, unless the significand would leave 64 bits. -/
def pushDigit (significand : Nat) (b : UInt8) : Option Nat :=
  let n := significand * 10 + (b.toNat - 48)
  if n < 0x10000000000000000 then some n else none

/-- The double of a significand and an exponent. -/
def scaled (negative : Bool) (significand : Nat) (exponent : Int) (rest : Bytes) :
    Except Fault (Number × Bytes) :=
  match Double.ofDecimal? negative significand exponent with
  | some bits => .ok (.double bits, rest)
  | none => faultAt .numberOutOfRange rest

/-- The digits of an exponent: their value, or `none` at the digit that takes it beyond 31 bits. -/
def exponentDigits : Bytes → Nat → Option Nat × Bytes
  | [], n => (some n, [])
  | b :: rest, n =>
      if isDigitByte b then
        let n := n * 10 + (b.toNat - 48)
        if n < 0x80000000 then exponentDigits rest n
        else (none, rest)
      else (some n, b :: rest)

/-- The exponent after its mark; `start` shifts it. An exponent beyond 31 bits makes the number
zero when it is negative or the significand is zero. -/
def exponentPart (negative : Bool) (significand : Nat) (start : Int) (bytes : Bytes) :
    Except Fault (Number × Bytes) :=
  let (sign, bytes) : Int × Bytes := match bytes with
    | 43 :: rest => (1, rest)
    | 45 :: rest => (-1, rest)
    | bytes => (1, bytes)
  match bytes with
  | [] => faultAt .eofValue []
  | b :: rest =>
      if ¬ isDigitByte b then faultAt .invalidNumber rest
      else match exponentDigits rest (b.toNat - 48) with
        | (some n, rest) => scaled negative significand (start + sign * n) rest
        | (none, rest) =>
            if significand ≠ 0 ∧ sign = 1 then faultAt .numberOutOfRange rest
            else scaled negative 0 0 (rest.dropWhile isDigitByte)

/-- Continues with an exponent when its mark follows, else ends the number. -/
def afterFraction (negative : Bool) (significand : Nat) (exponent : Int) (bytes : Bytes) :
    Except Fault (Number × Bytes) :=
  match bytes with
  | b :: rest =>
      if b == 101 || b == 69 then exponentPart negative significand exponent rest
      else scaled negative significand exponent bytes
  | [] => scaled negative significand exponent bytes

/-- The digits behind the point. Digits that no longer fit the significand are dropped. -/
def fraction (negative : Bool) : Nat → Int → Bool → Bytes → Except Fault (Number × Bytes)
  | significand, exponent, seen, [] =>
      if seen then scaled negative significand exponent [] else faultAhead .eofValue []
  | significand, exponent, seen, b :: rest =>
      if isDigitByte b then
        match pushDigit significand b with
        | some n => fraction negative n (exponent - 1) true rest
        | none => afterFraction negative significand exponent (rest.dropWhile isDigitByte)
      else if seen then afterFraction negative significand exponent (b :: rest)
      else faultAhead .invalidNumber (b :: rest)

/-- Digits of an integer that no longer fit the significand: each raises the exponent. -/
def longInteger (negative : Bool) (significand : Nat) : Int → Bytes → Except Fault (Number × Bytes)
  | exponent, [] => scaled negative significand exponent []
  | exponent, b :: rest =>
      if isDigitByte b then longInteger negative significand (exponent + 1) rest
      else if b == 46 then fraction negative significand exponent false rest
      else afterFraction negative significand exponent (b :: rest)

/-- An integer that ends here. What does not fit 64 bits, and a negative zero, is a double. -/
def integer (negative : Bool) (significand : Nat) (rest : Bytes) : Except Fault (Number × Bytes) :=
  if ¬ negative then .ok (.int significand, rest)
  else if significand = 0 ∨ 0x8000000000000000 < significand then scaled true significand 0 rest
  else .ok (.int (-significand), rest)

/-- What follows the digits of the integer part. -/
def afterInteger (negative : Bool) (significand : Nat) (bytes : Bytes) :
    Except Fault (Number × Bytes) :=
  match bytes with
  | b :: rest =>
      if b == 46 then fraction negative significand 0 false rest
      else if b == 101 || b == 69 then exponentPart negative significand 0 rest
      else integer negative significand bytes
  | [] => integer negative significand bytes

/-- The digits of the integer part behind the first. -/
def integerDigits (negative : Bool) : Nat → Bytes → Except Fault (Number × Bytes)
  | significand, [] => afterInteger negative significand []
  | significand, b :: rest =>
      if isDigitByte b then
        match pushDigit significand b with
        | some n => integerDigits negative n rest
        | none => longInteger negative significand 0 (b :: rest)
      else afterInteger negative significand (b :: rest)

/-- A number whose minus sign, if any, is consumed. -/
def number (negative : Bool) : Bytes → Except Fault (Number × Bytes)
  | [] => faultAt .eofValue []
  | b :: rest =>
      if b == 48 then
        match rest with
        | d :: _ => if isDigitByte d then faultAhead .invalidNumber rest
                    else afterInteger negative 0 rest
        | [] => afterInteger negative 0 rest
      else if isDigitByte b then integerDigits negative (b.toNat - 48) rest
      else faultAt .invalidNumber rest

/-! ## Values -/

/-- How deep containers may still nest, plus one. -/
def depthLimit : Nat := 128

mutual

/-- One value. The fuel bounds the number of steps; every step consumes a byte. -/
def value : Nat → Nat → Bytes → Except Fault (Json × Bytes)
  | 0, _, bytes => faultAhead .eofValue bytes
  | fuel + 1, depth, bytes =>
      match skipBlanks bytes with
      | [] => faultAhead .eofValue []
      | b :: rest =>
          if b == 110 then do
            let rest ← literal [117, 108, 108] rest
            .ok (.null, rest)
          else if b == 116 then do
            let rest ← literal [114, 117, 101] rest
            .ok (.bool true, rest)
          else if b == 102 then do
            let rest ← literal [97, 108, 115, 101] rest
            .ok (.bool false, rest)
          else if b == 45 then do
            let (n, rest) ← number true rest
            .ok (.num n, rest)
          else if isDigitByte b then do
            let (n, rest) ← number false (b :: rest)
            .ok (.num n, rest)
          else if b == 34 then do
            let (s, rest) ← stringBody fuel [] rest
            .ok (.str s, rest)
          else if b == 91 then
            if depth ≤ 1 then faultAhead .tooDeep (b :: rest)
            else elements fuel (depth - 1) true [] rest
          else if b == 123 then
            if depth ≤ 1 then faultAhead .tooDeep (b :: rest)
            else members fuel (depth - 1) true [] rest
          else faultAhead .expectedValue (b :: rest)

/-- The items of an array behind its opening bracket, newest first. -/
def elements : Nat → Nat → Bool → List Json → Bytes → Except Fault (Json × Bytes)
  | 0, _, _, _, bytes => faultAhead .eofList bytes
  | fuel + 1, depth, first, acc, bytes =>
      match skipBlanks bytes with
      | [] => faultAhead .eofList []
      | b :: rest =>
          if b == 93 then .ok (.arr acc.reverse, rest)
          else if first then do
            let (j, rest) ← value fuel depth (b :: rest)
            elements fuel depth false (j :: acc) rest
          else if b == 44 then
            match skipBlanks rest with
            | [] => faultAhead .eofValue []
            | c :: rest =>
                if c == 93 then faultAhead .trailingComma (c :: rest)
                else do
                  let (j, rest) ← value fuel depth (c :: rest)
                  elements fuel depth false (j :: acc) rest
          else faultAhead .expectedListCommaOrEnd (b :: rest)

/-- The members of an object behind its opening brace. -/
def members : Nat → Nat → Bool → Members → Bytes → Except Fault (Json × Bytes)
  | 0, _, _, _, bytes => faultAhead .eofObject bytes
  | fuel + 1, depth, first, acc, bytes =>
      match skipBlanks bytes with
      | [] => faultAhead .eofObject []
      | b :: rest =>
          if b == 125 then .ok (.obj acc, rest)
          else if first then
            if b == 34 then member fuel depth acc rest
            else faultAhead .keyMustBeString (b :: rest)
          else if b == 44 then
            match skipBlanks rest with
            | [] => faultAhead .eofValue []
            | c :: rest =>
                if c == 34 then member fuel depth acc rest
                else if c == 125 then faultAhead .trailingComma (c :: rest)
                else faultAhead .keyMustBeString (c :: rest)
          else faultAhead .expectedObjectCommaOrEnd (b :: rest)

/-- One member behind the opening quote of its key, and the members after it. -/
def member : Nat → Nat → Members → Bytes → Except Fault (Json × Bytes)
  | 0, _, _, bytes => faultAhead .eofObject bytes
  | fuel + 1, depth, acc, bytes => do
      let (key, rest) ← stringBody fuel [] bytes
      match skipBlanks rest with
      | [] => faultAhead .eofObject []
      | b :: rest =>
          if b == 58 then do
            let (j, rest) ← value fuel depth rest
            members fuel depth false (Members.insert key j acc) rest
          else faultAhead .expectedColon (b :: rest)

end

/-- A fault with its place in the text. -/
structure ReadError where
  cause : Cause
  line : Nat
  column : Nat
deriving DecidableEq, Repr

/-- Wording and place of an error. -/
def ReadError.message (e : ReadError) : String :=
  s!"{e.cause.message} at line {e.line} column {e.column}"

/-- The place of a fault: lines count from one, the column is the number of bytes since the line
began. -/
def Fault.locate (text : Bytes) (f : Fault) : ReadError :=
  let consumed := text.length - f.rest.length
  let consumed := if f.ahead then min text.length (consumed + 1) else consumed
  let before := text.take consumed
  { cause := f.cause
    line := 1 + before.count 10
    column := (before.reverse.takeWhile (· != 10)).length }

/-- Reads a whole document. Each step of `value` consumes a byte or enters a container, so twice
the length is fuel enough. -/
def parse (text : Bytes) : Except ReadError Json :=
  match value (2 * text.length + 2) depthLimit text with
  | .error f => .error (f.locate text)
  | .ok (j, rest) =>
      match skipBlanks rest with
      | [] => .ok j
      | b :: rest => .error (Fault.locate text ⟨.trailingCharacters, b :: rest, true⟩)

end LanguageClient.Json
