import LanguageClient.Text.Printable
import LanguageClient.Uri.Address
import LanguageClient.Uri.LowerCase

/-!
# Domain names in ASCII

A domain name is lowered and each label with characters beyond ASCII is written as `xn--` and its
Punycode. Names with characters that no domain can hold are refused.
-/

namespace LanguageClient.Uri

/-! ## Punycode -/

namespace Punycode

/-- A digit below 36 as a letter or a decimal digit. -/
def digit (d : Nat) : Char :=
  if d < 26 then Char.ofNat (97 + d) else Char.ofNat (22 + d)

/-- The value of a digit. -/
def digitValue? (c : Char) : Option Nat :=
  if 'a' ≤ c ∧ c ≤ 'z' then some (c.toNat - 97)
  else if 'A' ≤ c ∧ c ≤ 'Z' then some (c.toNat - 65)
  else if c.isDigit then some (c.toNat - 22)
  else none

/-- The threshold of the digit at position `k`. -/
def threshold (k bias : Nat) : Nat := min 26 (max 1 (k - bias))

/-- Scales a delta down until it is small. -/
def scaleDown (delta k : Nat) : Nat × Nat :=
  if 455 < delta then scaleDown (delta / 35) (k + 36) else (delta, k)
termination_by delta

/-- The bias after a delta. -/
def adapt (delta points : Nat) (first : Bool) : Nat :=
  let delta := if first then delta / 700 else delta / 2
  let (delta, k) := scaleDown (delta + delta / points) 0
  k + 36 * delta / (delta + 38)

/-- A delta as digits of variable weight. -/
def encodeDelta (bias q k : Nat) : List Char :=
  let t := threshold k bias
  if h : q < t then [digit q]
  else digit (t + (q - t) % (36 - t)) :: encodeDelta bias ((q - t) / (36 - t)) (k + 36)
termination_by q
decreasing_by
  have : 1 ≤ threshold k bias := by unfold threshold; omega
  have := Nat.div_le_self (q - threshold k bias) (36 - threshold k bias)
  omega

/-- What the encoder carries along: next code point, delta, bias, and how many are written. -/
structure Encoder where
  next : Nat
  delta : Nat
  bias : Nat
  written : Nat

/-- One pass over the label for the code point `n`. -/
def encodePass (n basic : Nat) (e : Encoder) : List Nat → List Char × Encoder
  | [] => ([], e)
  | c :: rest =>
      if c < n then encodePass n basic { e with delta := e.delta + 1 } rest
      else if c = n then
        let digits := encodeDelta e.bias e.delta 36
        let bias := adapt e.delta (e.written + 1) (e.written == basic)
        let (more, e) := encodePass n basic
          { e with delta := 0, bias := bias, written := e.written + 1 } rest
        (digits ++ more, e)
      else encodePass n basic e rest

/-- Passes for each distinct code point beyond ASCII, in increasing order. -/
def encodePasses (points : List Nat) (basic : Nat) : Encoder → List Nat → List Char
  | _, [] => []
  | e, n :: rest =>
      let delta := e.delta + (n - e.next) * (e.written + 1)
      let (digits, e) := encodePass n basic { e with next := n, delta := delta } points
      digits ++ encodePasses points basic { e with next := n + 1, delta := e.delta + 1 } rest

/-- A label in Punycode, without `xn--`. -/
def encode (label : List Char) : List Char :=
  let points := label.map Char.toNat
  let basic := label.filter (·.toNat < 0x80)
  let beyond := ((points.filter (0x80 ≤ ·)).mergeSort (· ≤ ·)).eraseDups
  let start := if basic.isEmpty then [] else basic ++ ['-']
  start ++ encodePasses points basic.length ⟨0x80, 0, 72, basic.length⟩ beyond

/-- One delta: its value and what follows. -/
def decodeDelta (bias : Nat) : Nat → Nat → Nat → List Char → Option (Nat × List Char)
  | _, _, _, [] => none
  | i, weight, k, c :: rest => do
      let d ← digitValue? c
      let i := i + d * weight
      let t := threshold k bias
      if d < t then some (i, rest) else decodeDelta bias i (weight * (36 - t)) (k + 36) rest

/-- Inserts the code points that the digits describe. The fuel is the number of digits. -/
def decodeLoop : Nat → Nat → Nat → Nat → List Char → List Char → Option (List Char)
  | _, _, _, _, out, [] => some out
  | 0, _, _, _, _, _ :: _ => none
  | fuel + 1, n, i, bias, out, digits => do
      let (position, rest) ← decodeDelta bias i 1 36 digits
      let count := out.length + 1
      let n := n + position / count
      let place := position % count
      if n.isValidChar then
        decodeLoop fuel n (place + 1) (adapt (position - i) count (i == 0))
          (out.take place ++ Char.ofNat n :: out.drop place) rest
      else none

/-- The label behind `xn--`. -/
def decode? (cs : List Char) : Option (List Char) :=
  let parts := splitAt '-' cs
  let (basic, digits) :=
    if parts.length > 1 then (['-'].intercalate parts.dropLast, parts.getLast?.getD [])
    else ([], cs)
  if digits.isEmpty ∨ basic.any (0x80 ≤ ·.toNat) then none
  else decodeLoop digits.length 0x80 0 72 basic digits

end Punycode

/-! ## Labels -/

/-- ASCII characters that no domain name holds. -/
def forbiddenInDomain (c : Char) : Bool :=
  c.toNat ≤ 0x20 || c.toNat == 0x7F ||
    "%#/:<>?@[\\]^|".toList.contains c

/-- Characters that a domain name drops. -/
def ignoredInDomain (c : Char) : Bool :=
  let n := c.toNat
  n == 0xAD || n == 0x34F || n == 0x200B || n == 0x2060 || n == 0x2064 || n == 0xFEFF ||
    (0x180B ≤ n && n ≤ 0x180D) || (0xFE00 ≤ n && n ≤ 0xFE0F)

/-- The ideographic and full-width stops count as dots. -/
def dotted (c : Char) : Char :=
  let n := c.toNat
  if n == 0x3002 || n == 0xFF0E || n == 0xFF61 then '.' else lowerCase c

/-- May the label, with characters beyond ASCII, be part of a domain name? -/
def validLabel (label : List Char) : Bool :=
  label.all (fun c => c.toNat < 0x80 || Text.isPrintable c) &&
    !(label.head?.map Text.isExtender).getD false

/-- One mapped label in ASCII. -/
def labelToAscii? (label : List Char) : Option (List Char) :=
  if label.take 4 = ['x', 'n', '-', '-'] then do
    let decoded ← Punycode.decode? (label.drop 4)
    if decoded.any (0x80 ≤ ·.toNat) && decoded.all (fun c => lowerCase c == c) &&
        validLabel decoded && label.all (·.toNat < 0x80) then some label else none
  else if label.all (·.toNat < 0x80) then some label
  else if validLabel label then some (['x', 'n', '-', '-'] ++ Punycode.encode label)
  else none

/-- A domain name in ASCII. -/
def domainToAscii? (name : List Char) : Option (List Char) := do
  let mapped := (name.filter (¬ ignoredInDomain ·)).map dotted
  let labels ← (splitAt '.' mapped).mapM labelToAscii?
  let ascii := ['.'].intercalate labels
  if ascii.any forbiddenInDomain then none else some ascii

end LanguageClient.Uri
