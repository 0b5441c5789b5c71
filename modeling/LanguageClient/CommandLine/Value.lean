import LanguageClient.CommandLine.Basic

/-!
# Numbers on a command line

Integers are read digit by digit, so of two faults the first one met is reported: a number may be
too large before a later character turns out to be no digit.
-/

namespace LanguageClient.CommandLine

/-- Why a text is no integer of a range. -/
inductive NumberFault where
  | empty | invalidDigit | tooLarge | tooSmall
deriving DecidableEq, Repr

/-- The wording of a fault. -/
def NumberFault.message : NumberFault → String
  | .empty => "cannot parse integer from empty string"
  | .invalidDigit => "invalid digit found in string"
  | .tooLarge => "number too large to fit in target type"
  | .tooSmall => "number too small to fit in target type"

/-- Reads digits behind a number that was read already. A number above `limit` is the fault
`beyond`. -/
def readDigits (limit : Nat) (beyond : NumberFault) : Nat → List Char → Except NumberFault Nat
  | n, [] => .ok n
  | n, c :: rest =>
      if ¬ c.isDigit then .error .invalidDigit
      else
        let n := n * 10 + (c.toNat - 48)
        if n > limit then .error beyond else readDigits limit beyond n rest

/-- Reads an unsigned number up to `limit`, behind an optional plus sign. -/
def readNat (limit : Nat) (text : String) : Except NumberFault Nat :=
  match text.toList with
  | [] => .error .empty
  | ['+'] => .error .invalidDigit
  | '+' :: digits => readDigits limit .tooLarge 0 digits
  | digits => readDigits limit .tooLarge 0 digits

/-- Reads a signed 64-bit number. -/
def readInt (text : String) : Except NumberFault Int :=
  match text.toList with
  | ['-'] => .error .invalidDigit
  | '-' :: digits => do return -(← readDigits 0x8000000000000000 .tooSmall 0 digits)
  | _ => do return ← readNat 0x7fffffffffffffff text

/-- Reads a value of a kind as a number. -/
def ValueKind.readNumber (kind : ValueKind) (text : String) : Except String Nat :=
  match kind with
  | .nat32 =>
      match readInt text with
      | .error fault => .error fault.message
      | .ok n =>
          if 0 ≤ n ∧ n < 0x100000000 then .ok n.toNat else .error s!"{n} is not in 0..=4294967295"
  | _ =>
      match readNat 0xffffffffffffffff text with
      | .error fault => .error fault.message
      | .ok n => .ok n

/-- Why a value does not fit its kind. An empty path counts as no value at all. -/
def Switch.valueFault? (s : Switch) (text : String) : Option Refusal :=
  match s.value with
  | none | some (.text, _) => none
  | some (.path, _) => if text = "" then some (.valueMissing s.shown) else none
  | some (kind, _) =>
      match kind.readNumber text with
      | .ok _ => none
      | .error cause => some (.badValue text s.shown cause)

namespace Given

/-- The value of a switch as a number; without one the standard value of the program counts. -/
def number (g : Given) (p : Program) (name : String) : Option Nat := do
  let s ← p.switches.find? (·.name = name)
  let (kind, _) ← s.value
  let text ← (g.value? name).orElse fun _ => s.standard
  (kind.readNumber text).toOption

end Given

end LanguageClient.CommandLine
