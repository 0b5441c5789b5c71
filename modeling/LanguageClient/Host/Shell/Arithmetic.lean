import LanguageClient.Host.Shell.Word
import LanguageClient.Text.Digits

/-!
# Arithmetic expressions

Integers, variables, and the usual operations with their usual precedence. Comparisons give one or
zero.
-/

namespace LanguageClient.Host.Shell.Arithmetic

/-- A token. -/
inductive Token where
  | number (n : Int)
  | name (s : String)
  | operator (s : String)
deriving DecidableEq, Repr

/-- The operators, longer ones first. -/
def operators : List String :=
  ["<<", ">>", "<=", ">=", "==", "!=", "&&", "||", "+", "-", "*", "/", "%", "<", ">", "(", ")",
    "!", "~", "&", "|", "^", "?", ":"]

/-- Reads a run of digits: hexadecimal behind `0x`, octal behind another zero. -/
def number (digits : List Char) : Int :=
  let (base, digits) := match digits with
    | '0' :: 'x' :: rest | '0' :: 'X' :: rest => (16, rest)
    | '0' :: rest => (8, rest)
    | digits => (10, digits)
  digits.foldl (fun n c => n * base + ((Text.hexValue? c).getD 0 : Nat)) (0 : Int)

/-- The tokens of an expression; the number bounds the steps. -/
def tokens : Nat → List Char → Option (List Token)
  | 0, _ => none
  | _, [] => some []
  | fuel + 1, c :: rest =>
      if " \t\n".contains c then tokens fuel rest
      else if c.isDigit then
        let digits := (c :: rest).takeWhile Char.isAlphanum
        (tokens fuel ((c :: rest).drop digits.length)).map (.number (number digits) :: ·)
      else if isNameStart c then
        let name := (c :: rest).takeWhile isNameChar
        (tokens fuel ((c :: rest).drop name.length)).map (.name (String.ofList name) :: ·)
      else if c = '$' then tokens fuel rest
      else match operators.find? fun op => op.toList.isPrefixOf (c :: rest) with
        | some op => (tokens fuel ((c :: rest).drop op.length)).map (.operator op :: ·)
        | none => none

/-- Zero or one. -/
def truth (b : Bool) : Int := if b then 1 else 0

/-- How tightly a binary operator binds. -/
def strength : String → Option Nat
  | "*" | "/" | "%" => some 10
  | "+" | "-" => some 9
  | "<<" | ">>" => some 8
  | "<" | ">" | "<=" | ">=" => some 7
  | "==" | "!=" => some 6
  | "&" => some 5
  | "^" => some 4
  | "|" => some 3
  | "&&" => some 2
  | "||" => some 1
  | _ => none

/-- Applies a binary operator; a division by zero gives nothing. -/
def apply (op : String) (a b : Int) : Option Int :=
  match op with
  | "*" => some (a * b)
  | "/" => if b = 0 then none else some (a.tdiv b)
  | "%" => if b = 0 then none else some (a.tmod b)
  | "+" => some (a + b)
  | "-" => some (a - b)
  | "<<" => some (a * Int.ofNat (Nat.pow 2 b.toNat))
  | ">>" => some (a.fdiv (Int.ofNat (Nat.pow 2 b.toNat)))
  | "<" => some (truth (a < b))
  | ">" => some (truth (b < a))
  | "<=" => some (truth (a ≤ b))
  | ">=" => some (truth (b ≤ a))
  | "==" => some (truth (a = b))
  | "!=" => some (truth (a ≠ b))
  | "&&" => some (truth (a ≠ 0 ∧ b ≠ 0))
  | "||" => some (truth (a ≠ 0 ∨ b ≠ 0))
  | "&" => some ((BitVec.ofInt 64 a &&& BitVec.ofInt 64 b).toInt)
  | "|" => some ((BitVec.ofInt 64 a ||| BitVec.ofInt 64 b).toInt)
  | "^" => some ((BitVec.ofInt 64 a ^^^ BitVec.ofInt 64 b).toInt)
  | _ => none

mutual

/-- Evaluates operators that bind at least as tightly as `least`; the first number bounds the
steps. -/
def expression (value : String → Int) : Nat → Nat → List Token → Option (Int × List Token)
  | 0, _, _ => none
  | fuel + 1, least, ts => do
      let (a, rest) ← operand value fuel ts
      operations value fuel least a rest

/-- Evaluates what follows a left operand. -/
def operations (value : String → Int) :
    Nat → Nat → Int → List Token → Option (Int × List Token)
  | 0, _, _, _ => none
  | fuel + 1, least, a, ts =>
      match ts with
      | .operator "?" :: rest =>
          if least > 0 then some (a, ts)
          else do
            let (yes, rest) ← expression value fuel 0 rest
            match rest with
            | .operator ":" :: rest =>
                let (no, rest) ← expression value fuel 0 rest
                return (if a ≠ 0 then yes else no, rest)
            | _ => none
      | .operator op :: rest =>
          match strength op with
          | some n =>
              if n < least then some (a, ts)
              else do
                let (b, rest) ← expression value fuel (n + 1) rest
                operations value fuel least (← apply op a b) rest
          | none => some (a, ts)
      | ts => some (a, ts)

/-- Evaluates one operand. -/
def operand (value : String → Int) : Nat → List Token → Option (Int × List Token)
  | 0, _ => none
  | fuel + 1, ts =>
      match ts with
      | .number n :: rest => some (n, rest)
      | .name s :: rest => some (value s, rest)
      | .operator "-" :: rest => (operand value fuel rest).map fun (a, rest) => (-a, rest)
      | .operator "+" :: rest => operand value fuel rest
      | .operator "!" :: rest =>
          (operand value fuel rest).map fun (a, rest) => (truth (a = 0), rest)
      | .operator "~" :: rest => (operand value fuel rest).map fun (a, rest) => (-a - 1, rest)
      | .operator "(" :: rest =>
          match expression value fuel 0 rest with
          | some (a, .operator ")" :: rest) => some (a, rest)
          | _ => none
      | _ => none

end

/-- Evaluates an expression, given the values of variables. -/
def eval (value : String → Int) (source : String) : Option Int := do
  let ts ← tokens (source.length + 1) source.toList
  if ts.isEmpty then return 0
  match ← expression value (4 * (ts.length + 2)) 0 ts with
  | (a, []) => return a
  | _ => none

end LanguageClient.Host.Shell.Arithmetic
