import LanguageClient.Host.Shell.Arithmetic

/-!
# Formatted texts

Texts with escapes, and formats with places for arguments. A format is used again as long as
arguments are left; a place without an argument gets an empty one.
-/

namespace LanguageClient.Host.Shell

/-- Is the character an octal digit? -/
def isOctal (c : Char) : Bool := '0' ≤ c ∧ c ≤ '7'

/-- The character of a run of octal digits. -/
def octalChar (digits : List Char) : Char :=
  Char.ofNat ((digits.foldl (fun n c => n * 8 + (c.toNat - 48)) 0) % 256)

/-- The character that a letter behind a backslash stands for. -/
def escape? : Char → Option Char
  | 'a' => some '\x07'
  | 'b' => some '\x08'
  | 'f' => some '\x0c'
  | 'n' => some '\n'
  | 'r' => some '\r'
  | 't' => some '\t'
  | 'v' => some '\x0b'
  | '\\' => some '\\'
  | _ => none

/-- Reads what stands behind a backslash. Octal digits may need a zero in front (`zero`), which then
does not count. -/
def escaped (zero : Bool) (cs : List Char) : List Char × List Char :=
  match cs with
  | [] => (['\\'], [])
  | c :: rest =>
      match escape? c with
      | some d => ([d], rest)
      | none =>
          let digits := if zero then (if c = '0' then rest else []) else cs
          let octal := (digits.take 3).takeWhile isOctal
          if octal.isEmpty ∧ ¬ (zero ∧ c = '0') then (['\\', c], rest)
          else ([octalChar octal], digits.drop octal.length)

/-- A text with escapes: what it stands for, and whether it asks to stop there. The number bounds
the steps. -/
def unescapeFrom : Nat → List Char → List Char × Bool
  | 0, _ => ([], false)
  | _, [] => ([], false)
  | _ + 1, '\\' :: 'c' :: _ => ([], true)
  | fuel + 1, '\\' :: rest =>
      let (front, rest) := escaped true rest
      let (later, stops) := unescapeFrom fuel rest
      (front ++ later, stops)
  | fuel + 1, c :: rest =>
      let (later, stops) := unescapeFrom fuel rest
      (c :: later, stops)

/-- A text with escapes: what it stands for, and whether it asks to stop there. -/
def unescape (s : String) : String × Bool :=
  let (cs, stops) := unescapeFrom (s.length + 1) s.toList
  (String.ofList cs, stops)

/-! ## Formats -/

/-- What a format has produced. -/
structure Formatted where
  text : List Char := []
  arguments : List String
  /-- Was any argument used? -/
  used : Bool := false
  /-- Arguments that were no numbers. -/
  faults : List String := []
  stops : Bool := false

/-- How an argument is fitted into its place. -/
structure Place where
  left : Bool := false
  zeros : Bool := false
  plus : Bool := false
  width : Nat := 0
  precision : Option Nat := none

/-- The number that an argument is; without one its front may be. -/
def argumentNumber (s : String) : Int × Bool :=
  match s.toList with
  | [] => (0, true)
  | '\x27' :: c :: _ | '"' :: c :: _ => (c.toNat, true)
  | cs =>
      let (negative, digits) := match cs with
        | '-' :: rest => (true, rest)
        | '+' :: rest => (false, rest)
        | rest => (false, rest)
      let used := match digits with
        | '0' :: 'x' :: rest => '0' :: 'x' :: rest.takeWhile fun c => (Text.hexValue? c).isSome
        | rest => rest.takeWhile Char.isDigit
      let n := Arithmetic.number used
      (if negative then -n else n, ¬ used.isEmpty ∧ used.length = digits.length)

/-- Fits a text into its place; a sign stays in front of zeros. -/
def fit (p : Place) (sign body : List Char) : List Char :=
  let missing := p.width - sign.length - body.length
  if p.left then sign ++ body ++ List.replicate missing ' '
  else if p.zeros then sign ++ List.replicate missing '0' ++ body
  else List.replicate missing ' ' ++ sign ++ body

/-- The digits of a number in its base, at least as many as the precision says. -/
def digitsOf (p : Place) (base n : Nat) : List Char :=
  let digits := Nat.toDigits base n
  List.replicate (p.precision.getD 0 - digits.length) '0' ++ digits

/-- An argument in its place. -/
def placed (p : Place) (conversion : Char) (argument : String) : List Char × List String × Bool :=
  let cut (cs : List Char) : List Char := match p.precision with
    | some n => cs.take n
    | none => cs
  let plain : Place := { p with zeros := false }
  if conversion = 's' then (fit plain [] (cut argument.toList), [], false)
  else if conversion = 'b' then
    let (s, stops) := unescape argument
    (fit plain [] (cut s.toList), [], stops)
  else if conversion = 'c' then (fit plain [] (argument.toList.take 1), [], false)
  else
    let (n, good) := argumentNumber argument
    let faults := if good then [] else [argument]
    let p := if p.precision.isSome then { p with zeros := false } else p
    let unsigned : Nat := if n < 0 then (n + 0x10000000000000000).toNat else n.toNat
    let sign : List Char := if n < 0 then ['-'] else if p.plus then ['+'] else []
    let text := match conversion with
      | 'o' => fit p [] (digitsOf p 8 unsigned)
      | 'x' => fit p [] (digitsOf p 16 unsigned)
      | 'X' => fit p [] ((digitsOf p 16 unsigned).map Char.toUpper)
      | 'u' => fit p [] (digitsOf p 10 unsigned)
      | _ => fit p sign (digitsOf p 10 n.natAbs)
    (text, faults, false)

/-- Reads flags, width and precision. -/
def readPlace : Nat → Place → List Char → Place × List Char
  | 0, p, cs => (p, cs)
  | fuel + 1, p, cs =>
      match cs with
      | '-' :: rest => readPlace fuel { p with left := true } rest
      | '0' :: rest => readPlace fuel { p with zeros := true } rest
      | '+' :: rest => readPlace fuel { p with plus := true } rest
      | ' ' :: rest | '#' :: rest => readPlace fuel p rest
      | cs =>
          let number (ds : List Char) : Nat := (String.ofList ds).toNat?.getD 0
          let width := cs.takeWhile Char.isDigit
          let rest := cs.drop width.length
          match rest with
          | '.' :: rest =>
              let precision := rest.takeWhile Char.isDigit
              ({ p with width := number width, precision := some (number precision) },
                rest.drop precision.length)
          | rest => ({ p with width := number width }, rest)

/-- Uses a format once; the number bounds the steps. -/
def formatOnce : Nat → Formatted → List Char → Formatted
  | 0, f, _ => f
  | _, f, [] => f
  | fuel + 1, f, '\\' :: rest =>
      let (front, rest) := escaped false rest
      formatOnce fuel { f with text := f.text ++ front } rest
  | fuel + 1, f, '%' :: '%' :: rest => formatOnce fuel { f with text := f.text ++ ['%'] } rest
  | fuel + 1, f, '%' :: rest =>
      match readPlace (rest.length + 1) {} rest with
      | (_, []) => { f with text := f.text ++ ['%'] }
      | (p, conversion :: rest) =>
          let (text, faults, stops) := placed p conversion (f.arguments.headD "")
          let f := { f with
            text := f.text ++ text, arguments := f.arguments.drop 1,
            used := f.used || ¬ f.arguments.isEmpty, faults := f.faults ++ faults, stops := stops }
          if stops then f else formatOnce fuel f rest
  | fuel + 1, f, c :: rest => formatOnce fuel { f with text := f.text ++ [c] } rest

/-- Uses a format until no argument is left. -/
def formatAll (format : List Char) : Nat → Formatted → Formatted
  | 0, f => f
  | fuel + 1, f =>
      let after := formatOnce (format.length + 1) { f with used := false } format
      if after.stops ∨ after.arguments.isEmpty ∨ ¬ after.used then after
      else formatAll format fuel after

/-- Uses a format on arguments. -/
def format (format : String) (arguments : List String) : Formatted :=
  formatAll format.toList (arguments.length + 1) { arguments := arguments }

end LanguageClient.Host.Shell
