import LanguageClient.Text.Digits

/-!
# Internet addresses in host names

Version 4 addresses in their many spellings (fewer than four parts, octal and hexadecimal parts)
and version 6 addresses, read and written in one canonical form.
-/

namespace LanguageClient.Uri

/-! ## Version 4 -/

/-- Reads digits of a base; nothing when another character occurs. -/
def readBase? (base : Nat) (cs : List Char) : Option Nat :=
  cs.foldlM (fun n c => (Text.hexValue? c).bind fun d =>
    if d < base then some (n * base + d) else none) 0

/-- One part of a version 4 address: hexadecimal after `0x`, octal after `0`, else decimal. -/
def addressPart? (cs : List Char) : Option Nat :=
  match cs with
  | [] => none
  | '0' :: 'x' :: rest => readBase? 16 rest
  | '0' :: 'X' :: rest => readBase? 16 rest
  | '0' :: c :: rest => readBase? 8 (c :: rest)
  | cs => readBase? 10 cs

/-- Cuts a text at every occurrence of a character; there is always one part. -/
def splitAt (separator : Char) : List Char → List (List Char)
  | [] => [[]]
  | c :: rest =>
      if c = separator then [] :: splitAt separator rest
      else match splitAt separator rest with
        | [] => [[c]]
        | part :: parts => (c :: part) :: parts

/-- The parts of a dotted name, without an empty last one. -/
def dottedParts (cs : List Char) : List (List Char) :=
  let parts := splitAt '.' cs
  if parts.length > 1 ∧ parts.getLast? = some [] then parts.dropLast else parts

/-- Does the last part of a name make it a version 4 address? -/
def endsInNumber (cs : List Char) : Bool :=
  match (dottedParts cs).getLast? with
  | none => false
  | some [] => false
  | some last => last.all Char.isDigit || (addressPart? last).isSome

/-- Reads a version 4 address: the last part fills all bytes that the others leave. -/
def address4? (cs : List Char) : Option Nat :=
  let parts := dottedParts cs
  if parts.length > 4 then none
  else do
    let numbers ← parts.mapM addressPart?
    let last ← numbers.getLast?
    let front := numbers.dropLast
    if last ≥ Nat.pow 256 (4 - front.length) ∨ front.any (· > 255) then none
    else
      let high := front.foldl (fun n part => n * 256 + part) 0
      some (high * Nat.pow 256 (4 - front.length) + last)

/-- Four decimal parts. -/
def address4Text (n : Nat) : String :=
  s!"{n / 16777216 % 256}.{n / 65536 % 256}.{n / 256 % 256}.{n % 256}"

/-! ## Version 6 -/

/-- A decimal part of a version 4 tail: below 256, without leading zeros. -/
def decimalOctet? (cs : List Char) : Option Nat :=
  match cs with
  | ['0'] => some 0
  | '0' :: _ => none
  | cs => Text.digitsValue? cs |>.filter fun n => n < 256 ∧ cs ≠ []

/-- The two groups of a version 4 tail. -/
def tailGroups? (cs : List Char) : Option (List Nat) := do
  let parts ← (splitAt '.' cs).mapM decimalOctet?
  match parts with
  | [a, b, c, d] => some [a * 256 + b, c * 256 + d]
  | _ => none

/-- Groups separated by single colons; a version 4 tail counts as two. -/
def groups? (cs : List Char) : Option (List Nat) :=
  if cs.isEmpty then some []
  else
    let parts := splitAt ':' cs
    let read (part : List Char) : Option (List Nat) :=
      if part.isEmpty ∨ part.length > 4 then none else (readBase? 16 part).map ([·])
    match parts.getLast? with
    | some last =>
        if last.contains '.' then do
          let front ← parts.dropLast.mapM read
          some (front.flatten ++ (← tailGroups? last))
        else (parts.mapM read).map List.flatten
    | none => none

/-- Splits at the first double colon. -/
def splitDoubleColon : List Char → Option (List Char × List Char)
  | ':' :: ':' :: rest => some ([], rest)
  | c :: rest => (splitDoubleColon rest).map fun (before, after) => (c :: before, after)
  | [] => none

/-- Reads a version 6 address: eight groups, or fewer around one double colon that stands for the
missing zeros. -/
def address6? (cs : List Char) : Option (List Nat) :=
  match splitDoubleColon cs with
  | none => (groups? cs).filter (·.length = 8)
  | some (before, after) => do
      let front ← groups? before
      let back ← groups? after
      if before.contains '.' ∨ front.length + back.length > 7 then none
      else some (front ++ List.replicate (8 - front.length - back.length) 0 ++ back)

/-- Length of the run of zeros a list begins with. -/
def zeroRun (groups : List Nat) : Nat := (groups.takeWhile (· = 0)).length

/-- Start and length of the first longest run of at least two zero groups. -/
def longestZeroRun (groups : List Nat) : Option (Nat × Nat) :=
  (List.range groups.length).foldl (fun best i =>
    let run := zeroRun (groups.drop i)
    if run ≥ 2 ∧ (best.map (·.2)).getD 1 < run then some (i, run) else best) none

/-- Groups in hexadecimal, separated by colons. -/
def groupsText (groups : List Nat) : List Char :=
  [':'].intercalate (groups.map Text.hex)

/-- A version 6 address without brackets: its first longest run of zeros as a double colon. -/
def address6Text (groups : List Nat) : String :=
  String.ofList <| match longestZeroRun groups with
    | none => groupsText groups
    | some (start, run) =>
        groupsText (groups.take start) ++ [':', ':'] ++ groupsText (groups.drop (start + run))

end LanguageClient.Uri
