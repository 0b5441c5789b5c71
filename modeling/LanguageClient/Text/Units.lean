/-!
# UTF-16 code units

Columns and offsets inside texts count UTF-16 code units: a character beyond the basic plane has
two of them.
-/

namespace LanguageClient.Text

/-- The code units of a character. -/
def charUnits (c : Char) : Nat := if c.toNat < 0x10000 then 1 else 2

/-- The number of code units of a text. -/
def units : List Char → Nat
  | [] => 0
  | c :: rest => charUnits c + units rest

/-- The text before the first occurrence of `part`. -/
def before? (part : List Char) : List Char → Option (List Char)
  | [] => if part.isEmpty then some [] else none
  | c :: rest =>
      if part.isPrefixOf (c :: rest) then some []
      else (before? part rest).map (c :: ·)

end LanguageClient.Text
