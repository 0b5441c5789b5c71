/-!
# Durations as text

Whole milliseconds, shown in seconds from one second on: `0ns`, `200ms`, `1.5s`.
-/

namespace LanguageClient.Text

/-- Thousandths behind a point, without zeros at the end. -/
def thousandths (n : Nat) : String :=
  if n = 0 then ""
  else
    let digits := (toString (1000 + n)).toList.drop 1
    "." ++ String.ofList (digits.reverse.dropWhile (· == '0')).reverse

/-- A number of milliseconds. -/
def duration (ms : Nat) : String :=
  if ms = 0 then "0ns"
  else if ms < 1000 then s!"{ms}ms"
  else s!"{ms / 1000}{thousandths (ms % 1000)}s"

end LanguageClient.Text
