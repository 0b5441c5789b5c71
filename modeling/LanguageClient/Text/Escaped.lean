import LanguageClient.Text.Digits
import LanguageClient.Text.Printable

/-!
# Quoted text

The form in which texts appear inside messages: between double quotes, with everything escaped
that would not show as itself.
-/

namespace LanguageClient.Text

/-- A code point as `\\u` and its hexadecimal digits in braces. -/
def codePointEscape (c : Char) : List Char :=
  ['\\', 'u', '\x7b'] ++ hex c.toNat ++ ['\x7d']

/-- One character between quotes: a short escape, itself, or its code point. -/
def escaped (c : Char) : List Char :=
  match c with
  | '\t' => ['\\', 't']
  | '\r' => ['\\', 'r']
  | '\n' => ['\\', 'n']
  | '"' => ['\\', '"']
  | '\\' => ['\\', '\\']
  | c =>
      if c.toNat == 0 then ['\\', '0']
      else if isExtender c || !isPrintable c then codePointEscape c
      else [c]

/-- A text between double quotes. -/
def quoted (s : String) : String :=
  String.ofList ('"' :: s.toList.flatMap escaped ++ ['"'])

/-- A list of texts, each quoted. -/
def quotedList (items : List String) : String :=
  "[" ++ ", ".intercalate (items.map quoted) ++ "]"

end LanguageClient.Text
