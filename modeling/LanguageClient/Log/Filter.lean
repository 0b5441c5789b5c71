import LanguageClient.Log
import LanguageClient.Text.Blank

/-!
# Which events are kept

A filter is a list of directives, between commas. A directive gives a level, or the beginning of a
source's path, or both around an equals sign; a path without a level keeps everything below it.

    info                     every source, up to `info`
    lsp_stdio_client::io     sources below that path, every level
    a::b=debug               sources below `a::b`, up to `debug`
    a[span]=debug            only inside a span; no event here is in one

Of the directives whose path an event's source begins with, the one with the longest path decides,
and of equal ones the last. Where a directive is no directive, the standard filter counts.
-/

namespace LanguageClient.Log

open Text (isBlank trimEnd)

/-- Which events of a source are kept: none, or those up to a level. -/
abbrev Threshold := Option LogLevel

/-- A directive about the sources whose paths begin with a text. One about spans keeps no event. -/
inductive Directive where
  | sources (path : List Char) (threshold : Threshold)
  | spans
deriving DecidableEq, Repr

namespace Directive

/-- The names of thresholds, in lower case, and their numbers. -/
def thresholds : List (String × Nat × Threshold) :=
  [("off", 0, none), ("error", 1, some .error), ("warn", 2, some .warn), ("info", 3, some .info),
    ("debug", 4, some .debug), ("trace", 5, some .trace)]

/-- The number that digits, behind an optional plus sign, stand for. -/
def number? (cs : List Char) : Option Nat :=
  let digits := if cs.head? = some '+' then cs.drop 1 else cs
  if digits.isEmpty ∨ ¬ digits.all Char.isDigit then none
  else some (digits.foldl (fun n c => 10 * n + (c.toNat - 48)) 0)

/-- The threshold that a text names, in letters of either case or by a number. -/
def threshold? (cs : List Char) : Option Threshold :=
  let name := String.ofList (cs.map Char.toLower)
  (thresholds.find? fun (t, n, _) => t = name ∨ number? cs = some n).map (·.2.2)

/-- The threshold behind an equals sign; none means everything. -/
def stated? (cs : List Char) : Option Threshold :=
  if cs.isEmpty then some (some .trace) else threshold? cs

/-- Can a directive begin with the character? -/
def canBegin (c : Char) : Bool := c = '-' ∨ c = ':' ∨ c = '_' ∨ c.isAlphanum ∨ 127 < c.toNat

/-- The fields of a span, up to the closing brace: none of them may be empty. What stands behind
the brace is left. -/
def afterFields? (cs : List Char) : Option (List Char) :=
  match cs.span (· ≠ '\x7d') with
  | (field, _ :: rest) => if field.isEmpty then none else some rest
  | (_, []) => none

/-- What stands behind a span. -/
def afterSpan? (cs : List Char) : Option (List Char) :=
  match cs.dropWhile fun c => c ≠ ']' ∧ c ≠ '\x7b' with
  | ']' :: rest => some rest
  | '\x7b' :: rest =>
      match afterFields? rest with
      | some (']' :: rest) => some rest
      | _ => none
  | _ => none

/-- A directive about spans, from behind its opening bracket. -/
def ofSpan? (cs : List Char) : Option Directive :=
  match afterSpan? cs with
  | some [] => some .spans
  | some ('=' :: level) => (stated? level).map fun _ => .spans
  | _ => none

/-- A directive without a bracket and an equals sign: a threshold, or else a path. -/
def ofWord (cs : List Char) : Directive :=
  match threshold? cs with
  | some threshold => .sources [] threshold
  | none => .sources cs (some .trace)

/-- Reads a directive. Its parts are found by counting characters from the first that is not blank,
but they are cut from the whole text, so blanks in front spoil a directive. -/
def ofText? (text : List Char) : Option Directive :=
  let cs := trimEnd (text.dropWhile isBlank)
  let path := cs.takeWhile fun c => c ≠ '=' ∧ c ≠ '['
  let cut := text.drop (path.length + 1)
  match cs.head?, cs[path.length]? with
  | some '[', _ => ofSpan? cut
  | none, _ => none
  | some c, found =>
      if ¬ canBegin c then none
      else match found with
        | some '[' => ofSpan? cut
        | some _ => (stated? cut).map (.sources (text.take path.length))
        | none => some (ofWord text)

end Directive

/-- A filter. -/
abbrev Filter := List Directive

namespace Filter

/-- The filter that counts where a directive is none. -/
def standard : Filter := [.sources [] (some .info)]

/-- Cuts a text at its commas. -/
def pieces (cs : List Char) : List (List Char) := (cs.splitOn ',').filter (· ≠ [])

/-- The filter that a text describes. -/
def ofText (text : String) : Filter :=
  ((pieces text.toList).mapM Directive.ofText?).getD standard

/-- The directive that decides about a source, if there is one: how long its path is, and its
threshold. -/
def deciding? (f : Filter) (source : List Char) : Option (Nat × Threshold) :=
  f.foldl
    (fun best d => match d, best with
      | .spans, _ => best
      | .sources path threshold, none =>
          if path.isPrefixOf source then some (path.length, threshold) else none
      | .sources path threshold, some (longest, _) =>
          if path.isPrefixOf source ∧ longest ≤ path.length then some (path.length, threshold)
          else best)
    none

/-- Is the event kept? -/
def keeps (f : Filter) (e : LogEvent) : Bool :=
  match f.deciding? e.source.path.toList with
  | some (_, some level) => e.atMost level
  | _ => false

end Filter

end LanguageClient.Log
