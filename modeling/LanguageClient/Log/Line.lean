import LanguageClient.Json.Writer
import LanguageClient.Log

/-!
# Events as lines

An event is written as text, as text with colours, or as one JSON object. Text keeps the line breaks
of a message, so it may take several lines; JSON never does.
-/

namespace LanguageClient.Log

/-- How events are written. -/
inductive Style where
  | text | coloured | json
deriving DecidableEq, Repr

namespace Style

/-- The members of a protocol message, beside its own message. -/
def members (e : LogEvent) : List (String × String) :=
  match e.exchange with
  | some (direction, method) => [("direction", direction), ("method", method)]
  | none => []

/-- The colour of a level. -/
def colour : LogLevel → Nat
  | .error => 31
  | .warn => 33
  | .info => 32
  | .debug => 34
  | .trace => 35

/-- A text in a graphic mode of the terminal. -/
def inMode (mode : Nat) (s : String) : String := s!"\x1b[{mode}m" ++ s ++ "\x1b[0m"

/-- A level, right-aligned. -/
def aligned (level : LogLevel) : String :=
  if level.name.length < 5 then " " ++ level.name else level.name

/-- What is written of an event that happened at a time. -/
def write (style : Style) (time : String) (e : LogEvent) : String :=
  let extra (name value : String) : String := " " ++ name ++ "=" ++ Json.quote value
  let rest := e.message ++ String.join ((members e).map fun (name, value) => extra name value)
  match style with
  | .text => s!"{time} {aligned e.level} {e.source.path}: {rest}"
  | .coloured =>
      let level := inMode (colour e.level) (aligned e.level)
      let source := inMode 2 (e.source.path ++ ":")
      inMode 2 time ++ s!" {level} {source} {rest}"
  | .json =>
      let fields := ("message", e.message) :: members e
      (Json.mkObj
        [("timestamp", .str time), ("level", .str e.level.name),
          ("fields", .mkObj (fields.map fun (name, value) => (name, .str value))),
          ("target", .str e.source.path)]).render

/-- The lines behind the first one that is written of an event. -/
def furtherLines (style : Style) (e : LogEvent) : List String :=
  match style with
  | .json => []
  | _ => (e.message.splitOn "\n").drop 1

end Style

end LanguageClient.Log
