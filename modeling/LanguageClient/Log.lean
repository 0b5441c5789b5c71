/-!
# Log events

What the client reports about its own work. An event that describes a protocol message also
names the direction and the method.
-/

namespace LanguageClient

/-- How severe a log event is; the order runs from `error` to `trace`. -/
inductive LogLevel where
  | error | warn | info | debug | trace
deriving DecidableEq, Repr

/-- Zero for the most severe level. -/
def LogLevel.rank : LogLevel → Nat
  | .error => 0
  | .warn => 1
  | .info => 2
  | .debug => 3
  | .trace => 4

/-- The upper-case name used in log lines. -/
def LogLevel.name : LogLevel → String
  | .error => "ERROR"
  | .warn => "WARN"
  | .info => "INFO"
  | .debug => "DEBUG"
  | .trace => "TRACE"

/-- Every level, the most severe one first. -/
def LogLevel.all : List LogLevel := [.error, .warn, .info, .debug, .trace]

/-- The level of a name. -/
def LogLevel.ofName? (name : String) : Option LogLevel := LogLevel.all.find? (·.name = name)

/-- The part of the program that an event comes from. -/
inductive LogSource where
  | program | session | process | transport | client | correlator | dispatcher | framing
  | protocol | highlighting
deriving DecidableEq, Repr

/-- The path by which log filters select events. -/
def LogSource.path : LogSource → String
  | .program => "lsp_stdio_client"
  | .session => "lsp_stdio_client::server::session"
  | .process => "lsp_stdio_client::io::process"
  | .transport => "lsp_stdio_client::io::transport"
  | .client => "lsp_stdio_client::lsp::client"
  | .correlator => "lsp_stdio_client::lsp::correlator"
  | .dispatcher => "lsp_stdio_client::lsp::dispatcher"
  | .framing => "lsp_stdio_client::lsp::framing"
  | .protocol => "lsp_stdio_client::lsp::protocol"
  | .highlighting => "lsp_stdio_client::lsp::semantic"

/-- One log event. -/
structure LogEvent where
  level : LogLevel
  source : LogSource
  message : String
  /-- Direction and method of a protocol message. -/
  exchange : Option (String × String) := none
deriving DecidableEq, Repr

namespace LogEvent

/-- An event at level error. -/
def error (source : LogSource) (message : String) : LogEvent := ⟨.error, source, message, none⟩

/-- An event at level warn. -/
def warn (source : LogSource) (message : String) : LogEvent := ⟨.warn, source, message, none⟩

/-- An event at level info. -/
def info (source : LogSource) (message : String) : LogEvent := ⟨.info, source, message, none⟩

/-- An event at level debug. -/
def debug (source : LogSource) (message : String) : LogEvent := ⟨.debug, source, message, none⟩

/-- An event at level trace. -/
def trace (source : LogSource) (message : String) : LogEvent := ⟨.trace, source, message, none⟩

/-- The event that records one protocol message. -/
def exchanged (source : LogSource) (direction method : String) : LogEvent :=
  ⟨.trace, source, "LSP message", some (direction, method)⟩

/-- Is the event at `level` or more severe? -/
def atMost (level : LogLevel) (e : LogEvent) : Bool :=
  e.level.rank ≤ level.rank

end LogEvent

end LanguageClient
