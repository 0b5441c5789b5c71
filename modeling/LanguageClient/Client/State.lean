/-!
# The life of a session

A session is absent, has started its handshake, runs, or has been told to shut down.
-/

namespace LanguageClient

/-- How far a session has come. -/
inductive SessionState where
  /-- No server, or the server went away. -/
  | absent
  /-- The handshake is under way. -/
  | started
  /-- The handshake is complete: every message may be sent. -/
  | running
  /-- The server has been told to shut down and exit. -/
  | shutdown
deriving DecidableEq, Repr

/-- The lower-case name used in messages. -/
def SessionState.name : SessionState → String
  | .absent => "none"
  | .started => "started"
  | .running => "running"
  | .shutdown => "shutdown"

/-- The name used in diagnostic texts. -/
def SessionState.shown : SessionState → String
  | .absent => "None"
  | .started => "Started"
  | .running => "Running"
  | .shutdown => "Shutdown"

end LanguageClient
