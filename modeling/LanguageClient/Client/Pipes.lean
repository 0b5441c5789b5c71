import LanguageClient.Frame.Chunk
import LanguageClient.Frame.Encoder
import LanguageClient.Frame.Reader
import LanguageClient.Client.Basic

/-!
# The two pipes to a server

Messages leave through one pipe, framed and in order, until a write fails or nobody can write any
more; then the pipe is shut. Bytes come in through the other pipe in chunks of limited size.
-/

namespace LanguageClient

/-- A message as it travels. -/
def Outbound.frame (m : Outbound) : Bytes := Frame.encode m.toJson

/-- How long a message is on its way, in bytes. -/
def Outbound.size (m : Outbound) : Nat := m.frame.length

/-- The pipe to the server, and its faults. -/
structure Outlet where
  /-- The system's word for a pipe that fails. -/
  fault : String := "broken pipe"
  /-- The next write fails. -/
  refusesWrites : Bool := false
  /-- The next write arrives, but the flush behind it fails. -/
  refusesFlushes : Bool := false
  /-- The pipe cannot be shut. -/
  refusesClosing : Bool := false
  /-- Is nothing written any more? -/
  ended : Bool := false
  /-- Was the pipe shut? -/
  closed : Bool := false

namespace Outlet

/-- Writes what is queued, as far as the pipe takes it: the pipe afterwards, what arrived, and what
was logged. A fault ends the writing, and what is still queued is lost. -/
def write {α : Type} (size : α → Nat) (o : Outlet) : List α → Outlet × List α × List LogEvent
  | [] => (o, [], [])
  | m :: rest =>
      if o.ended then (o, [], [])
      else
        let writing : LogEvent :=
          .trace .transport s!"StdioTransport: Writing {size m} bytes"
        if o.refusesWrites then
          ({ o with ended := true }, [],
            [writing, .error .transport s!"Failed to write to stdin: {o.fault}"])
        else if o.refusesFlushes then
          ({ o with ended := true }, [m],
            [writing, .error .transport s!"Failed to flush stdin: {o.fault}"])
        else
          let (o, arrived, log) := o.write size rest
          (o, m :: arrived, writing :: log)

/-- Shuts the pipe, once nobody can write any more. -/
def shut (o : Outlet) : Outlet × List LogEvent :=
  if o.ended then (o, [])
  else
    let finished : LogEvent := .trace .transport "StdioTransport: stdin writer task finished"
    if o.refusesClosing then
      ({ o with ended := true },
        [.debug .transport s!"StdioTransport: stdin shutdown failed: {o.fault}", finished])
    else ({ o with ended := true, closed := true }, [finished])

end Outlet

/-- The pipe from the server. -/
structure Inlet where
  frames : Frame.Reader := {}
  /-- Are bytes still read? -/
  reading : Bool := true
  /-- Are messages still handed on? -/
  handing : Bool := true

namespace Inlet

/-- The end of the messages is noted once. -/
def finishHanding (i : Inlet) : Inlet × List LogEvent :=
  if i.handing then ({ i with handing := false }, [.debug .client "LSP read loop finished"])
  else (i, [])

/-- Nothing more comes through the pipe; `cause` is logged first. -/
def finish (i : Inlet) (cause : LogEvent) : Inlet × List LogEvent :=
  if i.reading then
    let (i, log) := { i with reading := false }.finishHanding
    (i, [cause, .trace .transport "StdioTransport: stdout reader task finished"] ++ log)
  else (i, [])

/-- The pipe was closed by the other side. -/
def eof (i : Inlet) : Inlet × List LogEvent :=
  i.finish (.trace .transport "StdioTransport: stdout reader reached EOF")

/-- Reading from the pipe failed. -/
def fail (i : Inlet) (cause : String) : Inlet × List LogEvent :=
  i.finish (.error .transport s!"Failed to read from stdout: {cause}")

end Inlet

end LanguageClient
