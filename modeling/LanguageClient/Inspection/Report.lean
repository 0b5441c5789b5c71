import LanguageClient.Client.Shown
import LanguageClient.Server.Session

/-!
# What an inspection finds out

The report of an inspection that went well, and the reasons why one ends early.
-/

namespace LanguageClient.Inspection

open Document Server

/-- A report. What was not asked for, or not answered, is left out. -/
structure Report where
  server : String
  /-- The number of the server's process, if it still runs. -/
  process : Option Nat
  capabilities : Capabilities
  symbols : Option Reply
  hover : Option Reply

/-- The report as a JSON object. -/
def Report.toJson (r : Report) : Json :=
  .mkObj ([("server", .str r.server), ("pid", Json.ofOption .ofNat r.process),
      ("capabilities", r.capabilities.toJson)] ++
    Members.optional "symbols" (r.symbols.map (·.toJson)) ++
    Members.optional "hover" (r.hover.map (·.toJson)))

/-- Why an inspection ends early. -/
inductive Failure where
  | config (e : ConfigError)
  | start (e : StartError)
  | exited
  | timedOut
  /-- The document cannot be read. -/
  | document (e : Files.FileError)
  /-- The document's place is no URI; `index` says where its text goes wrong. -/
  | documentUri (url : String) (index : Nat)
  | send (e : SendError)

/-- The reason as diagnostic text. -/
def Failure.shown : Failure → String
  | .config e => e.shown
  | .start e => Session.startShown e
  | .exited => Text.quoted "Server exited during initialize"
  | .timedOut => Text.quoted "Timed out waiting for initialize"
  | .document e => e.shown
  | .documentUri url index =>
      let fault := Text.shownRecord "ParseError"
        [("index", toString index), ("kind", "UnexpectedChar")]
      Text.quoted ("Invalid URI " ++ url ++ ": " ++ fault)
  | .send e => e.shown

end LanguageClient.Inspection
