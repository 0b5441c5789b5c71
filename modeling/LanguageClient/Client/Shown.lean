import LanguageClient.Client.Basic
import LanguageClient.Text.Shown

/-!
# Clients as text

The forms in which a client, its requests and its handlers appear in diagnostic texts.
-/

namespace LanguageClient

open Text

/-- A client: how far it is, and where. -/
def Client.shown (c : Client) : String :=
  shownRecord "LspClient" [("state", c.state.shown), ("root", shownPath c.workspace.rootPath)]

/-- A request by its identifier, if it was sent. -/
def shownRequest (id : Option Nat) : String :=
  shownRecord "RequestHandle" [("id", shownOption (id.map toString))]

/-- Why a message is not sent. -/
def SendError.shown : SendError → String
  | .notRunning state => s!"NotRunning({state.shown})"
  | .transportClosed => "TransportClosed"

/-- A handler: does it have an owner? -/
def shownHandler (owned : Bool) : String :=
  shownRecord "ReplyHandler" [("bound", toString owned)]

/-- An identifier under the name of its kind. -/
def Rpc.RequestId.described : Rpc.RequestId → String
  | .number n => s!"Number({n})"
  | .text s => "String(" ++ quoted s ++ ")"

/-- The owed answer to a request for an edit. -/
def shownOwed (id : Rpc.RequestId) : String :=
  shownRecord "ApplyEditResponder" [("id", id.described)]

end LanguageClient
