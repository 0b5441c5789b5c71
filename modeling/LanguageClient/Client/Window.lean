import LanguageClient.Rpc.Id

/-!
# Requests that the server waits for

The identifiers of the server's requests that the client still owes an answer to, oldest first.
There is room for a few only; when one more arrives, the oldest is given up.
-/

namespace LanguageClient

open Rpc

/-- Identifiers of unanswered requests, oldest first. -/
abbrev Window := List RequestId

namespace Window

/-- How many requests can wait at a time. -/
def capacity : Nat := 5

/-- Adds a request behind the others; in a full window the oldest makes room. -/
def track (w : Window) (id : RequestId) : Window :=
  (if w.length = capacity then w.drop 1 else w) ++ [id]

/-- The request that makes room for one more. -/
def evicted? (w : Window) : Option RequestId :=
  if w.length = capacity then w.head? else none

/-- Takes a request out of the window, once it is answered; the first if there are several. -/
def complete (w : Window) (id : RequestId) : Window := List.erase w id

end Window

end LanguageClient
