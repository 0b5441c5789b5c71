import LanguageClient.Proofs.Client.Handlers
import LanguageClient.Proofs.Json.Members

/-!
# Replies that report an error

A request may fail. The reply then reports an error, and the error is logged; but the handler is given
what the `result` member is read as, error or no error (`error_beside_result`). So it gets the empty
value of its type (`ReplyType.read_null`) if the server left the result out, as it should when a request
fails, and otherwise what the failed reply holds (`error_delivers_data`).
-/

namespace LanguageClient

open Rpc Document

/-- What a type of reply amounts to when nothing was replied. -/
def ReplyType.empty : ReplyType → Reply
  | .value => .value .null
  | .symbols => .symbols []
  | .locations => .locations []
  | .hover => .hover ⟨[], none⟩
  | .highlights => .highlights []
  | .completion => .completion []
  | .signature => .signature ⟨[], 0, 0⟩
  | .edits => .edits []
  | .workspaceEdit => .workspaceEdit ⟨[]⟩
  | .actions => .actions []

/-- `null` is read as the empty value of every type. -/
theorem ReplyType.read_null (normal : Normalizer) (t : ReplyType) :
    t.read normal .null = t.empty := by
  cases t <;> rfl

/-- The message reports an error: an object with an integer as its code and a text as its message. -/
structure Reports (message : Json) (code : Int) (text : String) : Prop where
  object : (message.get "error").isObj = true
  code : (message.get "error").get "code" = .ofInt code
  text : (message.get "error").get "message" = .str text

theorem recordMembers?_of_isObj {j : Json} (h : j.isObj = true) (keys : List String) :
    recordMembers? keys j = some (keys.map fun key => j.member? key) := by
  cases j with
  | obj members => rfl
  | _ => exact absurd h Bool.false_ne_true

theorem Reports.ofJson?_eq {message : Json} {code : Int} {text : String}
    (h : Reports message code text) (fits : -0x80000000 ≤ code ∧ code < 0x80000000) :
    ∃ data, (message.member? "error").bind ErrorObject.ofJson? = some ⟨code, text, data⟩ := by
  have herror : message.member? "error" = some (message.get "error") :=
    Json.member?_eq_some_of_get rfl fun hnull => by
      have hobject := h.object
      rw [hnull] at hobject
      exact Bool.false_ne_true hobject
  have hcode : (message.get "error").member? "code" = some (.ofInt code) :=
    Json.member?_eq_some_of_get h.code (by simp [Json.ofInt])
  have htext : (message.get "error").member? "message" = some (.str text) :=
    Json.member?_eq_some_of_get h.text (by simp)
  have hnumber : (Json.ofInt code).int32? = some code := if_pos fits
  refine ⟨present ((message.get "error").member? "data"), ?_⟩
  rw [herror, Option.bind_some, ErrorObject.ofJson?, recordMembers?_of_isObj h.object]
  simp [hcode, htext, hnumber, requiredText, Json.str?]

namespace Client

variable {c : Client} {p : Pending} {h : Handler} {message : Json}

/-- What the reply to a waiting handler does: it goes to the handler, whatever else it says, and the
request is no longer pending. -/
theorem Sound.receive_handled (hc : c.Sound) (pending : p ∈ c.pending)
    (waits : p.continuation = .handler h) (answers : Carries p.id message) (normal : Normalizer) :
    (c.receive normal message).client = c.forget p.id ∧
      visible (c.receive normal message).effects =
        [c.delivery normal h (message.get "result")] := by
  have hfound := hc.pending?_of_mem pending
  obtain ⟨id, error, hclass, -⟩ := answers.classify
  obtain ⟨hclient, before, heffects⟩ := receive_reply normal c hclass answers hfound
  have hlog : visible (failureLog p.kind id error) = [] := by cases error <;> rfl
  rw [hclient, heffects, visible_append, visible_append, visible_map_log, hlog, resume, waits]
  exact ⟨rfl, visible_deliver normal (c.forget p.id) p.kind h (message.get "result")⟩

theorem Sound.receive_logs (hc : c.Sound) (pending : p ∈ c.pending) (answers : Carries p.id message)
    {e : ErrorObject} (herror : (message.member? "error").bind ErrorObject.ofJson? = some e)
    (normal : Normalizer) :
    ∃ id : RequestId, .log (.warn .dispatcher
      s!"{p.kind.method} request {id.shown} failed: {e.message} ({e.code})") ∈
        (c.receive normal message).effects := by
  obtain ⟨id, error, hclass, -⟩ := answers.classify
  obtain rfl : error = some e := (classify_reply_iff.mp hclass).2.2.2.2.trans herror
  obtain ⟨-, before, heffects⟩ := receive_reply normal c hclass answers (hc.pending?_of_mem pending)
  refine ⟨id, ?_⟩
  rw [heffects]
  exact List.mem_append_left _ (List.mem_append_right _ List.mem_cons_self)

/-- **An error is no obstacle to the result.** A handler that waits, and whose owner lives, is invoked
with what the `result` member of the reply is read as, though the reply reports an error: exactly as by
any other reply with the same result. The error is logged if its code fits 32 bits. What the handler
gets is the empty value of its type if there is no result; where the result is handed on as it is, only
then. -/
theorem error_beside_result (workspace : Params.Workspace) (processId : Nat) (history : List Moment)
    (pending : p ∈ ((fresh workspace processId).after history).pending)
    (waits : p.continuation = .handler h)
    (alive : ((fresh workspace processId).after history).isAlive h = true)
    (answers : Carries p.id message) {code : Int} {text : String}
    (reports : Reports message code text) (normal : Normalizer) :
    let c := (fresh workspace processId).after history
    let turn := c.turn ⟨normal, .receive message⟩
    turn.client = c.forget p.id ∧
    visible turn.effects = [.invoke h (h.type.read normal (message.get "result"))] ∧
    (∀ other, Carries p.id other → other.get "result" = message.get "result" →
      visible (c.turn ⟨normal, .receive other⟩).effects = visible turn.effects) ∧
    (-0x80000000 ≤ code ∧ code < 0x80000000 → ∃ id : RequestId, .log (.warn .dispatcher
      s!"{p.kind.method} request {id.shown} failed: {text} ({code})") ∈ turn.effects) ∧
    (message.get "result" = .null → .invoke h h.type.empty ∈ turn.effects) ∧
    (h.type = .value → .invoke h h.type.empty ∈ turn.effects → message.get "result" = .null) := by
  intro c turn
  have hc : c.Sound := sound_reached workspace processId history
  have hinvoked : ∀ other, Carries p.id other →
      visible (c.turn ⟨normal, .receive other⟩).effects =
        [.invoke h (h.type.read normal (other.get "result"))] := by
    intro other hother
    have hdelivery : c.delivery normal h (other.get "result") =
        .invoke h (h.type.read normal (other.get "result")) := if_pos alive
    rw [← hdelivery]
    exact (hc.receive_handled pending waits hother normal).2
  have hmem : ∀ r, .invoke h r ∈ turn.effects ↔ r = h.type.read normal (message.get "result") := by
    intro r
    rw [← mem_visible rfl, hinvoked message answers]
    simp
  refine ⟨(hc.receive_handled pending waits answers normal).1, hinvoked message answers,
    fun other hother hresult => ?_, fun hfits => ?_, fun hnull => ?_, fun hvalue hempty => ?_⟩
  · rw [hinvoked other hother, hinvoked message answers, hresult]
  · obtain ⟨data, herror⟩ := reports.ofJson?_eq hfits
    exact hc.receive_logs pending answers herror normal
  · rw [hmem, hnull, ReplyType.read_null]
  · rw [hmem, hvalue] at hempty
    exact (Reply.value.inj hempty).symm

/-! ### A failed hover -/

/-- A session that runs and asks for a hover. -/
def askingHover (h : Handler) : List Moment :=
  [⟨some, .handshake⟩, ⟨some, .receive (.mkObj [("id", RequestId.wire 1), ("result", .null)])⟩,
    ⟨some, .send .hover .null h⟩]

/-- A reply that reports an error beside the contents of a hover. -/
def failedHover : Json :=
  .mkObj [("id", RequestId.wire 2),
    ("error", .mkObj [("code", .ofInt (-32602)), ("message", .str "bad params")]),
    ("result", .mkObj [("contents", .str "found")])]

/-- The handler of a hover that failed is invoked and does not wait any longer. -/
theorem error_beside_result_hover :
    let h : Handler := ⟨7, .hover, none⟩
    let c := (fresh ⟨"/work", "file:///work", .null, false⟩ 0).after (askingHover h)
    (⟨2, .hover, .handler h⟩ ∈ c.pending ∧ c.isAlive h = true ∧ Carries 2 failedHover ∧
      Reports failedHover (-32602) "bad params") ∧
    (c.turn ⟨some, .receive failedHover⟩).client = c.forget 2 ∧
    visible (c.turn ⟨some, .receive failedHover⟩).effects =
      [.invoke h (h.type.read some (failedHover.get "result"))] := by
  intro h c
  have pending : ⟨2, .hover, .handler h⟩ ∈ c.pending := by decide
  have answers : Carries 2 failedHover := ⟨by decide, rfl, rfl, rfl⟩
  have reports : Reports failedHover (-32602) "bad params" := ⟨rfl, rfl, rfl⟩
  obtain ⟨hclient, hinvoked, -⟩ := error_beside_result ⟨"/work", "file:///work", .null, false⟩ 0
    (askingHover h) pending rfl rfl answers reports some
  exact ⟨⟨pending, rfl, answers, reports⟩, hclient, hinvoked⟩

/-- A hover that failed is delivered with the contents that the failed reply holds, and not as the empty
hover that `null` is read as. -/
theorem error_delivers_data :
    let h : Handler := ⟨7, .hover, none⟩
    let c := (fresh ⟨"/work", "file:///work", .null, false⟩ 0).after (askingHover h)
    (⟨2, .hover, .handler h⟩ ∈ c.pending ∧ c.isAlive h = true ∧ Carries 2 failedHover ∧
      Reports failedHover (-32602) "bad params") ∧
    visible (c.turn ⟨some, .receive failedHover⟩).effects =
      [.invoke h (.hover ⟨[⟨.plainText, "found"⟩], none⟩)] ∧
    .invoke h (h.type.read some .null) ∉ (c.turn ⟨some, .receive failedHover⟩).effects := by
  intro h c
  have hinvoked : visible (c.turn ⟨some, .receive failedHover⟩).effects =
      [.invoke h (.hover ⟨[⟨.plainText, "found"⟩], none⟩)] := rfl
  refine ⟨⟨by decide, rfl, ⟨by decide, rfl, rfl, rfl⟩, ⟨rfl, rfl, rfl⟩⟩, hinvoked, ?_⟩
  rw [← mem_visible rfl, hinvoked, ReplyType.read_null]
  simp [h, ReplyType.empty]

end Client

end LanguageClient
