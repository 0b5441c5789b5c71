import LanguageClient.Proofs.Client.History
import LanguageClient.Proofs.Rpc.Envelope

/-!
# What a cancellation names

A request that is pending was sent under the wire form of its identifier, and cancelling it queues a
notification that names an identifier of its own making. Both are numbers for small identifiers and
texts for the largest, but the notification changes over at 31 bits and the request at 63. Between the
two a cancellation names no request that was sent (`cancellation_names_iff`), and identifiers of every
size are reached by sending often enough (`pending_after_sends`).
-/

namespace LanguageClient

open Rpc Document

namespace Outbound

/-- The identifier that a message bears as a JSON value. -/
def idMember (m : Outbound) : Json := m.toJson.get "id"

/-- The identifier that a message names in its parameters. -/
def namedId (m : Outbound) : Json := (m.toJson.get "params").get "id"

theorem idMember_call (id : Nat) (kind : RequestKind) (params : Json) :
    (call id kind params).idMember = RequestId.wire id := Request.get_id _

theorem namedId_cancellation (id : Nat) :
    (cancellation id).namedId =
      if id < 0x80000000 then .ofNat id else .str (toString id) := by
  have hparams : (cancellation id).toJson.get "params" = Params.cancel id :=
    Notification.get_params _
  rw [namedId, hparams]
  rfl

/-- The two writers of an identifier agree outside of the numbers from 31 to 63 bits. -/
theorem namedId_eq_wire_iff (id : Nat) :
    (cancellation id).namedId = RequestId.wire id ↔ id < 0x80000000 ∨ RequestId.maxNumber < id := by
  rw [namedId_cancellation]
  by_cases hsmall : id < 0x80000000
  · have hle : id ≤ RequestId.maxNumber := by unfold RequestId.maxNumber; omega
    rw [if_pos hsmall, RequestId.wire_of_le hle]
    exact ⟨fun _ => .inl hsmall, fun _ => rfl⟩
  rw [if_neg hsmall]
  rcases Nat.lt_or_ge RequestId.maxNumber id with hlarge | hle
  · rw [RequestId.wire_of_lt hlarge]
    exact ⟨fun _ => .inr hlarge, fun _ => rfl⟩
  · rw [RequestId.wire_of_le hle]
    refine ⟨fun h => Json.noConfusion h, ?_⟩
    rintro (h | h)
    · exact absurd h hsmall
    · exact absurd h (Nat.not_lt.mpr hle)

end Outbound

namespace Client

variable {normal : Normalizer} {c d : Client} {a : Action} {v : Answer} {es : List Effect}

/-! ## Every pending request was sent -/

theorem Transition.pending_sent (t : Transition normal c a v d es) {p : Pending}
    (hp : p ∈ d.pending) :
    p ∈ c.pending ∨ ∃ params, .queue (.call p.id p.kind params) ∈ es := by
  have hforget : ∀ {id}, p ∈ (c.forget id).pending → p ∈ c.pending := fun h =>
    (List.mem_filter.mp h).1
  cases t with
  | handshakeSent _ _ =>
      rcases List.mem_append.mp hp with hp | hp
      · exact .inl hp
      · rw [List.mem_singleton.mp hp]
        exact .inr ⟨_, List.mem_cons_of_mem _ List.mem_cons_self⟩
  | sendAccepted _ _ =>
      rcases List.mem_append.mp hp with hp | hp
      · exact .inl hp
      · rw [List.mem_singleton.mp hp]
        exact .inr ⟨_, List.mem_cons_self⟩
  | cancelled _ => exact .inl (hforget hp)
  | replied _ _ _ => exact .inl (hforget hp)
  | opened _ _ _ _ => exact .inl (hforget hp)
  | openedLate _ _ _ _ => exact .inl (hforget hp)
  | shutdown _ => exact absurd hp List.not_mem_nil
  | connectionLost => exact absurd hp List.not_mem_nil
  | writerEnded => exact .inl (by simpa using hp)
  | _ => exact .inl hp

theorem pending_sent (c : Client) (history : List Moment) {p : Pending}
    (hp : p ∈ (c.after history).pending) :
    p ∈ c.pending ∨ ∃ params, .queue (.call p.id p.kind params) ∈ c.effects history := by
  induction history generalizing c with
  | nil => exact .inl hp
  | cons m rest ih =>
      rcases ih (c.turn m).client hp with hp | ⟨params, hsent⟩
      · rcases (c.turn_transition m).pending_sent hp with hp | ⟨params, hsent⟩
        · exact .inl hp
        · exact .inr ⟨params, List.mem_append_left _ (List.mem_filter.mp hsent).1⟩
      · exact .inr ⟨params, List.mem_append_right _ hsent⟩

theorem Sound.cancel_effects (hc : c.Sound) (hup : c.link = .up) {p : Pending}
    (hp : p ∈ c.pending) :
    visible (c.cancel p.id).effects = p.continuation.abandon ++ [.queue (.cancellation p.id)] := by
  have t := cancel_transition (fun _ => none) c p.id
  generalize (c.cancel p.id).client = d at t
  generalize visible (c.cancel p.id).effects = es at t ⊢
  have hfound := hc.pending?_of_mem hp
  cases t with
  | cancelUnknown hnone => exact absurd (hnone.symm.trans hfound) (by simp)
  | cancelled hq =>
      obtain rfl := Option.some.inj (hfound.symm.trans hq)
      rw [outgoing, if_pos hup]

/-! ## Identifiers of every size -/

theorem turn_send (hs : c.state = .running) (hup : c.link = .up) {m : Moment} {kind : RequestKind}
    {params : Json} {h : Handler} (hm : m.action = .send kind params h) :
    (c.turn m).client =
      { c with
        lastId := c.lastId + 1
        pending := c.pending ++ [⟨c.lastId + 1, kind, .handler h⟩] } := by
  rw [turn, hm, step, send, if_pos hs]
  exact (writeRequest_up hup kind params (.handler h)).2.1

theorem after_sends (hs : c.state = .running) (hup : c.link = .up) {sends : List Moment}
    (hsends : ∀ m ∈ sends, ∃ kind params h, m.action = .send kind params h) :
    (c.after sends).state = .running ∧ (c.after sends).link = .up ∧
      (c.after sends).lastId = c.lastId + sends.length := by
  induction sends generalizing c with
  | nil => exact ⟨hs, hup, rfl⟩
  | cons m rest ih =>
      obtain ⟨⟨kind, params, h, hm⟩, hrest⟩ := List.forall_mem_cons.mp hsends
      have hturn := turn_send hs hup hm
      have hid : (c.turn m).client.lastId = c.lastId + 1 := by rw [hturn]
      obtain ⟨hs', hup', hlast⟩ := ih (c := (c.turn m).client) (by rw [hturn]; exact hs)
        (by rw [hturn]; exact hup) hrest
      rw [after_cons, List.length_cons]
      exact ⟨hs', hup', by omega⟩

theorem pending_after_sends (hs : c.state = .running) (hup : c.link = .up) {sends : List Moment}
    (hsends : ∀ m ∈ sends, ∃ kind params h, m.action = .send kind params h)
    (kind : RequestKind) (params : Json) (h : Handler) :
    ⟨c.lastId + sends.length + 1, kind, .handler h⟩ ∈
      (c.after (sends ++ [⟨normal, .send kind params h⟩])).pending := by
  obtain ⟨hs', hup', hid⟩ := after_sends hs hup hsends
  rw [after_append, after_cons, after_nil, turn_send hs' hup' rfl, hid]
  exact List.mem_append_right _ List.mem_cons_self

/-- **What a cancellation names.** A pending request was sent under its identifier, and cancelling it
on a link that is up tells the server. The identifier that the cancellation names is the one that the
request bore exactly if it is below 31 bits or beyond 63. -/
theorem cancellation_names_iff (workspace : Params.Workspace) (processId : Nat)
    (history : List Moment) {p : Pending}
    (pending : p ∈ ((fresh workspace processId).after history).pending)
    (up : ((fresh workspace processId).after history).link = .up) :
    ∃ params, .queue (.call p.id p.kind params) ∈ (fresh workspace processId).effects history ∧
      visible (((fresh workspace processId).after history).cancel p.id).effects =
        p.continuation.abandon ++ [.queue (.cancellation p.id)] ∧
      ((Outbound.cancellation p.id).namedId = (Outbound.call p.id p.kind params).idMember ↔
        p.id < 0x80000000 ∨ RequestId.maxNumber < p.id) := by
  have hsound := sound_reached workspace processId history
  rcases pending_sent _ history pending with hfresh | ⟨params, hsent⟩
  · exact absurd hfresh List.not_mem_nil
  · refine ⟨params, hsent, hsound.cancel_effects up pending, ?_⟩
    rw [Outbound.idMember_call]
    exact Outbound.namedId_eq_wire_iff p.id

/-- The handshake is cancelled under its own identifier. -/
theorem cancellation_names_iff_first :
    let start := fresh ⟨"/work", "file:///work", .null, false⟩ 0
    let c := start.after [⟨some, .handshake⟩]
    ⟨1, .handshake, .handshake⟩ ∈ c.pending ∧ c.link = .up ∧
      ∃ params, .queue (.call 1 .handshake params) ∈ start.effects [⟨some, .handshake⟩] ∧
        (Outbound.cancellation 1).namedId = (Outbound.call 1 .handshake params).idMember := by
  intro start c
  have pending : ⟨1, .handshake, .handshake⟩ ∈ c.pending := by decide
  have up : c.link = .up := rfl
  obtain ⟨params, hsent, -, hiff⟩ :=
    cancellation_names_iff ⟨"/work", "file:///work", .null, false⟩ 0 [⟨some, .handshake⟩] pending up
  exact ⟨pending, up, params, hsent, hiff.mpr (.inl (by decide))⟩

/-- A running session that awaits nothing sends one request after the other and cancels the last: the
request bore the next identifier in turn, and the cancellation names the same number in its own way. -/
theorem cancel_after_sends (hc : c.Sound) (hs : c.state = .running) (hup : c.link = .up)
    (hidle : c.pending = []) {sends : List Moment}
    (hsends : ∀ m ∈ sends, ∃ kind params h, m.action = .send kind params h)
    (normal : Normalizer) (kind : RequestKind) (params : Json) (h : Handler) {n : Nat}
    (hn : c.lastId + sends.length + 1 = n) :
    let history := sends ++ [⟨normal, .send kind params h⟩]
    ⟨n, kind, .handler h⟩ ∈ (c.after history).pending ∧
      (∃ params', .queue (.call n kind params') ∈ c.effects history) ∧
      visible ((c.after history).cancel n).effects = [.discard h, .queue (.cancellation n)] := by
  intro history
  have hall : ∀ m ∈ history, ∃ kind params h, m.action = .send kind params h := by
    intro m hm
    rcases List.mem_append.mp hm with hm | hm
    · exact hsends m hm
    · rw [List.mem_singleton.mp hm]
      exact ⟨_, _, _, rfl⟩
  have hpending : ⟨n, kind, .handler h⟩ ∈ (c.after history).pending := by
    rw [← hn]
    exact pending_after_sends hs hup hsends kind params h
  refine ⟨hpending, ?_, (hc.after history).cancel_effects (after_sends hs hup hall).2.1 hpending⟩
  rcases pending_sent c history hpending with hold | hsent
  · rw [hidle] at hold
    exact absurd hold List.not_mem_nil
  · exact hsent

/-- A session that has sent 2147483647 requests after its handshake cancels the last of them. That
request bore its identifier as a number, and the cancellation names a text. -/
theorem cancellation_misnames :
    let opened := (fresh ⟨"/work", "file:///work", .null, false⟩ 0).after [⟨some, .handshake⟩,
      ⟨some, .receive (.mkObj [("id", RequestId.wire 1), ("result", .null)])⟩]
    let sends : List Moment := (List.range 0x7ffffffe).map fun ticket =>
      ⟨some, .send .hover .null ⟨ticket, .hover, none⟩⟩
    let last : Handler := ⟨0x7ffffffe, .edits, none⟩
    let history := sends ++ [⟨some, .send .rename .null last⟩]
    (⟨0x80000000, .rename, .handler last⟩ ∈ (opened.after history).pending ∧
      (∃ params, .queue (.call 0x80000000 .rename params) ∈ opened.effects history) ∧
      visible ((opened.after history).cancel 0x80000000).effects =
        [.discard last, .queue (.cancellation 0x80000000)]) ∧
    (∀ params, (Outbound.call 0x80000000 .rename params).idMember = .num (.int 0x80000000)) ∧
      (Outbound.cancellation 0x80000000).namedId = .str "2147483648" := by
  intro opened sends last history
  have hsound : opened.Sound := sound_reached _ _ _
  have hrunning : opened.state = .running := rfl
  have hup : opened.link = .up := rfl
  have hidle : opened.pending = [] := rfl
  have hfirst : opened.lastId = 1 := rfl
  have hsends : ∀ m ∈ sends, ∃ kind params h, m.action = .send kind params h := by
    intro m hm
    obtain ⟨ticket, -, rfl⟩ := List.mem_map.mp hm
    exact ⟨_, _, _, rfl⟩
  have hcount : opened.lastId + sends.length + 1 = 0x80000000 := by
    rw [hfirst, List.length_map, List.length_range]
  refine ⟨?_, fun params => ?_, ?_⟩
  · clear_value sends opened
    exact cancel_after_sends hsound hrunning hup hidle hsends some .rename .null last hcount
  · rw [Outbound.idMember_call]
    rfl
  · rw [Outbound.namedId_cancellation]
    rfl

end Client

end LanguageClient
