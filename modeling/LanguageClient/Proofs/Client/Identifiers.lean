import LanguageClient.Proofs.Client.Cancellation
import LanguageClient.Proofs.Client.Order
import Mathlib.Data.List.Nodup

/-!
# Identifiers of requests

A client counts its requests, those included that are refused when they are written, and each bears
the number that it was given. So the identifiers that go out are a part of one count
(`identifiers_effects`), and none is used twice. A reply takes the pending request whose identifier was
written as exactly the JSON value that it carries (`mem_pending_receive`), whatever is pending.
-/

namespace LanguageClient

open Rpc Document

namespace Rpc

/-- A reply frame: an object without a method, whose `id` member is `j`. -/
structure Replies (j message : Json) : Prop where
  object : message.isObj = true
  id : message.member? "id" = some j
  noMethod : Inbound.methodMember message = none

theorem Replies.carries_iff {j message : Json} (h : Replies j message) {n : Nat} :
    Carries n message ↔ n < RequestId.counted ∧ j = RequestId.wire n := by
  constructor
  · intro hn
    exact ⟨hn.counted, Option.some.inj (h.id.symm.trans hn.id)⟩
  · rintro ⟨hlt, rfl⟩
    exact ⟨hlt, h.object, h.id, h.noMethod⟩

end Rpc

/-- The identifier that a message bears, if it is a request. -/
def Outbound.identifier? : Outbound → Option Json
  | .request r => some (Outbound.request r).idMember
  | _ => none

/-- The identifiers of the requests that are queued, in order. -/
def identifiers (es : List Effect) : List Json := (own es).filterMap Outbound.identifier?

theorem identifiers_append (es fs : List Effect) :
    identifiers (es ++ fs) = identifiers es ++ identifiers fs := by
  unfold identifiers
  rw [own_append, List.filterMap_append]

theorem identifiers_of_own {es : List Effect} (h : own es = []) : identifiers es = [] := by
  unfold identifiers
  rw [h]
  rfl

namespace Client

theorem identifiers_outgoing_call (c : Client) (id : Nat) (kind : RequestKind) (params : Json) :
    (identifiers (c.outgoing (.call id kind params))).Sublist [RequestId.wire id] := by
  unfold outgoing
  split
  · change [(Outbound.call id kind params).idMember].Sublist _
    rw [Outbound.idMember_call]
  · exact List.nil_sublist _

theorem identifiers_outgoing_note (c : Client) (method : String) (params : Json) :
    identifiers (c.outgoing (.note method params)) = [] := by
  unfold outgoing
  split <;> rfl

/-- Does the action count one more request? A refusal for the session's state does not; a request that
is refused when it is written was counted before. -/
def allocates (c : Client) : Action → Bool
  | .handshake => c.state = .absent
  | .send _ _ _ => c.state = .running
  | .shutdown => c.state = .running
  | _ => false

/-- How many requests a history counts. -/
def allocations (c : Client) : List Moment → Nat
  | [] => 0
  | m :: rest => (c.allocates m.action).toNat + (c.turn m).client.allocations rest

/-! ## What a client counts -/

section Step

variable {normal : Normalizer} {c d : Client} {a : Action} {v : Answer} {es : List Effect}

theorem Transition.lastId_eq (t : Transition normal c a v d es) :
    d.lastId = c.lastId + (c.allocates a).toNat := by
  cases t with
  | handshakeIgnored h => simp [allocates, h]
  | handshakeSent h _ => simp [allocates, h]
  | handshakeRefused h _ => simp [allocates, h]
  | sendEarly h => simp [allocates, h]
  | sendAccepted h _ => simp [allocates, h]
  | sendRefused h _ => simp [allocates, h]
  | shutdownIgnored h => simp [allocates, h]
  | shutdown h => simp [allocates, h]
  | writerEnded => exact writerEnded_lastId c
  | _ => rfl

theorem Transition.identifiers_sublist (t : Transition normal c a v d es) :
    (identifiers es).Sublist
      ((List.range' (c.lastId + 1) (c.allocates a).toNat).map RequestId.wire) := by
  have hnone : identifiers es = [] → (identifiers es).Sublist
      ((List.range' (c.lastId + 1) (c.allocates a).toNat).map RequestId.wire) := by
    intro h
    rw [h]
    exact List.nil_sublist _
  cases t with
  | handshakeSent habsent _ =>
      have hnext : identifiers [.event (.state .started),
          .queue (.opening (c.lastId + 1) c.processId c.workspace)] =
            [RequestId.wire (c.lastId + 1)] := congrArg (· :: []) (Outbound.idMember_call ..)
      simp [allocates, habsent, hnext]
  | @sendAccepted kind params h hrunning _ =>
      have hnext : identifiers [.queue (.call (c.lastId + 1) kind params)] =
          [RequestId.wire (c.lastId + 1)] := congrArg (· :: []) (Outbound.idMember_call ..)
      simp [allocates, hrunning, hnext]
  | shutdown hrunning =>
      -- the request comes between what is given up and the notification
      have hrest : identifiers (c.outgoing .exit ++ [.event (.state .shutdown)]) = [] := by
        rw [identifiers_append, Outbound.exit, identifiers_outgoing_note]
        rfl
      rw [List.append_assoc, identifiers_append, identifiers_append, hrest,
        identifiers_of_own c.own_abandonAll, List.nil_append, List.append_nil]
      have hcounted : c.allocates .shutdown = true := by simp [allocates, hrunning]
      rw [hcounted]
      exact c.identifiers_outgoing_call (c.lastId + 1) .shutdown .null
  | @cancelled id p _ =>
      refine hnone ?_
      rw [identifiers_append, identifiers_of_own (own_abandon _), Outbound.cancellation,
        identifiers_outgoing_note, List.append_nil]
  | opened _ _ _ _ =>
      refine hnone ?_
      rw [identifiers_append, Outbound.opened, identifiers_outgoing_note, identifiers_of_own rfl,
        List.append_nil]
  | connectionLost =>
      refine hnone (identifiers_of_own ?_)
      split <;> simp
  | notifyAccepted _ _ => exact hnone rfl
  | _ => exact hnone (identifiers_of_own (by simp))

end Step

theorem lastId_after (c : Client) (history : List Moment) :
    (c.after history).lastId = c.lastId + c.allocations history := by
  induction history generalizing c with
  | nil => rfl
  | cons m rest ih =>
      rw [after_cons, ih, (c.turn_transition m).lastId_eq, allocations, Nat.add_assoc]

theorem allocations_append (c : Client) (first second : List Moment) :
    c.allocations (first ++ second) = c.allocations first + (c.after first).allocations second := by
  induction first generalizing c with
  | nil => exact (Nat.zero_add _).symm
  | cons m rest ih => rw [List.cons_append, allocations, ih, allocations, after_cons, Nat.add_assoc]

/-- What a history writes is a part of what it counts, in order. -/
theorem identifiers_effects (c : Client) (history : List Moment) :
    (identifiers (c.effects history)).Sublist
      ((List.range' (c.lastId + 1) (c.allocations history)).map RequestId.wire) := by
  induction history generalizing c with
  | nil => exact List.nil_sublist _
  | cons m rest ih =>
      have hfirst := (c.turn_transition m).identifiers_sublist
      have hvisible : identifiers (visible (c.turn m).effects) = identifiers (c.turn m).effects := by
        unfold identifiers
        rw [own_visible]
      have hrest := ih (c.turn m).client
      rw [hvisible] at hfirst
      rw [(c.turn_transition m).lastId_eq, Nat.add_right_comm] at hrest
      rw [effects_cons, identifiers_append, allocations, ← List.range'_append_1, List.map_append]
      exact hfirst.append hrest

/-! ## What a reply takes -/

/-- A reply frame that carries the identifier of no pending request changes nothing. -/
theorem receive_foreign {c : Client} {j message : Json} (normal : Normalizer) (h : Replies j message)
    (hforeign : ∀ p ∈ c.pending, ¬ Carries p.id message) : (c.receive normal message).client = c := by
  have hnoMethod : ∀ {method : String}, message.member? "method" ≠ some (.str method) := by
    intro method hmethod
    exact absurd ((methodMember_eq_some_iff.mpr hmethod).symm.trans h.noMethod) (by simp)
  have hunfound : ∀ {n : Nat} {p : Pending}, Carries n message → c.pending? n ≠ some p := by
    intro n p hcarries hfound
    obtain ⟨hp, rfl⟩ := pending?_some hfound
    exact hforeign p hp hcarries
  have t := receive_transition normal c message
  generalize (c.receive normal message).client = d at t ⊢
  generalize visible (c.receive normal message).effects = es at t
  cases t with
  | replied hcarries hfound _ => exact absurd hfound (hunfound hcarries)
  | opened hcarries hfound _ _ => exact absurd hfound (hunfound hcarries)
  | openedLate hcarries hfound _ _ => exact absurd hfound (hunfound hcarries)
  | stray _ _ => rfl
  | unclassified _ => rfl
  | editAsked hclass => exact absurd (classify_request_iff.mp hclass).1.method hnoMethod
  | unsupported hclass _ => exact absurd (classify_request_iff.mp hclass).1.method hnoMethod
  | told hclass => exact absurd (classify_notification_iff.mp hclass).2.1 hnoMethod

/-- **Identifiers match exactly.** As long as fewer than 2^64 requests were counted, those that go out
bear increasing numbers, each above all that were counted before, whether or not they went out; so no
identifier is written twice, and what is pending was written under its own. Whatever is pending, a reply
frame takes a request exactly if it carries the JSON value under which the request was sent; if there is
no such request, it changes nothing. -/
theorem identifiers_match (workspace : Params.Workspace) (processId : Nat)
    (earlier later : List Moment)
    (few : (fresh workspace processId).allocations (earlier ++ later) < RequestId.counted) :
    let start := fresh workspace processId
    let history := earlier ++ later
    (∃ numbers : List Nat,
      identifiers ((start.after earlier).effects later) = numbers.map RequestId.wire ∧
      numbers.Pairwise (· < ·) ∧
      ∀ n ∈ numbers, start.allocations earlier < n ∧ n < RequestId.counted) ∧
    (identifiers (start.effects history)).Nodup ∧
    (∀ p ∈ (start.after history).pending,
      RequestId.wire p.id ∈ identifiers (start.effects history)) ∧
    ∀ (c : Client) (normal : Normalizer) (j message : Json),
      (∀ p ∈ c.pending, p.id < RequestId.counted) → Replies j message →
      let left := (c.receive normal message).client
      left.pending.Sublist c.pending ∧
      (∀ p ∈ c.pending, p ∉ left.pending ↔ j = RequestId.wire p.id) ∧
      ((∀ p ∈ c.pending, j ≠ RequestId.wire p.id) → left = c) := by
  intro start history
  have hcount : start.allocations history =
      start.allocations earlier + (start.after earlier).allocations later :=
    start.allocations_append earlier later
  refine ⟨?_, ?_, fun p hp => ?_, fun c normal j message hbound hreply => ?_⟩
  · have hpart := (start.after earlier).identifiers_effects later
    have hlast : (start.after earlier).lastId = start.allocations earlier :=
      (start.lastId_after earlier).trans (Nat.zero_add _)
    obtain ⟨numbers, hsublist, heq⟩ := List.sublist_map_iff.mp hpart
    refine ⟨numbers, heq, (List.pairwise_lt_range' 1).sublist hsublist, fun n hn => ?_⟩
    have hrange := List.mem_range'_1.mp (hsublist.subset hn)
    have hbelow : start.allocations history < RequestId.counted := few
    omega
  · have hpart := start.identifiers_effects history
    exact ((List.nodup_range' 1).map RequestId.wire_injective).sublist hpart
  · rcases pending_sent start history hp with hnone | ⟨params, hsent⟩
    · exact absurd hnone List.not_mem_nil
    · refine List.mem_filterMap.mpr ⟨.call p.id p.kind params, ?_, ?_⟩
      · exact List.mem_filterMap.mpr ⟨_, hsent, rfl⟩
      · exact congrArg some (Outbound.idMember_call p.id p.kind params)
  · -- within 64 bits, to carry the identifier of a request is to carry its JSON value
    intro left
    have hcarries : ∀ p ∈ c.pending, (Carries p.id message ↔ j = RequestId.wire p.id) := by
      intro p hp
      rw [hreply.carries_iff]
      exact ⟨fun h => h.2, fun h => ⟨hbound p hp, h⟩⟩
    refine ⟨pending_receive_sublist normal c message, fun p hp => ?_, fun hforeign => ?_⟩
    · rw [← hcarries p hp, mem_pending_receive]
      simp [hp]
    · exact receive_foreign normal hreply fun p hp h => hforeign p hp ((hcarries p hp).mp h)

/-- The first request beyond the signed range is pending beside the first of all. Its digits take it, and
leave the other alone; the digits of the other take nothing. -/
theorem identifiers_match_beyond :
    let start := fresh ⟨"/work", "file:///work", .null, false⟩ 0
    let frame (j : Json) : Json := .mkObj [("id", j), ("result", .null)]
    let first : Pending := ⟨1, .hover, .handler ⟨0, .value, none⟩⟩
    let beyond : Pending := ⟨0x8000000000000000, .rename, .handler ⟨1, .edits, none⟩⟩
    let c : Client := { start with pending := [first, beyond] }
    let left := (c.receive some (frame (.str "9223372036854775808"))).client
    start.allocations ([⟨some, .handshake⟩] ++ [⟨some, .handshake⟩]) < RequestId.counted ∧
      (∀ p ∈ c.pending, p.id < RequestId.counted) ∧ (∀ j, Replies j (frame j)) ∧
      first ∈ left.pending ∧ beyond ∉ left.pending ∧
      (c.receive some (frame (.str "1"))).client = c := by
  intro start frame first beyond c left
  have few : start.allocations ([⟨some, .handshake⟩] ++ [⟨some, .handshake⟩]) <
      RequestId.counted := by decide
  have bound : ∀ p ∈ c.pending, p.id < RequestId.counted := by decide
  have replies : ∀ j, Replies j (frame j) := by
    intro j
    refine ⟨rfl, ?_, ?_⟩
    · simp [frame, Json.member?_mkObj, Members.find?]
    · simp [frame, Inbound.methodMember, Json.member?_mkObj, Members.find?]
  have hfirst : ∀ s : String, Json.str s ≠ RequestId.wire 1 := fun s h => Json.noConfusion h
  have hbeyond : Json.str "9223372036854775808" = RequestId.wire 0x8000000000000000 := rfl
  have hforeign : Json.str "1" ≠ RequestId.wire 0x8000000000000000 := fun h =>
    absurd (Json.str.inj h) (by decide)
  obtain ⟨-, -, -, hmatch⟩ := identifiers_match ⟨"/work", "file:///work", .null, false⟩ 0
    [⟨some, .handshake⟩] [⟨some, .handshake⟩] few
  obtain ⟨-, htaken, -⟩ := hmatch c some _ _ bound (replies (.str "9223372036854775808"))
  obtain ⟨-, -, hkept⟩ := hmatch c some _ _ bound (replies (.str "1"))
  refine ⟨few, bound, replies, ?_, (htaken beyond (by decide)).mpr hbeyond, hkept fun p hp => ?_⟩
  · exact Decidable.not_not.mp fun h => hfirst _ ((htaken first (by decide)).mp h)
  · rcases List.mem_pair.mp hp with rfl | rfl
    · exact hfirst "1"
    · exact hforeign

/-- Of four requests that are counted the two that find the writer ended are not written. -/
example :
    let handler : Handler := ⟨0, .value, none⟩
    let opening : Json := .mkObj [("id", RequestId.wire 1), ("result", .null)]
    identifiers ((fresh ⟨"/work", "file:///work", .null, false⟩ 0).effects
      [⟨some, .handshake⟩, ⟨some, .receive opening⟩, ⟨some, .send .hover .null handler⟩,
        ⟨some, .writerEnded⟩, ⟨some, .send .hover .null handler⟩, ⟨some, .shutdown⟩]) =
      [.num (.int 1), .num (.int 2)] := rfl

end Client

end LanguageClient
