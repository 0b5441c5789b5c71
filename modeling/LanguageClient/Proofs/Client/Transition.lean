import LanguageClient.Client.Run
import LanguageClient.Proofs.Rpc.Inbound

/-!
# What one step of a client can do

`Transition` lists every way in which a step can go: its guard, what is answered, the client
afterwards, and what the step brings about besides log events. `step_transition` says that the list
is complete, so an invariant of clients is one case analysis over it, and no proof about runs has to
open an operation again. A message that is received is taken and then dealt with; `Taking` and
`Finishing` are the lists for these two halves.
-/

namespace LanguageClient

open Rpc Document

namespace Effect

/-- Is the effect only something that is logged? -/
def isLog : Effect → Bool
  | .log _ => true
  | _ => false

end Effect

/-- What effects amount to without the log. -/
def visible (effects : List Effect) : List Effect := effects.filter (!·.isLog)

@[simp] theorem visible_nil : visible [] = [] := rfl

@[simp] theorem visible_log (e : LogEvent) (es : List Effect) :
    visible (.log e :: es) = visible es := rfl

@[simp] theorem visible_queue (m : Outbound) (es : List Effect) :
    visible (.queue m :: es) = .queue m :: visible es := rfl

@[simp] theorem visible_event (e : SessionEvent) (es : List Effect) :
    visible (.event e :: es) = .event e :: visible es := rfl

@[simp] theorem visible_invoke (h : Handler) (r : Reply) (es : List Effect) :
    visible (.invoke h r :: es) = .invoke h r :: visible es := rfl

@[simp] theorem visible_discard (h : Handler) (es : List Effect) :
    visible (.discard h :: es) = .discard h :: visible es := rfl

@[simp] theorem visible_append (es fs : List Effect) :
    visible (es ++ fs) = visible es ++ visible fs := List.filter_append ..

@[simp] theorem visible_map_log (es : List LogEvent) : visible (es.map .log) = [] := by
  induction es with
  | nil => rfl
  | cons e rest ih => exact ih

theorem mem_visible {e : Effect} {es : List Effect} (h : e.isLog = false) :
    e ∈ visible es ↔ e ∈ es := by
  unfold visible
  simp [h]

theorem filterMap_visible {α : Type} {f : Effect → Option α} (hlog : ∀ e, f (.log e) = none)
    (es : List Effect) : (visible es).filterMap f = es.filterMap f := by
  unfold visible
  rw [List.filterMap_filter]
  congr 1
  funext e
  cases e with
  | log e => exact (hlog e).symm
  | _ => rfl

/-! ## The messages that a client sends of its own -/

namespace Outbound

/-- A request under a counted identifier. -/
def call (id : Nat) (kind : RequestKind) (params : Json) : Outbound :=
  .request (Rpc.request (.ofNat id) kind.method params)

/-- A notification. -/
def note (method : String) (params : Json) : Outbound :=
  .notification (Rpc.notification method params)

/-- The first request of a session. -/
def opening (id processId : Nat) (workspace : Params.Workspace) : Outbound :=
  call id .handshake (Params.handshake processId workspace)

/-- The notification that completes the handshake. -/
def opened : Outbound := note "initialized" Params.initialized

/-- The notification that a request is cancelled. -/
def cancellation (id : Nat) : Outbound := note "$/cancelRequest" (Params.cancel id)

/-- The request to shut down. -/
def closing (id : Nat) : Outbound := call id .shutdown .null

/-- The notification that follows the request to shut down. -/
def exit : Outbound := note "exit" .null

end Outbound

/-! ## The parts of an operation -/

namespace Client

/-- What queueing a message amounts to: only a link that is up takes it. -/
def outgoing (c : Client) (m : Outbound) : List Effect :=
  if c.link = .up then [.queue m] else []

theorem write_up {c : Client} (h : c.link = .up) (m : Outbound) :
    (c.write m).1 = .ok () ∧ visible (c.write m).2 = [.queue m] := by
  unfold write; rw [h]; exact ⟨rfl, rfl⟩

theorem write_refused {c : Client} (h : c.link ≠ .up) (m : Outbound) :
    (c.write m).1 = .error .transportClosed ∧ visible (c.write m).2 = [] := by
  unfold write
  cases hl : c.link with
  | up => exact absurd hl h
  | down => exact ⟨rfl, rfl⟩
  | lost => exact ⟨rfl, rfl⟩

@[simp] theorem visible_writeOrLog (c : Client) (m : Outbound) (refused : SendError → LogEvent) :
    visible (c.writeOrLog m refused) = c.outgoing m := by
  unfold writeOrLog write outgoing
  cases c.link <;> rfl

@[simp] theorem visible_abandon (k : Continuation) : visible k.abandon = k.abandon := by
  cases k <;> rfl

@[simp] theorem visible_abandonAll (c : Client) : visible c.abandonAll = c.abandonAll := by
  unfold abandonAll
  induction c.pending with
  | nil => rfl
  | cons p rest ih =>
      rw [List.flatMap_cons, visible_append, visible_abandon, ih]

@[simp] theorem moveTo_client (c : Client) (s : SessionState) :
    (c.moveTo s).client = { c with state := s } := by
  unfold moveTo
  split
  · rename_i h; rw [← h]
  · rfl

@[simp] theorem visible_moveTo (c : Client) (s : SessionState) :
    visible (c.moveTo s).effects = if c.state = s then [] else [.event (.state s)] := by
  unfold moveTo
  split <;> rfl

theorem writeRequest_up {c : Client} (h : c.link = .up) (kind : RequestKind) (params : Json)
    (k : Continuation) :
    (c.writeRequest kind params k).value = some (c.lastId + 1) ∧
      (c.writeRequest kind params k).client
        = { c with lastId := c.lastId + 1, pending := c.pending ++ [⟨c.lastId + 1, kind, k⟩] } ∧
      visible (c.writeRequest kind params k).effects
        = [.queue (.call (c.lastId + 1) kind params)] := by
  unfold writeRequest write; rw [h]; exact ⟨rfl, rfl, rfl⟩

theorem writeRequest_refused {c : Client} (h : c.link ≠ .up) (kind : RequestKind) (params : Json)
    (k : Continuation) :
    (c.writeRequest kind params k).value = none ∧
      (c.writeRequest kind params k).client = { c with lastId := c.lastId + 1 } ∧
      visible (c.writeRequest kind params k).effects = k.abandon := by
  unfold writeRequest write
  cases hl : c.link with
  | up => exact absurd hl h
  | down => exact ⟨rfl, rfl, by simp⟩
  | lost => exact ⟨rfl, rfl, by simp⟩

theorem pending?_some {c : Client} {id : Nat} {p : Pending} (h : c.pending? id = some p) :
    p ∈ c.pending ∧ p.id = id := by
  unfold pending? at h
  exact ⟨List.mem_of_find?_eq_some h, by simpa using List.find?_some h⟩

theorem pending?_none {c : Client} {id : Nat} (h : c.pending? id = none) {p : Pending}
    (hp : p ∈ c.pending) : p.id ≠ id := by
  unfold pending? at h
  simpa using List.find?_eq_none.mp h p hp

/-- What becomes of a result that reaches a handler. -/
def delivery (c : Client) (normal : Normalizer) (h : Handler) (result : Json) : Effect :=
  if c.isAlive h then .invoke h (h.type.read normal result) else .discard h

/-- The client once its handshake is answered. -/
def established (c : Client) (result : Json) : Client :=
  { c with
    state := .running
    capabilities := Capabilities.ofJson (result.get "capabilities") }

/-- Of a notification from the server nothing comes but one event at most: diagnostics, or
highlighting. -/
theorem visible_notificationEffects (normal : Normalizer) (method : String) (params : Json) :
    visible (notificationEffects normal method params) = [] ∨
      (∃ p, visible (notificationEffects normal method params) = [.event (.diagnostics p)]) ∨
      ∃ h, visible (notificationEffects normal method params) = [.event (.highlighting h)] := by
  unfold notificationEffects
  split
  · split
    · exact .inr (.inl ⟨_, rfl⟩)
    · exact .inl rfl
  · split
    · rw [visible_append, visible_map_log]
      exact .inr (.inr ⟨_, rfl⟩)
    · exact .inl rfl

theorem notificationEffects_event {normal : Normalizer} {method : String} {params : Json}
    {e : Effect} (h : e ∈ visible (notificationEffects normal method params)) :
    ∃ s, e = .event s := by
  rcases visible_notificationEffects normal method params with hnone | ⟨p, hone⟩ | ⟨p, hone⟩
  · rw [hnone] at h
    exact absurd h List.not_mem_nil
  · rw [hone] at h
    exact ⟨_, List.mem_singleton.mp h⟩
  · rw [hone] at h
    exact ⟨_, List.mem_singleton.mp h⟩

/-! ## The list of transitions -/

/-- The ways in which a client can take a step: the action, what it answers, the client
afterwards, and what it brings about besides log events. -/
inductive Transition (normal : Normalizer) (c : Client) :
    Action → Answer → Client → List Effect → Prop
  | handshakeIgnored : c.state ≠ .absent →
      Transition normal c .handshake (.sent none) c []
  | handshakeSent : c.state = .absent → c.link = .up →
      Transition normal c .handshake (.sent (some (c.lastId + 1)))
        { c with
          state := .started, lastId := c.lastId + 1
          pending := c.pending ++ [⟨c.lastId + 1, .handshake, .handshake⟩] }
        [.event (.state .started), .queue (.opening (c.lastId + 1) c.processId c.workspace)]
  | handshakeRefused : c.state = .absent → c.link ≠ .up →
      Transition normal c .handshake (.sent none)
        { c with state := .started, lastId := c.lastId + 1 } [.event (.state .started)]
  | sendEarly {kind params h} : c.state ≠ .running →
      Transition normal c (.send kind params h) (.sent none) c [.discard h]
  | sendAccepted {kind params h} : c.state = .running → c.link = .up →
      Transition normal c (.send kind params h) (.sent (some (c.lastId + 1)))
        { c with
          lastId := c.lastId + 1
          pending := c.pending ++ [⟨c.lastId + 1, kind, .handler h⟩] }
        [.queue (.call (c.lastId + 1) kind params)]
  | sendRefused {kind params h} : c.state = .running → c.link ≠ .up →
      Transition normal c (.send kind params h) (.sent none)
        { c with lastId := c.lastId + 1 } [.discard h]
  | notifyEarly {method params} : c.state ≠ .running →
      Transition normal c (.notify method params)
        (.notified (.error (.notRunning c.state))) c []
  | notifyAccepted {method params} : c.state = .running → c.link = .up →
      Transition normal c (.notify method params) (.notified (.ok ())) c
        [.queue (.note method params)]
  | notifyRefused {method params} : c.state = .running → c.link ≠ .up →
      Transition normal c (.notify method params)
        (.notified (.error .transportClosed)) c []
  | cancelUnknown {id} : c.pending? id = none →
      Transition normal c (.cancel id) .done c []
  | cancelled {id p} : c.pending? id = some p →
      Transition normal c (.cancel id) .done (c.forget id)
        (p.continuation.abandon ++ c.outgoing (.cancellation id))
  | shutdownIgnored : c.state ≠ .running →
      Transition normal c .shutdown .done c []
  | shutdown : c.state = .running →
      Transition normal c .shutdown .done
        { c with pending := [], lastId := c.lastId + 1, state := .shutdown }
        (c.abandonAll ++ c.outgoing (.closing (c.lastId + 1)) ++ c.outgoing .exit ++
          [.event (.state .shutdown)])
  | connectionLost :
      Transition normal c .connectionLost .done
        { c with pending := [], window := [], link := .lost, state := .absent }
        (c.abandonAll ++ if c.state = .absent then [] else [.event (.state .absent)])
  | respondLate {id outcome} : id ∉ c.window →
      Transition normal c (.respond id outcome) (.responded false) c []
  | responded {id outcome} : id ∈ c.window → c.link = .up →
      Transition normal c (.respond id outcome) (.responded true)
        { c with window := c.window.complete id }
        [.queue (.response (success id (Params.applyEditResponse outcome)))]
  | respondRefused {id outcome} : id ∈ c.window → c.link ≠ .up →
      Transition normal c (.respond id outcome) (.responded false)
        { c with window := c.window.complete id } []
  | replied {message n p h} : Carries n message → c.pending? n = some p →
      p.continuation = .handler h →
      Transition normal c (.receive message) .done (c.forget n)
        [c.delivery normal h (message.get "result")]
  | opened {message n p} : Carries n message → c.pending? n = some p →
      p.continuation = .handshake → c.state = .started →
      Transition normal c (.receive message) .done ((c.forget n).established (message.get "result"))
        (c.outgoing .opened ++ [.event (.state .running)])
  | openedLate {message n p} : Carries n message → c.pending? n = some p →
      p.continuation = .handshake → c.state ≠ .started →
      Transition normal c (.receive message) .done (c.forget n) []
  | stray {message id result error} :
      Inbound.classify message = some (.reply id result error) →
      (∀ n, Carries n message → c.pending? n = none) →
      Transition normal c (.receive message) .done c []
  | editAsked {message id params} :
      Inbound.classify message = some (.request id applyEditMethod params) →
      Transition normal c (.receive message) .done { c with window := c.window.track id }
        [.event (.applyEdit id (ApplyEdit.ofJson normal params))]
  | unsupported {message id method params} :
      Inbound.classify message = some (.request id method params) →
      method ≠ applyEditMethod →
      Transition normal c (.receive message) .done c
        (c.outgoing (.response (methodNotFound id method)))
  | told {message method params} :
      Inbound.classify message = some (.notification method params) →
      Transition normal c (.receive message) .done c
        (visible (notificationEffects normal method params))
  | unclassified {message} : Inbound.classify message = none →
      Transition normal c (.receive message) .done c []
  | released {owner} :
      Transition normal c (.release owner) .done (c.release owner) []
  | writerEnded :
      Transition normal c .writerEnded .done c.writerEnded []

/-- The ways in which a message can be taken: the client afterwards, what is left to do, and what it
brings about besides log events. -/
inductive Taking (normal : Normalizer) (c : Client) (message : Json) :
    Client → Option Remainder → List Effect → Prop
  | replied {n p} : Carries n message → c.pending? n = some p →
      Taking normal c message (c.forget n) (some (.resume p (message.get "result"))) []
  | stray {id result error} : Inbound.classify message = some (.reply id result error) →
      (∀ n, Carries n message → c.pending? n = none) → Taking normal c message c none []
  | editAsked {id params} :
      Inbound.classify message = some (.request id applyEditMethod params) →
      Taking normal c message { c with window := c.window.track id }
        (some (.announce id (ApplyEdit.ofJson normal params))) []
  | unsupported {id method params} :
      Inbound.classify message = some (.request id method params) → method ≠ applyEditMethod →
      Taking normal c message c none (c.outgoing (.response (methodNotFound id method)))
  | told {method params} : Inbound.classify message = some (.notification method params) →
      Taking normal c message c none (visible (notificationEffects normal method params))
  | unclassified : Inbound.classify message = none → Taking normal c message c none []

/-- The ways in which what is left can be done: the client afterwards, and what it brings about
besides log events. -/
inductive Finishing (normal : Normalizer) (c : Client) :
    Option Remainder → Client → List Effect → Prop
  | nothing : Finishing normal c none c []
  | handled {p h result} : p.continuation = .handler h →
      Finishing normal c (some (.resume p result)) c [c.delivery normal h result]
  | opened {p result} : p.continuation = .handshake → c.state = .started →
      Finishing normal c (some (.resume p result)) (c.established result)
        (c.outgoing .opened ++ [.event (.state .running)])
  | openedLate {p result} : p.continuation = .handshake → c.state ≠ .started →
      Finishing normal c (some (.resume p result)) c []
  | editAnnounced {id edit} :
      Finishing normal c (some (.announce id edit)) c [.event (.applyEdit id edit)]

/-! ## The list is complete -/

variable (normal : Normalizer) (c : Client)

theorem handshake_transition :
    Transition normal c .handshake (.sent c.handshake.value) c.handshake.client
      (visible c.handshake.effects) := by
  unfold handshake
  split
  · rename_i h
    exact .handshakeIgnored h
  · rename_i h
    have habsent : c.state = .absent := Decidable.not_not.mp h
    dsimp only
    by_cases hlink : c.link = .up
    · obtain ⟨hvalue, hclient, heffects⟩ := writeRequest_up
        (c := (c.moveTo .started).client) (by simpa using hlink) .handshake
        (Params.handshake c.processId c.workspace) .handshake
      rw [visible_append, hvalue, hclient, heffects]
      simpa [habsent, Outbound.opening] using
        (Transition.handshakeSent habsent hlink : Transition normal c _ _ _ _)
    · obtain ⟨hvalue, hclient, heffects⟩ := writeRequest_refused
        (c := (c.moveTo .started).client) (by simpa using hlink) .handshake
        (Params.handshake c.processId c.workspace) .handshake
      rw [visible_append, hvalue, hclient, heffects]
      simpa [habsent, Continuation.abandon] using
        (Transition.handshakeRefused habsent hlink : Transition normal c _ _ _ _)

theorem send_transition (kind : RequestKind) (params : Json) (h : Handler) :
    Transition normal c (.send kind params h) (.sent (c.send kind params h).value)
      (c.send kind params h).client (visible (c.send kind params h).effects) := by
  unfold send
  split
  · rename_i hrunning
    by_cases hlink : c.link = .up
    · obtain ⟨hvalue, hclient, heffects⟩ := writeRequest_up hlink kind params (.handler h)
      rw [hvalue, hclient, heffects]
      exact .sendAccepted hrunning hlink
    · obtain ⟨hvalue, hclient, heffects⟩ := writeRequest_refused hlink kind params (.handler h)
      rw [hvalue, hclient, heffects]
      exact .sendRefused hrunning hlink
  · rename_i hrunning
    exact .sendEarly hrunning

theorem notify_transition (method : String) (params : Json) :
    Transition normal c (.notify method params) (.notified (c.notify method params).value)
      (c.notify method params).client (visible (c.notify method params).effects) := by
  unfold notify
  split
  · rename_i hrunning
    dsimp only
    by_cases hlink : c.link = .up
    · obtain ⟨hresult, heffects⟩ := write_up hlink (.note method params)
      have : Transition normal c (.notify method params) _ _ _ := .notifyAccepted hrunning hlink
      rwa [← hresult, ← heffects] at this
    · obtain ⟨hresult, heffects⟩ := write_refused hlink (.note method params)
      have : Transition normal c (.notify method params) _ _ _ := .notifyRefused hrunning hlink
      rwa [← hresult, ← heffects] at this
  · rename_i hrunning
    exact .notifyEarly hrunning

theorem cancel_transition (id : Nat) :
    Transition normal c (.cancel id) .done (c.cancel id).client (visible (c.cancel id).effects) := by
  unfold cancel
  split
  · rename_i h
    exact .cancelUnknown h
  · rename_i p h
    simpa [Outbound.cancellation, Outbound.note] using
      (Transition.cancelled h : Transition normal c _ _ _ _)

theorem shutdown_transition :
    Transition normal c .shutdown .done c.shutdown.client (visible c.shutdown.effects) := by
  unfold shutdown
  split
  · rename_i h
    exact .shutdownIgnored h
  · rename_i h
    have hrunning : c.state = .running := Decidable.not_not.mp h
    have : Transition normal c _ _ _ _ := .shutdown hrunning
    simpa [hrunning, outgoing, Outbound.closing, Outbound.call, Outbound.exit, Outbound.note]
      using this

theorem connectionLost_transition :
    Transition normal c .connectionLost .done c.connectionLost.client
      (visible c.connectionLost.effects) := by
  have : Transition normal c _ _ _ _ := .connectionLost
  unfold Client.connectionLost
  split <;> simpa using this

theorem respond_transition (id : RequestId) (outcome : EditOutcome) :
    Transition normal c (.respond id outcome) (.responded (c.respond id outcome).value)
      (c.respond id outcome).client (visible (c.respond id outcome).effects) := by
  unfold respond
  split
  · rename_i hmem
    dsimp only
    by_cases hlink : c.link = .up
    · have : Transition normal c (.respond id outcome) _ _ _ := .responded hmem hlink
      simpa [write, hlink] using this
    · obtain ⟨hresult, heffects⟩ := write_refused
        (c := { c with window := c.window.complete id }) hlink
        (.response (success id (Params.applyEditResponse outcome)))
      have : Transition normal c (.respond id outcome) _ _ _ := .respondRefused hmem hlink
      split
      · rename_i hok; rw [hok] at hresult; exact absurd hresult (by simp)
      · rename_i hrefused; rw [hrefused] at heffects; simpa [heffects] using this
  · rename_i hmem
    exact .respondLate hmem

theorem visible_deliver (kind : RequestKind) (h : Handler) (result : Json) :
    visible (c.deliver normal kind h result) = [c.delivery normal h result] := by
  unfold deliver delivery
  split <;> rfl

theorem takeReply_taking {message result : Json} {id : RequestId} {error : Option ErrorObject}
    (hclass : Inbound.classify message = some (.reply id result error)) :
    Taking normal c message (c.takeReply id result error).client (c.takeReply id result error).value
      (visible (c.takeReply id result error).effects) := by
  unfold takeReply
  have hresult : result = message.get "result" := (classify_reply_iff.mp hclass).2.2.2.1
  cases hfound : id.toNat?.bind c.pending? with
  | none =>
      refine .stray hclass fun n hn => ?_
      obtain ⟨id', error', hclass', hcount⟩ := hn.classify
      rw [hclass, Option.some.injEq, Inbound.reply.injEq] at hclass'
      obtain ⟨rfl, -, -⟩ := hclass'
      rwa [hcount] at hfound
  | some p =>
      obtain ⟨n, hcount, hp⟩ := Option.bind_eq_some_iff.mp hfound
      have hlog : visible (failureLog p.kind id error) = [] := by
        cases error <;> rfl
      dsimp only
      rw [visible_log, hlog, (pending?_some hp).2, hresult]
      exact .replied (carries_of_reply hclass hcount) hp

/-- Every message is taken in one of these ways. -/
theorem take_taking (message : Json) :
    Taking normal c message (c.take normal message).client (c.take normal message).value
      (visible (c.take normal message).effects) := by
  unfold take
  dsimp only
  rw [visible_append, visible_map_log, List.nil_append]
  cases hclass : Inbound.classify message with
  | none => exact .unclassified hclass
  | some inbound =>
      cases inbound with
      | reply id result error => exact takeReply_taking normal c hclass
      | request id method params =>
          unfold takeRequest
          by_cases hmethod : method = applyEditMethod
          · subst hmethod
            have hlog : visible (evictionLog c.window.evicted?) = [] := by
              cases c.window.evicted? <;> rfl
            simpa [hlog] using (Taking.editAsked hclass : Taking normal c _ _ _ _)
          · simpa [hmethod] using (Taking.unsupported hclass hmethod : Taking normal c _ _ _ _)
      | notification method params => exact .told hclass

theorem finish_finishing (left : Option Remainder) :
    Finishing normal c left (c.finish normal left).client
      (visible (c.finish normal left).effects) := by
  match left with
  | none => exact .nothing
  | some (.announce id edit) => exact .editAnnounced
  | some (.resume p result) =>
      unfold finish resume
      dsimp only
      cases hk : p.continuation with
      | handler h =>
          dsimp only
          rw [visible_deliver]
          exact .handled hk
      | handshake =>
          dsimp only
          unfold completeHandshake
          split
          · rename_i hstate
            exact .openedLate hk hstate
          · rename_i hstate
            have hstarted : c.state = .started := Decidable.not_not.mp hstate
            have : Finishing normal c (some (.resume p result)) _ _ := .opened hk hstarted
            simpa [established, outgoing, Outbound.opened, Outbound.note, hstarted] using this

theorem receive_transition (message : Json) :
    Transition normal c (.receive message) .done (c.receive normal message).client
      (visible (c.receive normal message).effects) := by
  unfold receive
  dsimp only
  rw [visible_append]
  have taken := take_taking normal c message
  have finished := finish_finishing normal (c.take normal message).client (c.take normal message).value
  generalize ((c.take normal message).client.finish normal (c.take normal message).value).client = e
    at finished ⊢
  generalize visible ((c.take normal message).client.finish normal
    (c.take normal message).value).effects = fs at finished ⊢
  generalize (c.take normal message).client = d at taken finished
  generalize (c.take normal message).value = left at taken finished
  generalize visible (c.take normal message).effects = es at taken ⊢
  cases taken with
  | replied hcarries hp =>
      cases finished with
      | handled hk => exact .replied hcarries hp hk
      | opened hk hstarted => exact .opened hcarries hp hk hstarted
      | openedLate hk hstate => exact .openedLate hcarries hp hk hstate
  | stray hclass hnone =>
      cases finished
      exact .stray hclass hnone
  | editAsked hclass =>
      cases finished
      exact .editAsked hclass
  | unsupported hclass hmethod =>
      cases finished
      rw [List.append_nil]
      exact .unsupported hclass hmethod
  | told hclass =>
      cases finished
      rw [List.append_nil]
      exact .told hclass
  | unclassified hclass =>
      cases finished
      exact .unclassified hclass

/-- What the reply to a pending request brings about: the error that it reports is logged, and the
request, no longer pending, is resumed with its result. -/
theorem receive_reply {message result : Json} {id : RequestId} {error : Option ErrorObject} {n : Nat}
    {p : Pending} (hclass : Inbound.classify message = some (.reply id result error))
    (hn : Carries n message) (hp : c.pending? n = some p) :
    (c.receive normal message).client = ((c.forget n).resume normal p result).client ∧
      ∃ before : List LogEvent, (c.receive normal message).effects = before.map .log ++
        failureLog p.kind id error ++ ((c.forget n).resume normal p result).effects := by
  obtain ⟨id', error', hclass', hcount⟩ := hn.classify
  rw [hclass, Option.some.injEq, Inbound.reply.injEq] at hclass'
  obtain ⟨rfl, -, -⟩ := hclass'
  have hid : p.id = n := (pending?_some hp).2
  constructor
  · simp [receive, take, finish, hclass, takeReply, hcount, hp, hid]
  · refine ⟨Inbound.classifyLog message ++ [.exchanged .dispatcher "incoming" p.kind.method], ?_⟩
    simp [receive, take, finish, hclass, takeReply, hcount, hp, hid]

/-- Every step is one of the transitions. -/
theorem step_transition (a : Action) :
    Transition normal c a (c.step normal a).value (c.step normal a).client
      (visible (c.step normal a).effects) := by
  cases a with
  | handshake => exact handshake_transition normal c
  | send kind params h => exact send_transition normal c kind params h
  | notify method params => exact notify_transition normal c method params
  | cancel id => exact cancel_transition normal c id
  | shutdown => exact shutdown_transition normal c
  | connectionLost => exact connectionLost_transition normal c
  | respond id outcome => exact respond_transition normal c id outcome
  | receive message => exact receive_transition normal c message
  | release owner => exact .released
  | writerEnded => exact .writerEnded

/-! ## What a message takes -/

theorem Taking.pending {normal : Normalizer} {c d : Client} {message : Json}
    {left : Option Remainder} {es : List Effect} (k : Taking normal c message d left es) :
    (∃ n, Carries n message ∧ d.pending = (c.forget n).pending) ∨
      (∀ p ∈ c.pending, ¬ Carries p.id message) ∧ d.pending = c.pending := by
  -- only a reply carries an identifier
  have hforeign : ∀ {i : Option Inbound}, Inbound.classify message = i →
      (∀ id result error, i ≠ some (.reply id result error)) →
      ∀ p ∈ c.pending, ¬ Carries p.id message := by
    intro i hclass hi p _ hcarries
    obtain ⟨id, error, hclass', -⟩ := hcarries.classify
    exact absurd (hclass.symm.trans hclass') (hi _ _ _)
  cases k with
  | replied hcarries _ => exact .inl ⟨_, hcarries, rfl⟩
  | stray _ hnone => exact .inr ⟨fun p hp hcarries => pending?_none (hnone _ hcarries) hp rfl, rfl⟩
  | editAsked hclass => exact .inr ⟨hforeign hclass (by simp), rfl⟩
  | unsupported hclass _ => exact .inr ⟨hforeign hclass (by simp), rfl⟩
  | told hclass => exact .inr ⟨hforeign hclass (by simp), rfl⟩
  | unclassified hclass => exact .inr ⟨hforeign hclass (by simp), rfl⟩

theorem Taking.mem_pending {normal : Normalizer} {c d : Client} {message : Json}
    {left : Option Remainder} {es : List Effect} (k : Taking normal c message d left es)
    (p : Pending) : p ∈ d.pending ↔ p ∈ c.pending ∧ ¬ Carries p.id message := by
  rcases k.pending with ⟨n, hn, htaken⟩ | ⟨hnone, hkept⟩
  · have hid : p.id ≠ n ↔ ¬ Carries p.id message :=
      ⟨fun hne hp => hne (hp.unique hn), fun hp heq => hp (heq ▸ hn)⟩
    simp [htaken, forget, hid]
  · rw [hkept]
    exact ⟨fun hp => ⟨hp, hnone p hp⟩, fun hp => hp.1⟩

theorem Finishing.pending_eq {normal : Normalizer} {c d : Client} {left : Option Remainder}
    {es : List Effect} (f : Finishing normal c left d es) : d.pending = c.pending := by
  cases f <;> rfl

theorem mem_pending_receive (message : Json) (p : Pending) :
    p ∈ (c.receive normal message).client.pending ↔ p ∈ c.pending ∧ ¬ Carries p.id message := by
  unfold receive
  rw [(finish_finishing normal _ _).pending_eq, (take_taking normal c message).mem_pending]

theorem pending_receive_sublist (message : Json) :
    (c.receive normal message).client.pending.Sublist c.pending := by
  unfold receive
  rw [(finish_finishing normal _ _).pending_eq]
  rcases (take_taking normal c message).pending with ⟨n, -, htaken⟩ | ⟨-, hkept⟩
  · rw [htaken]
    exact List.filter_sublist
  · exact hkept ▸ List.Sublist.refl _

end Client

end LanguageClient
