import LanguageClient.Client.Connection
import LanguageClient.Proofs.Client.Lifecycle

/-!
# What a connection does to its client

Whatever is done with a connection, its client goes through a history, and the subscriber hears the
events of that history (`Connection.Does`). The history of a use is that use (`act_does`), the history
of arriving bytes consists of messages (`arrive_does`); either may end with the end of the writer. So
what holds of clients over histories holds of clients with pipes.
-/

namespace LanguageClient

open Document

/-- The event that an effect tells the subscriber. -/
def Effect.event? : Effect → Option SessionEvent
  | .event e => some e
  | _ => none

/-- The events among effects, in order. -/
def events (es : List Effect) : List SessionEvent := es.filterMap Effect.event?

/-- The state that an event announces. -/
def SessionEvent.state? : SessionEvent → Option SessionState
  | .state s => some s
  | _ => none

/-- The events among what was observed, in order. -/
def heard (seen : List Observation) : List SessionEvent := seen.filterMap (·.event?)

@[simp] theorem events_append (es fs : List Effect) : events (es ++ fs) = events es ++ events fs :=
  List.filterMap_append

@[simp] theorem events_visible (es : List Effect) : events (visible es) = events es :=
  filterMap_visible (fun _ => rfl) es

@[simp] theorem heard_append (first second : List Observation) :
    heard (first ++ second) = heard first ++ heard second := List.filterMap_append

@[simp] theorem events_map_log (es : List LogEvent) : events (es.map .log) = [] := by
  rw [← events_visible, visible_map_log]
  rfl

@[simp] theorem heard_map_log (es : List LogEvent) : heard (es.map .log) = [] := by
  unfold heard
  rw [List.filterMap_map]
  exact List.filterMap_eq_nil_iff.mpr fun _ _ => rfl

@[simp] theorem heard_map_arrived (ms : List Outbound) : heard (ms.map .arrived) = [] := by
  unfold heard
  rw [List.filterMap_map]
  exact List.filterMap_eq_nil_iff.mpr fun _ _ => rfl

theorem filterMap_events (es : List Effect) :
    (events es).filterMap SessionEvent.state? = announced es := by
  unfold events announced
  rw [List.filterMap_filterMap]
  congr 1
  funext e
  cases e with
  | event e => cases e <;> rfl
  | _ => rfl

/-- A moment that neither begins a session nor gives its connection up. -/
def Moment.Quiet (m : Moment) : Prop := m.action ≠ .handshake ∧ m.action ≠ .connectionLost

theorem Moment.quiet_of_writerEnded {m : Moment} (h : m.action = .writerEnded) : m.Quiet := by
  unfold Moment.Quiet
  rw [h]
  exact ⟨Action.noConfusion, Action.noConfusion⟩

namespace Connection

theorem heard_observe (es : List Effect) : heard (es.flatMap (observe true)) = events es := by
  induction es with
  | nil => rfl
  | cons e rest ih =>
      rw [List.flatMap_cons, heard_append, ih]
      cases e <;> rfl

/-- What was done with a connection: its client, `c` before, went through a history, and what was
observed tells the subscriber the events of that history. -/
structure Does (k : Connection) (seen : List Observation) (c : Client) (history : List Moment) :
    Prop where
  client : k.client = some (c.after history)
  subscribed : k.subscribed = true
  heard : heard seen = events (c.effects history)

variable {k : Connection} {c : Client}

/-- Behind the effects of a history the writer does its work, and may come to its end. -/
theorem settle_does (normal : Normalizer) (hsub : k.subscribed = true) {history : List Moment}
    (hk : k.client = some (c.after history)) {es : List Effect}
    (hes : events es = events (c.effects history)) :
    ∃ tail, (∀ m ∈ tail, m.action = .writerEnded) ∧
      (k.settle es).1.Does (k.settle es).2 c (history ++ tail) := by
  unfold settle
  generalize k.outlet.write Outbound.size (queued es) = written
  obtain ⟨outlet, arrived, log⟩ := written
  dsimp only
  generalize (if k.canWrite then (outlet, []) else outlet.shut) = shut
  obtain ⟨outlet, shutLog⟩ := shut
  dsimp only
  have hheard : heard (es.flatMap (observe k.subscribed) ++ (log ++ shutLog).map .log ++
      arrived.map .arrived) = events (c.effects history) := by
    rw [hsub, heard_append, heard_append, heard_observe, heard_map_log, heard_map_arrived, hes,
      List.append_nil, List.append_nil]
  by_cases hended : outlet.ended
  · refine ⟨[⟨normal, .writerEnded⟩], by simp, ?_, hsub, ?_⟩
    · rw [if_pos hended, hk, Client.after_concat]
      rfl
    · rw [hheard, Client.effects_append, events_append]
      exact (List.append_nil _).symm
  · refine ⟨[], by simp, ?_, hsub, ?_⟩
    · rw [if_neg hended, hk, List.append_nil]
    · rw [hheard, List.append_nil]

theorem act_does (normal : Normalizer) (hsub : k.subscribed = true) (hk : k.client = some c)
    (a : Action) :
    ∃ tail, (∀ m ∈ tail, m.action = .writerEnded) ∧
      (k.act normal a).1.Does (k.act normal a).2.2 c (⟨normal, a⟩ :: tail) := by
  unfold act
  rw [hk]
  have hclient : some (c.step normal a).client = some (c.after [⟨normal, a⟩]) := rfl
  have hevents : events (c.step normal a).effects = events (c.effects [⟨normal, a⟩]) := by
    simp [Client.turn]
  exact settle_does (k := { k with client := some (c.step normal a).client }) normal hsub hclient hevents

theorem respond_eq_act (normal : Normalizer) (hk : k.client = some c) (id : Rpc.RequestId)
    (outcome : EditOutcome) :
    (k.respond normal id outcome).1 = (k.act normal (.respond id outcome)).1 ∧
      (k.respond normal id outcome).2.2 = (k.act normal (.respond id outcome)).2.2 := by
  unfold respond act
  rw [hk]
  exact ⟨rfl, rfl⟩

/-- Bytes that are taken are a history of messages. -/
theorem takeChunk_does (normal : Normalizer) (hsub : k.subscribed = true) (hk : k.client = some c)
    (chunk : Bytes) :
    ∃ history, (∀ m ∈ history, m.Quiet) ∧
      (takeChunk normal k chunk).1.client = some (c.after history) ∧
      (takeChunk normal k chunk).1.subscribed = true ∧
      events (takeChunk normal k chunk).2 = events (c.effects history) := by
  unfold takeChunk
  split
  · exact ⟨[], by simp, hk, hsub, rfl⟩
  dsimp only
  split
  · exact ⟨[], by simp, hk, hsub, events_map_log _⟩
  · rw [hk]
    refine ⟨((k.inlet.frames.push chunk).messages.map .receive).map (Moment.mk normal), ?_, ?_, hsub, ?_⟩
    · simp [Moment.Quiet]
    · dsimp only [handOn]
      rw [Client.run_eq]
    · dsimp only [handOn]
      rw [Client.run_eq, events_append, events_map_log, List.nil_append]

theorem takeChunks_does (normal : Normalizer) (hsub : k.subscribed = true) (hk : k.client = some c)
    (chunks : List Bytes) :
    ∃ history, (∀ m ∈ history, m.Quiet) ∧
      (takeChunks normal k chunks).1.client = some (c.after history) ∧
      (takeChunks normal k chunks).1.subscribed = true ∧
      events (takeChunks normal k chunks).2 = events (c.effects history) := by
  induction chunks generalizing k c with
  | nil => exact ⟨[], by simp, hk, hsub, rfl⟩
  | cons chunk rest ih =>
      obtain ⟨first, hfirst, hclient, hsub', hevents⟩ := takeChunk_does normal hsub hk chunk
      obtain ⟨later, hlater, hclient', hsub'', hevents'⟩ := ih hsub' hclient
      refine ⟨first ++ later, ?_, ?_, hsub'', ?_⟩
      · exact List.forall_mem_append.mpr ⟨hfirst, hlater⟩
      · rw [Client.after_append]
        exact hclient'
      · rw [Client.effects_append, events_append, ← hevents, ← hevents', ← events_append]
        rfl

theorem arrive_does (normal : Normalizer) (hsub : k.subscribed = true) (hk : k.client = some c)
    (bytes : Bytes) :
    ∃ history, (∀ m ∈ history, m.Quiet) ∧
      (k.arrive normal bytes).1.Does (k.arrive normal bytes).2 c history := by
  unfold arrive
  split
  · exact ⟨[], by simp, hk, hsub, rfl⟩
  split
  · obtain ⟨history, hquiet, hclient, hsub', hevents⟩ :=
      takeChunks_does normal hsub hk (chunks bytes)
    obtain ⟨tail, htail, hdoes⟩ := settle_does normal hsub' hclient hevents
    refine ⟨history ++ tail, List.forall_mem_append.mpr ⟨hquiet, fun m hm => ?_⟩, hdoes⟩
    exact Moment.quiet_of_writerEnded (htail m hm)
  · exact ⟨[], by simp, hk, hsub, rfl⟩

theorem eof_does (hsub : k.subscribed = true) (hk : k.client = some c) :
    k.eof.1.Does k.eof.2 c [] :=
  ⟨hk, hsub, heard_map_log _⟩

end Connection

end LanguageClient
