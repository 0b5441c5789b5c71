import LanguageClient.Proofs.Client.Handshake
import Mathlib.Data.List.Destutter

/-!
# The life of a session and what its subscriber hears

A step announces the state that it leads to, if that is another one, and nothing else
(`Step.announced`). So the announcements of a history are the sequence of its states without
repetitions, and each is one of the allowed changes (`SessionState.Change`). The only way into the
running state is the reply to the handshake: it is taken while the handshake is pending, and when the
reader goes on with it the session is in the handshake's state, still or again (`Completes`). The same
reply is all that sets the capabilities, and since it spends the handshake it comes at most once
(`session_states`). Whether it reports an error makes no difference (`running_despite_error`).
-/

namespace LanguageClient

open Rpc Document Client

/-- How a session may go on. -/
inductive SessionState.Change : SessionState → SessionState → Prop
  | starts : Change .absent .started
  | runs : Change .started .running
  | ends : Change .running .shutdown
  | vanishes {s} : Change s .absent

/-- The state that an effect announces. -/
def Effect.announces? : Effect → Option SessionState
  | .event (.state s) => some s
  | _ => none

/-- The states that are announced to the subscriber, in order. -/
def announced (es : List Effect) : List SessionState := es.filterMap Effect.announces?

@[simp] theorem announced_nil : announced [] = [] := rfl

@[simp] theorem announced_append (es fs : List Effect) :
    announced (es ++ fs) = announced es ++ announced fs := List.filterMap_append

@[simp] theorem announced_visible (es : List Effect) : announced (visible es) = announced es :=
  filterMap_visible (fun _ => rfl) es

@[simp] theorem announced_state (s : SessionState) (es : List Effect) :
    announced (.event (.state s) :: es) = s :: announced es := rfl

@[simp] theorem announced_applyEdit (id : RequestId) (edit : ApplyEdit) (es : List Effect) :
    announced (.event (.applyEdit id edit) :: es) = announced es := rfl

@[simp] theorem announced_queue (m : Outbound) (es : List Effect) :
    announced (.queue m :: es) = announced es := rfl

@[simp] theorem announced_discard (h : Handler) (es : List Effect) :
    announced (.discard h :: es) = announced es := rfl

namespace Client

@[simp] theorem announced_outgoing (c : Client) (m : Outbound) : announced (c.outgoing m) = [] := by
  unfold outgoing
  split <;> rfl

@[simp] theorem announced_abandon (k : Continuation) : announced k.abandon = [] := by
  cases k <;> rfl

@[simp] theorem announced_abandonAll (c : Client) : announced c.abandonAll = [] := by
  unfold abandonAll
  induction c.pending with
  | nil => rfl
  | cons p rest ih => rw [List.flatMap_cons, announced_append, announced_abandon, ih, List.nil_append]

@[simp] theorem announced_delivery (c : Client) (normal : Normalizer) (h : Handler)
    (result : Json) : announced [c.delivery normal h result] = [] := by
  unfold delivery
  split <;> rfl

@[simp] theorem announced_notificationEffects (normal : Normalizer) (method : String)
    (params : Json) : announced (notificationEffects normal method params) = [] := by
  rw [← announced_visible]
  rcases visible_notificationEffects normal method params with h | ⟨_, h⟩ | ⟨_, h⟩ <;> rw [h] <;> rfl

/-! ## Steps -/

variable {normal : Normalizer} {c d : Client} {a : Action} {v : Answer} {es : List Effect}

theorem Transition.announced (t : Transition normal c a v d es) :
    announced es = if c.state = d.state then [] else [d.state] := by
  cases t with
  | handshakeSent habsent _ => simp [habsent]
  | handshakeRefused habsent _ => simp [habsent]
  | shutdown hrunning => simp [hrunning]
  | connectionLost => by_cases habsent : c.state = .absent <;> simp [habsent]
  | opened _ _ _ hstarted => simp [hstarted, established]
  | _ => simp [Client.forget, Client.release]

theorem Transition.change (t : Transition normal c a v d es) (hne : c.state ≠ d.state) :
    SessionState.Change c.state d.state := by
  cases t with
  | handshakeSent habsent _ => exact habsent ▸ .starts
  | handshakeRefused habsent _ => exact habsent ▸ .starts
  | shutdown hrunning => exact hrunning ▸ .ends
  | connectionLost => exact .vanishes
  | opened _ _ _ hstarted => exact hstarted ▸ .runs
  | writerEnded => exact absurd (writerEnded_state c).symm hne
  | _ => exact absurd rfl hne

theorem Establishes.turn {m : Moment} {message : Json} (h : c.Establishes m.action message)
    (hc : c.Sound) : (c.turn m).client = (c.forget 1).established (message.get "result") := by
  unfold Client.turn
  rw [h.action]
  exact h.awaits.established hc h.carries

/-- The session comes to run by the awaited reply and in no other way. -/
theorem Sound.runs_iff (hc : c.Sound) (m : Moment) :
    c.state ≠ .running ∧ (c.turn m).client.state = .running ↔
      ∃ message, c.Establishes m.action message := by
  constructor
  · rintro ⟨hnot, hruns⟩
    rcases (c.turn_transition m).establishes hc.toCoherent with hreply | ⟨-, hkept⟩
    · exact hreply
    · exact absurd (hkept hruns) hnot
  · rintro ⟨message, hreply⟩
    refine ⟨?_, ?_⟩
    · rw [hreply.awaits.started]
      decide
    · rw [hreply.turn hc]
      rfl

theorem Finishing.announces {left : Option Remainder} (f : Finishing normal c left d es) :
    announced es = if c.state = d.state then [] else [d.state] := by
  cases f with
  | handled _ => simp
  | opened _ hs => simp [hs, established]
  | _ => simp

theorem Finishing.change {left : Option Remainder} (f : Finishing normal c left d es)
    (hne : c.state ≠ d.state) : SessionState.Change c.state d.state := by
  cases f with
  | opened _ hs => exact hs ▸ .runs
  | _ => exact absurd rfl hne

theorem Taking.announces {message : Json} {left : Option Remainder}
    (k : Taking normal c message d left es) : announced es = [] := by
  cases k <;> simp

end Client

namespace Shared

variable {normal : Normalizer} {s t : Shared} {d : Deed} {v : Answer} {es : List Effect}

theorem Step.announced (h : Step normal s d v t es) :
    announced es = if s.client.state = t.client.state then [] else [t.client.state] := by
  cases h with
  | called _ h => exact h.announced
  | took f k => rw [announced_append, f.announces, k.announces, List.append_nil, k.state_eq]
  | finished f => exact f.announces
  | severIgnored _ => simp
  | severed hrunning _ _ => simp [hrunning]

theorem Step.change (h : Step normal s d v t es) (hne : s.client.state ≠ t.client.state) :
    SessionState.Change s.client.state t.client.state := by
  cases h with
  | called _ h => exact h.change hne
  | took f k =>
      rw [k.state_eq] at hne ⊢
      exact f.change hne
  | finished f => exact f.change hne
  | severIgnored _ => exact absurd rfl hne
  | severed hrunning _ _ => exact hrunning ▸ .ends

/-- The session comes to run by the reply to the handshake and in no other way. -/
theorem Sound.runs_iff (hs : s.Sound) (m : Moment) :
    s.client.state ≠ .running ∧ (s.turn m).next.client.state = .running ↔
      ∃ result, s.Completes m.deed result := by
  constructor
  · rintro ⟨hnot, hruns⟩
    refine Classical.byContradiction fun hnone => ?_
    exact hnot (((s.turn_step m).kept hs (not_exists.mp hnone)).2.1 hruns)
  · rintro ⟨result, hd⟩
    refine ⟨?_, ((s.turn_step m).completes hs hd).1⟩
    rw [hd.started]
    decide

/-! ## Histories -/

/-- All states of a history, after each of its moments. -/
def trail (s : Shared) : List Moment → List SessionState
  | [] => []
  | m :: rest => (s.turn m).next.client.state :: (s.turn m).next.trail rest

/-- The reply to the handshake was taken with this result while the session awaited it, and nobody
read on since. -/
def Answered (s : Shared) (history : List Moment) (result : Json) : Prop :=
  ∃ before m rest message, history = before ++ m :: rest ∧ (s.after before).client.Awaits ∧
    m.deed = .act (.receive message) ∧ Carries 1 message ∧ result = message.get "result" ∧
    ∀ x ∈ rest, ¬ x.deed.ReadsOn

/-- The history completes the handshake with this result. -/
def Completed (s : Shared) (history : List Moment) (result : Json) : Prop :=
  ∃ before m rest, history = before ++ m :: rest ∧ (s.after before).Completes m.deed result

theorem turn_announced (s : Shared) (m : Moment) :
    announced (s.turn m).effects =
      if s.client.state = (s.turn m).next.client.state then [] else [(s.turn m).next.client.state] := by
  rw [← announced_visible]
  exact (s.turn_step m).announced

/-- The announcements are the states of a history without repetitions. -/
theorem announced_effects (s : Shared) (history : List Moment) :
    (s.client.state :: s.trail history).destutter (· ≠ ·) =
      s.client.state :: announced (s.effects history) := by
  rw [List.destutter_cons']
  induction history generalizing s with
  | nil => rfl
  | cons m rest ih =>
      rw [trail, effects_cons, announced_append, turn_announced]
      by_cases hsame : s.client.state = (s.turn m).next.client.state
      · rw [List.destutter'_cons_neg _ (not_not_intro hsame), if_pos hsame, hsame]
        exact ih _
      · rw [List.destutter'_cons_pos _ hsame, if_neg hsame, ih]
        rfl

theorem announced_last (s : Shared) (history : List Moment) :
    (s.after history).client.state =
      (announced (s.effects history)).getLastD s.client.state := by
  induction history generalizing s with
  | nil => rfl
  | cons m rest ih =>
      rw [after_cons, ih, effects_cons, announced_append, turn_announced]
      by_cases hsame : s.client.state = (s.turn m).next.client.state
      · rw [if_pos hsame, List.nil_append, hsame]
      · rw [if_neg hsame, List.singleton_append, List.getLastD_cons]

theorem announced_chain (s : Shared) (history : List Moment) :
    (s.client.state :: announced (s.effects history)).IsChain fun a b => a ≠ b ∧ a.Change b := by
  induction history generalizing s with
  | nil => exact List.isChain_singleton _
  | cons m rest ih =>
      have hrest := ih (s.turn m).next
      rw [effects_cons, announced_append, turn_announced]
      by_cases hsame : s.client.state = (s.turn m).next.client.state
      · rw [if_pos hsame, List.nil_append, hsame]
        exact hrest
      · rw [if_neg hsame, List.singleton_append]
        exact List.isChain_cons_cons.mpr ⟨⟨hsame, (s.turn_step m).change hsame⟩, hrest⟩

/-- A reply to the handshake that is under way was taken when the session awaited it. -/
theorem Sound.answered (hs : s.Sound) (hnone : s.left = none) {history : List Moment} {result : Json}
    (hleft : (s.after history).left = some (.resume ⟨1, .handshake, .handshake⟩ result)) :
    s.Answered history result := by
  induction history using List.reverseRecOn with
  | nil => exact absurd (hnone.symm.trans hleft) nofun
  | append_singleton history m ih =>
      have hafter := hs.after history
      rw [after_concat, ((s.after history).turn_step m).left_iff hafter] at hleft
      rcases hleft with ⟨hm, hleft⟩ | ⟨message, hm, hcarries, hmem, hresult⟩
      · obtain ⟨before, m', rest, message, rfl, h1, h2, h3, h4, hrest⟩ := ih hleft
        refine ⟨before, m', rest ++ [m], message, by simp, h1, h2, h3, h4, fun x hx => ?_⟩
        rcases List.mem_append.mp hx with hx | hx
        · exact hrest x hx
        · rwa [List.mem_singleton.mp hx]
      · have hstarted := (hafter.coherent.handshake_pending hmem rfl).1
        exact ⟨history, m, [], message, rfl, ⟨hstarted, hmem⟩, hm, hcarries, hresult, nofun⟩

theorem Sound.left_of_answered (hs : s.Sound) {history : List Moment} {result : Json}
    (h : s.Answered history result) :
    (s.after history).left = some (.resume ⟨1, .handshake, .handshake⟩ result) := by
  obtain ⟨before, m, rest, message, rfl, hawaits, hm, hcarries, hresult, hrest⟩ := h
  have hbefore := hs.after before
  have hstep := (s.after before).turn_step m
  have hused := Nat.le_trans (hbefore.coherent.used _ hawaits.pending) hstep.lastId_le
  rw [after_append, after_cons, (hbefore.turn m).left_after hused]
  have htaken := (hstep.left_iff hbefore result).mpr
    (.inr ⟨message, hm, hcarries, hawaits.pending, hresult⟩)
  exact .inl ⟨htaken, hrest⟩

theorem Sound.capabilities_uncompleted (hs : s.Sound) {history : List Moment}
    (hnone : ∀ result, ¬ s.Completed history result) :
    (s.after history).client.capabilities = s.client.capabilities := by
  induction history generalizing s with
  | nil => rfl
  | cons m rest ih =>
      have hrest : ∀ result, ¬ (s.turn m).next.Completed rest result := by
        rintro result ⟨before, m', later, rfl, hd⟩
        exact hnone result ⟨m :: before, m', later, rfl, hd⟩
      rw [after_cons, ih (hs.turn m) hrest]
      exact ((s.turn_step m).kept hs fun result hd => hnone result ⟨[], m, rest, rfl, hd⟩).1

theorem Spent.capabilities_after (h : s.Spent) (hs : s.Sound) (history : List Moment) :
    (s.after history).client.capabilities = s.client.capabilities := by
  induction history generalizing s with
  | nil => rfl
  | cons m rest ih =>
      have hstep := s.turn_step m
      rw [after_cons, ih (h.step hs hstep) (hs.turn m)]
      exact (hstep.kept hs (h.not_completes m.deed)).1

theorem Completed.after (hs : s.Sound) {history : List Moment} {result : Json}
    (h : s.Completed history result) :
    (s.after history).Spent ∧
      (s.after history).client.capabilities = Capabilities.ofJson (result.get "capabilities") := by
  obtain ⟨before, m, rest, rfl, hd⟩ := h
  have hbefore := hs.after before
  have hstep := (s.after before).turn_step m
  have hspent := hstep.spent_of_completes hbefore hd
  rw [after_append, after_cons]
  refine ⟨hspent.after (hbefore.turn m) rest, ?_⟩
  rw [hspent.capabilities_after (hbefore.turn m) rest]
  exact (hstep.completes hbefore hd).2

/-- **The life of a session.** In every history of a client, whatever comes in between a reply's being
taken and its being dealt with, the states announced are its states without repetitions, the last of
them is its state, and each change is an allowed one. The session comes to run exactly when the reader
goes on with the reply to the handshake in the handshake's state, and that reply was taken while the
session awaited it; no other step sets the capabilities. It comes at most once: before it the
capabilities are the default, from then on they are its own. -/
theorem session_states (workspace : Params.Workspace) (processId : Nat) (history : List Moment) :
    let start := fresh workspace processId
    let finish := start.after history
    (start.client.state :: start.trail history).destutter (· ≠ ·) =
      .absent :: announced (start.effects history) ∧
    finish.client.state = (announced (start.effects history)).getLastD .absent ∧
    (.absent :: announced (start.effects history)).IsChain (fun a b => a ≠ b ∧ a.Change b) ∧
    (∀ m, finish.client.state ≠ .running ∧ (finish.turn m).next.client.state = .running ↔
      ∃ result, finish.Completes m.deed result) ∧
    (∀ result, finish.left = some (.resume ⟨1, .handshake, .handshake⟩ result) ↔
      start.Answered history result) ∧
    (∀ m, (∀ result, ¬ finish.Completes m.deed result) →
      (finish.turn m).next.client.capabilities = finish.client.capabilities) ∧
    ((∀ result, ¬ start.Completed history result) → finish.client.capabilities = {}) ∧
    ∀ result, start.Completed history result →
      finish.client.capabilities = Capabilities.ofJson (result.get "capabilities") ∧
        ∀ (m : Moment) result', ¬ finish.Completes m.deed result' := by
  intro start finish
  have hstart : start.Sound := sound_fresh workspace processId
  have hfinish : finish.Sound := hstart.after history
  refine ⟨announced_effects start history, announced_last start history,
    announced_chain start history, hfinish.runs_iff,
    fun result => ⟨hstart.answered rfl, hstart.left_of_answered⟩,
    fun m hnone => ((finish.turn_step m).kept hfinish hnone).1,
    hstart.capabilities_uncompleted, fun result h => ?_⟩
  obtain ⟨hspent, hcapabilities⟩ := h.after hstart
  exact ⟨hcapabilities, fun m => hspent.not_completes m.deed⟩

/-- A reply that was taken survives the loss of the connection: the session that was begun anew in
between comes to run by it, and sends nothing any more. -/
example :
    let reply : Json := .mkObj [("id", RequestId.wire 1), ("result", .null)]
    let history : List Moment := [⟨some, .act .handshake⟩, ⟨some, .act (.receive reply)⟩,
      ⟨some, .act .connectionLost⟩, ⟨some, .act .handshake⟩, ⟨some, .finish⟩]
    let start := fresh ⟨"/work", "file:///work", .null, false⟩ 0
    announced (start.effects history) = [.started, .absent, .started, .running] ∧
      (start.after history).client.link = .lost := ⟨rfl, rfl⟩

end Shared

namespace Client

variable {normal : Normalizer} {c d : Client} {a : Action} {v : Answer} {es : List Effect}

/-! ## Replies that report an error -/

theorem visible_completeHandshake (hstarted : c.state = .started) (result : Json) :
    visible (c.completeHandshake result).effects = c.outgoing .opened ++ [.event (.state .running)] := by
  unfold completeHandshake
  rw [if_neg (not_not_intro hstarted)]
  simp [hstarted, outgoing, Outbound.opened, Outbound.note]

/-- What the awaited reply brings about: the error that it reports is logged, and the handshake is
completed with its result. -/
theorem Awaits.receive_effects (h : c.Awaits) (hc : c.Sound) {message result : Json} {id : RequestId}
    {error : Option ErrorObject} (hclass : Inbound.classify message = some (.reply id result error))
    (hn : Carries 1 message) :
    ∃ before : List LogEvent, (c.receive normal message).effects = before.map .log ++
      failureLog .handshake id error ++ ((c.forget 1).completeHandshake result).effects :=
  (receive_reply normal c hclass hn (hc.pending?_of_mem h.pending)).2

/-- **An error does not keep a session from running.** In every history the session comes to run by a
reply that its handshake awaits, and by every such reply. Of the reply only the result counts, for what
becomes of the client and for what is sent and announced; an error that it reports is logged, and the
handshake is completed all the same. -/
theorem running_despite_error (workspace : Params.Workspace) (processId : Nat)
    (history : List Moment) :
    let c := (fresh workspace processId).after history
    (∀ m : Moment, c.state ≠ .running ∧ (c.turn m).client.state = .running ↔
      c.Awaits ∧ ∃ message, m.action = .receive message ∧ Carries 1 message) ∧
    ∀ (normal : Normalizer) (message : Json), c.Awaits → Carries 1 message →
      let turn := c.turn ⟨normal, .receive message⟩
      turn.client = (c.forget 1).established (message.get "result") ∧
      visible turn.effects = c.outgoing .opened ++ [.event (.state .running)] ∧
      ∀ id result e, Inbound.classify message = some (.reply id result (some e)) →
        failureLog .handshake id (some e) ⊆ turn.effects ∧
          .log (.info .client "Server initialized") ∈ turn.effects := by
  intro c
  have hc : c.Sound := sound_reached workspace processId history
  refine ⟨fun m => ?_, fun normal message hawaits hn => ?_⟩
  · rw [hc.runs_iff]
    constructor
    · rintro ⟨message, hreply⟩
      exact ⟨hreply.awaits, message, hreply.action, hreply.carries⟩
    · rintro ⟨hawaits, message, haction, hn⟩
      exact ⟨message, haction, hn, hawaits⟩
  intro turn
  have hstarted : (c.forget 1).state = .started := hawaits.started
  obtain ⟨id, error, hclass, -⟩ := hn.classify
  obtain ⟨before, heffects⟩ : ∃ before : List LogEvent, turn.effects = before.map Effect.log ++
      failureLog .handshake id error ++
        ((c.forget 1).completeHandshake (message.get "result")).effects :=
    hawaits.receive_effects hc hclass hn
  refine ⟨hawaits.established hc hn, ?_, fun id' result e hclass' => ?_⟩
  · have hlog : visible (failureLog .handshake id error) = [] := by cases error <;> rfl
    rw [heffects, visible_append, visible_append, visible_map_log, hlog]
    exact visible_completeHandshake hstarted _
  · rw [hclass, Option.some.injEq, Inbound.reply.injEq] at hclass'
    obtain ⟨rfl, rfl, rfl⟩ := hclass'
    rw [heffects]
    refine ⟨fun f hf => List.mem_append_left _ (List.mem_append_right _ hf),
      List.mem_append_right _ ?_⟩
    simp [completeHandshake, hstarted]

/-- A handshake that the server refuses with an error makes the session run. -/
theorem refused_handshake_runs :
    let start := fresh ⟨"/work", "file:///work", .null, false⟩ 0
    let c := start.after [⟨some, .handshake⟩]
    let failure : Json := .mkObj [("id", RequestId.wire 1),
      ("error", .mkObj [("code", .num (.int (-32002))), ("message", .str "no workspace")])]
    let turn := c.turn ⟨some, .receive failure⟩
    (∃ id e, Inbound.classify failure = some (.reply id .null (some e)) ∧ e.code = -32002) ∧
      turn.client.state = .running ∧
      visible turn.effects = [.queue .opened, .event (.state .running)] :=
  ⟨⟨_, _, rfl, rfl⟩, rfl, rfl⟩

end Client

end LanguageClient
