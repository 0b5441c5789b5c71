import LanguageClient.Proofs.Client.Connection
import LanguageClient.Proofs.Client.Link
import LanguageClient.Server.Incarnation

/-!
# What is heard of one process

The subscriber hears of a process in one chapter (`Chapter`): that its session has started, perhaps
that it runs, perhaps that it shuts down, and at last, perhaps, that it is absent. What is done with the
client of a process is a history (`Incarnation.Becomes`), and a history goes on with the chapter as long
as it neither begins the session nor gives the connection up (`Chapter.quiet_after`). The handshake
opens the chapter and the loss of the connection closes it.
-/

namespace LanguageClient

open Document

/-- What is heard of a process, and the state in which that leaves its client. The mark tells whether
the handshake was asked for. -/
inductive Chapter : Bool → SessionState → List SessionState → Prop
  | unheard : Chapter false .absent []
  | started : Chapter true .started [.started]
  | running : Chapter true .running [.started, .running]
  | shutdown : Chapter true .shutdown [.started, .running, .shutdown]
  | closed {s block} : Chapter true s block → s ≠ .absent → Chapter true .absent (block ++ [.absent])

namespace Chapter

variable {greeted : Bool} {s : SessionState} {block : List SessionState}

theorem last (h : Chapter greeted s block) : s = block.getLastD .absent := by
  cases h with
  | closed _ _ => simp
  | _ => rfl

theorem ungreeted (h : Chapter false s block) : s = .absent ∧ block = [] := by
  cases h with
  | unheard => exact ⟨rfl, rfl⟩

theorem absent_not_mem (h : Chapter greeted s block) (hs : s ≠ .absent) : .absent ∉ block := by
  cases h with
  | unheard => exact absurd rfl hs
  | closed _ _ => exact absurd rfl hs
  | _ => decide

theorem ends (h : Chapter true .absent block) : block.getLast? = some .absent := by
  cases h with
  | closed _ _ => simp

theorem final (h : Chapter greeted .absent block) {more : List SessionState}
    (h' : Chapter greeted .absent (block ++ more)) : more = [] := by
  cases greeted with
  | false => exact (List.append_eq_nil_iff.mp h'.ungreeted.2).2
  | true =>
      have hmem : SessionState.absent ∈ block := List.mem_of_getLast? h.ends
      rcases List.eq_nil_or_concat more with rfl | ⟨front, s, rfl⟩
      · rfl
      · -- everything before the last word comes from an open chapter
        rw [List.concat_eq_append, ← List.append_assoc] at h'
        generalize hall : block ++ front ++ [s] = all at h'
        cases h' with
        | closed hopen hlive =>
            have hfront := (List.append_inj' hall rfl).1
            refine absurd ?_ (hopen.absent_not_mem hlive)
            rw [← hfront]
            exact List.mem_append_left _ hmem

theorem shape (h : Chapter true s block) :
    ∃ k ended, 1 ≤ k ∧ k ≤ 3 ∧ (ended = true ↔ s = .absent) ∧
      block = [.started, .running, .shutdown].take k ++ if ended then [.absent] else [] := by
  have hopen : ∀ {s block}, Chapter true s block → s ≠ .absent →
      ∃ k, 1 ≤ k ∧ k ≤ 3 ∧ block = [.started, .running, .shutdown].take k := by
    intro s block h hs
    cases h with
    | started => exact ⟨1, by decide, by decide, rfl⟩
    | running => exact ⟨2, by decide, by decide, rfl⟩
    | shutdown => exact ⟨3, by decide, by decide, rfl⟩
    | closed _ _ => exact absurd rfl hs
  by_cases hs : s = .absent
  · cases h with
    | closed hblock hlive =>
        obtain ⟨k, hmin, hmax, rfl⟩ := hopen hblock hlive
        exact ⟨k, true, hmin, hmax, by simp, rfl⟩
    | _ => exact absurd hs (by decide)
  · obtain ⟨k, hmin, hmax, rfl⟩ := hopen h hs
    exact ⟨k, false, hmin, hmax, by simp [hs], by simp⟩

end Chapter

namespace Client

variable {normal : Normalizer} {c d : Client} {a : Action} {v : Answer} {es : List Effect}

/-- Without the handshake and the loss of the connection a session changes in two ways only. -/
theorem Transition.quiet_change (t : Transition normal c a v d es) (hbegun : a ≠ .handshake)
    (hkept : a ≠ .connectionLost) (hne : c.state ≠ d.state) :
    c.state = .started ∧ d.state = .running ∨ c.state = .running ∧ d.state = .shutdown := by
  cases t with
  | handshakeSent _ _ => exact absurd rfl hbegun
  | handshakeRefused _ _ => exact absurd rfl hbegun
  | connectionLost => exact absurd rfl hkept
  | opened _ _ _ hstarted => exact .inl ⟨hstarted, rfl⟩
  | shutdown hrunning => exact .inr ⟨hrunning, rfl⟩
  | writerEnded => exact absurd (writerEnded_state c).symm hne
  | _ => exact absurd rfl hne

/-- The handshake of an absent session counts as its start, whether it could be sent or not. -/
theorem Transition.begins (t : Transition normal c .handshake v d es) (habsent : c.state = .absent) :
    d.state = .started := by
  cases t with
  | handshakeIgnored hbegun => exact absurd habsent hbegun
  | handshakeSent _ _ => rfl
  | handshakeRefused _ _ => rfl

theorem Transition.loses_state (t : Transition normal c .connectionLost v d es) :
    d.state = .absent := by
  cases t with
  | connectionLost => rfl

theorem Transition.loses_quietly (t : Transition normal c .connectionLost v d es)
    (habsent : c.state = .absent) : events es = [] := by
  cases t with
  | connectionLost =>
      rw [if_pos habsent, List.append_nil]
      refine List.filterMap_eq_nil_iff.mpr fun e he => ?_
      obtain ⟨h, rfl⟩ := mem_abandonAll he
      rfl

theorem Transition.quiet_absent (t : Transition normal c a v d es) (hbegun : a ≠ .handshake)
    (hkept : a ≠ .connectionLost) : d.state = .absent ↔ c.state = .absent := by
  by_cases hsame : c.state = d.state
  · rw [hsame]
  · rcases t.quiet_change hbegun hkept hsame with ⟨hc, hd⟩ | ⟨hc, hd⟩ <;> simp [hc, hd]

theorem Transition.silent (t : Transition normal c a v d es) (hc : c.state = .absent)
    (hd : d.state = .absent) : LanguageClient.announced es = [] := by
  rw [t.announced, if_pos (hc.trans hd.symm)]

theorem quiet_after_absent {history : List Moment} (hquiet : ∀ m ∈ history, m.Quiet) :
    (c.after history).state = .absent ↔ c.state = .absent := by
  induction history generalizing c with
  | nil => rfl
  | cons m rest ih =>
      obtain ⟨hm, hrest⟩ := List.forall_mem_cons.mp hquiet
      exact (ih hrest).trans ((c.turn_transition m).quiet_absent hm.1 hm.2)

theorem quiet_silent (habsent : c.state = .absent) {history : List Moment}
    (hquiet : ∀ m ∈ history, m.Quiet) : announced (c.effects history) = [] := by
  induction history generalizing c with
  | nil => rfl
  | cons m rest ih =>
      obtain ⟨hm, hrest⟩ := List.forall_mem_cons.mp hquiet
      have t := c.turn_transition m
      have hstill := (t.quiet_absent hm.1 hm.2).mpr habsent
      have hnone := t.silent habsent hstill
      rw [announced_visible] at hnone
      rw [effects_cons, announced_append, hnone, ih hstill hrest, List.append_nil]

theorem writerEnded_tail {tail : List Moment} (htail : ∀ m ∈ tail, m.action = .writerEnded) :
    (c.after tail).state = c.state ∧ c.effects tail = [] := by
  induction tail generalizing c with
  | nil => exact ⟨rfl, rfl⟩
  | cons m rest ih =>
      obtain ⟨hm, hrest⟩ := List.forall_mem_cons.mp htail
      obtain ⟨normal, a⟩ := m
      obtain rfl : a = .writerEnded := hm
      obtain ⟨hstate, hnone⟩ := ih (c := c.writerEnded) hrest
      exact ⟨hstate.trans (writerEnded_state c), hnone⟩

end Client

namespace Chapter

variable {normal : Normalizer} {c d : Client} {v : Answer} {es : List Effect} {greeted : Bool}
  {block : List SessionState}

theorem quiet {a : Action} (h : Chapter greeted c.state block)
    (t : Client.Transition normal c a v d es) (hbegun : a ≠ .handshake)
    (hkept : a ≠ .connectionLost) : Chapter greeted d.state (block ++ announced es) := by
  rw [t.announced]
  by_cases hsame : c.state = d.state
  · rw [if_pos hsame, List.append_nil, ← hsame]
    exact h
  rw [if_neg hsame]
  rcases t.quiet_change hbegun hkept hsame with ⟨hc, hd⟩ | ⟨hc, hd⟩
  · rw [hc] at h
    rw [hd]
    cases h with
    | started => exact .running
  · rw [hc] at h
    rw [hd]
    cases h with
    | running => exact .shutdown

theorem quiet_after (h : Chapter greeted c.state block) {history : List Moment}
    (hquiet : ∀ m ∈ history, m.Quiet) :
    Chapter greeted (c.after history).state (block ++ announced (c.effects history)) := by
  induction history generalizing c block with
  | nil =>
      rw [Client.effects_nil, announced_nil, List.append_nil]
      exact h
  | cons m rest ih =>
      obtain ⟨hm, hrest⟩ := List.forall_mem_cons.mp hquiet
      have hstep := h.quiet (c.turn_transition m) hm.1 hm.2
      rw [announced_visible] at hstep
      rw [Client.effects_cons, announced_append, ← List.append_assoc]
      exact ih hstep hrest

theorem opens (h : Chapter false c.state block)
    (t : Client.Transition normal c .handshake v d es) :
    Chapter true d.state (block ++ announced es) := by
  obtain ⟨habsent, rfl⟩ := h.ungreeted
  rw [t.announced, habsent, t.begins habsent]
  exact .started

/-- The loss of the connection closes it, unless it is closed or was never opened. -/
theorem closes (h : Chapter greeted c.state block)
    (t : Client.Transition normal c .connectionLost v d es) :
    Chapter greeted .absent (block ++ announced es) := by
  rw [t.announced, t.loses_state]
  by_cases hs : c.state = .absent
  · rw [if_pos hs, List.append_nil, ← hs]
    exact h
  · rw [if_neg hs]
    cases greeted with
    | false => exact absurd h.ungreeted.1 hs
    | true => exact .closed h hs

end Chapter

namespace Server.Incarnation

/-- The process has a client, and its subscriber listens. -/
structure Holds (i : Incarnation) (c : Client) : Prop where
  client : i.connection.client = some c
  subscribed : i.connection.subscribed = true

theorem Holds.state {i : Incarnation} {c : Client} (h : i.Holds c) : i.state = c.state := by
  unfold Incarnation.state
  rw [h.client]

/-- What was done with a process: its client, `c` before, went through a history, and the events of
that history were observed. -/
structure Becomes (i j : Incarnation) (c : Client) (history : List Moment) : Prop where
  holds : j.Holds (c.after history)
  seen : heard j.seen = heard i.seen ++ events (c.effects history)

theorem heard_kept (seen : List Observation) : heard (kept seen) = heard seen := by
  unfold heard kept
  rw [List.filterMap_filter]
  congr 1
  funext o
  cases o <;> rfl

variable {i : Incarnation} {c : Client}

theorem note_becomes {k : Connection} {seen : List Observation} {history : List Moment}
    (h : k.Does seen c history) : i.Becomes (i.note k seen).1 c history where
  holds := ⟨h.client, h.subscribed⟩
  seen := by
    unfold note
    rw [heard_append, heard_kept, h.heard]

theorem Becomes.trans {j k : Incarnation} {first second : List Moment} (h : i.Becomes j c first)
    (h' : j.Becomes k (c.after first) second) : i.Becomes k c (first ++ second) where
  holds := by
    rw [Client.after_append]
    exact h'.holds
  seen := by rw [h'.seen, h.seen, Client.effects_append, events_append, List.append_assoc]

theorem perform_becomes (h : i.Holds c) (a : Action) :
    ∃ tail, (∀ m ∈ tail, m.action = .writerEnded) ∧
      i.Becomes (i.perform a).1 c (⟨i.normal, a⟩ :: tail) := by
  obtain ⟨tail, htail, hdoes⟩ := Connection.act_does i.normal h.subscribed h.client a
  exact ⟨tail, htail, note_becomes hdoes⟩

theorem use_becomes (h : i.Holds c) (traffic : Traffic) :
    ∃ history, (∀ m ∈ history, m.Quiet) ∧ i.Becomes (i.use traffic).1 c history := by
  let k := { i.connection with outlet := { i.connection.outlet with refusesWrites := traffic.deaf } }
  obtain ⟨history, hquiet, hdoes⟩ :=
    Connection.arrive_does (k := k) i.normal h.subscribed h.client traffic.arrived
  let j := (i.note (k.arrive i.normal traffic.arrived).1 (k.arrive i.normal traffic.arrived).2).1
  have hfirst : i.Becomes j c history := note_becomes hdoes
  let close := if traffic.ends then j.connection.eof else (j.connection, [])
  have hclose : close.1.Does close.2 (c.after history) [] := by
    unfold close
    split
    · exact Connection.eof_does hfirst.holds.subscribed hfirst.holds.client
    · exact ⟨hfirst.holds.client, hfirst.holds.subscribed, rfl⟩
  have hboth := hfirst.trans (note_becomes hclose)
  rw [List.append_nil] at hboth
  -- what is left to do concerns the bytes on their way alone
  exact ⟨history, hquiet, ⟨hboth.holds.client, hboth.holds.subscribed⟩, hboth.seen⟩

/-! ## Going on with a chapter -/

/-- The states that were observed and are not yet taken. -/
def news (i : Incarnation) : List SessionState := (heard i.seen).filterMap SessionEvent.state?

/-- The chapter of a process goes on, and an absent session stays absent without a word. -/
structure Continues (i j : Incarnation) : Prop where
  held : ∃ c, j.Holds c
  chapter : ∀ {greeted block}, Chapter greeted i.state block →
    Chapter greeted j.state (block ++ j.news)
  silent : i.state = .absent → j.state = .absent ∧ j.news = []

theorem Becomes.news_eq {j : Incarnation} {history : List Moment} (h : i.Becomes j c history)
    (hnone : i.seen = []) : j.news = announced (c.effects history) := by
  unfold news
  rw [h.seen, hnone, ← filterMap_events]
  rfl

theorem Becomes.continues {j : Incarnation} {history : List Moment} (h : i.Becomes j c history)
    (hc : i.Holds c) (hnone : i.seen = []) (hquiet : ∀ m ∈ history, m.Quiet) :
    i.Continues j ∧ (j.state = .absent → i.state = .absent) := by
  have habsent := Client.quiet_after_absent (c := c) hquiet
  rw [← h.holds.state, ← hc.state] at habsent
  refine ⟨⟨⟨_, h.holds⟩, fun hchapter => ?_, fun hi => ⟨habsent.mpr hi, ?_⟩⟩, habsent.mp⟩
  · rw [h.news_eq hnone, h.holds.state]
    rw [hc.state] at hchapter
    exact hchapter.quiet_after hquiet
  · rw [h.news_eq hnone]
    exact Client.quiet_silent (hc.state.symm.trans hi) hquiet

theorem perform_continues (h : i.Holds c) (hnone : i.seen = []) {a : Action} (hbegun : a ≠ .handshake)
    (hkept : a ≠ .connectionLost) :
    i.Continues (i.perform a).1 ∧ ((i.perform a).1.state = .absent → i.state = .absent) := by
  obtain ⟨tail, htail, hbecomes⟩ := perform_becomes h a
  refine hbecomes.continues h hnone (List.forall_mem_cons.mpr ⟨⟨hbegun, hkept⟩, fun m hm => ?_⟩)
  exact Moment.quiet_of_writerEnded (htail m hm)

theorem use_continues (h : i.Holds c) (hnone : i.seen = []) (traffic : Traffic) :
    i.Continues (i.use traffic).1 ∧ ((i.use traffic).1.state = .absent → i.state = .absent) := by
  obtain ⟨history, hquiet, hbecomes⟩ := use_becomes h traffic
  exact hbecomes.continues h hnone hquiet

/-- The loss of the connection ends the chapter; of an absent session nothing at all is heard. -/
theorem lost_continues (h : i.Holds c) (hnone : i.seen = []) :
    i.Continues (i.perform .connectionLost).1 ∧ (i.perform .connectionLost).1.state = .absent ∧
      (i.state = .absent → heard (i.perform .connectionLost).1.seen = []) := by
  obtain ⟨tail, htail, hbecomes⟩ := perform_becomes h .connectionLost
  have t := c.turn_transition ⟨i.normal, .connectionLost⟩
  obtain ⟨hsame, hnothing⟩ :=
    (c.turn ⟨i.normal, .connectionLost⟩).client.writerEnded_tail htail
  generalize (i.perform .connectionLost).1 = j at hbecomes ⊢
  have hstate : j.state = .absent := (hbecomes.holds.state.trans hsame).trans t.loses_state
  have hheard : heard j.seen = events (c.turn ⟨i.normal, .connectionLost⟩).effects := by
    rw [hbecomes.seen, hnone, Client.effects_cons, hnothing, List.append_nil]
    rfl
  have hnews : j.news = announced (c.turn ⟨i.normal, .connectionLost⟩).effects := by
    rw [news, hheard, filterMap_events]
  refine ⟨⟨⟨_, hbecomes.holds⟩, fun hchapter => ?_, fun hi => ⟨hstate, ?_⟩⟩, hstate, fun hi => ?_⟩
  · rw [h.state] at hchapter
    have hclosed := hchapter.closes t
    rw [announced_visible] at hclosed
    rw [hstate, hnews]
    exact hclosed
  · have hsilent := t.silent (h.state.symm.trans hi) t.loses_state
    rw [announced_visible] at hsilent
    rw [hnews, hsilent]
  · rw [hheard, ← events_visible]
    exact t.loses_quietly (h.state.symm.trans hi)

theorem report_silent (h : i.Holds c) (hnone : i.seen = []) (habsent : i.state = .absent) :
    heard i.report.1.seen = [] := by
  unfold report
  split
  · exact (lost_continues h hnone).2.2 habsent
  · rw [hnone]
    rfl

theorem handshake_opens (h : i.Holds c) (hnone : i.seen = []) {block : List SessionState}
    (hchapter : Chapter false i.state block) :
    (∃ d, i.handshake.1.Holds d) ∧ i.handshake.1.state ≠ .absent ∧
      Chapter true i.handshake.1.state (block ++ i.handshake.1.news) := by
  obtain ⟨tail, htail, hbecomes⟩ := perform_becomes h .handshake
  have t := c.turn_transition ⟨i.normal, .handshake⟩
  obtain ⟨hsame, hnothing⟩ := (c.turn ⟨i.normal, .handshake⟩).client.writerEnded_tail htail
  change i.Becomes i.handshake.1 c _ at hbecomes
  generalize i.handshake.1 = j at hbecomes ⊢
  have hstate : j.state = (c.turn ⟨i.normal, .handshake⟩).client.state :=
    hbecomes.holds.state.trans hsame
  rw [h.state] at hchapter
  have hopened := hchapter.opens t
  rw [announced_visible, ← hstate] at hopened
  refine ⟨⟨_, hbecomes.holds⟩, ?_, ?_⟩
  · rw [hstate, t.begins (h.state ▸ hchapter.ungreeted.1)]
    decide
  · rw [hbecomes.news_eq hnone, Client.effects_cons, hnothing, List.append_nil]
    exact hopened

end Server.Incarnation

end LanguageClient
