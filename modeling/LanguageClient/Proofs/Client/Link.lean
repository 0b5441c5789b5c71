import LanguageClient.Proofs.Client.Lifecycle
import LanguageClient.Proofs.Client.Order
import LanguageClient.Proofs.Client.Window

/-!
# What hangs on the link

The link to the server is cut by the end of the writer and by the loss of the connection, and by
nothing else (`link_up_iff`). Over a link that is cut nothing is queued (`Transition.unqueued`), so a
handshake is refused; its announcement is made all the same (`handshake_refused_iff`). A connection that
is lost stays lost, and with `Sound.lost` that decides all that can still happen (`lost_for_good`).
-/

namespace LanguageClient

open Rpc Document

theorem Moment.not_live_iff {m : Moment} :
    ¬ m.Live ↔ m.action = .connectionLost ∨ m.action = .writerEnded := by
  unfold Moment.Live
  rw [Classical.not_and_iff_not_or_not, Classical.not_not, Classical.not_not]

/-- A history asks for the handshake before anything cuts the link. -/
def AsksInTime (history : List Moment) : Prop :=
  ∃ before m rest, history = before ++ m :: rest ∧ m.action = .handshake ∧ ∀ m' ∈ before, m'.Live

theorem asksInTime_cons {m : Moment} {rest : List Moment} :
    AsksInTime (m :: rest) ↔ m.action = .handshake ∨ m.Live ∧ AsksInTime rest := by
  constructor
  · rintro ⟨before, m', rest', heq, hasks, hlive⟩
    cases before with
    | nil =>
        obtain ⟨rfl, -⟩ := List.cons.inj heq
        exact .inl hasks
    | cons first before =>
        obtain ⟨rfl, rfl⟩ := List.cons.inj heq
        obtain ⟨hfirst, hbefore⟩ := List.forall_mem_cons.mp hlive
        exact .inr ⟨hfirst, before, m', rest', rfl, hasks, hbefore⟩
  · rintro (hasks | ⟨hlive, before, m', rest', rfl, hasks, hbefore⟩)
    · exact ⟨[], m, rest, rfl, hasks, fun _ h => absurd h List.not_mem_nil⟩
    · exact ⟨m :: before, m', rest', rfl, hasks, List.forall_mem_cons.mpr ⟨hlive, hbefore⟩⟩

namespace Client

theorem mem_abandonAll {c : Client} {e : Effect} (h : e ∈ c.abandonAll) : ∃ h', e = .discard h' := by
  obtain ⟨p, -, he⟩ := List.mem_flatMap.mp h
  cases hk : p.continuation with
  | handshake =>
      rw [hk] at he
      exact absurd he List.not_mem_nil
  | handler h' =>
      rw [hk] at he
      exact ⟨h', List.mem_singleton.mp he⟩

section Step

variable {normal : Normalizer} {c d : Client} {a : Action} {v : Answer} {es : List Effect}

/-- Over a link that is cut nothing is queued, answers to the server included. -/
theorem Transition.unqueued (t : Transition normal c a v d es) (hcut : c.link ≠ .up)
    (m : Outbound) : .queue m ∉ es := by
  have habandon : .queue m ∉ c.abandonAll := fun h => by
    obtain ⟨_, h⟩ := mem_abandonAll h
    exact absurd h Effect.noConfusion
  intro hm
  cases t with
  | handshakeSent _ hlink => exact hcut hlink
  | sendAccepted _ hlink => exact hcut hlink
  | notifyAccepted _ hlink => exact hcut hlink
  | responded _ hlink => exact hcut hlink
  | @cancelled id p _ =>
      rw [outgoing_cut hcut, List.append_nil] at hm
      cases hk : p.continuation with
      | handshake => simp [hk, Continuation.abandon] at hm
      | handler _ => simp [hk, Continuation.abandon] at hm
  | shutdown _ =>
      rw [outgoing_cut hcut, outgoing_cut hcut] at hm
      simp [habandon] at hm
  | connectionLost =>
      rcases List.mem_append.mp hm with hm | hm
      · exact habandon hm
      · split at hm <;> simp at hm
  | replied _ _ _ =>
      unfold delivery at hm
      split at hm <;> simp at hm
  | opened _ _ _ _ => simp [outgoing_cut hcut] at hm
  | unsupported _ _ => simp [outgoing_cut hcut] at hm
  | told _ =>
      obtain ⟨_, h⟩ := notificationEffects_event hm
      exact absurd h Effect.noConfusion
  | _ => simp at hm

theorem Transition.uninvoked (t : Transition normal c a v d es) (hidle : c.pending = [])
    (h : Handler) (r : Reply) : .invoke h r ∉ es := by
  have hnone : c.abandonAll = [] := by
    unfold abandonAll
    rw [hidle]
    rfl
  have hunfound : ∀ {n : Nat} {p : Pending}, c.pending? n ≠ some p := by
    intro n p hfound
    have hmem := (pending?_some hfound).1
    rw [hidle] at hmem
    exact absurd hmem List.not_mem_nil
  have houtgoing : ∀ m, .invoke h r ∉ c.outgoing m := by
    intro m hm
    unfold outgoing at hm
    split at hm <;> simp at hm
  intro hinvoked
  cases t with
  | cancelled hfound => exact hunfound hfound
  | replied _ hfound _ => exact hunfound hfound
  | opened _ hfound _ _ => exact hunfound hfound
  | shutdown _ => simp [hnone, houtgoing] at hinvoked
  | connectionLost =>
      rw [hnone, List.nil_append] at hinvoked
      split at hinvoked <;> simp at hinvoked
  | unsupported _ _ => exact houtgoing _ hinvoked
  | told _ =>
      obtain ⟨_, he⟩ := notificationEffects_event hinvoked
      exact absurd he Effect.noConfusion
  | _ => simp at hinvoked

theorem Transition.link_lost (t : Transition normal c a v d es) (hlost : c.link = .lost) :
    d.link = .lost := by
  cases t with
  | connectionLost => rfl
  | writerEnded =>
      unfold Client.writerEnded
      rw [if_neg (by rw [hlost]; decide)]
      exact hlost
  | _ => exact hlost

theorem Transition.cuts (t : Transition normal c a v d es)
    (hends : a = .connectionLost ∨ a = .writerEnded) : d.link ≠ .up := by
  intro hup
  rcases hends with rfl | rfl
  · cases t with
    | connectionLost => exact absurd hup Link.noConfusion
  · cases t with
    | writerEnded =>
        unfold Client.writerEnded at hup
        split at hup
        · exact absurd hup Link.noConfusion
        · rename_i hcut
          exact hcut hup

theorem Transition.stays_absent (t : Transition normal c a v d es) (hc : c.Sound)
    (habsent : c.state = .absent) (hother : a ≠ .handshake) :
    own es = [] ∧ d.state = .absent := by
  have hunfound : ∀ {n : Nat} {p : Pending}, c.pending? n ≠ some p := by
    intro n p hfound
    have hmem := (pending?_some hfound).1
    rw [hc.absent habsent] at hmem
    exact absurd hmem List.not_mem_nil
  have hidle : ∀ {s : SessionState}, s ≠ .absent → c.state ≠ s := fun hs h =>
    hs (h.symm.trans habsent)
  cases t with
  | handshakeIgnored _ => exact absurd rfl hother
  | handshakeSent _ _ => exact absurd rfl hother
  | handshakeRefused _ _ => exact absurd rfl hother
  | sendAccepted hrunning _ => exact absurd hrunning (hidle (by decide))
  | sendRefused hrunning _ => exact absurd hrunning (hidle (by decide))
  | notifyAccepted hrunning _ => exact absurd hrunning (hidle (by decide))
  | shutdown hrunning => exact absurd hrunning (hidle (by decide))
  | cancelled hfound => exact absurd hfound hunfound
  | replied _ hfound _ => exact absurd hfound hunfound
  | opened _ hfound _ _ => exact absurd hfound hunfound
  | openedLate _ hfound _ _ => exact absurd hfound hunfound
  | connectionLost => simp [habsent]
  | writerEnded => exact ⟨rfl, (writerEnded_state c).trans habsent⟩
  | _ => exact ⟨by simp, habsent⟩

theorem Transition.handshake_up (t : Transition normal c .handshake v d es)
    (habsent : c.state = .absent) (hup : c.link = .up) :
    v = .sent (some (c.lastId + 1)) ∧
      es = [.event (.state .started), .queue (.opening (c.lastId + 1) c.processId c.workspace)] := by
  cases t with
  | handshakeIgnored hbegun => exact absurd habsent hbegun
  | handshakeSent _ _ => exact ⟨rfl, rfl⟩
  | handshakeRefused _ hcut => exact absurd hup hcut

/-- If the link is cut it does not, but the session counts as started. -/
theorem Transition.handshake_cut (t : Transition normal c .handshake v d es)
    (habsent : c.state = .absent) (hcut : c.link ≠ .up) :
    v = .sent none ∧ d = { c with state := .started, lastId := c.lastId + 1 } ∧
      es = [.event (.state .started)] := by
  cases t with
  | handshakeIgnored hbegun => exact absurd habsent hbegun
  | handshakeSent _ hup => exact absurd hup hcut
  | handshakeRefused _ _ => exact ⟨rfl, rfl, rfl⟩

theorem Transition.handshake_begun (t : Transition normal c .handshake v d es)
    (hbegun : c.state ≠ .absent) : v = .sent none ∧ d = c ∧ es = [] := by
  cases t with
  | handshakeIgnored _ => exact ⟨rfl, rfl, rfl⟩
  | handshakeSent habsent _ => exact absurd habsent hbegun
  | handshakeRefused habsent _ => exact absurd habsent hbegun

theorem Transition.respond_cut {id : RequestId} {outcome : EditOutcome}
    (t : Transition normal c (.respond id outcome) v d es) (hcut : c.link ≠ .up) :
    v = .responded false := by
  cases t with
  | respondLate _ => rfl
  | responded _ hlink => exact absurd hlink hcut
  | respondRefused _ _ => rfl

end Step

/-! ## Histories -/

theorem cut_after {c : Client} (hcut : c.link ≠ .up) (history : List Moment) :
    (c.after history).link ≠ .up := by
  induction history generalizing c with
  | nil => exact hcut
  | cons m rest ih => exact ih ((c.turn_transition m).cut hcut).2

theorem link_up_iff {c : Client} (hup : c.link = .up) {history : List Moment} :
    (c.after history).link = .up ↔ ∀ m ∈ history, m.Live := by
  refine ⟨fun h m hm => ?_, link_after hup⟩
  refine Classical.byContradiction fun hdead => ?_
  obtain ⟨before, rest, rfl⟩ := List.append_of_mem hm
  rw [after_append, after_cons] at h
  have t := (c.after before).turn_transition m
  exact cut_after (t.cuts (Moment.not_live_iff.mp hdead)) rest h

theorem unqueued_effects {c : Client} (hcut : c.link ≠ .up) (history : List Moment) (m : Outbound) :
    .queue m ∉ c.effects history := by
  induction history generalizing c with
  | nil => exact List.not_mem_nil
  | cons moment rest ih =>
      have t := c.turn_transition moment
      intro hm
      rcases List.mem_append.mp hm with hm | hm
      · exact t.unqueued hcut m ((mem_visible rfl).mpr hm)
      · exact ih (t.cut hcut).2 hm

/-- An absent session sends the handshake exactly if it is asked for before the link is cut. -/
theorem Sound.handshake_sent_iff {c : Client} (hc : c.Sound) (habsent : c.state = .absent)
    (hup : c.link = .up) (history : List Moment) :
    (∃ params, .queue (.call 1 .handshake params) ∈ c.effects history) ↔ AsksInTime history := by
  induction history generalizing c with
  | nil => simp [AsksInTime]
  | cons m rest ih =>
      have t := c.turn_transition m
      rw [asksInTime_cons]
      by_cases hasked : m.action = .handshake
      · refine ⟨fun _ => .inl hasked, fun _ => ?_⟩
        rw [hasked] at t
        have hsent := (t.handshake_up habsent hup).2
        rw [hc.unopened habsent hup] at hsent
        refine ⟨Params.handshake c.processId c.workspace, List.mem_append_left _ ?_⟩
        rw [← mem_visible rfl, hsent]
        exact List.mem_cons_of_mem _ List.mem_cons_self
      -- nothing is sent in this moment, so it is left to the rest, which must find the link up
      obtain ⟨hown, hstill⟩ := t.stays_absent hc habsent hasked
      have hunsent : ∀ params, .queue (.call 1 .handshake params) ∉ (c.turn m).effects := by
        intro params hmem
        have : Outbound.call 1 .handshake params ∈ own (visible (c.turn m).effects) :=
          List.mem_filterMap.mpr ⟨_, (mem_visible rfl).mpr hmem, rfl⟩
        rw [hown] at this
        exact absurd this List.not_mem_nil
      simp only [effects_cons, List.mem_append, hunsent, hasked, false_or]
      by_cases hlive : m.Live
      · rw [ih (hc.turn m) hstill (t.link_up hup hlive.1 hlive.2)]
        simp [hlive]
      · have hcut := t.cuts (Moment.not_live_iff.mp hlive)
        simp [hlive, unqueued_effects hcut]

/-- **A handshake that is refused.** Nothing is sent by a handshake of a session that has begun, and by
one that finds the link cut. The first leaves everything as it was. The second finds an absent session
and makes it count as started, with an announcement but without a request, until the connection is
lost. So a session may count as started although no handshake was ever sent: it was sent exactly if it
was asked for before the link was cut. -/
theorem handshake_refused_iff (workspace : Params.Workspace) (processId : Nat)
    (history : List Moment) (normal : Normalizer) :
    let start := fresh workspace processId
    let c := start.after history
    let turn := c.turn ⟨normal, .handshake⟩
    (turn.value = .sent none ↔ c.state ≠ .absent ∨ ∃ m ∈ history, ¬ m.Live) ∧
    (turn.value = .sent none →
      (∀ m, .queue m ∉ turn.effects) ∧ turn.client.pending = c.pending ∧
      (turn.client.state = c.state ∧ visible turn.effects = [] ↔ c.state ≠ .absent)) ∧
    (turn.value = .sent none → c.state = .absent →
      visible turn.effects = [.event (.state .started)] ∧
      ∀ later : List Moment, (∀ m ∈ later, m.action ≠ .connectionLost) →
        (turn.client.after later).state = .started) ∧
    ((∃ params, .queue (.call 1 .handshake params) ∈ start.effects history) ↔
      AsksInTime history) := by
  intro start c turn
  have hstart : start.Sound := sound_fresh workspace processId
  have hc : c.Sound := hstart.after history
  have hcut : c.link ≠ .up ↔ ∃ m ∈ history, ¬ m.Live := by
    rw [Ne, link_up_iff rfl]
    simp
  have t : Transition normal c .handshake turn.value turn.client (visible turn.effects) :=
    c.turn_transition ⟨normal, .handshake⟩
  have hunqueued : (∀ m, .queue m ∉ visible turn.effects) → ∀ m, .queue m ∉ turn.effects :=
    fun h m hm => h m ((mem_visible rfl).mpr hm)
  have hsent := hstart.handshake_sent_iff rfl rfl history
  rw [← hcut]
  by_cases hbegun : c.state ≠ .absent
  · obtain ⟨hvalue, hclient, heffects⟩ := t.handshake_begun hbegun
    refine ⟨by simp [hvalue, hbegun], fun _ => ⟨hunqueued ?_, ?_, ?_⟩,
      fun _ habsent => absurd habsent hbegun, hsent⟩
    · simp [heffects]
    · rw [hclient]
    · simp [hclient, heffects, hbegun]
  have habsent : c.state = .absent := Decidable.not_not.mp hbegun
  by_cases hup : c.link = .up
  · obtain ⟨hvalue, -⟩ := t.handshake_up habsent hup
    refine ⟨by simp [hvalue, habsent, hup], fun h => ?_, fun h => ?_, hsent⟩
    · exact absurd (hvalue.symm.trans h) (by simp)
    · exact absurd (hvalue.symm.trans h) (by simp)
  · obtain ⟨hvalue, hclient, heffects⟩ := t.handshake_cut habsent hup
    refine ⟨by simp [hvalue, hup], fun _ => ⟨hunqueued ?_, ?_, ?_⟩,
      fun _ _ => ⟨heffects, fun later hlive => ?_⟩, hsent⟩
    · simp [heffects]
    · rw [hclient]
    · simp [heffects, habsent]
    · -- no reply is awaited, so nothing but the loss of the connection leads on
      refine Shared.stranded_at_once (hc.turn _) ?_ ?_ (by rw [hclient]) hlive
      · rw [hclient]
        exact Nat.succ_pos _
      · rw [hclient]
        exact hc.absent habsent

/-- A handshake that finds the connection lost is refused, and yet the session counts as started. -/
theorem handshake_refused_starts :
    let start := fresh ⟨"/work", "file:///work", .null, false⟩ 0
    let c := start.after [⟨some, .connectionLost⟩]
    let turn := c.turn ⟨some, .handshake⟩
    c.state = .absent ∧ turn.value = .sent none ∧ turn.client.state = .started ∧
      visible turn.effects = [.event (.state .started)] ∧
      own (start.effects [⟨some, .connectionLost⟩, ⟨some, .handshake⟩]) = [] :=
  ⟨rfl, rfl, rfl, rfl, rfl⟩

/-! ## A lost connection -/

theorem Transition.loses {normal : Normalizer} {c d : Client} {v : Answer} {es : List Effect}
    (t : Transition normal c .connectionLost v d es) :
    d.link = .lost ∧ d.capabilities = c.capabilities ∧
      ∀ e ∈ es, (∃ h, e = .discard h) ∨ e = .event (.state .absent) := by
  cases t with
  | connectionLost =>
      refine ⟨rfl, rfl, fun e he => ?_⟩
      rcases List.mem_append.mp he with he | he
      · exact .inl (mem_abandonAll he)
      · split at he
        · exact absurd he List.not_mem_nil
        · exact .inr (List.mem_singleton.mp he)

theorem lost_after {c : Client} (hlost : c.link = .lost) (history : List Moment) :
    (c.after history).link = .lost := by
  induction history generalizing c with
  | nil => exact hlost
  | cons m rest ih => exact ih ((c.turn_transition m).link_lost hlost)

theorem Sound.uninvoked_effects {c : Client} (hc : c.Sound) (hlost : c.link = .lost)
    (history : List Moment) (h : Handler) (r : Reply) : .invoke h r ∉ c.effects history := by
  induction history generalizing c with
  | nil => exact List.not_mem_nil
  | cons m rest ih =>
      have t := c.turn_transition m
      intro hinvoked
      rcases List.mem_append.mp hinvoked with hnow | hlater
      · exact t.uninvoked (hc.lost hlost) h r ((mem_visible rfl).mpr hnow)
      · exact ih (hc.turn m) (t.link_lost hlost) hlater

/-- A client that has given its connection up awaits no reply to a handshake, so the capabilities stay. -/
theorem Sound.capabilities_lost {c : Client} (hc : c.Sound) (hlost : c.link = .lost)
    (history : List Moment) : (c.after history).capabilities = c.capabilities := by
  induction history generalizing c with
  | nil => rfl
  | cons m rest ih =>
      have t := c.turn_transition m
      rw [after_cons, ih (hc.turn m) (t.link_lost hlost)]
      rcases t.establishes hc.toCoherent with ⟨message, hreply⟩ | ⟨hsame, -⟩
      · have hmem := hreply.awaits.pending
        rw [hc.lost hlost] at hmem
        exact absurd hmem List.not_mem_nil
      · exact hsame

/-- **A lost connection stays lost.** From the loss of the connection on nothing is queued and no
handler is invoked, whatever is done with the client and whatever still arrives. Nothing is pending,
the capabilities stay as they were, no answer to the server counts, and the session neither runs nor
shuts down again. -/
theorem lost_for_good (workspace : Params.Workspace) (processId : Nat)
    (earlier later : List Moment) (normal : Normalizer) :
    let before := (fresh workspace processId).after earlier
    let history := ⟨normal, .connectionLost⟩ :: later
    let c := before.after history
    (∀ m, .queue m ∉ before.effects history) ∧
    (∀ h r, .invoke h r ∉ before.effects history) ∧
    c.pending.length = 0 ∧ c.capabilities = before.capabilities ∧
    (∀ now id outcome, (c.turn ⟨now, .respond id outcome⟩).value = .responded false) ∧
    c.state ≠ .running ∧ c.state ≠ .shutdown := by
  intro before history c
  have hbefore : before.Sound := sound_reached workspace processId earlier
  have hsound := hbefore.turn ⟨normal, .connectionLost⟩
  obtain ⟨hlost, hcapabilities, hloss⟩ := (before.turn_transition ⟨normal, .connectionLost⟩).loses
  have hcut : (before.turn ⟨normal, .connectionLost⟩).client.link ≠ .up := by
    rw [hlost]
    decide
  have hc : c.Sound := hsound.after later
  have hstill : c.link = .lost := lost_after hlost later
  have hpending := hc.lost hstill
  have hstate := hc.unserved hstill
  refine ⟨fun m hm => ?_, fun h r hinvoked => ?_, by rw [hpending]; rfl, ?_, ?_, ?_, ?_⟩
  · rcases List.mem_append.mp hm with hnow | hlater
    · rcases hloss _ ((mem_visible rfl).mpr hnow) with ⟨_, he⟩ | he
      · exact absurd he Effect.noConfusion
      · exact absurd he Effect.noConfusion
    · exact unqueued_effects hcut later m hlater
  · rcases List.mem_append.mp hinvoked with hnow | hlater
    · rcases hloss _ ((mem_visible rfl).mpr hnow) with ⟨_, he⟩ | he
      · exact absurd he Effect.noConfusion
      · exact absurd he Effect.noConfusion
    · exact hsound.uninvoked_effects hlost later h r hlater
  · exact (hsound.capabilities_lost hlost later).trans hcapabilities
  · intro now id outcome
    refine (c.turn_transition ⟨now, .respond id outcome⟩).respond_cut ?_
    rw [hstill]
    decide
  · rcases hstate with hs | hs <;> rw [hs] <;> decide
  · rcases hstate with hs | hs <;> rw [hs] <;> decide

end Client

end LanguageClient
