import LanguageClient.Proofs.Client.Transition

/-!
# Histories of a client

A history is a list of moments: an action each, with the way in which URIs are brought to normal
form then, for the files of the host may change in between. `after` is the client at the end of a
history and `effects` all that it brought about; with one normal form throughout they are the model's
`run`. `Sound` is the invariant of every client that a history can reach. Most of it, `Coherent`, does
not depend on a message being dealt with in the same moment in which it is taken.
-/

namespace LanguageClient

open Rpc Document

/-- One moment of a history. -/
structure Moment where
  normal : Normalizer
  action : Action

namespace Client

/-- A client of which nobody has made use. -/
def fresh (workspace : Params.Workspace) (processId : Nat) : Client :=
  { workspace := workspace, processId := processId }

/-- What a moment does to a client. -/
def turn (c : Client) (m : Moment) : Turn Answer := c.step m.normal m.action

/-- The client after a history. -/
def after (c : Client) (history : List Moment) : Client :=
  history.foldl (fun c m => (c.turn m).client) c

/-- All that a history brings about, in order. -/
def effects (c : Client) : List Moment → List Effect
  | [] => []
  | m :: rest => (c.turn m).effects ++ (c.turn m).client.effects rest

@[simp] theorem after_nil (c : Client) : c.after [] = c := rfl

@[simp] theorem after_cons (c : Client) (m : Moment) (rest : List Moment) :
    c.after (m :: rest) = (c.turn m).client.after rest := rfl

@[simp] theorem effects_nil (c : Client) : c.effects [] = [] := rfl

@[simp] theorem effects_cons (c : Client) (m : Moment) (rest : List Moment) :
    c.effects (m :: rest) = (c.turn m).effects ++ (c.turn m).client.effects rest := rfl

theorem after_append (c : Client) (first second : List Moment) :
    c.after (first ++ second) = (c.after first).after second := List.foldl_append ..

theorem after_concat (c : Client) (history : List Moment) (m : Moment) :
    c.after (history ++ [m]) = ((c.after history).turn m).client := by
  rw [after_append, after_cons, after_nil]

theorem effects_append (c : Client) (first second : List Moment) :
    c.effects (first ++ second) = c.effects first ++ (c.after first).effects second := by
  induction first generalizing c with
  | nil => rfl
  | cons m rest ih => simp [ih]

/-- A run is a history in which the normal form stays the same. -/
theorem run_eq (normal : Normalizer) (c : Client) (actions : List Action) :
    c.run normal actions =
      (c.after (actions.map (Moment.mk normal)), c.effects (actions.map (Moment.mk normal))) := by
  induction actions generalizing c with
  | nil => rfl
  | cons a rest ih => simp [run, ih, turn]

theorem turn_transition (c : Client) (m : Moment) :
    Transition m.normal c m.action (c.turn m).value (c.turn m).client
      (visible (c.turn m).effects) :=
  step_transition m.normal c m.action

@[simp] theorem release_pending (c : Client) (owner : Nat) :
    (c.release owner).pending = c.pending := rfl

theorem writerEnded_eq (c : Client) : ∃ link, c.writerEnded = { c with link := link } := by
  unfold writerEnded
  split
  · exact ⟨.down, rfl⟩
  · exact ⟨c.link, rfl⟩

@[simp] theorem writerEnded_pending (c : Client) : c.writerEnded.pending = c.pending := by
  obtain ⟨_, h⟩ := c.writerEnded_eq
  rw [h]

@[simp] theorem writerEnded_state (c : Client) : c.writerEnded.state = c.state := by
  obtain ⟨_, h⟩ := c.writerEnded_eq
  rw [h]

@[simp] theorem writerEnded_lastId (c : Client) : c.writerEnded.lastId = c.lastId := by
  obtain ⟨_, h⟩ := c.writerEnded_eq
  rw [h]

@[simp] theorem writerEnded_window (c : Client) : c.writerEnded.window = c.window := by
  obtain ⟨_, h⟩ := c.writerEnded_eq
  rw [h]

@[simp] theorem writerEnded_capabilities (c : Client) :
    c.writerEnded.capabilities = c.capabilities := by
  obtain ⟨_, h⟩ := c.writerEnded_eq
  rw [h]

/-! ## The invariant -/

/-- What holds of every client: its pending requests bear distinct identifiers that it has used,
and its state says what can be pending. -/
structure Coherent (c : Client) : Prop where
  ordered : c.pending.Pairwise (·.id < ·.id)
  used : ∀ p ∈ c.pending, p.id ≤ c.lastId
  /-- Without a session nothing is pending. -/
  absent : c.state = .absent → c.pending = []
  /-- As long as messages can be sent, a session that was not begun has used no identifier. -/
  unopened : c.state = .absent → c.link = .up → c.lastId = 0
  /-- During the handshake nothing but the handshake is pending. -/
  started : c.state = .started → ∀ p ∈ c.pending, p = ⟨1, .handshake, .handshake⟩
  /-- Once the session runs only handlers wait. -/
  running : c.state = .running → ∀ p ∈ c.pending, ∃ h, p.continuation = .handler h
  /-- After the shutdown nothing is pending. -/
  shutdown : c.state = .shutdown → c.pending = []
  /-- A client that gave its connection up awaits nothing. -/
  lost : c.link = .lost → c.pending = []

/-- What holds besides if a message is dealt with as it is taken. -/
structure Sound (c : Client) : Prop extends Coherent c where
  /-- A client that gave its connection up never runs. -/
  unserved : c.link = .lost → c.state = .absent ∨ c.state = .started

theorem coherent_fresh (workspace : Params.Workspace) (processId : Nat) :
    (fresh workspace processId).Coherent where
  ordered := .nil
  used := by simp [fresh]
  absent _ := rfl
  unopened _ _ := rfl
  started h := by simp [fresh] at h
  running h := by simp [fresh] at h
  shutdown h := by simp [fresh] at h
  lost h := by simp [fresh] at h

theorem sound_fresh (workspace : Params.Workspace) (processId : Nat) :
    (fresh workspace processId).Sound where
  toCoherent := coherent_fresh workspace processId
  unserved h := by simp [fresh] at h

theorem Coherent.of_eq {c d : Client} (h : c.Coherent) (hp : d.pending = c.pending)
    (hi : d.lastId = c.lastId) (hs : d.state = c.state) (hl : d.link = c.link) : d.Coherent where
  ordered := hp ▸ h.ordered
  used := by rw [hp, hi]; exact h.used
  absent := by rw [hs, hp]; exact h.absent
  unopened := by rw [hs, hl, hi]; exact h.unopened
  started := by rw [hs, hp]; exact h.started
  running := by rw [hs, hp]; exact h.running
  shutdown := by rw [hs, hp]; exact h.shutdown
  lost := by rw [hl, hp]; exact h.lost

theorem Coherent.forget {c : Client} (h : c.Coherent) (id : Nat) : (c.forget id).Coherent where
  ordered := h.ordered.filter _
  used p hp := h.used p (List.mem_filter.mp hp).1
  absent hs := by simp [Client.forget, h.absent hs]
  unopened := h.unopened
  started hs p hp := h.started hs p (List.mem_filter.mp hp).1
  running hs p hp := h.running hs p (List.mem_filter.mp hp).1
  shutdown hs := by simp [Client.forget, h.shutdown hs]
  lost hl := by simp [Client.forget, h.lost hl]

theorem Coherent.of_idle {c : Client} (hidle : c.pending = []) (hs : c.state ≠ .absent) :
    c.Coherent where
  ordered := by rw [hidle]; exact .nil
  used p hp := by rw [hidle] at hp; exact absurd hp List.not_mem_nil
  absent h := absurd h hs
  unopened h := absurd h hs
  started _ p hp := by rw [hidle] at hp; exact absurd hp List.not_mem_nil
  running _ p hp := by rw [hidle] at hp; exact absurd hp List.not_mem_nil
  shutdown _ := hidle
  lost _ := hidle

theorem Coherent.ordered_append {c : Client} (h : c.Coherent) (kind : RequestKind)
    (k : Continuation) :
    (c.pending ++ [(⟨c.lastId + 1, kind, k⟩ : Pending)]).Pairwise (·.id < ·.id) := by
  rw [List.pairwise_append]
  refine ⟨h.ordered, List.pairwise_singleton _ _, ?_⟩
  intro p hp q hq
  rw [List.mem_singleton] at hq
  subst hq
  exact Nat.lt_succ_of_le (h.used p hp)

theorem Coherent.used_append {c : Client} (h : c.Coherent) (kind : RequestKind)
    (k : Continuation) : ∀ p ∈ c.pending ++ [⟨c.lastId + 1, kind, k⟩], p.id ≤ c.lastId + 1 := by
  intro p hp
  rcases List.mem_append.mp hp with hp | hp
  · exact Nat.le_succ_of_le (h.used p hp)
  · rw [List.mem_singleton] at hp
    subst hp
    exact Nat.le_refl _

theorem Coherent.pending_unique {c : Client} (hc : c.Coherent) {p q : Pending}
    (hp : p ∈ c.pending) (hq : q ∈ c.pending) (hid : p.id = q.id) : p = q := by
  obtain ⟨i, hi, rfl⟩ := List.getElem_of_mem hp
  obtain ⟨j, hj, rfl⟩ := List.getElem_of_mem hq
  have hord := List.pairwise_iff_getElem.mp hc.ordered
  rcases Nat.lt_trichotomy i j with hlt | rfl | hgt
  · exact absurd hid (Nat.ne_of_lt (hord i j hi hj hlt))
  · rfl
  · exact absurd hid.symm (Nat.ne_of_lt (hord j i hj hi hgt))

theorem Coherent.pending?_of_mem {c : Client} (hc : c.Coherent) {p : Pending}
    (hp : p ∈ c.pending) : c.pending? p.id = some p := by
  cases hfound : c.pending? p.id with
  | none =>
      unfold pending? at hfound
      have := List.find?_eq_none.mp hfound p hp
      simp at this
  | some q =>
      obtain ⟨hq, hid⟩ := pending?_some hfound
      rw [hc.pending_unique hp hq hid.symm]

/-- The only continuation of the client's own is that of the handshake. -/
theorem Coherent.handshake_pending {c : Client} (hc : c.Coherent) {p : Pending}
    (hp : p ∈ c.pending) (hk : p.continuation = .handshake) :
    c.state = .started ∧ p = ⟨1, .handshake, .handshake⟩ := by
  cases hs : c.state with
  | absent => exact absurd (hc.absent hs) (List.ne_nil_of_mem hp)
  | shutdown => exact absurd (hc.shutdown hs) (List.ne_nil_of_mem hp)
  | started => exact ⟨rfl, hc.started hs p hp⟩
  | running =>
      obtain ⟨h, hh⟩ := hc.running hs p hp
      exact absurd (hk.symm.trans hh) Continuation.noConfusion

theorem Coherent.idle_of_started {c : Client} (hc : c.Coherent) (hs : c.state = .started)
    (hnot : ∀ p ∈ c.pending, p.id ≠ 1) : c.pending = [] := by
  refine List.eq_nil_iff_forall_not_mem.mpr fun p hp => hnot p hp ?_
  rw [hc.started hs p hp]

/-- Every transition keeps the invariant. -/
theorem Coherent.transition {normal : Normalizer} {c d : Client} {a : Action} {v : Answer}
    {es : List Effect} (h : c.Coherent) (t : Transition normal c a v d es) : d.Coherent := by
  cases t with
  | handshakeSent habsent hlink =>
      have hid := h.unopened habsent hlink
      have hnone := h.absent habsent
      refine ⟨h.ordered_append _ _, h.used_append _ _, ?_, ?_, ?_, ?_, ?_, ?_⟩
      all_goals simp [hid, hnone, hlink]
  | handshakeRefused habsent _ => exact .of_idle (h.absent habsent) (by simp)
  | sendAccepted hrunning hlink =>
      refine ⟨h.ordered_append _ _, h.used_append _ _, ?_, ?_, ?_, ?_, ?_, ?_⟩
      case refine_4 =>
        intro _ p hp
        rcases List.mem_append.mp hp with hp | hp
        · exact h.running hrunning p hp
        · rw [List.mem_singleton] at hp
          exact ⟨_, congrArg Pending.continuation hp⟩
      all_goals simp [hrunning, hlink]
  | sendRefused hrunning hlink =>
      refine ⟨h.ordered, fun p hp => Nat.le_succ_of_le (h.used p hp), ?_, ?_, ?_, h.running, ?_,
        h.lost⟩
      all_goals simp [hrunning]
  | shutdown _ => exact .of_idle rfl (by simp)
  | connectionLost =>
      refine ⟨.nil, ?_, ?_, ?_, ?_, ?_, ?_, ?_⟩
      all_goals simp
  | @opened message n p hcarries hfound hk hstarted =>
      -- the handshake was the only request pending, so nothing is left
      refine .of_idle ((h.forget n).idle_of_started hstarted fun q hq => ?_) (by simp [established])
      obtain ⟨hmem, hid⟩ := pending?_some hfound
      obtain rfl := h.started hstarted p hmem
      have hne := (List.mem_filter.mp hq).2
      simpa [← hid] using hne
  | replied _ _ _ => exact h.forget _
  | openedLate _ _ _ _ => exact h.forget _
  | cancelled _ => exact h.forget _
  | writerEnded =>
      unfold Client.writerEnded
      split
      · refine ⟨h.ordered, h.used, h.absent, ?_, h.started, h.running, h.shutdown, ?_⟩
        all_goals simp
      · exact h
  | released => exact h.of_eq rfl rfl rfl rfl
  | responded _ _ => exact h.of_eq rfl rfl rfl rfl
  | respondRefused _ _ => exact h.of_eq rfl rfl rfl rfl
  | editAsked _ => exact h.of_eq rfl rfl rfl rfl
  | handshakeIgnored _ | sendEarly _ | notifyEarly _ | notifyAccepted _ _ | notifyRefused _ _
  | cancelUnknown _ | shutdownIgnored _ | respondLate _ | stray _ _ | unsupported _ _ | told _
  | unclassified _ => exact h

theorem Sound.transition {normal : Normalizer} {c d : Client} {a : Action} {v : Answer}
    {es : List Effect} (h : c.Sound) (t : Transition normal c a v d es) : d.Sound := by
  refine ⟨h.toCoherent.transition t, ?_⟩
  cases t with
  | handshakeSent _ _ => exact fun _ => .inr rfl
  | handshakeRefused _ _ => exact fun _ => .inr rfl
  | connectionLost => exact fun _ => .inl rfl
  | shutdown hrunning =>
      intro hlink
      rcases h.unserved hlink with hs | hs <;> exact absurd (hrunning.symm.trans hs) (by decide)
  | opened _ hfound _ _ =>
      intro hlink
      exact absurd (h.lost hlink) (List.ne_nil_of_mem (pending?_some hfound).1)
  | writerEnded =>
      unfold Client.writerEnded
      split
      · exact nofun
      · exact h.unserved
  | _ => exact h.unserved

theorem Sound.turn {c : Client} (h : c.Sound) (m : Moment) : (c.turn m).client.Sound :=
  h.transition (c.turn_transition m)

theorem Sound.after {c : Client} (h : c.Sound) (history : List Moment) :
    (c.after history).Sound := by
  induction history generalizing c with
  | nil => exact h
  | cons m rest ih => exact ih (h.turn m)

theorem sound_reached (workspace : Params.Workspace) (processId : Nat) (history : List Moment) :
    ((fresh workspace processId).after history).Sound :=
  (sound_fresh workspace processId).after history

end Client

end LanguageClient
