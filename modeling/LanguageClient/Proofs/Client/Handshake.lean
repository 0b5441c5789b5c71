import LanguageClient.Proofs.Client.Shared

/-!
# The handshake and its reply

A client sends its handshake once, as its first request. The request is pending until its reply is
taken, it is cancelled, or the connection is lost (`pending_after`). A reply that was taken is under way
until the reader is through with it (`left_after`), and if the session is in the handshake's state
then, it comes to run (`Completes`). Once the handshake is neither pending nor its reply under way it is
spent: it can be sent again only as the very first request, so the session never comes to run, and
stays in its state until the connection is lost (`handshake_pending_iff`).
-/

namespace LanguageClient

open Rpc Document Client

namespace Client

/-- The handshake was sent, and its reply is still awaited. -/
structure Awaits (c : Client) : Prop where
  started : c.state = .started
  pending : ⟨1, .handshake, .handshake⟩ ∈ c.pending

variable {normal : Normalizer} {c d : Client} {a : Action} {v : Answer} {es : List Effect}

theorem Awaits.established (h : c.Awaits) (hc : c.Sound) {message : Json} (hn : Carries 1 message) :
    (c.receive normal message).client = (c.forget 1).established (message.get "result") := by
  obtain ⟨id, error, hclass, -⟩ := hn.classify
  have hstarted : (c.forget 1).state = .started := h.started
  rw [(receive_reply normal c hclass hn (hc.pending?_of_mem h.pending)).1]
  simp [resume, completeHandshake, hstarted, Client.established]

/-- An action that brings the reply which the handshake awaits. -/
structure Establishes (c : Client) (a : Action) (message : Json) : Prop where
  action : a = .receive message
  carries : Carries 1 message
  awaits : c.Awaits

/-- The awaited reply apart, no step sets the capabilities or makes the session run. -/
theorem Transition.establishes (t : Transition normal c a v d es) (hc : c.Coherent) :
    (∃ message, c.Establishes a message) ∨
      d.capabilities = c.capabilities ∧ (d.state = .running → c.state = .running) := by
  cases t with
  | @opened message n p hcarries hfound _ hstarted =>
      obtain ⟨hmem, hid⟩ := pending?_some hfound
      obtain rfl := hc.started hstarted p hmem
      obtain rfl := hid
      exact .inl ⟨message, rfl, hcarries, hstarted, hmem⟩
  | writerEnded =>
      exact .inr ⟨writerEnded_capabilities c, fun h => (writerEnded_state c).symm.trans h⟩
  | handshakeSent _ _ => exact .inr ⟨rfl, fun h => SessionState.noConfusion h⟩
  | handshakeRefused _ _ => exact .inr ⟨rfl, fun h => SessionState.noConfusion h⟩
  | shutdown _ => exact .inr ⟨rfl, fun h => SessionState.noConfusion h⟩
  | connectionLost => exact .inr ⟨rfl, fun h => SessionState.noConfusion h⟩
  | _ => exact .inr ⟨rfl, id⟩

/-- A call takes the handshake from the pending requests only if it cancels it, or if it is the loss
of the connection; and no call brings it back. -/
theorem Transition.handshake_waits_iff (t : Transition normal c a v d es) (hc : c.Coherent)
    (hused : 1 ≤ c.lastId) (hcall : ∀ message, a ≠ .receive message) :
    ⟨1, .handshake, .handshake⟩ ∈ d.pending ↔
      ⟨1, .handshake, .handshake⟩ ∈ c.pending ∧ a ≠ .cancel 1 ∧ a ≠ .connectionLost := by
  cases t with
  | handshakeSent habsent hlink =>
      have hunused := hc.unopened habsent hlink
      exact absurd hused (by omega)
  | sendAccepted _ _ => simp
  | cancelUnknown hnone =>
      refine ⟨fun hmem => ⟨hmem, fun ha => ?_, nofun⟩, And.left⟩
      obtain rfl := Action.cancel.inj ha
      exact pending?_none hnone hmem rfl
  | cancelled _ => simp [Client.forget, @eq_comm Nat 1]
  | shutdown hrunning =>
      refine ⟨fun h => absurd h List.not_mem_nil, fun h => ?_⟩
      obtain ⟨_, hk⟩ := hc.running hrunning _ h.1
      exact absurd hk Continuation.noConfusion
  | connectionLost => simp
  | replied _ _ _ => exact absurd rfl (hcall _)
  | opened _ _ _ _ => exact absurd rfl (hcall _)
  | openedLate _ _ _ _ => exact absurd rfl (hcall _)
  | stray _ _ => exact absurd rfl (hcall _)
  | editAsked _ => exact absurd rfl (hcall _)
  | unsupported _ _ => exact absurd rfl (hcall _)
  | told _ => exact absurd rfl (hcall _)
  | unclassified _ => exact absurd rfl (hcall _)
  | _ => simp

theorem Transition.stays_started (t : Transition normal c a v d es) (hs : c.state = .started)
    (hcall : ∀ message, a ≠ .receive message) (hlive : a ≠ .connectionLost) :
    d.state = .started := by
  cases t with
  | handshakeSent habsent _ => exact absurd (hs.symm.trans habsent) (by decide)
  | handshakeRefused _ _ => rfl
  | shutdown hrunning => exact absurd (hs.symm.trans hrunning) (by decide)
  | connectionLost => exact absurd rfl hlive
  | opened _ _ _ _ => exact absurd rfl (hcall _)
  | writerEnded => exact (writerEnded_state c).trans hs
  | _ => exact hs

/-- A reply to the handshake is left to be dealt with exactly if the handshake was pending and the
message carries its identifier. -/
theorem Taking.left_iff {message : Json} {left : Option Remainder}
    (k : Taking normal c message d left es) (hc : c.Coherent) (result : Json) :
    left = some (.resume ⟨1, .handshake, .handshake⟩ result) ↔
      Carries 1 message ∧ ⟨1, .handshake, .handshake⟩ ∈ c.pending ∧
        result = message.get "result" := by
  have hforeign : ∀ {i : Option Inbound}, Inbound.classify message = i →
      (∀ id result error, i ≠ some (.reply id result error)) → ¬ Carries 1 message := by
    intro i hclass hi hcarries
    obtain ⟨id, error, hclass', -⟩ := hcarries.classify
    exact absurd (hclass.symm.trans hclass') (hi _ _ _)
  constructor
  · rintro rfl
    cases k with
    | replied hcarries hfound =>
        obtain ⟨hmem, hid⟩ := pending?_some hfound
        obtain rfl : 1 = _ := hid
        exact ⟨hcarries, hmem, rfl⟩
  · rintro ⟨hcarries, hmem, rfl⟩
    cases k with
    | replied hn hfound =>
        obtain rfl := hn.unique hcarries
        rw [hc.pending?_of_mem hmem] at hfound
        rw [Option.some.inj hfound]
    | stray _ hnone => exact absurd rfl (pending?_none (hnone 1 hcarries) hmem)
    | editAsked hclass => exact absurd hcarries (hforeign hclass nofun)
    | unsupported hclass _ => exact absurd hcarries (hforeign hclass nofun)
    | told hclass => exact absurd hcarries (hforeign hclass nofun)
    | unclassified hclass => exact absurd hcarries (hforeign hclass nofun)

end Client

namespace Shared

/-- What leaves request `n` pending. -/
def Deed.Spares (d : Deed) (n : Nat) : Prop :=
  d ≠ .act (.cancel n) ∧ d ≠ .act .connectionLost ∧
    ∀ message, d = .act (.receive message) → ¬ Carries n message

/-- The reader goes on in the handshake's state, with the reply to the handshake to be dealt with. -/
structure Completes (s : Shared) (d : Deed) (result : Json) : Prop where
  readsOn : d.ReadsOn
  started : s.client.state = .started
  left : s.left = some (.resume ⟨1, .handshake, .handshake⟩ result)

/-- The handshake was begun; it is not pending, and no reply to it is under way. -/
structure Spent (s : Shared) : Prop where
  used : 1 ≤ s.client.lastId
  gone : ⟨1, .handshake, .handshake⟩ ∉ s.client.pending
  idle : ∀ result, s.left ≠ some (.resume ⟨1, .handshake, .handshake⟩ result)

theorem Spent.not_completes {s : Shared} (h : s.Spent) (d : Deed) (result : Json) :
    ¬ s.Completes d result := fun hd => h.idle result hd.left

/-! ## Steps -/

variable {normal : Normalizer} {s t : Shared} {d : Deed} {v : Answer} {es : List Effect}

theorem Deed.not_readsOn_act {a : Action} (hcall : ∀ message, a ≠ .receive message) :
    ¬ (Deed.act a).ReadsOn := by
  rintro ⟨⟩
  exact absurd rfl (hcall _)

/-- The handshake stays pending for as long as it is spared, and once it is not it never is again. -/
theorem Step.handshake_waits_iff (h : Step normal s d v t es) (hs : s.Sound)
    (hused : 1 ≤ s.client.lastId) :
    ⟨1, .handshake, .handshake⟩ ∈ t.client.pending ↔
      ⟨1, .handshake, .handshake⟩ ∈ s.client.pending ∧ d.Spares 1 := by
  unfold Deed.Spares
  cases h with
  | called hcall h =>
      rw [h.handshake_waits_iff hs.coherent hused hcall]
      simp [hcall]
  | took f k =>
      rw [k.mem_pending, f.pending_eq]
      simp
  | finished f =>
      rw [f.pending_eq]
      simp
  | severIgnored _ => simp
  | severed hrunning _ _ =>
      refine ⟨fun h => absurd h List.not_mem_nil, fun h => ?_⟩
      obtain ⟨_, hk⟩ := hs.coherent.running hrunning _ h.1
      exact absurd hk Continuation.noConfusion

/-- A reply to the handshake is under way if it was just taken, or if it was and nobody reads on. -/
theorem Step.left_iff (h : Step normal s d v t es) (hs : s.Sound) (result : Json) :
    t.left = some (.resume ⟨1, .handshake, .handshake⟩ result) ↔
      ¬ d.ReadsOn ∧ s.left = some (.resume ⟨1, .handshake, .handshake⟩ result) ∨
      ∃ message, d = .act (.receive message) ∧ Carries 1 message ∧
        ⟨1, .handshake, .handshake⟩ ∈ s.client.pending ∧ result = message.get "result" := by
  cases h with
  | called hcall _ => simp [Deed.not_readsOn_act hcall, hcall]
  | took f k =>
      rw [k.left_iff (hs.coherent.finishing hs.taken f), f.pending_eq]
      simp [Deed.ReadsOn.receive]
  | finished f => simp [Deed.ReadsOn.finish]
  | severIgnored _ =>
      have hnot : ¬ Deed.sever.ReadsOn := nofun
      simp [hnot]
  | severed _ _ _ =>
      have hnot : ¬ Deed.sever.ReadsOn := nofun
      simp [hnot]

/-- When the reader goes on, the client is what the reply to the handshake makes of it, or nothing
changes. -/
theorem Sound.finishing (hs : s.Sound) (hd : d.ReadsOn) {c : Client}
    (f : Finishing normal s.client s.left c es) :
    (∃ result, s.Completes d result ∧ c = s.client.established result) ∨
      c = s.client ∧ ∀ result, ¬ s.Completes d result := by
  rcases f.completes hs.taken with ⟨result, hleft, hstarted, hc⟩ | ⟨hc, hnot⟩
  · exact .inl ⟨result, ⟨hd, hstarted, hleft⟩, hc⟩
  · exact .inr ⟨hc, fun result h => hnot result h.left h.started⟩

theorem Completes.unique {result result' : Json} (h : s.Completes d result)
    (h' : s.Completes d result') : result = result' :=
  (Remainder.resume.inj (Option.some.inj (h.left.symm.trans h'.left))).2

theorem Step.completes (h : Step normal s d v t es) (hs : s.Sound) {result : Json}
    (hd : s.Completes d result) :
    t.client.state = .running ∧
      t.client.capabilities = Capabilities.ofJson (result.get "capabilities") := by
  have hfinished : ∀ {c es}, Finishing normal s.client s.left c es →
      c = s.client.established result := fun f => by
    rcases hs.finishing hd.readsOn f with ⟨result', hd', hc⟩ | ⟨-, hnot⟩
    · rw [hc, hd.unique hd']
    · exact absurd hd (hnot result)
  cases h with
  | called hcall _ => exact absurd hd.readsOn (Deed.not_readsOn_act hcall)
  | took f k =>
      rw [k.state_eq, k.capabilities_eq, hfinished f]
      exact ⟨rfl, rfl⟩
  | finished f =>
      rw [hfinished f]
      exact ⟨rfl, rfl⟩
  | severIgnored _ => exact absurd hd.readsOn nofun
  | severed _ _ _ => exact absurd hd.readsOn nofun

/-- The reply to the handshake apart, no step sets the capabilities or makes the session run, and in the
handshake's state a session stays until the connection is lost. -/
theorem Step.kept (h : Step normal s d v t es) (hs : s.Sound)
    (hnot : ∀ result, ¬ s.Completes d result) :
    t.client.capabilities = s.client.capabilities ∧
      (t.client.state = .running → s.client.state = .running) ∧
      (s.client.state = .started → d ≠ .act .connectionLost → t.client.state = .started) := by
  have hfinished : ∀ {c es}, d.ReadsOn → Finishing normal s.client s.left c es → c = s.client :=
    fun hd f => by
      rcases hs.finishing hd f with ⟨result, hd', -⟩ | ⟨hc, -⟩
      · exact absurd hd' (hnot result)
      · exact hc
  cases h with
  | called hcall h =>
      obtain ⟨hcapabilities, hrunning⟩ := (h.establishes hs.coherent).resolve_left
        fun ⟨message, hm⟩ => hcall message hm.action
      exact ⟨hcapabilities, hrunning, fun hstarted hlive =>
        h.stays_started hstarted hcall fun ha => hlive (congrArg Deed.act ha)⟩
  | took f k =>
      rw [k.state_eq, k.capabilities_eq, hfinished .receive f]
      exact ⟨rfl, id, fun h _ => h⟩
  | finished f =>
      rw [hfinished .finish f]
      exact ⟨rfl, id, fun h _ => h⟩
  | severIgnored _ => exact ⟨rfl, id, fun h _ => h⟩
  | severed hrunning _ _ =>
      exact ⟨rfl, fun _ => hrunning, fun hs => absurd (hs.symm.trans hrunning) (by decide)⟩

theorem Step.stays_running (h : Step normal s .finish v t es) (hs : s.Sound)
    (hruns : s.client.state = .running) : t.client.state = .running := by
  cases h with
  | finished f =>
      rcases hs.finishing .finish f with ⟨_, -, rfl⟩ | ⟨rfl, -⟩
      · rfl
      · exact hruns

theorem Sound.not_left_of_pending (hs : s.Sound)
    (hpending : ⟨1, .handshake, .handshake⟩ ∈ s.client.pending) (result : Json) :
    s.left ≠ some (.resume ⟨1, .handshake, .handshake⟩ result) := fun hleft =>
  (hs.taken _ _ hleft).gone _ hpending rfl

theorem Step.spent_of_completes (h : Step normal s d v t es) (hs : s.Sound) {result : Json}
    (hd : s.Completes d result) : t.Spent := by
  have htaken := hs.taken _ _ hd.left
  have hused : 1 ≤ s.client.lastId := htaken.used
  have hgone : ⟨1, .handshake, .handshake⟩ ∉ s.client.pending := fun hmem => htaken.gone _ hmem rfl
  refine ⟨Nat.le_trans hused h.lastId_le, fun hmem => ?_, fun result' hleft => ?_⟩
  · exact hgone ((h.handshake_waits_iff hs hused).mp hmem).1
  · rcases (h.left_iff hs result').mp hleft with ⟨hnot, -⟩ | ⟨_, -, -, hmem, -⟩
    · exact hnot hd.readsOn
    · exact hgone hmem

theorem Spent.step (h : s.Spent) (hs : s.Sound) (hstep : Step normal s d v t es) : t.Spent := by
  refine ⟨Nat.le_trans h.used hstep.lastId_le, fun hmem => ?_, fun result hleft => ?_⟩
  · exact h.gone ((hstep.handshake_waits_iff hs h.used).mp hmem).1
  · rcases (hstep.left_iff hs result).mp hleft with ⟨-, hleft⟩ | ⟨_, -, -, hmem, -⟩
    · exact h.idle result hleft
    · exact h.gone hmem

/-! ## Histories -/

theorem Spent.after (h : s.Spent) (hs : s.Sound) (history : List Moment) :
    (s.after history).Spent := by
  induction history generalizing s with
  | nil => exact h
  | cons m rest ih => exact ih (h.step hs (s.turn_step m)) (hs.turn m)

/-- With a spent handshake nothing but the loss of the connection ends the handshake's state. -/
theorem Spent.stranded (h : s.Spent) (hs : s.Sound) (hstarted : s.client.state = .started)
    {history : List Moment} (hlive : ∀ m ∈ history, m.deed ≠ .act .connectionLost) :
    (s.after history).client.state = .started := by
  induction history generalizing s with
  | nil => exact hstarted
  | cons m rest ih =>
      obtain ⟨hm, hrest⟩ := List.forall_mem_cons.mp hlive
      have hstep := s.turn_step m
      exact ih (h.step hs hstep) (hs.turn m)
        ((hstep.kept hs (h.not_completes m.deed)).2.2 hstarted hm) hrest

theorem stranded_at_once {c : Client} (hc : c.Sound) (hused : 1 ≤ c.lastId) (hidle : c.pending = [])
    (hstarted : c.state = .started) {history : List LanguageClient.Moment}
    (hlive : ∀ m ∈ history, m.action ≠ .connectionLost) : (c.after history).state = .started := by
  have hspent : (Shared.mk c none).Spent :=
    ⟨hused, by rw [hidle]; exact List.not_mem_nil, nofun⟩
  have hembedded : ∀ m ∈ history.flatMap embed, m.deed ≠ .act .connectionLost := by
    intro m hm
    obtain ⟨x, hx, hm⟩ := List.mem_flatMap.mp hm
    rcases deed_of_mem_embed hm with h | h
    · rw [h]
      exact fun heq => hlive x hx (Deed.act.inj heq)
    · rw [h]
      exact nofun
  have hstays := hspent.stranded ⟨hc.toCoherent, nofun⟩ hstarted hembedded
  rwa [(after_embed c history).1] at hstays

theorem Sound.pending_after (hs : s.Sound) (hused : 1 ≤ s.client.lastId) (later : List Moment) :
    ⟨1, .handshake, .handshake⟩ ∈ (s.after later).client.pending ↔
      ⟨1, .handshake, .handshake⟩ ∈ s.client.pending ∧ ∀ m ∈ later, m.deed.Spares 1 := by
  induction later generalizing s with
  | nil => simp
  | cons m rest ih =>
      have hstep := s.turn_step m
      rw [after_cons, ih (hs.turn m) (Nat.le_trans hused hstep.lastId_le),
        hstep.handshake_waits_iff hs hused, List.forall_mem_cons, and_assoc]

/-- A moment takes a reply to request `n`, which was left to it, and nobody reads on since. -/
def Fetched (n : Nat) (later : List Moment) (result : Json) : Prop :=
  ∃ before m rest message, later = before ++ m :: rest ∧ (∀ x ∈ before, x.deed.Spares n) ∧
    m.deed = .act (.receive message) ∧ Carries n message ∧ result = message.get "result" ∧
    ∀ x ∈ rest, ¬ x.deed.ReadsOn

theorem fetched_cons {n : Nat} {m : Moment} {rest : List Moment} {result : Json} :
    Fetched n (m :: rest) result ↔
      (∃ message, m.deed = .act (.receive message) ∧ Carries n message ∧
        result = message.get "result" ∧ ∀ x ∈ rest, ¬ x.deed.ReadsOn) ∨
      m.deed.Spares n ∧ Fetched n rest result := by
  constructor
  · rintro ⟨_ | ⟨x, before⟩, m', rest', message, hsplit, hspares, hm⟩
    · obtain ⟨rfl, rfl⟩ := List.cons.inj hsplit
      exact .inl ⟨message, hm⟩
    · obtain ⟨rfl, rfl⟩ := List.cons.inj hsplit
      obtain ⟨hfirst, hbefore⟩ := List.forall_mem_cons.mp hspares
      exact .inr ⟨hfirst, before, m', rest', message, rfl, hbefore, hm⟩
  · rintro (⟨message, hm⟩ | ⟨hfirst, before, m', rest', message, rfl, hbefore, hm⟩)
    · exact ⟨[], m, rest, message, rfl, nofun, hm⟩
    · exact ⟨m :: before, m', rest', message, rfl, List.forall_mem_cons.mpr ⟨hfirst, hbefore⟩, hm⟩

/-- A reply is under way if it was so all the time, or if it was taken and nobody read on since. -/
theorem Sound.left_after (hs : s.Sound) (hused : 1 ≤ s.client.lastId) (later : List Moment)
    (result : Json) :
    (s.after later).left = some (.resume ⟨1, .handshake, .handshake⟩ result) ↔
      s.left = some (.resume ⟨1, .handshake, .handshake⟩ result) ∧
          (∀ m ∈ later, ¬ m.deed.ReadsOn) ∨
        ⟨1, .handshake, .handshake⟩ ∈ s.client.pending ∧ Fetched 1 later result := by
  induction later generalizing s with
  | nil => simp [Fetched]
  | cons m rest ih =>
      have hstep := s.turn_step m
      rw [after_cons, ih (hs.turn m) (Nat.le_trans hused hstep.lastId_le),
        hstep.handshake_waits_iff hs hused, hstep.left_iff hs, fetched_cons, List.forall_mem_cons]
      constructor
      · rintro (⟨⟨hm, hleft⟩ | ⟨message, hm, hcarries, hmem, hresult⟩, hrest⟩ | ⟨⟨hmem, hm⟩, hrest⟩)
        · exact .inl ⟨hleft, hm, hrest⟩
        · exact .inr ⟨hmem, .inl ⟨message, hm, hcarries, hresult, hrest⟩⟩
        · exact .inr ⟨hmem, .inr ⟨hm, hrest⟩⟩
      · rintro (⟨hleft, hm, hrest⟩ | ⟨hmem, ⟨message, hm, hcarries, hresult, hrest⟩ | ⟨hm, hrest⟩⟩)
        · exact .inl ⟨.inl ⟨hm, hleft⟩, hrest⟩
        · exact .inl ⟨.inr ⟨message, hm, hcarries, hmem, hresult⟩, hrest⟩
        · exact .inr ⟨⟨hmem, hm⟩, hrest⟩

/-- A session in the handshake's state comes to run by a reply that finds the handshake pending, and
by one that is under way. -/
theorem Sound.reply_runs (hs : s.Sound) (hstarted : s.client.state = .started)
    (hwaits : ⟨1, .handshake, .handshake⟩ ∈ s.client.pending ∨
      ∃ result, s.left = some (.resume ⟨1, .handshake, .handshake⟩ result))
    (now soon : Normalizer) {message : Json} (hn : Carries 1 message) :
    (s.after [⟨now, .act (.receive message)⟩, ⟨soon, .finish⟩]).client.state = .running := by
  have hfirst := s.turn_step ⟨now, .act (.receive message)⟩
  have hsecond := (s.turn ⟨now, .act (.receive message)⟩).next.turn_step ⟨soon, .finish⟩
  rcases hwaits with hmem | ⟨result, hleft⟩
  · have hidle : ∀ result, ¬ s.Completes (.act (.receive message)) result := fun result h =>
      hs.not_left_of_pending hmem result h.left
    have hstill := (hfirst.kept hs hidle).2.2 hstarted nofun
    have hleft := (hfirst.left_iff hs (message.get "result")).mpr
      (.inr ⟨message, rfl, hn, hmem, rfl⟩)
    exact (hsecond.completes (hs.turn _) ⟨.finish, hstill, hleft⟩).1
  · have hruns := (hfirst.completes hs ⟨.receive, hstarted, hleft⟩).1
    exact hsecond.stays_running (hs.turn _) hruns

theorem Sound.pending_of_sent (hs : s.Sound) {n : Nat} (hsent : s.client.handshake.value = some n)
    (normal : Normalizer) :
    n = 1 ∧ 1 ≤ (s.turn ⟨normal, .act .handshake⟩).next.client.lastId ∧
      ⟨1, .handshake, .handshake⟩ ∈ (s.turn ⟨normal, .act .handshake⟩).next.client.pending := by
  change n = 1 ∧ 1 ≤ s.client.handshake.client.lastId ∧ _ ∈ s.client.handshake.client.pending
  have t := handshake_transition normal s.client
  generalize s.client.handshake.client = d at t ⊢
  generalize visible s.client.handshake.effects = es at t
  rw [hsent] at t
  cases t with
  | handshakeSent habsent hlink =>
      rw [hs.coherent.unopened habsent hlink]
      exact ⟨rfl, Nat.le_refl _, List.mem_append_right _ List.mem_cons_self⟩

/-- **When the handshake waits for its reply.** Let a handshake be sent, and later be in its state.
It is pending exactly if every moment since has spared it: nobody cancelled it, the connection was not
lost, and no reply to it was taken. Its reply is under way exactly if it was taken while the handshake
was spared, and nobody read on since. As long as one of the two holds a reply makes the session run;
otherwise the session stays as it is until the connection is lost, whatever the server replies. -/
theorem handshake_pending_iff (workspace : Params.Workspace) (processId : Nat)
    (earlier later : List Moment) (normal : Normalizer) (n : Nat)
    (sent : ((fresh workspace processId).after earlier).client.handshake.value = some n)
    (started : ((fresh workspace processId).after
      (earlier ++ ⟨normal, .act .handshake⟩ :: later)).client.state = .started) :
    let s := (fresh workspace processId).after (earlier ++ ⟨normal, .act .handshake⟩ :: later)
    let entry : Pending := ⟨n, .handshake, .handshake⟩
    (entry ∈ s.client.pending ↔ ∀ m ∈ later, m.deed.Spares n) ∧
    (∀ result, s.left = some (.resume entry result) ↔ Fetched n later result) ∧
    (∀ now soon message, Carries n message →
      ((s.after [⟨now, .act (.receive message)⟩, ⟨soon, .finish⟩]).client.state = .running ↔
        entry ∈ s.client.pending ∨ ∃ result, s.left = some (.resume entry result))) ∧
    (entry ∉ s.client.pending → (∀ result, s.left ≠ some (.resume entry result)) →
      ∀ rest : List Moment, (∀ m ∈ rest, m.deed ≠ .act .connectionLost) →
        (s.after rest).client.state = .started) := by
  intro s entry
  have hbefore := (sound_fresh workspace processId).after earlier
  obtain ⟨rfl, hused, hmem⟩ := hbefore.pending_of_sent sent normal
  have hsent := hbefore.turn ⟨normal, .act .handshake⟩
  have hs : s.Sound := (sound_fresh workspace processId).after _
  have hafter : s = ((((fresh workspace processId).after earlier).turn
      ⟨normal, .act .handshake⟩).next).after later := by
    change (fresh workspace processId).after _ = _
    rw [after_append, after_cons]
  have hspent : entry ∉ s.client.pending → (∀ result, s.left ≠ some (.resume entry result)) →
      s.Spent := fun hgone hidle =>
    ⟨Nat.le_trans hused (hafter ▸ lastId_le_after _ later), hgone, hidle⟩
  refine ⟨?_, fun result => ?_, fun now soon message hn => ⟨fun hruns => ?_, fun hwaits =>
    hs.reply_runs started hwaits now soon hn⟩, fun hgone hidle rest hlive =>
    (hspent hgone hidle).stranded hs started hlive⟩
  · rw [hafter, hsent.pending_after hused]
    exact and_iff_right hmem
  · rw [hafter, hsent.left_after hused, or_iff_right fun h => hsent.not_left_of_pending hmem _ h.1]
    exact and_iff_right hmem
  · refine Classical.byContradiction fun hnot => ?_
    obtain ⟨hgone, hidle⟩ := not_or.mp hnot
    have hlive : ∀ m ∈ [(⟨now, .act (.receive message)⟩ : Moment), ⟨soon, .finish⟩],
        m.deed ≠ .act .connectionLost := by simp
    have hstill := (hspent hgone (not_exists.mp hidle)).stranded hs started hlive
    exact absurd (hruns.symm.trans hstill) (by decide)

/-- What is done too early, and a cancellation of another request, leave the handshake pending. -/
theorem handshake_pending_iff_early :
    let start := fresh ⟨"/work", "file:///work", .null, false⟩ 0
    let later : List Moment := [⟨some, .act (.send .hover .null ⟨7, .value, none⟩)⟩,
      ⟨some, .act (.cancel 2)⟩, ⟨some, .sever⟩, ⟨some, .finish⟩, ⟨some, .act .writerEnded⟩]
    let s := start.after ([] ++ ⟨some, .act .handshake⟩ :: later)
    (start.after []).client.handshake.value = some 1 ∧ s.client.state = .started ∧
      ⟨1, .handshake, .handshake⟩ ∈ s.client.pending := by
  intro start later s
  have sent : (start.after []).client.handshake.value = some 1 := rfl
  have started : s.client.state = .started := rfl
  have hiff := handshake_pending_iff ⟨"/work", "file:///work", .null, false⟩ 0 [] later some 1
    sent started
  exact ⟨sent, started, hiff.1.mpr (by simp [later, Deed.Spares])⟩

/-- A handshake that is cancelled strands the session: it is no longer pending, no reply to it is under
way, and the server's reply finds nobody. -/
theorem handshake_cancelled_strands :
    let start := fresh ⟨"/work", "file:///work", .null, false⟩ 0
    let s := start.after [⟨some, .act .handshake⟩, ⟨some, .act (.cancel 1)⟩]
    let reply : Json := .mkObj [("id", RequestId.wire 1), ("result", .mkObj [])]
    start.client.handshake.value = some 1 ∧ s.client.state = .started ∧
      ⟨1, .handshake, .handshake⟩ ∉ s.client.pending ∧ s.left = none ∧ Carries 1 reply ∧
      (s.after [⟨some, .act (.receive reply)⟩, ⟨some, .finish⟩]).client.state = .started := by
  intro start s reply
  have hcarries : Carries 1 reply := ⟨by decide, rfl, rfl, rfl⟩
  exact ⟨rfl, rfl, by decide, rfl, hcarries, rfl⟩

end Shared

end LanguageClient
