import LanguageClient.Proofs.Client.History

/-!
# What becomes of a handler

A handler that is handed over with a request waits, is invoked, or is destroyed. The three numbers
always add up to the number of times that it was handed over (`balance`), which is the law of
conservation behind everything here. Which of the three it is hangs on the first later moment that
decides the request (`Decides`): `handler_fate` says that a handler is invoked exactly if its request
was accepted and the reply comes first, while the handler's owner is alive.
-/

namespace LanguageClient

open Rpc Document

/-! ## Counting -/

/-- The reply that an effect hands to a handler. -/
def Effect.replyTo? (h : Handler) : Effect → Option Reply
  | .invoke h' r => if h' = h then some r else none
  | _ => none

/-- Does the effect destroy a handler that was not invoked? -/
def Effect.destroys (h : Handler) : Effect → Bool
  | .discard h' => h' = h
  | _ => false

/-- Does the action hand a handler over? -/
@[simp] def Action.hands (h : Handler) : Action → Bool
  | .send _ _ h' => h' = h
  | _ => false

/-- The replies that a handler is invoked with. -/
def invocations (h : Handler) (es : List Effect) : List Reply := es.filterMap (·.replyTo? h)

/-- How often a handler is destroyed without being invoked. -/
def destructions (h : Handler) (es : List Effect) : Nat := es.countP (·.destroys h)

/-- How often a handler is handed over. -/
def handed (h : Handler) (history : List Moment) : Nat := history.countP (·.action.hands h)

/-- How often a handler waits for a reply. -/
def Client.waiting (c : Client) (h : Handler) : Nat :=
  c.pending.countP (·.continuation = .handler h)

theorem handed_cons (h : Handler) (m : Moment) (rest : List Moment) :
    handed h (m :: rest) = handed h rest + if m.action.hands h then 1 else 0 := List.countP_cons ..

theorem handed_append (h : Handler) (first second : List Moment) :
    handed h (first ++ second) = handed h first + handed h second := List.countP_append ..

@[simp] theorem invocations_nil (h : Handler) : invocations h [] = [] := rfl

@[simp] theorem destructions_nil (h : Handler) : destructions h [] = 0 := rfl

section Cons

variable (h h' : Handler) (es : List Effect)

@[simp] theorem invocations_queue (m : Outbound) :
    invocations h (.queue m :: es) = invocations h es := rfl

@[simp] theorem invocations_event (e : SessionEvent) :
    invocations h (.event e :: es) = invocations h es := rfl

@[simp] theorem invocations_discard :
    invocations h (.discard h' :: es) = invocations h es := rfl

@[simp] theorem invocations_invoke (r : Reply) :
    invocations h (.invoke h' r :: es) =
      if h' = h then r :: invocations h es else invocations h es := by
  unfold invocations
  rw [List.filterMap_cons]
  by_cases heq : h' = h <;> simp [Effect.replyTo?, heq]

@[simp] theorem destructions_queue (m : Outbound) :
    destructions h (.queue m :: es) = destructions h es := rfl

@[simp] theorem destructions_event (e : SessionEvent) :
    destructions h (.event e :: es) = destructions h es := rfl

@[simp] theorem destructions_invoke (r : Reply) :
    destructions h (.invoke h' r :: es) = destructions h es := rfl

@[simp] theorem destructions_discard :
    destructions h (.discard h' :: es) = destructions h es + if h' = h then 1 else 0 := by
  unfold destructions
  rw [List.countP_cons]
  simp [Effect.destroys]

end Cons

@[simp] theorem invocations_append (h : Handler) (es fs : List Effect) :
    invocations h (es ++ fs) = invocations h es ++ invocations h fs := List.filterMap_append ..

@[simp] theorem destructions_append (h : Handler) (es fs : List Effect) :
    destructions h (es ++ fs) = destructions h es + destructions h fs := List.countP_append ..

@[simp] theorem invocations_visible (h : Handler) (es : List Effect) :
    invocations h (visible es) = invocations h es := filterMap_visible (fun _ => rfl) es

@[simp] theorem destructions_visible (h : Handler) (es : List Effect) :
    destructions h (visible es) = destructions h es := by
  induction es with
  | nil => rfl
  | cons e rest ih =>
      cases e with
      | log _ => exact ih
      | invoke _ _ => exact ih
      | queue _ => exact ih
      | event _ => exact ih
      | discard h' => rw [visible_discard, destructions_discard, destructions_discard, ih]

@[simp] theorem invocations_abandon (h : Handler) (k : Continuation) :
    invocations h k.abandon = [] := by
  cases k <;> rfl

@[simp] theorem destructions_abandon (h : Handler) (k : Continuation) :
    destructions h k.abandon = if k = .handler h then 1 else 0 := by
  cases k with
  | handshake => rfl
  | handler h' => simp [Continuation.abandon]

namespace Client

@[simp] theorem invocations_outgoing (h : Handler) (c : Client) (m : Outbound) :
    invocations h (c.outgoing m) = [] := by
  unfold outgoing
  split <;> rfl

@[simp] theorem destructions_outgoing (h : Handler) (c : Client) (m : Outbound) :
    destructions h (c.outgoing m) = 0 := by
  unfold outgoing
  split <;> rfl

@[simp] theorem invocations_abandonAll (h : Handler) (c : Client) :
    invocations h c.abandonAll = [] := by
  unfold abandonAll
  induction c.pending with
  | nil => rfl
  | cons p rest ih => simp [ih]

@[simp] theorem destructions_abandonAll (h : Handler) (c : Client) :
    destructions h c.abandonAll = c.waiting h := by
  unfold abandonAll waiting
  induction c.pending with
  | nil => rfl
  | cons p rest ih =>
      rw [List.flatMap_cons, destructions_append, ih, List.countP_cons, Nat.add_comm]
      simp

theorem invocations_notificationEffects (h : Handler) (normal : Normalizer) (method : String)
    (params : Json) : invocations h (notificationEffects normal method params) = [] := by
  rw [← invocations_visible]
  refine List.filterMap_eq_nil_iff.mpr fun e he => ?_
  obtain ⟨s, rfl⟩ := notificationEffects_event he
  rfl

theorem destructions_notificationEffects (h : Handler) (normal : Normalizer) (method : String)
    (params : Json) : destructions h (notificationEffects normal method params) = 0 := by
  rw [← destructions_visible]
  refine List.countP_eq_zero.mpr fun e he => ?_
  obtain ⟨s, rfl⟩ := notificationEffects_event he
  exact Bool.false_ne_true

theorem delivery_counts (c : Client) (normal : Normalizer) (h h' : Handler) (result : Json) :
    (invocations h [c.delivery normal h' result]).length +
      destructions h [c.delivery normal h' result] = if h' = h then 1 else 0 := by
  unfold delivery
  split
  · by_cases heq : h' = h <;> simp [heq]
  · simp

/-! ## Conservation -/

/-- Taking one request out of a list in which identifiers increase takes it out of every count. -/
theorem countP_forget {l : List Pending} (hord : l.Pairwise (·.id < ·.id)) {p : Pending}
    (hp : p ∈ l) (f : Pending → Bool) :
    (l.filter (·.id ≠ p.id)).countP f + (if f p then 1 else 0) = l.countP f := by
  induction l with
  | nil => exact absurd hp List.not_mem_nil
  | cons q rest ih =>
      obtain ⟨hfirst, hrest⟩ := List.pairwise_cons.mp hord
      rcases List.mem_cons.mp hp with rfl | hp
      · have hall : rest.filter (·.id ≠ p.id) = rest := by
          rw [List.filter_eq_self]
          intro r hr
          simpa using Nat.ne_of_gt (hfirst r hr)
        rw [List.filter_cons_of_neg (by simp), hall, List.countP_cons]
      · have hne : q.id ≠ p.id := Nat.ne_of_lt (hfirst p hp)
        rw [List.filter_cons_of_pos (by simpa using hne), List.countP_cons, List.countP_cons,
          ← ih hrest hp]
        omega

theorem Sound.waiting_forget {c : Client} (hc : c.Sound) {id : Nat} {p : Pending}
    (hp : c.pending? id = some p) (h : Handler) :
    (c.forget id).waiting h + (if p.continuation = .handler h then 1 else 0) = c.waiting h := by
  obtain ⟨hmem, rfl⟩ := pending?_some hp
  simpa [waiting, Client.forget] using
    countP_forget hc.ordered hmem (·.continuation = .handler h)

/-- **Conservation.** A handler that waits or is handed over waits afterwards, or it was invoked or
destroyed in this step. -/
theorem Sound.balance_transition {normal : Normalizer} {c d : Client} {a : Action} {v : Answer}
    {es : List Effect} (hc : c.Sound) (t : Transition normal c a v d es) (h : Handler) :
    c.waiting h + (if a.hands h then 1 else 0)
      = d.waiting h + (invocations h es).length + destructions h es := by
  cases t with
  | sendAccepted _ _ => simp [waiting]
  | cancelled hp =>
      have hcount := hc.waiting_forget hp h
      simp
      omega
  | @replied message n p h' _ hp hk =>
      have hcount := hc.waiting_forget hp h
      have hone := c.delivery_counts normal h h' (message.get "result")
      simp only [hk, Continuation.handler.injEq] at hcount
      simp only [Action.hands, Bool.false_eq_true, if_false]
      omega
  | opened _ hp hk _ =>
      have hcount := hc.waiting_forget hp h
      simpa [hk, established, waiting] using hcount.symm
  | openedLate _ hp hk _ =>
      have hcount := hc.waiting_forget hp h
      simpa [hk] using hcount.symm
  | shutdown _ => simp [waiting]
  | connectionLost =>
      by_cases habsent : c.state = .absent <;> simp [waiting, habsent]
  | told _ => simp [invocations_notificationEffects, destructions_notificationEffects]
  | _ => simp [waiting]

/-- Conservation over a whole history. -/
theorem Sound.balance {c : Client} (hc : c.Sound) (history : List Moment) (h : Handler) :
    c.waiting h + handed h history
      = (c.after history).waiting h + (invocations h (c.effects history)).length +
        destructions h (c.effects history) := by
  induction history generalizing c with
  | nil => simp [handed]
  | cons m rest ih =>
      have hfirst := hc.balance_transition (c.turn_transition m) h
      have hrest := ih (hc.turn m)
      rw [invocations_visible, destructions_visible] at hfirst
      simp only [after_cons, effects_cons, invocations_append, destructions_append,
        List.length_append, handed_cons]
      omega

theorem Sound.untouched {c : Client} (hc : c.Sound) {history : List Moment} {h : Handler}
    (hwaiting : c.waiting h = 0) (hhanded : handed h history = 0) :
    (c.after history).waiting h = 0 ∧ invocations h (c.effects history) = [] ∧
      destructions h (c.effects history) = 0 := by
  have hbalance := hc.balance history h
  refine ⟨by omega, List.eq_nil_of_length_eq_zero (by omega), by omega⟩

/-! ## What decides a request -/

/-- The actions that end the waiting for the reply to request `n`: the reply itself, a
cancellation, the shutdown, and the loss of the connection. -/
def Decides (n : Nat) : Action → Prop
  | .receive message => Carries n message
  | .cancel id => id = n
  | .shutdown => True
  | .connectionLost => True
  | _ => False

theorem Transition.pending_stays {normal : Normalizer} {c d : Client} {a : Action} {v : Answer}
    {es : List Effect} (t : Transition normal c a v d es) {p : Pending} (hp : p ∈ c.pending)
    (hopen : ¬ Decides p.id a) : p ∈ d.pending := by
  have hother : ∀ {n : Nat} {message : Json}, a = .receive message → Carries n message →
      p ∈ (c.forget n).pending := by
    rintro n message rfl hcarries
    have hne : p.id ≠ n := by
      rintro rfl
      exact hopen hcarries
    simp [Client.forget, hp, hne]
  cases t with
  | handshakeSent _ _ => exact List.mem_append_left _ hp
  | sendAccepted _ _ => exact List.mem_append_left _ hp
  | cancelled _ =>
      have hne : ∀ id : Nat, ¬ Decides p.id (.cancel id) → p ∈ (c.forget id).pending := by
        intro id hid
        have : p.id ≠ id := fun heq => hid heq.symm
        simp [Client.forget, hp, this]
      exact hne _ hopen
  | shutdown _ => exact absurd trivial hopen
  | connectionLost => exact absurd trivial hopen
  | replied hcarries _ _ => exact hother rfl hcarries
  | opened hcarries _ _ _ => exact hother rfl hcarries
  | openedLate hcarries _ _ _ => exact hother rfl hcarries
  | writerEnded => simpa using hp
  | _ => exact hp

theorem Sound.running_of_handler {c : Client} (hc : c.Sound) {p : Pending} {h : Handler}
    (hp : p ∈ c.pending) (hk : p.continuation = .handler h) : c.state = .running := by
  cases hs : c.state with
  | absent => rw [hc.absent hs] at hp; exact absurd hp List.not_mem_nil
  | started => rw [hc.started hs p hp] at hk; exact absurd hk (by simp)
  | running => rfl
  | shutdown => rw [hc.shutdown hs] at hp; exact absurd hp List.not_mem_nil

/-- What a handler is invoked with by an action that decides its request: the reply's result if its
owner lives, and nothing otherwise. -/
def verdict (c : Client) (normal : Normalizer) (h : Handler) : Action → List Reply
  | .receive message =>
      if c.isAlive h then [h.type.read normal (message.get "result")] else []
  | _ => []

/-- The first action that decides a request gives its verdict on the handler. -/
theorem Sound.decided {normal : Normalizer} {c d : Client} {a : Action} {v : Answer}
    {es : List Effect} (hc : c.Sound) (t : Transition normal c a v d es) {p : Pending} {h : Handler}
    (hp : p ∈ c.pending) (hk : p.continuation = .handler h) (hone : c.waiting h = 1)
    (hdecides : Decides p.id a) :
    d.waiting h = 0 ∧ invocations h es = c.verdict normal h a := by
  have hfound := hc.pending?_of_mem hp
  have hbalance := hc.balance_transition t h
  have hrunning := hc.running_of_handler hp hk
  -- what carries the identifier of `p` is a reply, and it is taken for the reply to `p`
  have hsame : ∀ {n : Nat} {message : Json} {q : Pending}, Carries n message →
      Carries p.id message → c.pending? n = some q → q = p := by
    intro n message q hn hpid hq
    rw [hn.unique hpid, hfound] at hq
    exact (Option.some.inj hq).symm
  have hreply : ∀ {message : Json} {i : Inbound}, Carries p.id message →
      Inbound.classify message = some i → ∃ id result error, i = .reply id result error := by
    intro message i hpid hclass
    obtain ⟨id, error, hclass', -⟩ := hpid.classify
    exact ⟨id, _, error, Option.some.inj (hclass.symm.trans hclass')⟩
  cases t with
  | @replied message n q h' hcarries hq hk' =>
      obtain rfl := hsame hcarries hdecides hq
      obtain rfl := Continuation.handler.inj (hk'.symm.trans hk)
      have hcount := c.delivery_counts normal h' h' (message.get "result")
      refine ⟨?_, ?_⟩
      · simp only [Action.hands, Bool.false_eq_true, if_false, if_true] at hbalance hcount
        omega
      · unfold delivery verdict
        cases c.isAlive h' <;> simp
  | opened hcarries hq hk' _ =>
      obtain rfl := hsame hcarries hdecides hq
      exact absurd (hk'.symm.trans hk) (by simp)
  | openedLate hcarries hq hk' _ =>
      obtain rfl := hsame hcarries hdecides hq
      exact absurd (hk'.symm.trans hk) (by simp)
  | stray _ hnone => exact absurd ((hnone _ hdecides).symm.trans hfound) (by simp)
  | editAsked hclass => obtain ⟨_, _, _, h⟩ := hreply hdecides hclass; simp at h
  | unsupported hclass _ => obtain ⟨_, _, _, h⟩ := hreply hdecides hclass; simp at h
  | told hclass => obtain ⟨_, _, _, h⟩ := hreply hdecides hclass; simp at h
  | unclassified hclass =>
      obtain ⟨_, _, hclass', -⟩ := hdecides.classify
      exact absurd (hclass.symm.trans hclass') (by simp)
  | cancelUnknown hnone =>
      obtain rfl : _ = p.id := hdecides
      exact absurd (hnone.symm.trans hfound) (by simp)
  | cancelled hq =>
      obtain rfl : _ = p.id := hdecides
      obtain rfl := Option.some.inj (hfound.symm.trans hq)
      simp [hk] at hbalance
      exact ⟨by omega, by simp [verdict]⟩
  | shutdownIgnored hstate => exact absurd hrunning hstate
  | shutdown _ => exact ⟨rfl, by simp [verdict]⟩
  | connectionLost =>
      refine ⟨rfl, ?_⟩
      simp [hrunning, verdict]
  | _ => exact hdecides.elim

/-! ## Owners -/

theorem Transition.released_iff {normal : Normalizer} {c d : Client} {a : Action} {v : Answer}
    {es : List Effect} (t : Transition normal c a v d es) (owner : Nat) :
    owner ∈ d.released ↔ owner ∈ c.released ∨ a = .release owner := by
  cases t with
  | released => simp [Client.release, or_comm, eq_comm]
  | writerEnded =>
      unfold Client.writerEnded
      split <;> simp
  | _ => simp [Client.forget, established]

theorem released_after (c : Client) (history : List Moment) (owner : Nat) :
    owner ∈ (c.after history).released ↔
      owner ∈ c.released ∨ ∃ m ∈ history, m.action = .release owner := by
  induction history generalizing c with
  | nil => simp
  | cons m rest ih =>
      rw [after_cons, ih, (c.turn_transition m).released_iff]
      simp [or_assoc]

theorem isAlive_iff (c : Client) (h : Handler) :
    c.isAlive h = true ↔ ∀ owner, h.owner = some owner → owner ∉ c.released := by
  unfold isAlive
  cases h.owner <;> simp

theorem isAlive_fresh_iff (workspace : Params.Workspace) (processId : Nat) (history : List Moment)
    (h : Handler) :
    ((fresh workspace processId).after history).isAlive h = true ↔
      ∀ owner, h.owner = some owner → ∀ m ∈ history, m.action ≠ .release owner := by
  rw [isAlive_iff]
  refine forall_congr' fun owner => imp_congr_right fun _ => ?_
  rw [released_after]
  simp [fresh]

/-! ## The fate of a handler -/

/-- The history decides a request by a reply: `mid` are the moments before, none of which decides
it, and the message carries its identifier. -/
def RepliedFirst (n : Nat) (history mid : List Moment) (normal : Normalizer) (message : Json) :
    Prop :=
  ∃ rest, history = mid ++ ⟨normal, .receive message⟩ :: rest ∧
    (∀ m ∈ mid, ¬ Decides n m.action) ∧ Carries n message

/-- A handler that waits is invoked exactly if a reply decides its request while its owner lives. -/
theorem Sound.invoked_iff {c : Client} (hc : c.Sound) {p : Pending} {h : Handler}
    (hp : p ∈ c.pending) (hk : p.continuation = .handler h) (hone : c.waiting h = 1)
    {history : List Moment} (hhanded : handed h history = 0) (r : Reply) :
    r ∈ invocations h (c.effects history) ↔
      ∃ mid normal message, RepliedFirst p.id history mid normal message ∧
        (c.after mid).isAlive h = true ∧ r = h.type.read normal (message.get "result") := by
  induction history generalizing c with
  | nil => simp [RepliedFirst]
  | cons m rest ih =>
      have ht := c.turn_transition m
      have hsound := hc.turn m
      have hrest : handed h rest = 0 ∧ m.action.hands h = false := by
        rw [handed_cons] at hhanded
        refine ⟨by omega, ?_⟩
        cases hm : m.action.hands h with
        | false => rfl
        | true => rw [hm, if_pos rfl] at hhanded; omega
      rw [effects_cons, invocations_append]
      by_cases hdecides : Decides p.id m.action
      · -- the first moment decides, and afterwards the handler is left alone
        obtain ⟨hnone, hverdict⟩ := hc.decided ht hp hk hone hdecides
        rw [invocations_visible] at hverdict
        rw [hverdict, (hsound.untouched hnone hrest.1).2.1, List.append_nil]
        constructor
        · intro hr
          cases hm : m.action with
          | receive message =>
              rw [hm] at hr hdecides
              simp only [verdict] at hr
              split at hr
              · rename_i halive
                refine ⟨[], m.normal, message, ⟨rest, ?_, by simp, hdecides⟩, halive,
                  by simpa using hr⟩
                rw [← hm]; rfl
              · simp at hr
          | _ => rw [hm] at hr; simp [verdict] at hr
        · rintro ⟨mid, normal, message, ⟨rest', heq, hopen, hcarries⟩, halive, rfl⟩
          cases mid with
          | nil =>
              simp only [List.nil_append, List.cons.injEq] at heq
              obtain ⟨rfl, -⟩ := heq
              simpa [verdict] using halive
          | cons m' mid =>
              simp only [List.cons_append, List.cons.injEq] at heq
              obtain ⟨rfl, -⟩ := heq
              exact absurd hdecides (hopen m List.mem_cons_self)
      · -- nothing is decided yet: the handler waits on, and nobody else has it
        have hstays := ht.pending_stays hp hdecides
        have hwaits : 1 ≤ (c.turn m).client.waiting h := by
          unfold waiting
          exact List.countP_pos_iff.mpr ⟨p, hstays, by simpa using hk⟩
        have hbalance := hc.balance_transition ht h
        rw [invocations_visible, destructions_visible, hrest.2] at hbalance
        simp only [Bool.false_eq_true, if_false] at hbalance
        have hnone : invocations h (c.turn m).effects = [] :=
          List.eq_nil_of_length_eq_zero (by omega)
        rw [hnone, List.nil_append, ih hsound hstays (by omega) hrest.1]
        constructor
        · rintro ⟨mid, normal, message, ⟨rest', rfl, hopen, hcarries⟩, halive, hr⟩
          refine ⟨m :: mid, normal, message, ⟨rest', rfl, ?_, hcarries⟩, halive, hr⟩
          intro m' hm'
          rcases List.mem_cons.mp hm' with rfl | hm'
          · exact hdecides
          · exact hopen m' hm'
        · rintro ⟨mid, normal, message, ⟨rest', heq, hopen, hcarries⟩, halive, hr⟩
          cases mid with
          | nil =>
              simp only [List.nil_append, List.cons.injEq] at heq
              obtain ⟨rfl, -⟩ := heq
              exact absurd hcarries hdecides
          | cons m' mid =>
              simp only [List.cons_append, List.cons.injEq] at heq
              obtain ⟨rfl, rfl⟩ := heq
              exact ⟨mid, normal, message,
                ⟨rest', rfl, fun m' hm' => hopen m' (List.mem_cons_of_mem _ hm'), hcarries⟩,
                halive, hr⟩

theorem handshake_unsent {c : Client} (h : c.handshake.value = none) :
    c.handshake.client.pending = c.pending := by
  have t := handshake_transition (fun _ => none) c
  generalize c.handshake.client = d at t ⊢
  generalize visible c.handshake.effects = es at t
  rw [h] at t
  cases t with
  | handshakeIgnored _ => rfl
  | handshakeRefused _ _ => rfl

theorem send_unsent {c : Client} {kind : RequestKind} {params : Json} {h : Handler}
    (hsent : (c.send kind params h).value = none) :
    (c.send kind params h).client.pending = c.pending ∧
      visible (c.send kind params h).effects = [.discard h] := by
  have t := send_transition (fun _ => none) c kind params h
  generalize (c.send kind params h).client = d at t ⊢
  generalize visible (c.send kind params h).effects = es at t ⊢
  rw [hsent] at t
  cases t with
  | sendEarly _ => exact ⟨rfl, rfl⟩
  | sendRefused _ _ => exact ⟨rfl, rfl⟩

theorem send_sent {c : Client} {kind : RequestKind} {params : Json} {h : Handler} {n : Nat}
    (hsent : (c.send kind params h).value = some n) :
    (c.send kind params h).client.pending = c.pending ++ [⟨n, kind, .handler h⟩] ∧
      visible (c.send kind params h).effects = [.queue (.call n kind params)] := by
  have t := send_transition (fun _ => none) c kind params h
  generalize (c.send kind params h).client = d at t ⊢
  generalize visible (c.send kind params h).effects = es at t ⊢
  rw [hsent] at t
  cases t with
  | sendAccepted _ _ => exact ⟨rfl, rfl⟩

/-- Where a handler is: how often it waits, was invoked, and was destroyed without being invoked. -/
structure Whereabouts where
  waiting : Nat
  invoked : Nat
  destroyed : Nat
deriving DecidableEq, Repr

/-- Where a handler is after a history. -/
def whereabouts (c : Client) (history : List Moment) (h : Handler) : Whereabouts :=
  ⟨(c.after history).waiting h, (invocations h (c.effects history)).length,
    destructions h (c.effects history)⟩

/-- **The fate of a handler.** A handler moves into the call that it is handed to, so a history hands
it over once. From then on it always waits, was invoked once, or was destroyed uninvoked. It is
invoked exactly if its request was sent and is decided by a reply while its owner was not released,
and with what that reply's result is read as. What is not sent leaves no entry behind, and a message
touches no entry but the one whose identifier it carries. -/
theorem handler_fate (workspace : Params.Workspace) (processId : Nat)
    (earlier later : List Moment) (normal : Normalizer) (kind : RequestKind) (params : Json)
    (h : Handler) (once : handed h (earlier ++ ⟨normal, .send kind params h⟩ :: later) = 1) :
    let start := fresh workspace processId
    let before := start.after earlier
    let sent := before.send kind params h
    let history := earlier ++ ⟨normal, .send kind params h⟩ :: later
    (start.whereabouts history h = ⟨1, 0, 0⟩ ∨ start.whereabouts history h = ⟨0, 1, 0⟩ ∨
      start.whereabouts history h = ⟨0, 0, 1⟩) ∧
    (∀ r, r ∈ invocations h (start.effects history) ↔
      ∃ n mid now message, sent.value = some n ∧ RepliedFirst n later mid now message ∧
        (∀ owner, h.owner = some owner → ∀ m ∈ earlier ++ mid, m.action ≠ .release owner) ∧
        r = h.type.read now (message.get "result")) ∧
    (sent.value = none → sent.client.pending = before.pending) ∧
    (before.handshake.value = none → before.handshake.client.pending = before.pending) ∧
    (∀ now message p, p ∈ (before.receive now message).client.pending ↔
      p ∈ before.pending ∧ ¬ Carries p.id message) := by
  intro start before sent history
  have hstart : start.Sound := sound_fresh workspace processId
  have hbefore : before.Sound := hstart.after earlier
  have hnobody : start.waiting h = 0 := rfl
  refine ⟨?_, ?_, fun hnone => (send_unsent hnone).1, handshake_unsent,
    fun now => mem_pending_receive now before⟩
  · have hbalance := hstart.balance history h
    have htotal : handed h history = 1 := once
    unfold whereabouts
    generalize (start.after history).waiting h = w at hbalance ⊢
    generalize (invocations h (start.effects history)).length = i at hbalance ⊢
    generalize destructions h (start.effects history) = d at hbalance ⊢
    simp only [Whereabouts.mk.injEq]
    omega
  · intro r
    -- the handler is handed over by this request and by no other
    have hhere : (Action.send kind params h).hands h = true := by simp
    rw [handed_append, handed_cons, hhere, if_pos rfl] at once
    have hfirst := hstart.untouched hnobody (by omega : handed h earlier = 0)
    have hlater : handed h later = 0 := by omega
    have hsound : sent.client.Sound := hbefore.turn ⟨normal, .send kind params h⟩
    have hbalance := hbefore.balance_transition (send_transition normal before kind params h) h
    rw [hfirst.1, hhere, if_pos rfl, invocations_visible, destructions_visible] at hbalance
    change 0 + 1 = sent.client.waiting h + (invocations h sent.effects).length +
      destructions h sent.effects at hbalance
    have heffects : invocations h (start.effects history) =
        invocations h sent.effects ++ invocations h (sent.client.effects later) := by
      rw [effects_append, invocations_append, hfirst.2.1, List.nil_append, effects_cons,
        invocations_append]
      rfl
    rw [heffects]
    cases hsent : sent.value with
    | none =>
        obtain ⟨-, heff⟩ := send_unsent hsent
        have hdestroyed : destructions h sent.effects = 1 := by
          rw [← destructions_visible, heff]; simp
        have hnone : invocations h sent.effects = [] := by
          rw [← invocations_visible, heff]; rfl
        have hidle : sent.client.waiting h = 0 := by omega
        rw [hnone, (hsound.untouched hidle hlater).2.1]
        simp
    | some n =>
        obtain ⟨hpending, heff⟩ := send_sent hsent
        have hnone : invocations h sent.effects = [] := by
          rw [← invocations_visible, heff]; rfl
        have hkept : destructions h sent.effects = 0 := by
          rw [← destructions_visible, heff]; rfl
        have hmem : (⟨n, kind, .handler h⟩ : Pending) ∈ sent.client.pending := by
          rw [hpending]
          exact List.mem_append_right _ List.mem_cons_self
        have hwaits : sent.client.waiting h = 1 := by
          rw [hnone, List.length_nil] at hbalance
          omega
        have halive : ∀ mid : List Moment, (sent.client.after mid).isAlive h = true ↔
            ∀ owner, h.owner = some owner → ∀ m ∈ earlier ++ mid, m.action ≠ .release owner := by
          intro mid
          have := isAlive_fresh_iff workspace processId
            (earlier ++ ⟨normal, .send kind params h⟩ :: mid) h
          rw [after_append, after_cons] at this
          refine this.trans ?_
          simp [or_imp, forall_and]
        rw [hnone, List.nil_append, hsound.invoked_iff hmem rfl hwaits hlater]
        simp only [halive, Option.some.injEq]
        constructor
        · rintro ⟨mid, now, message, hfirst', howner, hr⟩
          exact ⟨n, mid, now, message, rfl, hfirst', howner, hr⟩
        · rintro ⟨_, mid, now, message, rfl, hfirst', howner, hr⟩
          exact ⟨mid, now, message, hfirst', howner, hr⟩

/-- A handler of a hover request that is answered while its owner lives. -/
theorem handler_fate_answered :
    let h : Handler := ⟨7, .value, some 3⟩
    let opening : Json := .mkObj [("id", RequestId.wire 1), ("result", .null)]
    let answer : Json := .mkObj [("id", RequestId.wire 2), ("result", .str "found")]
    let earlier : List Moment := [⟨some, .handshake⟩, ⟨some, .receive opening⟩]
    let later : List Moment := [⟨some, .cancel 9⟩, ⟨some, .receive answer⟩, ⟨some, .shutdown⟩]
    let history := earlier ++ ⟨some, .send .hover .null h⟩ :: later
    handed h history = 1 ∧
      Reply.value (.str "found") ∈
        invocations h ((fresh ⟨"/work", "file:///work", .null, false⟩ 0).effects history) := by
  intro h opening answer earlier later history
  have once : handed h history = 1 := by decide
  refine ⟨once, ?_⟩
  obtain ⟨-, hinvoked, -⟩ := handler_fate ⟨"/work", "file:///work", .null, false⟩ 0
    earlier later some .hover .null h once
  refine (hinvoked _).mpr ⟨2, [⟨some, .cancel 9⟩], some, answer, ?_, ?_, ?_, ?_⟩
  · decide
  · refine ⟨[⟨some, .shutdown⟩], rfl, by simp [Decides], by decide, rfl, rfl, rfl⟩
  · simp [earlier]
  · rfl

end Client

end LanguageClient
