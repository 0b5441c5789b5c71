import LanguageClient.Proofs.Client.History

/-!
# A client that is called while its messages are read

A client is called from anywhere while a reader hands its messages on. A call holds the client to its
end. The reader holds it only to take a message; what is left to do about the message it does later,
and calls come in between (`Shared`). It is through with one message before it takes the next. The
writer ends at any time, also between the two messages of a shutdown.

`Step` lists the ways in which such a client can go on, on top of `Transition` for the calls and of
`Taking` and `Finishing` for the reader. A reader that deals with every message at once does what a
history does (`after_embed`), so a history is the special case in which nothing comes in between.
-/

namespace LanguageClient

open Rpc Document Client

/-- A client, and what its reader has left to do about the message that it took. -/
structure Shared where
  client : Client
  left : Option Remainder := none

namespace Shared

/-- What can happen next. -/
inductive Deed where
  /-- An action. A message is only taken, as soon as the reader is through with the one before. -/
  | act (a : Action)
  /-- The reader does what it has left to do. -/
  | finish
  /-- The session is shut down, and the writer ends between the two messages. -/
  | sever

/-- One moment: what happens, and the way in which URIs are brought to normal form then. -/
structure Moment where
  normal : Normalizer
  deed : Deed

/-- What comes of a moment. -/
structure Turn where
  answer : Answer
  next : Shared
  effects : List Effect

/-- A client of which nobody has made use. -/
def fresh (workspace : Params.Workspace) (processId : Nat) : Shared :=
  { client := Client.fresh workspace processId }

/-- What a moment does. -/
def turn (s : Shared) (m : Moment) : Turn :=
  match m.deed with
  | .act (.receive message) =>
      let finished := s.client.finish m.normal s.left
      let taken := finished.client.take m.normal message
      ⟨.done, ⟨taken.client, taken.value⟩, finished.effects ++ taken.effects⟩
  | .act a =>
      let t := s.client.step m.normal a
      ⟨t.value, { s with client := t.client }, t.effects⟩
  | .finish =>
      let t := s.client.finish m.normal s.left
      ⟨.done, ⟨t.client, none⟩, t.effects⟩
  | .sever =>
      let t := s.client.shutdown true
      ⟨.done, { s with client := t.client }, t.effects⟩

/-- The client after a history. -/
def after (s : Shared) (history : List Moment) : Shared :=
  history.foldl (fun s m => (s.turn m).next) s

/-- All that a history brings about, in order. -/
def effects (s : Shared) : List Moment → List Effect
  | [] => []
  | m :: rest => (s.turn m).effects ++ (s.turn m).next.effects rest

@[simp] theorem after_nil (s : Shared) : s.after [] = s := rfl

@[simp] theorem after_cons (s : Shared) (m : Moment) (rest : List Moment) :
    s.after (m :: rest) = (s.turn m).next.after rest := rfl

@[simp] theorem effects_cons (s : Shared) (m : Moment) (rest : List Moment) :
    s.effects (m :: rest) = (s.turn m).effects ++ (s.turn m).next.effects rest := rfl

theorem after_append (s : Shared) (first second : List Moment) :
    s.after (first ++ second) = (s.after first).after second := List.foldl_append ..

theorem after_concat (s : Shared) (history : List Moment) (m : Moment) :
    s.after (history ++ [m]) = ((s.after history).turn m).next := by
  rw [after_append, after_cons, after_nil]

/-! ## The ways to go on -/

/-- The reader is through with the message that it took. -/
inductive Deed.ReadsOn : Deed → Prop
  | finish : ReadsOn .finish
  | receive {message} : ReadsOn (.act (.receive message))

/-- The ways in which a shared client can go on: what happens, what is answered, the client
afterwards, and what it brings about besides log events. -/
inductive Step (normal : Normalizer) (s : Shared) :
    Deed → Answer → Shared → List Effect → Prop
  | called {a v d es} : (∀ message, a ≠ .receive message) →
      Transition normal s.client a v d es → Step normal s (.act a) v ⟨d, s.left⟩ es
  | took {message c d left es fs} : Finishing normal s.client s.left c es →
      Taking normal c message d left fs →
      Step normal s (.act (.receive message)) .done ⟨d, left⟩ (es ++ fs)
  | finished {d es} : Finishing normal s.client s.left d es → Step normal s .finish .done ⟨d, none⟩ es
  | severIgnored : s.client.state ≠ .running → Step normal s .sever .done s []
  | severed {link} : s.client.state = .running → link ≠ .up →
      (s.client.link = .lost → link = .lost) →
      Step normal s .sever .done
        ⟨{ s.client with
            pending := [], lastId := s.client.lastId + 1, state := .shutdown, link := link }, s.left⟩
        (s.client.abandonAll ++ s.client.outgoing (.closing (s.client.lastId + 1)) ++
          [.event (.state .shutdown)])

end Shared

namespace Client

theorem writerEnded_link (c : Client) :
    c.writerEnded.link ≠ .up ∧ (c.link = .lost → c.writerEnded.link = .lost) := by
  unfold writerEnded
  cases hl : c.link <;> simp [hl]

end Client

namespace Shared

theorem sever_step (normal : Normalizer) (s : Shared) :
    Step normal s .sever .done { s with client := (s.client.shutdown true).client }
      (visible (s.client.shutdown true).effects) := by
  unfold Client.shutdown
  split
  · rename_i h
    exact .severIgnored h
  · rename_i h
    have hrunning : s.client.state = .running := Decidable.not_not.mp h
    -- the client between the two messages
    let left := { s.client with pending := [], lastId := s.client.lastId + 1 }
    obtain ⟨hcut, hlost⟩ := left.writerEnded_link
    obtain ⟨link, hended⟩ := left.writerEnded_eq
    rw [hended] at hcut hlost
    have : Step normal s _ _ _ _ := .severed hrunning hcut hlost
    dsimp only
    rw [if_pos rfl]
    change Step normal s .sever .done { s with client := (left.writerEnded.moveTo .shutdown).client }
      (visible (_ ++ left.writerEnded.writeOrLog _ _ ++ (left.writerEnded.moveTo .shutdown).effects))
    rw [hended]
    simpa [left, hrunning, outgoing, hcut, Outbound.closing, Outbound.call] using this

/-- Whatever happens, it goes on in one of these ways. -/
theorem turn_step (s : Shared) (m : Moment) :
    Step m.normal s m.deed (s.turn m).answer (s.turn m).next (visible (s.turn m).effects) := by
  obtain ⟨normal, deed⟩ := m
  cases deed with
  | finish => exact .finished (finish_finishing normal s.client s.left)
  | sever => exact sever_step normal s
  | act a =>
      cases a with
      | receive message =>
          change Step normal s _ _ _ (visible (_ ++ _))
          rw [visible_append]
          exact .took (finish_finishing ..) (take_taking ..)
      | _ => exact .called nofun (step_transition normal s.client _)

end Shared

/-! ## The invariant -/

namespace Client

/-- What is known of a request whose reply was taken: it is pending no more, and if it is the client's
own it is the handshake. -/
structure Taken (c : Client) (p : Pending) : Prop where
  used : p.id ≤ c.lastId
  gone : ∀ q ∈ c.pending, q.id ≠ p.id
  own : p.continuation = .handshake → p = ⟨1, .handshake, .handshake⟩

variable {normal : Normalizer} {c d : Client} {a : Action} {v : Answer} {es : List Effect}
  {left : Option Remainder} {message : Json}

theorem Transition.lastId_le (t : Transition normal c a v d es) : c.lastId ≤ d.lastId := by
  cases t with
  | handshakeSent _ _ => exact Nat.le_succ _
  | handshakeRefused _ _ => exact Nat.le_succ _
  | sendAccepted _ _ => exact Nat.le_succ _
  | sendRefused _ _ => exact Nat.le_succ _
  | shutdown _ => exact Nat.le_succ _
  | writerEnded => exact Nat.le_of_eq (writerEnded_lastId c).symm
  | _ => exact Nat.le_refl _

theorem Transition.pending_fresh (t : Transition normal c a v d es) {q : Pending}
    (hq : q ∈ d.pending) : q ∈ c.pending ∨ q.id = c.lastId + 1 := by
  have happend : ∀ {kind k}, q ∈ c.pending ++ [⟨c.lastId + 1, kind, k⟩] →
      q ∈ c.pending ∨ q.id = c.lastId + 1 := fun h =>
    (List.mem_append.mp h).imp_right fun h => congrArg Pending.id (List.mem_singleton.mp h)
  have hforget : ∀ {id}, q ∈ (c.forget id).pending → q ∈ c.pending ∨ q.id = c.lastId + 1 :=
    fun h => .inl (List.mem_filter.mp h).1
  cases t with
  | handshakeSent _ _ => exact happend hq
  | sendAccepted _ _ => exact happend hq
  | cancelled _ => exact hforget hq
  | replied _ _ _ => exact hforget hq
  | opened _ _ _ _ => exact hforget hq
  | openedLate _ _ _ _ => exact hforget hq
  | shutdown _ => exact absurd hq List.not_mem_nil
  | connectionLost => exact absurd hq List.not_mem_nil
  | writerEnded => exact .inl (writerEnded_pending c ▸ hq)
  | _ => exact .inl hq

theorem Taken.transition {p : Pending} (h : c.Taken p) (t : Transition normal c a v d es) :
    d.Taken p where
  used := Nat.le_trans h.used t.lastId_le
  gone q hq := by
    rcases t.pending_fresh hq with hold | hfresh
    · exact h.gone q hold
    · rw [hfresh]
      exact Nat.ne_of_gt (Nat.lt_succ_of_le h.used)
  own := h.own

/-! What is done about a message that was taken. -/

theorem Finishing.lastId_eq (f : Finishing normal c left d es) : d.lastId = c.lastId := by
  cases f <;> rfl

theorem Finishing.link_eq (f : Finishing normal c left d es) : d.link = c.link := by
  cases f <;> rfl

/-- The reply to the handshake apart, nothing that was left to do changes the client. -/
theorem Finishing.completes (f : Finishing normal c left d es)
    (htaken : ∀ p result, left = some (.resume p result) → c.Taken p) :
    (∃ result, left = some (.resume ⟨1, .handshake, .handshake⟩ result) ∧ c.state = .started ∧
        d = c.established result) ∨
      d = c ∧ ∀ result, left = some (.resume ⟨1, .handshake, .handshake⟩ result) →
        c.state ≠ .started := by
  cases f with
  | nothing => exact .inr ⟨rfl, nofun⟩
  | editAnnounced => exact .inr ⟨rfl, nofun⟩
  | handled hk =>
      refine .inr ⟨rfl, fun result h => ?_⟩
      obtain ⟨rfl, -⟩ := Remainder.resume.inj (Option.some.inj h)
      exact absurd hk Continuation.noConfusion
  | opened hk hs =>
      obtain rfl := (htaken _ _ rfl).own hk
      exact .inl ⟨_, rfl, hs, rfl⟩
  | openedLate _ hs => exact .inr ⟨rfl, fun _ _ => hs⟩

theorem Coherent.finishing (hc : c.Coherent)
    (htaken : ∀ p result, left = some (.resume p result) → c.Taken p)
    (f : Finishing normal c left d es) : d.Coherent := by
  rcases f.completes htaken with ⟨result, hleft, hs, rfl⟩ | ⟨rfl, -⟩
  · exact .of_idle (hc.idle_of_started hs (htaken _ _ hleft).gone) nofun
  · exact hc

/-! What is done to take a message. -/

theorem Taking.state_eq (k : Taking normal c message d left es) : d.state = c.state := by
  cases k <;> rfl

theorem Taking.capabilities_eq (k : Taking normal c message d left es) :
    d.capabilities = c.capabilities := by
  cases k <;> rfl

theorem Taking.lastId_eq (k : Taking normal c message d left es) : d.lastId = c.lastId := by
  cases k <;> rfl

theorem Taking.link_eq (k : Taking normal c message d left es) : d.link = c.link := by
  cases k <;> rfl

theorem Coherent.taking (hc : c.Coherent) (k : Taking normal c message d left es) :
    d.Coherent := by
  cases k with
  | replied _ _ => exact hc.forget _
  | editAsked _ => exact hc.of_eq rfl rfl rfl rfl
  | _ => exact hc

theorem Taking.taken (k : Taking normal c message d left es) (hc : c.Coherent) {p : Pending}
    {result : Json} (hleft : left = some (.resume p result)) : d.Taken p := by
  cases k with
  | replied _ hfound =>
      obtain ⟨rfl, -⟩ := Remainder.resume.inj (Option.some.inj hleft)
      obtain ⟨hmem, rfl⟩ := pending?_some hfound
      exact ⟨hc.used _ hmem, fun q hq => by simpa using (List.mem_filter.mp hq).2,
        fun hk => (hc.handshake_pending hmem hk).2⟩
  | _ => exact absurd hleft nofun

end Client

namespace Shared

/-- What holds of every client that is shared with a reader. -/
structure Sound (s : Shared) : Prop where
  coherent : s.client.Coherent
  taken : ∀ p result, s.left = some (.resume p result) → s.client.Taken p

variable {normal : Normalizer} {s t : Shared} {d : Deed} {v : Answer} {es : List Effect}

theorem sound_fresh (workspace : Params.Workspace) (processId : Nat) :
    (fresh workspace processId).Sound where
  coherent := coherent_fresh workspace processId
  taken _ _ h := absurd h nofun

theorem Step.lastId_le (h : Step normal s d v t es) : s.client.lastId ≤ t.client.lastId := by
  cases h with
  | called _ h => exact h.lastId_le
  | took f k => exact Nat.le_of_eq (k.lastId_eq.trans f.lastId_eq).symm
  | finished f => exact Nat.le_of_eq f.lastId_eq.symm
  | severIgnored _ => exact Nat.le_refl _
  | severed _ _ _ => exact Nat.le_succ _

theorem Sound.step (hs : s.Sound) (h : Step normal s d v t es) : t.Sound := by
  cases h with
  | called _ h => exact ⟨hs.coherent.transition h, fun p r hleft => (hs.taken p r hleft).transition h⟩
  | took f k =>
      have hc := hs.coherent.finishing hs.taken f
      exact ⟨hc.taking k, fun _ _ hleft => k.taken hc hleft⟩
  | finished f => exact ⟨hs.coherent.finishing hs.taken f, nofun⟩
  | severIgnored _ => exact hs
  | severed _ _ _ =>
      refine ⟨.of_idle rfl nofun, fun p r hleft => ⟨?_, nofun, (hs.taken p r hleft).own⟩⟩
      exact Nat.le_succ_of_le (hs.taken p r hleft).used

theorem Sound.turn (hs : s.Sound) (m : Moment) : (s.turn m).next.Sound := hs.step (s.turn_step m)

theorem Sound.after (hs : s.Sound) (history : List Moment) : (s.after history).Sound := by
  induction history generalizing s with
  | nil => exact hs
  | cons m rest ih => exact ih (hs.turn m)

theorem lastId_le_after (s : Shared) (history : List Moment) :
    s.client.lastId ≤ (s.after history).client.lastId := by
  induction history generalizing s with
  | nil => exact Nat.le_refl _
  | cons m rest ih => exact Nat.le_trans (s.turn_step m).lastId_le (ih _)

/-! ## Histories without anything in between -/

/-- A moment of a history, in which a message that was received is dealt with at once. -/
def embed (m : LanguageClient.Moment) : List Moment :=
  match m.action with
  | .receive message => [⟨m.normal, .act (.receive message)⟩, ⟨m.normal, .finish⟩]
  | a => [⟨m.normal, .act a⟩]

theorem deed_of_mem_embed {x : LanguageClient.Moment} {m : Moment} (h : m ∈ embed x) :
    m.deed = .act x.action ∨ m.deed = .finish := by
  obtain ⟨normal, a⟩ := x
  cases a with
  | receive message =>
      rcases List.mem_cons.mp h with rfl | h
      · exact .inl rfl
      · exact .inr (congrArg Moment.deed (List.mem_singleton.mp h))
  | _ => exact .inl (congrArg Moment.deed (List.mem_singleton.mp h))

/-- A history is one in which every message is dealt with at once. -/
theorem after_embed (c : Client) (history : List LanguageClient.Moment) :
    (Shared.mk c none).after (history.flatMap embed) = ⟨c.after history, none⟩ ∧
      (Shared.mk c none).effects (history.flatMap embed) = c.effects history := by
  induction history generalizing c with
  | nil => exact ⟨rfl, rfl⟩
  | cons m rest ih =>
      obtain ⟨normal, a⟩ := m
      obtain ⟨hafter, heffects⟩ := ih (c.turn ⟨normal, a⟩).client
      rw [List.flatMap_cons]
      cases a with
      | receive message =>
          refine ⟨hafter, ?_⟩
          change [] ++ (c.take normal message).effects ++ (((c.take normal message).client.finish normal
            (c.take normal message).value).effects ++ Shared.effects _ (rest.flatMap embed)) = _
          rw [List.nil_append, ← List.append_assoc]
          exact congrArg _ heffects
      | _ => exact ⟨hafter, congrArg _ heffects⟩

end Shared

end LanguageClient
