import LanguageClient.Client.Feature
import LanguageClient.Proofs.Client.Handshake

/-!
# The order of what a client sends

Requests and notifications go out in the order that the protocol asks for (`Outline`): the session is
opened once, the handshake is either cancelled, and then nothing follows, or completed; then come the
callers' messages and the cancellations of pending requests, and last the farewell, of which only the
first half goes out if the writer ends in between. `Stage` ties the posts so far to the state, the
handshake and the link, which is what every step keeps.
-/

namespace LanguageClient

open Rpc Document Client

/-- The request or notification that an effect queues; responses are answers to the server. -/
def Effect.own? : Effect → Option Outbound
  | .queue (.request r) => some (.request r)
  | .queue (.notification n) => some (.notification n)
  | _ => none

/-- The requests and notifications among effects, in order. -/
def own (es : List Effect) : List Outbound := es.filterMap Effect.own?

/-- Is the message a request to initialize? -/
def Outbound.initializes : Outbound → Bool
  | .request r => r.method == RequestKind.handshake.method
  | _ => false

/-- A request or notification that was queued: the client that queued it, the moment that made it,
and what the caller was answered. -/
structure Post where
  before : Shared
  moment : Shared.Moment
  answer : Answer
  message : Outbound

/-- All requests and notifications that a history queues, in order. -/
def Shared.posts (s : Shared) : List Shared.Moment → List Post
  | [] => []
  | m :: rest =>
      (own (s.turn m).effects).map (Post.mk s m (s.turn m).answer) ++ (s.turn m).next.posts rest

namespace Post

/-- The post is a request under a counted identifier. -/
def Bears (p : Post) (id : Nat) : Prop := ∃ kind params, p.message = .call id kind params

/-- The request that opens the session, posted by the handshake under the first identifier. -/
structure Opens (p : Post) : Prop where
  deed : p.moment.deed = .act .handshake
  message : p.message = .opening 1 p.before.client.processId p.before.client.workspace

/-- The notification that completes the handshake, posted when the reply to it is dealt with. -/
structure Completes (p : Post) : Prop where
  reply : ∃ result, p.before.Completes p.moment.deed result
  message : p.message = .opened

/-- The notification that a request is cancelled, posted when a caller cancels one that is pending. -/
structure Cancels (p : Post) (id : Nat) : Prop where
  deed : p.moment.deed = .act (.cancel id)
  pending : (p.before.client.pending? id).isSome
  message : p.message = .cancellation id

/-- What is posted while the session runs. -/
inductive Ordinary (p : Post) : Prop
  /-- A caller's request that was accepted. -/
  | sent {kind params h id} : p.before.client.state = .running →
      p.moment.deed = .act (.send kind params h) → p.answer = .sent (some id) →
      p.message = .call id kind params → Ordinary p
  /-- A caller's notification that was accepted. -/
  | notified {method params} : p.moment.deed = .act (.notify method params) →
      p.answer = .notified (.ok ()) → p.message = .note method params → Ordinary p
  | cancelled {id} : p.Cancels id → Ordinary p

/-- The request to shut down. -/
structure Closes (p : Post) (id : Nat) : Prop where
  deed : p.moment.deed = .act .shutdown ∨ p.moment.deed = .sever
  message : p.message = .closing id

/-- The notification that ends the session. -/
structure Exits (p : Post) : Prop where
  deed : p.moment.deed = .act .shutdown
  message : p.message = .exit

/-- Was the post made by the handshake? -/
def isHandshake (p : Post) : Bool :=
  match p.moment.deed with
  | .act .handshake => true
  | _ => false

end Post

/-- The beginnings of the two orders in which a client may send: an opening that is cancelled, and an
opening that is completed, with the ordinary traffic and the farewell after it. -/
inductive Outline : List Post → Prop
  | silent : Outline []
  | opening {o} : o.Opens → Outline [o]
  | stranded {o k} : o.Opens → k.Cancels 1 → Outline [o, k]
  | running {o i ordinary} : o.Opens → i.Completes → (∀ p ∈ ordinary, p.Ordinary) →
      Outline (o :: i :: ordinary)
  /-- The writer ended before the second message of the farewell. -/
  | severed {o i ordinary s id} : o.Opens → i.Completes → (∀ p ∈ ordinary, p.Ordinary) →
      s.Closes id → (∀ p ∈ o :: i :: ordinary, ¬ p.Bears id) →
      Outline (o :: i :: ordinary ++ [s])
  /-- The farewell bears an identifier that no request bore before. -/
  | closed {o i ordinary s e id} : o.Opens → i.Completes → (∀ p ∈ ordinary, p.Ordinary) →
      s.Closes id → (∀ p ∈ o :: i :: ordinary, ¬ p.Bears id) → e.Exits →
      Outline (o :: i :: ordinary ++ [s, e])

/-! ## Whose post is whose -/

/-- What may follow the opening. -/
inductive Post.Follows (p : Post) : Prop
  | completes : p.Completes → Follows p
  | ordinary : p.Ordinary → Follows p
  | closes {id} : p.Closes id → Follows p
  | exits : p.Exits → Follows p

theorem Outline.of_cons {o : Post} {posts : List Post} (h : Outline (o :: posts)) :
    o.Opens ∧ ∀ p ∈ posts, p.Follows := by
  have hrunning : ∀ {i : Post} {ordinary : List Post}, i.Completes → (∀ p ∈ ordinary, p.Ordinary) →
      ∀ p ∈ i :: ordinary, p.Follows := fun hi hordinary p hp => by
    rcases List.mem_cons.mp hp with rfl | hp
    · exact .completes hi
    · exact .ordinary (hordinary p hp)
  cases h with
  | opening ho => exact ⟨ho, fun p hp => absurd hp List.not_mem_nil⟩
  | stranded ho hk =>
      refine ⟨ho, fun p hp => ?_⟩
      rw [List.mem_singleton.mp hp]
      exact .ordinary (.cancelled hk)
  | running ho hi hordinary => exact ⟨ho, hrunning hi hordinary⟩
  | @severed _ i ordinary s _ ho hi hordinary hs _ =>
      refine ⟨ho, fun p hp => ?_⟩
      rcases List.mem_append.mp (show p ∈ (i :: ordinary) ++ [s] from hp) with hp | hp
      · exact hrunning hi hordinary p hp
      · rw [List.mem_singleton.mp hp]
        exact .closes hs
  | @closed _ i ordinary s e _ ho hi hordinary hs _ he =>
      refine ⟨ho, fun p hp => ?_⟩
      rcases List.mem_append.mp (show p ∈ (i :: ordinary) ++ [s, e] from hp) with hp | hp
      · exact hrunning hi hordinary p hp
      rcases List.mem_cons.mp hp with rfl | hp
      · exact .closes hs
      · rw [List.mem_singleton.mp hp]
        exact .exits he

theorem Post.Follows.isHandshake {p : Post} (h : p.Follows) : p.isHandshake = false := by
  unfold Post.isHandshake
  cases h with
  | completes hi =>
      obtain ⟨_, hreads, -, -⟩ := hi.reply
      generalize p.moment.deed = d at hreads ⊢
      cases hreads <;> rfl
  | ordinary hordinary =>
      cases hordinary with
      | sent _ ha _ _ => rw [ha]
      | notified ha _ _ => rw [ha]
      | cancelled hk => rw [hk.deed]
  | closes hs => rcases hs.deed with h | h <;> rw [h]
  | exits he => rw [he.deed]

theorem method_handshake {kind : RequestKind}
    (h : kind.method = RequestKind.handshake.method) : kind = .handshake := by
  cases kind with
  | handshake => rfl
  | _ => exact absurd h (by decide)

theorem Query.kind_ne_handshake (q : Query) : q.kind ≠ .handshake := by
  cases q <;> exact nofun

theorem initializes_call {id : Nat} {kind : RequestKind} {params : Json}
    (h : (Outbound.call id kind params).initializes = true) : kind = .handshake :=
  method_handshake (beq_iff_eq.mp h)

/-- Behind the opening a request to initialize is one that a caller passed on as such. -/
theorem Post.Follows.initializes {p : Post} (h : p.Follows) (hp : p.message.initializes = true) :
    p.before.client.state = .running ∧ ∃ params h, p.moment.deed = .act (.send .handshake params h) := by
  cases h with
  | completes hi => rw [hi.message] at hp; exact absurd hp nofun
  | ordinary hordinary =>
      cases hordinary with
      | @sent kind params h id hs ha _ hm =>
          rw [hm] at hp
          obtain rfl := initializes_call hp
          exact ⟨hs, params, h, ha⟩
      | notified _ _ hm => rw [hm] at hp; exact absurd hp nofun
      | cancelled hk => rw [hk.message] at hp; exact absurd hp nofun
  | closes hs =>
      rw [hs.message] at hp
      exact absurd (initializes_call hp) (by decide)
  | exits he => rw [he.message] at hp; exact absurd hp nofun

/-! ## What the parts of an operation post -/

@[simp] theorem own_nil : own [] = [] := rfl

@[simp] theorem own_log (e : LogEvent) (es : List Effect) : own (.log e :: es) = own es := rfl

@[simp] theorem own_event (e : SessionEvent) (es : List Effect) :
    own (.event e :: es) = own es := rfl

@[simp] theorem own_invoke (h : Handler) (r : Reply) (es : List Effect) :
    own (.invoke h r :: es) = own es := rfl

@[simp] theorem own_discard (h : Handler) (es : List Effect) :
    own (.discard h :: es) = own es := rfl

@[simp] theorem own_call (id : Nat) (kind : RequestKind) (params : Json) (es : List Effect) :
    own (.queue (.call id kind params) :: es) = .call id kind params :: own es := rfl

@[simp] theorem own_note (method : String) (params : Json) (es : List Effect) :
    own (.queue (.note method params) :: es) = .note method params :: own es := rfl

@[simp] theorem own_response (r : Response) (es : List Effect) :
    own (.queue (.response r) :: es) = own es := rfl

@[simp] theorem own_append (es fs : List Effect) : own (es ++ fs) = own es ++ own fs :=
  List.filterMap_append

@[simp] theorem own_visible (es : List Effect) : own (visible es) = own es :=
  filterMap_visible (fun _ => rfl) es

namespace Client

@[simp] theorem own_abandon (k : Continuation) : own k.abandon = [] := by
  cases k <;> rfl

@[simp] theorem own_abandonAll (c : Client) : own c.abandonAll = [] := by
  unfold abandonAll
  induction c.pending with
  | nil => rfl
  | cons p rest ih => rw [List.flatMap_cons, own_append, own_abandon, ih, List.nil_append]

@[simp] theorem own_delivery (c : Client) (normal : Normalizer) (h : Handler) (result : Json) :
    own [c.delivery normal h result] = [] := by
  unfold delivery
  split <;> rfl

@[simp] theorem own_notificationEffects (normal : Normalizer) (method : String) (params : Json) :
    own (notificationEffects normal method params) = [] := by
  rw [← own_visible]
  refine List.filterMap_eq_nil_iff.mpr fun e he => ?_
  obtain ⟨s, rfl⟩ := notificationEffects_event he
  rfl

theorem outgoing_up {c : Client} (h : c.link = .up) (m : Outbound) : c.outgoing m = [.queue m] :=
  if_pos h

theorem outgoing_cut {c : Client} (h : c.link ≠ .up) (m : Outbound) : c.outgoing m = [] :=
  if_neg h

@[simp] theorem own_outgoing_response (c : Client) (r : Response) :
    own (c.outgoing (.response r)) = [] := by
  unfold outgoing
  split <;> rfl

/-- A link that was cut stays cut, and nothing is posted over it. -/
theorem Transition.cut {normal : Normalizer} {c d : Client} {a : Action} {v : Answer}
    {es : List Effect} (t : Transition normal c a v d es) (hcut : c.link ≠ .up) :
    own es = [] ∧ d.link ≠ .up := by
  cases t with
  | handshakeSent _ hlink => exact absurd hlink hcut
  | sendAccepted _ hlink => exact absurd hlink hcut
  | notifyAccepted _ hlink => exact absurd hlink hcut
  | responded _ hlink => exact absurd hlink hcut
  | cancelled _ => exact ⟨by simp [outgoing_cut hcut], hcut⟩
  | shutdown _ => exact ⟨by simp [outgoing_cut hcut], hcut⟩
  | opened _ _ _ _ => exact ⟨by simp [outgoing_cut hcut], hcut⟩
  | connectionLost =>
      refine ⟨?_, by simp⟩
      split <;> simp
  | writerEnded =>
      refine ⟨rfl, ?_⟩
      unfold Client.writerEnded
      split
      · simp
      · exact hcut
  | _ => exact ⟨by simp, hcut⟩

theorem Finishing.cut {normal : Normalizer} {c d : Client} {left : Option Remainder}
    {es : List Effect} (f : Finishing normal c left d es) (hcut : c.link ≠ .up) : own es = [] := by
  cases f with
  | opened _ _ => simp [outgoing_cut hcut]
  | _ => simp

/-- What is left to do posts something only if the session comes to run. -/
theorem Finishing.own_eq {normal : Normalizer} {c d : Client} {left : Option Remainder}
    {es : List Effect} (f : Finishing normal c left d es) (hlink : c.link = .up) :
    own es = if c.state = d.state then [] else [.opened] := by
  cases f with
  | opened _ hs => simp [hs, established, outgoing_up hlink, Outbound.opened]
  | _ => simp

theorem Taking.own_eq {normal : Normalizer} {c d : Client} {message : Json}
    {left : Option Remainder} {es : List Effect} (k : Taking normal c message d left es) :
    own es = [] := by
  cases k <;> simp

end Client

namespace Shared

variable {normal : Normalizer} {s t : Shared} {d : Deed} {v : Answer} {es : List Effect}
  {posts : List Post}

theorem Step.cut (h : Step normal s d v t es) (hcut : s.client.link ≠ .up) :
    own es = [] ∧ t.client.link ≠ .up := by
  cases h with
  | called _ h => exact h.cut hcut
  | took f k =>
      rw [own_append, f.cut hcut, k.own_eq, k.link_eq, f.link_eq]
      exact ⟨rfl, hcut⟩
  | finished f =>
      rw [f.link_eq]
      exact ⟨f.cut hcut, hcut⟩
  | severIgnored _ => exact ⟨rfl, hcut⟩
  | severed _ hlink _ => exact ⟨by simp [outgoing_cut hcut], hlink⟩

/-! ## Stages -/

/-- What a client has posted, by its link and its state. -/
inductive Stage (s : Shared) : List Post → Prop
  | cut {posts : List Post} : s.client.link ≠ .up → Outline posts → Stage s posts
  | silent : s.client.state = .absent → Stage s []
  | opening {o} : s.client.state = .started → o.Opens → Stage s [o]
  | stranded {o k} : s.client.state = .started → s.Spent → o.Opens → k.Cancels 1 → Stage s [o, k]
  | running {o i ordinary} : s.client.state = .running → o.Opens → i.Completes →
      (∀ p ∈ ordinary, p.Ordinary) →
      (∀ p ∈ o :: i :: ordinary, ∀ id, p.Bears id → id ≤ s.client.lastId) →
      Stage s (o :: i :: ordinary)
  | closed {posts : List Post} : s.client.state = .shutdown → Outline posts → Stage s posts

theorem Stage.outline (h : Stage s posts) : Outline posts := by
  cases h with
  | cut _ hposts => exact hposts
  | silent _ => exact .silent
  | opening _ ho => exact .opening ho
  | stranded _ _ ho hk => exact .stranded ho hk
  | running _ ho hi hordinary _ => exact .running ho hi hordinary
  | closed _ hposts => exact hposts

theorem Stage.quiet (h : Stage s posts) (hlink : t.client.link = s.client.link)
    (hstate : t.client.state = s.client.state) (hid : t.client.lastId = s.client.lastId)
    (hspent : s.Spent → t.Spent) : Stage t posts := by
  cases h with
  | cut hcut hposts => exact .cut (hlink ▸ hcut) hposts
  | silent hs => exact .silent (hstate.trans hs)
  | opening hs ho => exact .opening (hstate.trans hs) ho
  | stranded hs hgone ho hk => exact .stranded (hstate.trans hs) (hspent hgone) ho hk
  | running hs ho hi hordinary hused =>
      exact .running (hstate.trans hs) ho hi hordinary (hid ▸ hused)
  | closed hs hposts => exact .closed (hstate.trans hs) hposts

theorem Stage.unposted (h : Stage s posts) (hnone : own es = []) (f : Outbound → Post) :
    Stage s (posts ++ (own es).map f) := by
  rw [hnone, List.map_nil, List.append_nil]
  exact h

theorem bears_call {p : Post} {m n : Nat} {kind : RequestKind} {params : Json}
    (hp : p.message = .call m kind params) (h : p.Bears n) : n = m := by
  obtain ⟨kind', params', hn⟩ := h
  have hid := congrArg Request.id (Outbound.request.inj (hn.symm.trans hp))
  exact RequestId.ofNat_injective hid

theorem not_bears_note {p : Post} {n : Nat} {method : String} {params : Json}
    (hp : p.message = .note method params) : ¬ p.Bears n := by
  rintro ⟨kind, params', hn⟩
  exact absurd (hn.symm.trans hp) (by simp [Outbound.call, Outbound.note])

theorem Stage.of_running (h : Stage s posts) (hlink : s.client.link = .up)
    (hs : s.client.state = .running) :
    ∃ o i ordinary, posts = o :: i :: ordinary ∧ o.Opens ∧ i.Completes ∧
      (∀ p ∈ ordinary, p.Ordinary) ∧ ∀ p ∈ posts, ∀ id, p.Bears id → id ≤ s.client.lastId := by
  cases h with
  | cut hcut _ => exact absurd hlink hcut
  | silent h' => exact absurd (hs.symm.trans h') (by decide)
  | opening h' _ => exact absurd (hs.symm.trans h') (by decide)
  | stranded h' _ _ _ => exact absurd (hs.symm.trans h') (by decide)
  | running _ ho hi hordinary hused => exact ⟨_, _, _, rfl, ho, hi, hordinary, hused⟩
  | closed h' _ => exact absurd (hs.symm.trans h') (by decide)

theorem Stage.of_absent (h : Stage s posts) (hlink : s.client.link = .up)
    (hs : s.client.state = .absent) : posts = [] := by
  cases h with
  | cut hcut _ => exact absurd hlink hcut
  | silent _ => rfl
  | opening h' _ => exact absurd (hs.symm.trans h') (by decide)
  | stranded h' _ _ _ => exact absurd (hs.symm.trans h') (by decide)
  | running h' _ _ _ _ => exact absurd (hs.symm.trans h') (by decide)
  | closed h' _ => exact absurd (hs.symm.trans h') (by decide)

theorem Stage.of_started (h : Stage s posts) (hlink : s.client.link = .up)
    (hs : s.client.state = .started) (hspent : ¬ s.Spent) : ∃ o, posts = [o] ∧ o.Opens := by
  cases h with
  | cut hcut _ => exact absurd hlink hcut
  | silent h' => exact absurd (hs.symm.trans h') (by decide)
  | opening _ ho => exact ⟨_, rfl, ho⟩
  | stranded _ hgone _ _ => exact absurd hgone hspent
  | running h' _ _ _ _ => exact absurd (hs.symm.trans h') (by decide)
  | closed h' _ => exact absurd (hs.symm.trans h') (by decide)

/-- While the session runs one more ordinary post may follow. -/
theorem Stage.post {p : Post} (h : Stage s posts) (hlink : s.client.link = .up)
    (hs : s.client.state = .running) (ht : t.client.state = .running)
    (hid : s.client.lastId ≤ t.client.lastId) (hp : p.Ordinary)
    (hbears : ∀ id, p.Bears id → id ≤ t.client.lastId) : Stage t (posts ++ [p]) := by
  obtain ⟨o, i, ordinary, rfl, ho, hi, hordinary, hused⟩ := h.of_running hlink hs
  refine .running ht ho hi (fun q hq => ?_) fun q hq id hqid => ?_
  · rcases List.mem_append.mp hq with hq | hq
    · exact hordinary q hq
    · exact List.mem_singleton.mp hq ▸ hp
  · have hsplit : q ∈ (o :: i :: ordinary) ++ [p] := hq
    rcases List.mem_append.mp hsplit with hq | hq
    · exact Nat.le_trans (hused q hq id hqid) hid
    · exact hbears id (List.mem_singleton.mp hq ▸ hqid)

theorem Stage.complete (h : Stage s posts) (hs : s.Sound) (hlink : s.client.link = .up)
    {result : Json} (hd : s.Completes d result) (ht : t.client.state = .running)
    (hid : s.client.lastId ≤ t.client.lastId) :
    Stage t (posts ++ [⟨s, ⟨normal, d⟩, v, .opened⟩]) := by
  obtain ⟨o, rfl, ho⟩ := h.of_started hlink hd.started fun hspent => hspent.idle result hd.left
  refine .running ht ho ⟨⟨result, hd⟩, rfl⟩ (fun _ h => absurd h List.not_mem_nil)
    fun q hq id hqid => ?_
  rcases List.mem_cons.mp hq with rfl | hq
  · rw [bears_call ho.message hqid]
    exact Nat.le_trans (hs.taken _ _ hd.left).used hid
  · rw [List.mem_singleton.mp hq] at hqid
    exact absurd hqid (not_bears_note rfl)

/-- The farewell, or the half of it that goes out, ends the order. -/
theorem Stage.close (h : Stage s posts) (hlink : s.client.link = .up)
    (hs : s.client.state = .running) {farewell : List Post}
    (hfarewell : ∀ {o i : Post} {ordinary : List Post}, o.Opens → i.Completes → (∀ p ∈ ordinary, p.Ordinary) →
      (∀ p ∈ o :: i :: ordinary, ¬ p.Bears (s.client.lastId + 1)) →
      Outline (o :: i :: ordinary ++ farewell)) : Outline (posts ++ farewell) := by
  obtain ⟨o, i, ordinary, rfl, ho, hi, hordinary, hused⟩ := h.of_running hlink hs
  exact hfarewell ho hi hordinary fun p hp hbears =>
    absurd (hused p hp _ hbears) (Nat.not_succ_le_self _)

theorem Stage.called {a : Action} {c : Client} (h : Stage s posts) (hs : s.Sound)
    (hlink : s.client.link = .up) (hcall : ∀ message, a ≠ .receive message)
    (t : Transition normal s.client a v c es) :
    Stage ⟨c, s.left⟩ (posts ++ (own es).map (Post.mk s ⟨normal, .act a⟩ v)) := by
  have hspent : s.Spent → Spent ⟨c, s.left⟩ := fun h => h.step hs (.called hcall t)
  cases t with
  | handshakeSent habsent _ =>
      have hid : s.client.lastId = 0 := hs.coherent.unopened habsent hlink
      obtain rfl := h.of_absent hlink habsent
      refine .opening rfl ⟨rfl, ?_⟩
      rw [hid]
      rfl
  | sendAccepted hrunning _ =>
      refine h.post hlink hrunning hrunning (Nat.le_succ _) (.sent hrunning rfl rfl rfl)
        fun id hid => ?_
      exact Nat.le_of_eq (bears_call rfl hid)
  | notifyAccepted hrunning _ =>
      refine h.post hlink hrunning hrunning (Nat.le_refl _) (.notified rfl rfl rfl) fun id hid => ?_
      exact absurd hid (not_bears_note rfl)
  | @cancelled id p hfound =>
      obtain ⟨hmem, hid⟩ := pending?_some hfound
      have hcancels : (⟨s, ⟨normal, .act (.cancel id)⟩, .done, .cancellation id⟩ : Post).Cancels id :=
        ⟨rfl, by rw [hfound]; rfl, rfl⟩
      rw [outgoing_up hlink, own_append, own_abandon, List.nil_append]
      cases hstate : s.client.state with
      | absent => exact absurd (hs.coherent.absent hstate) (List.ne_nil_of_mem hmem)
      | shutdown => exact absurd (hs.coherent.shutdown hstate) (List.ne_nil_of_mem hmem)
      | started =>
          -- only the handshake is pending, so it is the one that is cancelled
          obtain rfl := hs.coherent.started hstate p hmem
          obtain rfl : 1 = id := hid
          obtain ⟨o, rfl, ho⟩ := h.of_started hlink hstate fun hspent => hspent.gone hmem
          refine .stranded hstate ⟨hs.coherent.used _ hmem, ?_, ?_⟩ ho hcancels
          · simp [Client.forget]
          · exact hs.not_left_of_pending hmem
      | running =>
          refine h.post hlink hstate hstate (Nat.le_refl _) (.cancelled hcancels) fun n hn => ?_
          exact absurd hn (not_bears_note rfl)
  | shutdown hrunning =>
      have hown : own (s.client.abandonAll ++ s.client.outgoing (.closing (s.client.lastId + 1)) ++
          s.client.outgoing .exit ++ [.event (.state .shutdown)]) =
          [.closing (s.client.lastId + 1), .exit] := by
        rw [outgoing_up hlink, outgoing_up hlink]
        simp only [own_append, own_abandonAll]
        rfl
      rw [hown]
      exact .closed rfl (h.close hlink hrunning fun ho hi hordinary hfresh =>
        .closed ho hi hordinary ⟨.inl rfl, rfl⟩ hfresh ⟨rfl, rfl⟩)
  | connectionLost =>
      refine (Stage.cut (by simp) h.outline).unposted ?_ _
      split <;> simp
  | writerEnded => exact (Stage.cut s.client.writerEnded_link.1 h.outline).unposted rfl _
  | replied _ _ _ => exact absurd rfl (hcall _)
  | opened _ _ _ _ => exact absurd rfl (hcall _)
  | openedLate _ _ _ _ => exact absurd rfl (hcall _)
  | stray _ _ => exact absurd rfl (hcall _)
  | editAsked _ => exact absurd rfl (hcall _)
  | unsupported _ _ => exact absurd rfl (hcall _)
  | told _ => exact absurd rfl (hcall _)
  | unclassified _ => exact absurd rfl (hcall _)
  | handshakeRefused _ hcut => exact absurd hlink hcut
  | sendRefused _ hcut => exact absurd hlink hcut
  | notifyRefused _ hcut => exact absurd hlink hcut
  | respondRefused _ hcut => exact absurd hlink hcut
  | _ =>
      refine Stage.unposted ?_ (by simp) _
      exact h.quiet rfl rfl rfl hspent

theorem Stage.finished {c : Client} {fs : List Effect} (h : Stage s posts) (hs : s.Sound)
    (hlink : s.client.link = .up) (hstep : Step normal s d v t es) (hd : d.ReadsOn)
    (f : Finishing normal s.client s.left c fs) (hown : own es = own fs)
    (hlast : t.client.link = c.link ∧ t.client.state = c.state ∧ t.client.lastId = c.lastId) :
    Stage t (posts ++ (own es).map (Post.mk s ⟨normal, d⟩ v)) := by
  obtain ⟨hl, hst, hid⟩ := hlast
  rcases hs.finishing hd f with ⟨result, hcompletes, rfl⟩ | ⟨rfl, -⟩
  · rw [hown, f.own_eq hlink, if_neg (by rw [hcompletes.started]; exact SessionState.noConfusion)]
    exact h.complete hs hlink hcompletes hst (Nat.le_of_eq hid.symm)
  · refine (h.quiet hl hst hid fun hspent => hspent.step hs hstep).unposted ?_ _
    rw [hown, f.own_eq hlink, if_pos rfl]

/-- Every step keeps the stage. -/
theorem Stage.step (h : Stage s posts) (hs : s.Sound) (hstep : Step normal s d v t es) :
    Stage t (posts ++ (own es).map (Post.mk s ⟨normal, d⟩ v)) := by
  by_cases hlink : s.client.link = .up
  case neg =>
    obtain ⟨hnone, hcut⟩ := hstep.cut hlink
    exact (Stage.cut hcut h.outline).unposted hnone _
  cases hstep with
  | called hcall t => exact h.called hs hlink hcall t
  | took f k =>
      refine h.finished hs hlink (.took f k) .receive f ?_ ⟨k.link_eq, k.state_eq, k.lastId_eq⟩
      rw [own_append, k.own_eq, List.append_nil]
  | finished f => exact h.finished hs hlink (.finished f) .finish f rfl ⟨rfl, rfl, rfl⟩
  | severIgnored _ => exact h.unposted rfl _
  | severed hrunning hcut _ =>
      have hown : own (s.client.abandonAll ++ s.client.outgoing (.closing (s.client.lastId + 1)) ++
          [.event (.state .shutdown)]) = [.closing (s.client.lastId + 1)] := by
        rw [outgoing_up hlink]
        simp only [own_append, own_abandonAll]
        rfl
      rw [hown]
      exact .cut hcut (h.close hlink hrunning fun ho hi hordinary hfresh =>
        .severed ho hi hordinary ⟨.inr rfl, rfl⟩ hfresh)

/-! ## The order of a history -/

theorem posts_messages (s : Shared) (history : List Moment) :
    (s.posts history).map (·.message) = own (s.effects history) := by
  induction history generalizing s with
  | nil => rfl
  | cons m rest ih =>
      rw [effects_cons, own_append, ← ih, posts, List.map_append, List.map_map]
      congr 1
      exact List.map_id _

theorem posts_stage (hs : s.Sound) (h : Stage s posts) (history : List Moment) :
    Stage (s.after history) (posts ++ s.posts history) := by
  induction history generalizing s posts with
  | nil =>
      rw [Shared.posts, List.append_nil]
      exact h
  | cons m rest ih =>
      have hturn := h.step hs (s.turn_step m)
      rw [own_visible] at hturn
      have hrest := ih (hs.turn m) hturn
      rw [List.append_assoc] at hrest
      exact hrest

theorem outline_posts (workspace : Params.Workspace) (processId : Nat) (history : List Moment) :
    Outline ((fresh workspace processId).posts history) :=
  (posts_stage (sound_fresh workspace processId) (.silent rfl) history).outline

/-- **The order of a session.** Whatever is done with a client, its requests and notifications go out
in the order of the protocol. At most one of them is made by a handshake; another request to
initialize is one that a caller passed on under that name while the session ran. -/
theorem posts_in_order (workspace : Params.Workspace) (processId : Nat) (history : List Moment) :
    let start := fresh workspace processId
    (start.posts history).map (·.message) = own (start.effects history) ∧
    Outline (start.posts history) ∧
      (start.posts history).countP Post.isHandshake ≤ 1 ∧
      ∀ p ∈ start.posts history, p.message.initializes → p.moment.deed = .act .handshake ∨
        p.before.client.state = .running ∧
          ∃ params h, p.moment.deed = .act (.send .handshake params h) := by
  intro start
  have houtline : Outline (start.posts history) := outline_posts workspace processId history
  refine ⟨posts_messages start history, houtline, ?_⟩
  cases hposts : start.posts history with
  | nil => exact ⟨Nat.zero_le _, fun p hp => absurd hp List.not_mem_nil⟩
  | cons o rest =>
      rw [hposts] at houtline
      obtain ⟨ho, hrest⟩ := houtline.of_cons
      refine ⟨?_, fun p hp hinit => ?_⟩
      · have hnone : rest.countP Post.isHandshake = 0 :=
          List.countP_eq_zero.mpr fun p hp => by simp [(hrest p hp).isHandshake]
        rw [List.countP_cons, hnone]
        split <;> decide
      · rcases List.mem_cons.mp hp with rfl | hp
        · exact .inl ho.deed
        · exact .inr ((hrest p hp).initializes hinit)

/-- A caller may pass on a second request to initialize. -/
theorem initialize_sent_twice :
    let reply : Json := .mkObj [("id", RequestId.wire 1), ("result", .mkObj [])]
    let history : List Moment := [⟨some, .act .handshake⟩, ⟨some, .act (.receive reply)⟩,
      ⟨some, .finish⟩, ⟨some, .act (.send .handshake .null ⟨7, .value, none⟩)⟩]
    (own ((fresh ⟨"/work", "file:///work", .null, false⟩ 0).effects history)).countP
      Outbound.initializes = 2 := by
  decide +kernel

theorem moment_mem {history : List Moment} {p : Post} (hp : p ∈ s.posts history) :
    p.moment ∈ history := by
  induction history generalizing s with
  | nil => exact absurd hp List.not_mem_nil
  | cons m rest ih =>
      rcases List.mem_append.mp hp with hp | hp
      · obtain ⟨message, -, rfl⟩ := List.mem_map.mp hp
        exact List.mem_cons_self
      · exact List.mem_cons_of_mem _ (ih hp)

/-- If the callers ask nothing but queries, a client never sends two requests to initialize. -/
theorem initialize_once (workspace : Params.Workspace) (processId : Nat) {history : List Moment}
    (hqueries : ∀ m ∈ history, ∀ kind params h, m.deed = .act (.send kind params h) →
      ∃ q : Query, q.kind = kind) :
    (own ((fresh workspace processId).effects history)).countP Outbound.initializes ≤ 1 := by
  have houtline := outline_posts workspace processId history
  rw [← posts_messages, List.countP_map]
  cases hposts : (fresh workspace processId).posts history with
  | nil => exact Nat.zero_le _
  | cons o rest =>
      rw [hposts] at houtline
      have hrest : rest.countP (Outbound.initializes ∘ (·.message)) = 0 := by
        refine List.countP_eq_zero.mpr fun p hp hinit => ?_
        obtain ⟨-, params, h, hsent⟩ := (houtline.of_cons.2 p hp).initializes hinit
        have hmoment : p.moment ∈ history := moment_mem (hposts ▸ List.mem_cons_of_mem o hp)
        obtain ⟨q, hq⟩ := hqueries p.moment hmoment _ params h hsent
        exact q.kind_ne_handshake hq
      rw [List.countP_cons, hrest]
      split <;> decide

end Shared

end LanguageClient
