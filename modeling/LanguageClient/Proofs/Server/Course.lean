import LanguageClient.Proofs.Server.Chapter
import LanguageClient.Server.Course

/-!
# What is heard in the course of a session

A session goes through several processes, and what its subscriber is told of their states comes in
blocks, one for each process in turn (`session_chapters`). The invariant is local: `Episode.Fits` says
what holds of one process at the stage at which the session stands with it (`Course.stage`), and each
kind of move is one lemma about the process that it concerns. A process of the past has been replaced,
and its session is absent from then on; so a move made for it has nothing left to tell.
-/

namespace LanguageClient.Server

open Document (Normalizer)

/-- Has the handshake with the process been asked for at this stage? -/
def Phase.opened (stage : Phase) : Bool := stage ∉ [.spawned, .watched]

/-- Is the start of the process over at this stage? -/
def Phase.settled (stage : Phase) : Bool := stage ∉ [.spawned, .watched, .greeted]

/-- A start or a stop looks at the process after the handshake. -/
theorem Phase.opened_of_mem {stage : Phase} (h : stage ∈ [.greeted, .parted]) :
    stage.opened = true ∧ stage ≠ .spawned := by
  obtain rfl | rfl : stage = .greeted ∨ stage = .parted := by simpa using h
  · decide
  · decide

/-- A move that neither begins a session nor gives its connection up but where a start, a stop or the
one who waits for the end does so. -/
def Move.Discreet : Move → Prop
  | .act _ a => a ≠ .handshake ∧ a ≠ .connectionLost
  | _ => True

/-! ## One process -/

namespace Incarnation

theorem news_nil {i : Incarnation} (h : i.seen = []) : i.news = [] := by
  unfold news
  rw [h]
  rfl

theorem state_eq {i j : Incarnation} (h : j.connection = i.connection) : j.state = i.state := by
  unfold state
  rw [h]

theorem Holds.of_eq {i j : Incarnation} {c : Client} (hi : i.Holds c)
    (h : j.connection = i.connection) : j.Holds c where
  client := by rw [h, hi.client]
  subscribed := by rw [h, hi.subscribed]

end Incarnation

namespace Episode

/-- What holds of a process at a stage. The block is what was told of its states; `noticed` means that
its end was noticed after the handshake. -/
structure Fits (stage : Phase) (block : List SessionState) (noticed : Prop) (p : Episode) : Prop where
  held : ∃ c, p.incarnation.Holds c
  unseen : p.incarnation.seen = []
  running : p.incarnation.running = true ↔ p.vigil = .waiting
  watched : stage ≠ .spawned → p.incarnation.watched = true
  chapter : Chapter stage.opened p.incarnation.state block
  ended : noticed ↔ stage.opened = true ∧ p.incarnation.state = .absent
  reaped : noticed → p.incarnation.running = false
  /-- A process is replaced only when its session is absent. -/
  replaced : stage = .starting → p.incarnation.state = .absent
  /-- When the end was reported and the start is over, the session is absent. -/
  finished : p.vigil = .finished → stage.settled = true → p.incarnation.state = .absent

@[simp] theorem attend_number (p : Episode) (now : Vigil) (f : Incarnation → Incarnation)
    (next : Vigil) : (p.attend now f next).number = p.number := by
  unfold attend
  split <;> rfl

theorem held_taken {p : Episode} (h : ∃ c, p.incarnation.Holds c) :
    ∃ c, p.taken.incarnation.Holds c := by
  obtain ⟨c, hc⟩ := h
  exact ⟨c, hc.of_eq rfl⟩

/-- Does a move notice, after the handshake, that the process has ended? The one who waits for the end
does so when it knows the client, a start or a stop when it looks at the process. -/
def Notices (stage : Phase) (p : Episode) : Move → Prop
  | .report number =>
      number = p.number ∧ p.vigil = .signalled ∧ p.incarnation.watched = true ∧ stage.opened = true
  | .recheck => stage ∈ [.greeted, .parted] ∧ p.incarnation.running = false
  | _ => False

namespace Fits

variable {stage next : Phase} {block : List SessionState} {noticed noticed' : Prop} {p q : Episode}

theorem congr (h : p.Fits stage block noticed) (hiff : noticed' ↔ noticed) :
    p.Fits stage block noticed' := by
  rwa [propext hiff]

theorem restage (h : p.Fits stage block noticed) (hopened : next.opened = stage.opened)
    (hwatched : next ≠ .spawned → p.incarnation.watched = true)
    (hstarting : next = .starting → p.incarnation.state = .absent)
    (hfinished : p.vigil = .finished → next.settled = true → p.incarnation.state = .absent) :
    p.Fits next block noticed where
  held := h.held
  unseen := h.unseen
  running := h.running
  watched := hwatched
  chapter := hopened ▸ h.chapter
  ended := hopened ▸ h.ended
  reaped := h.reaped
  replaced := hstarting
  finished := hfinished

theorem aside (h : p.Fits stage block noticed)
    (hsame : q.incarnation.connection = p.incarnation.connection)
    (hseen : q.incarnation.seen = p.incarnation.seen)
    (hrunning : q.incarnation.running = true ↔ q.vigil = .waiting)
    (hwatched : p.incarnation.watched = true → q.incarnation.watched = true)
    (hreaped : p.incarnation.running = false → q.incarnation.running = false)
    (hfinished : q.vigil = .finished → stage.settled = true → p.incarnation.state = .absent) :
    q.taken.Fits stage (block ++ q.incarnation.news) noticed where
  held := by
    obtain ⟨c, hc⟩ := h.held
    exact ⟨c, hc.of_eq hsame⟩
  unseen := rfl
  running := hrunning
  watched hstage := hwatched (h.watched hstage)
  chapter := by
    rw [Incarnation.news_nil (hseen.trans h.unseen), List.append_nil]
    exact (Incarnation.state_eq hsame).symm ▸ h.chapter
  ended := (Incarnation.state_eq hsame).symm ▸ h.ended
  reaped hnoticed := hreaped (h.reaped hnoticed)
  replaced hstage := (Incarnation.state_eq hsame).trans (h.replaced hstage)
  finished hvigil hstage := (Incarnation.state_eq hsame).trans (hfinished hvigil hstage)

theorem used (h : p.Fits stage block noticed) {i : Incarnation}
    (hcontinues : p.incarnation.Continues i)
    (hkept : i.state = .absent → p.incarnation.state = .absent)
    (hrunning : i.running = p.incarnation.running) (hwatched : i.watched = p.incarnation.watched) :
    ({ p with incarnation := i } : Episode).taken.Fits stage (block ++ i.news) noticed where
  held := held_taken hcontinues.held
  unseen := rfl
  running := hrunning ▸ h.running
  watched hstage := hwatched.trans (h.watched hstage)
  chapter := hcontinues.chapter h.chapter
  ended := h.ended.trans (and_congr_right fun _ => ⟨fun hp => (hcontinues.silent hp).1, hkept⟩)
  reaped hnoticed := hrunning.trans (h.reaped hnoticed)
  replaced hstage := (hcontinues.silent (h.replaced hstage)).1
  finished hvigil hstage := (hcontinues.silent (h.finished hvigil hstage)).1

/-- The client is told that the process has ended. Before the handshake that tells it nothing. -/
theorem lost (h : p.Fits stage block noticed) (hended : p.incarnation.running = false)
    (hq : q.incarnation = (p.incarnation.perform .connectionLost).1) (hvigil : q.vigil ≠ .waiting) :
    q.taken.Fits stage (block ++ q.incarnation.news) (stage.opened = true) := by
  obtain ⟨c, hc⟩ := h.held
  obtain ⟨hcontinues, habsent, -⟩ := Incarnation.lost_continues hc h.unseen
  have hrunning : (p.incarnation.perform .connectionLost).1.running = p.incarnation.running := rfl
  have hwatched : (p.incarnation.perform .connectionLost).1.watched = p.incarnation.watched := rfl
  rw [← hq] at hcontinues habsent hrunning hwatched
  exact {
    held := held_taken hcontinues.held
    unseen := rfl
    running := by simp [taken, hrunning, hended, hvigil]
    watched := fun hstage => hwatched.trans (h.watched hstage)
    chapter := hcontinues.chapter h.chapter
    ended := ⟨fun hopened => ⟨hopened, habsent⟩, And.left⟩
    reaped := fun _ => hrunning.trans hended
    replaced := fun _ => habsent
    finished := fun _ _ => habsent }

theorem greets (h : p.Fits .watched block noticed) :
    ({ p with incarnation := p.incarnation.handshake.1 } : Episode).taken.Fits .greeted
      (block ++ p.incarnation.handshake.1.news) noticed := by
  obtain ⟨c, hc⟩ := h.held
  obtain ⟨hheld, hlive, hchapter⟩ := Incarnation.handshake_opens hc h.unseen h.chapter
  have hnot : ¬ noticed := fun hnoticed => absurd (h.ended.mp hnoticed).1 (by decide)
  exact {
    held := held_taken hheld
    unseen := rfl
    running := h.running
    watched := fun _ => h.watched (by decide)
    chapter := hchapter
    ended := ⟨fun hnoticed => absurd hnoticed hnot, fun habsent => absurd habsent.2 hlive⟩
    reaped := fun hnoticed => absurd hnoticed hnot
    replaced := nofun
    finished := fun _ hsettled => absurd hsettled (by decide) }

theorem told_out (h : p.Fits .starting block noticed) {more : List SessionState}
    (h' : q.Fits .starting (block ++ more) noticed') : more = [] := by
  have hbefore := h.chapter
  have hafter := h'.chapter
  rw [h.replaced rfl] at hbefore
  rw [h'.replaced rfl] at hafter
  exact hbefore.final hafter

/-! ### The moves that concern one process -/

theorem fresh (number : Nat) (normal : Normalizer) (workspace : Document.Params.Workspace)
    (fault : String) :
    ({ number := number, incarnation := Incarnation.begin normal workspace fault } : Episode).Fits
      .spawned [] False where
  held := ⟨_, rfl, rfl⟩
  unseen := rfl
  running := ⟨fun _ => rfl, fun _ => rfl⟩
  watched := fun h => absurd rfl h
  chapter := .unheard
  ended := ⟨False.elim, fun h => absurd h.1 (by decide)⟩
  reaped := False.elim
  replaced := nofun
  finished := nofun

theorem watch (h : p.Fits .spawned block noticed) :
    ({ p with incarnation := p.incarnation.watch } : Episode).taken.Fits .watched
      (block ++ p.incarnation.watch.news) noticed := by
  have haside := h.aside (q := { p with incarnation := p.incarnation.watch }) rfl rfl h.running
    (fun _ => rfl) id h.finished
  exact haside.restage rfl (fun _ => rfl) nofun fun _ hsettled => absurd hsettled (by decide)

/-- A look at a process that runs changes nothing; one at a process that has ended notices that. -/
theorem recheck (h : p.Fits stage block noticed) (hstage : stage ∈ [.greeted, .parted]) :
    ({ p with incarnation := p.incarnation.recheck.1 } : Episode).taken.Fits .idle
      (block ++ p.incarnation.recheck.1.news) (noticed ∨ p.Notices stage .recheck) := by
  obtain ⟨hopened, hspawned⟩ := Phase.opened_of_mem hstage
  cases hrunning : p.incarnation.running with
  | true =>
      have hsame : p.incarnation.recheck.1 = p.incarnation := by simp [Incarnation.recheck, hrunning]
      have hwaiting := h.running.mp hrunning
      have hunnoticed : noticed ∨ p.Notices stage .recheck ↔ noticed := by
        simp [Notices, hrunning]
      rw [hsame]
      refine Fits.congr ?_ hunnoticed
      exact (h.aside (q := p) rfl rfl h.running id id h.finished).restage hopened.symm
        (fun _ => h.watched hspawned) nofun
        fun hvigil => absurd (hwaiting.symm.trans hvigil) (by decide)
  | false =>
      have hlost : p.incarnation.recheck.1 = (p.incarnation.perform .connectionLost).1 := by
        simp [Incarnation.recheck, hrunning]
      have hvigil : p.vigil ≠ .waiting := fun hv => by simp [h.running.mpr hv] at hrunning
      have hnoticed : noticed ∨ p.Notices stage .recheck ↔ stage.opened = true :=
        iff_of_true (.inr ⟨hstage, hrunning⟩) hopened
      have hafter := (h.lost (q := { p with incarnation := p.incarnation.recheck.1 }) hrunning hlost
        hvigil).congr hnoticed
      exact hafter.restage hopened.symm (fun _ => hafter.watched hspawned) nofun
        fun _ _ => (hafter.ended.mp (.inr ⟨hstage, hrunning⟩)).2

theorem farewell (h : p.Fits .stopping block noticed) :
    ({ p with incarnation := p.incarnation.farewell.1 } : Episode).taken.Fits .parted
      (block ++ p.incarnation.farewell.1.news) noticed := by
  obtain ⟨c, hc⟩ := h.held
  obtain ⟨hcontinues, hkept⟩ := Incarnation.perform_continues hc h.unseen (a := .shutdown) nofun nofun
  have hused := h.used hcontinues hkept rfl rfl
  exact hused.restage rfl (fun _ => hused.watched (by decide)) nofun
    fun hvigil _ => hused.finished hvigil (by decide)

theorem leave (h : p.Fits .parted block noticed) :
    p.taken.Fits .idle (block ++ p.incarnation.news) noticed := by
  have haside := h.aside (q := p) rfl rfl h.running id id h.finished
  exact haside.restage rfl (fun _ => h.watched (by decide)) nofun
    fun hvigil _ => h.finished hvigil (by decide)

/-- The end is reported to a client that is known, and so noticed after the handshake. A client that
is not yet known is not told; its start goes on to look at the process. -/
theorem report (h : p.Fits stage block noticed) (hvigil : p.vigil = .signalled) :
    ({ p with incarnation := p.incarnation.report.1, vigil := .finished } : Episode).taken.Fits stage
      (block ++ p.incarnation.report.1.news) (noticed ∨ p.Notices stage (.report p.number)) := by
  have hended : p.incarnation.running = false :=
    Bool.eq_false_iff.mpr fun hrunning => absurd ((h.running.mp hrunning).symm.trans hvigil) (by decide)
  cases hwatched : p.incarnation.watched with
  | true =>
      have hlost : p.incarnation.report.1 = (p.incarnation.perform .connectionLost).1 := by
        simp [Incarnation.report, hwatched]
      have hnoticed : noticed ∨ p.Notices stage (.report p.number) ↔ stage.opened = true :=
        ⟨fun hor => hor.elim (fun hn => (h.ended.mp hn).1) fun hn => hn.2.2.2,
          fun hopened => .inr ⟨rfl, hvigil, hwatched, hopened⟩⟩
      exact (h.lost (q := { p with incarnation := p.incarnation.report.1, vigil := .finished }) hended
        hlost (by simp)).congr hnoticed
  | false =>
      have hsame : p.incarnation.report.1 = p.incarnation := by simp [Incarnation.report, hwatched]
      have hspawned : stage = .spawned :=
        Decidable.byContradiction fun hs => by simp [h.watched hs] at hwatched
      have hunnoticed : noticed ∨ p.Notices stage (.report p.number) ↔ noticed := by
        simp [Notices, hwatched]
      rw [hsame]
      refine Fits.congr ?_ hunnoticed
      refine h.aside (q := { p with vigil := .finished }) rfl rfl ?_ id id fun _ hsettled => ?_
      · simp [hended]
      · rw [hspawned] at hsettled
        exact absurd hsettled (by decide)

end Fits

end Episode

/-! ## All processes -/

namespace Course

/-- What the subscriber was told of states, each with the number of the process. -/
def told (x : Course) : List (Nat × SessionState) :=
  x.events.filterMap fun e => e.2.state?.map (e.1, ·)

/-- What it was told of the states of the process with a number. -/
def block (x : Course) (number : Nat) : List SessionState :=
  (x.told.filter (·.1 = number)).map (·.2)

/-- The stage at which the session stands with the process with a number. -/
def stage (x : Course) (number : Nat) : Phase :=
  if number = x.episodes.length then x.phase else .starting

/-- Does a move notice that the process with a number has ended? -/
def Notices (x : Course) (number : Nat) (m : Move) : Prop :=
  ∃ p ∈ x.episodes, p.number = number ∧ p.Notices (x.stage number) m

/-- Does one of the moves notice it? -/
def Noticed (number : Nat) : Course → List Move → Prop
  | _, [] => False
  | x, m :: rest => x.Notices number m ∨ Noticed number (x.step m) rest

/-- What holds in every course. `noticed` tells of which processes the end was noticed. -/
structure Sound (x : Course) (noticed : Nat → Prop) : Prop where
  numbered : x.episodes.map (·.number) = (List.range' 1 x.episodes.length).reverse
  fits : ∀ p ∈ x.episodes, p.Fits (x.stage p.number) (x.block p.number) (noticed p.number)
  chronicle : x.told = (List.range' 1 x.episodes.length).flatMap fun n => (x.block n).map (n, ·)
  known : ∀ n, noticed n → n ≤ x.episodes.length

variable {x y : Course} {noticed : Nat → Prop} {p q : Episode}

/-- No two processes have the same number. -/
def Distinct (x : Course) : Prop := (x.episodes.map (·.number)).Nodup

theorem Distinct.eq (h : x.Distinct) (hp : p ∈ x.episodes) (hq : q ∈ x.episodes)
    (heq : p.number = q.number) : p = q :=
  List.inj_on_of_nodup_map h hp hq heq

namespace Sound

theorem number_le (h : x.Sound noticed) (hp : p ∈ x.episodes) : p.number ≤ x.episodes.length := by
  have hmem : p.number ∈ x.episodes.map (·.number) := List.mem_map_of_mem hp
  rw [h.numbered, List.mem_reverse, List.mem_range'_1] at hmem
  omega

theorem distinct (h : x.Sound noticed) : x.Distinct := by
  rw [Distinct, h.numbered]
  exact List.nodup_reverse.mpr List.nodup_range'

theorem newest_number (h : x.Sound noticed) {rest : List Episode} (hx : x.episodes = p :: rest) :
    p.number = x.episodes.length := by
  have hnumbers := h.numbered
  rw [hx, List.length_cons, List.range'_concat, List.reverse_append] at hnumbers
  have hfirst : p.number = 1 + 1 * rest.length := (List.cons.inj hnumbers).1
  rw [hx, List.length_cons]
  omega

theorem notices_iff (h : x.Sound noticed) (hp : p ∈ x.episodes) (m : Move) :
    x.Notices p.number m ↔ p.Notices (x.stage p.number) m := by
  refine ⟨fun ⟨q, hq, hnumber, hnotices⟩ => ?_, fun hnotices => ⟨p, hp, rfl, hnotices⟩⟩
  obtain rfl := h.distinct.eq hp hq hnumber.symm
  exact hnotices

end Sound

/-! ### Doing something with one process -/

theorem told_append (x : Course) (number : Nat) (seen : List Observation) :
    told { x with events := x.events ++ (heard seen).map (number, ·) } =
      x.told ++ ((heard seen).filterMap SessionEvent.state?).map (number, ·) := by
  unfold told
  rw [List.filterMap_append, List.filterMap_map, List.map_filterMap]
  rfl

@[simp] theorem change_phase (x : Course) (number : Nat) (f : Episode → Episode) :
    (x.change number f).phase = x.phase := by
  unfold change
  split <;> rfl

theorem Distinct.change_eq (h : x.Distinct) (hp : p ∈ x.episodes) (f : Episode → Episode) :
    x.change p.number f =
      { x with
        episodes := x.episodes.map fun e => if e.number = p.number then (f p).taken else e
        events := x.events ++ (heard (f p).incarnation.seen).map (p.number, ·) } := by
  have hfind : x.episodes.find? (·.number = p.number) = some p := by
    obtain ⟨q, hq⟩ : ∃ q, x.episodes.find? (·.number = p.number) = some q :=
      Option.isSome_iff_exists.mp (List.find?_isSome.mpr ⟨p, hp, by simp⟩)
    have hnumber : q.number = p.number := by simpa using List.find?_some hq
    rw [hq, h.eq (List.mem_of_find?_eq_some hq) hp hnumber]
  unfold change
  rw [hfind]
  rfl

theorem Distinct.change_numbers (h : x.Distinct) (hp : p ∈ x.episodes) {f : Episode → Episode}
    (hf : (f p).number = p.number) :
    (x.change p.number f).episodes.map (·.number) = x.episodes.map (·.number) := by
  rw [h.change_eq hp f, List.map_map]
  refine List.map_congr_left fun e _ => ?_
  simp only [Function.comp_def]
  split
  next he => exact hf.trans he.symm
  next => rfl

theorem block_change {number : Nat} {news : List SessionState}
    (htold : y.told = x.told ++ news.map (number, ·)) (n : Nat) :
    y.block n = if n = number then x.block n ++ news else x.block n := by
  unfold block
  rw [htold, List.filter_append, List.map_append]
  split
  next hn =>
    subst hn
    congr 1
    simp [List.filter_map, Function.comp_def]
  next hn => simp [List.filter_map, Function.comp_def, Ne.symm hn]

/-- What is told goes on with the block of the newest process, so the blocks stay in order. -/
theorem chronicle_change {number count : Nat} {news : List SessionState}
    (hx : x.told = (List.range' 1 count).flatMap fun n => (x.block n).map (n, ·))
    (htold : y.told = x.told ++ news.map (number, ·)) (hpos : 0 < count)
    (hlast : number ≠ count → news = []) :
    y.told = (List.range' 1 count).flatMap fun n => (y.block n).map (n, ·) := by
  by_cases hnumber : number = count
  · subst hnumber
    obtain ⟨k, rfl⟩ : ∃ k, number = k + 1 := ⟨number - 1, by omega⟩
    rw [List.range'_concat, List.flatMap_append, Nat.one_mul, Nat.add_comm 1 k] at hx ⊢
    have hearlier : ((List.range' 1 k).flatMap fun n => (y.block n).map (n, ·)) =
        (List.range' 1 k).flatMap fun n => (x.block n).map (n, ·) := by
      refine List.flatMap_congr fun n hn => ?_
      have hle := (List.mem_range'_1.mp hn).2
      rw [block_change htold, if_neg (by omega)]
    rw [hearlier, htold, hx, List.append_assoc]
    simp [block_change htold]
  · have hnews := hlast hnumber
    subst hnews
    rw [List.map_nil, List.append_nil] at htold
    have hsame : ∀ n, y.block n = x.block n := fun n => by rw [block, block, htold]
    rw [htold, hx]
    exact List.flatMap_congr fun n _ => by rw [hsame]

/-- Something is done with one process, and the session goes on to another phase if it is the newest.
The move notices no end but that of this process. -/
theorem Sound.change (h : x.Sound noticed) (hp : p ∈ x.episodes) {f : Episode → Episode}
    (next : Phase) {m : Move} (hnumber : (f p).number = p.number)
    (hphase : p.number ≠ x.episodes.length → next = x.phase)
    (hothers : ∀ q ∈ x.episodes, q.number ≠ p.number → ¬ q.Notices (x.stage q.number) m)
    (hfits : (f p).taken.Fits (if p.number = x.episodes.length then next else .starting)
      (x.block p.number ++ (f p).incarnation.news)
      (noticed p.number ∨ p.Notices (x.stage p.number) m)) :
    ({ x.change p.number f with phase := next } : Course).Sound
      fun n => noticed n ∨ x.Notices n m := by
  have hnumbers := h.distinct.change_numbers hp hnumber
  rw [h.distinct.change_eq hp f] at hnumbers ⊢
  generalize hy : ({ x with
    episodes := x.episodes.map fun e => if e.number = p.number then (f p).taken else e
    events := x.events ++ (heard (f p).incarnation.seen).map (p.number, ·)
    phase := next } : Course) = y
  have htold : y.told = x.told ++ (f p).incarnation.news.map (p.number, ·) := by
    rw [← hy]
    exact told_append x p.number (f p).incarnation.seen
  have hepisodes : y.episodes =
      x.episodes.map fun e => if e.number = p.number then (f p).taken else e := by rw [← hy]
  rw [← hepisodes] at hnumbers
  have hcount : y.episodes.length = x.episodes.length := by rw [hepisodes, List.length_map]
  have hpos : 0 < x.episodes.length := List.length_pos_of_mem hp
  have hlast : p.number ≠ x.episodes.length → (f p).incarnation.news = [] := by
    intro hold
    have hbefore := h.fits p hp
    rw [stage, if_neg hold] at hbefore
    rw [if_neg hold] at hfits
    exact hbefore.told_out hfits
  refine ⟨?_, fun e he => ?_, ?_, fun n hn => ?_⟩
  · rw [hnumbers, hcount]
    exact h.numbered
  · rw [hepisodes] at he
    obtain ⟨e', he', rfl⟩ := List.mem_map.mp he
    have hstage : ∀ n, y.stage n = if n = x.episodes.length then next else .starting := by
      intro n
      rw [stage, hcount, ← hy]
    by_cases hsame : e'.number = p.number
    · rw [if_pos hsame]
      have hnum : (f p).taken.number = p.number := hnumber
      rw [hnum, hstage, block_change htold, if_pos rfl]
      exact hfits.congr (or_congr_right (h.notices_iff hp m))
    · rw [if_neg hsame, hstage, block_change htold, if_neg hsame]
      have hunnoticed : noticed e'.number ∨ x.Notices e'.number m ↔ noticed e'.number := by
        rw [h.notices_iff he']
        exact or_iff_left (hothers e' he' hsame)
      have hold := (h.fits e' he').congr hunnoticed
      rw [stage] at hold
      by_cases hnewest : e'.number = x.episodes.length
      · rw [if_pos hnewest] at hold ⊢
        rwa [hphase fun hp => hsame (hnewest.trans hp.symm)]
      · rw [if_neg hnewest] at hold ⊢
        exact hold
  · rw [hcount]
    exact chronicle_change h.chronicle htold hpos hlast
  · rw [hcount]
    rcases hn with hn | ⟨e, he, rfl, -⟩
    · exact h.known n hn
    · exact h.number_le he

theorem Sound.rephase (h : x.Sound noticed) (next : Phase) {m : Move}
    (hnone : ∀ p ∈ x.episodes, ¬ p.Notices (x.stage p.number) m)
    (hnewest : ∀ p rest, x.episodes = p :: rest →
      p.Fits next (x.block p.number) (noticed p.number)) :
    ({ x with phase := next } : Course).Sound fun n => noticed n ∨ x.Notices n m where
  numbered := h.numbered
  fits p hp := by
    have hunnoticed : noticed p.number ∨ x.Notices p.number m ↔ noticed p.number := by
      rw [h.notices_iff hp]
      exact or_iff_left (hnone p hp)
    refine Episode.Fits.congr ?_ hunnoticed
    by_cases hnumber : p.number = x.episodes.length
    · obtain ⟨q, rest, hx⟩ := List.exists_cons_of_ne_nil (List.ne_nil_of_mem hp)
      have hq := h.newest_number hx
      obtain rfl := h.distinct.eq hp (hx ▸ List.mem_cons_self) (hnumber.trans hq.symm)
      change p.Fits (if p.number = x.episodes.length then next else .starting) _ _
      rw [if_pos hnumber]
      exact hnewest p rest hx
    · have hold := h.fits p hp
      rw [stage, if_neg hnumber] at hold
      change p.Fits (if p.number = x.episodes.length then next else .starting) _ _
      rwa [if_neg hnumber]
  chronicle := h.chronicle
  known n hn := by
    rcases hn with hn | ⟨p, hp, rfl, -⟩
    · exact h.known n hn
    · exact h.number_le hp

theorem Sound.still (h : x.Sound noticed) {m : Move}
    (hnone : ∀ p ∈ x.episodes, ¬ p.Notices (x.stage p.number) m) :
    x.Sound fun n => noticed n ∨ x.Notices n m := by
  refine h.rephase x.phase hnone fun p rest hx => ?_
  have hp := h.fits p (hx ▸ List.mem_cons_self)
  rwa [stage, if_pos (h.newest_number hx)] at hp

/-- A step of a start or a stop keeps the invariant if it does so for the newest process. -/
theorem Sound.advance (h : x.Sound noticed) {now : List Phase} {f : Incarnation → Incarnation}
    {next : Phase} {m : Move} (hnone : ∀ stage (p : Episode), stage ∉ now → ¬ p.Notices stage m)
    (hstarting : .starting ∉ now)
    (hnewest : ∀ (p : Episode), ∀ stage ∈ now, ∀ block (noticed : Prop), p.Fits stage block noticed →
      ({ p with incarnation := f p.incarnation } : Episode).taken.Fits next
        (block ++ (f p.incarnation).news) (noticed ∨ p.Notices stage m)) :
    (x.advance now f next).Sound fun n => noticed n ∨ x.Notices n m := by
  have hearly : x.phase ∉ now → ∀ p ∈ x.episodes, ¬ p.Notices (x.stage p.number) m := by
    intro hphase p _
    refine hnone _ p ?_
    unfold stage
    split
    · exact hphase
    · exact hstarting
  unfold Course.advance
  split
  next p rest hx =>
    split
    next hphase =>
      have hp : p ∈ x.episodes := hx ▸ List.mem_cons_self
      have hnumber := h.newest_number hx
      have hstage : x.stage p.number = x.phase := if_pos hnumber
      refine h.change hp next rfl (fun hold => absurd hnumber hold) (fun q _ hq => ?_) ?_
      · refine hnone _ q ?_
        rw [stage, if_neg fun hcount => hq (hcount.trans hnumber.symm)]
        exact hstarting
      · rw [if_pos hnumber]
        refine hnewest p _ ?_ _ _ (h.fits p hp)
        rwa [hstage]
    next hphase => exact h.still (hearly hphase)
  next hx => exact h.still fun p hp => absurd (hx ▸ hp) List.not_mem_nil

/-- A step that concerns the process with a number keeps the invariant if it does so for that
process. -/
theorem Sound.touch (h : x.Sound noticed) {number : Nat} {f : Episode → Episode} {m : Move}
    (hnumber : ∀ p, (f p).number = p.number)
    (hnone : ∀ stage (p : Episode), p.number ≠ number → ¬ p.Notices stage m)
    (hlocal : ∀ (p : Episode) stage block (noticed : Prop), p.number = number →
      p.Fits stage block noticed →
      (f p).taken.Fits stage (block ++ (f p).incarnation.news) (noticed ∨ p.Notices stage m)) :
    (x.change number f).Sound fun n => noticed n ∨ x.Notices n m := by
  by_cases hfound : ∃ p ∈ x.episodes, p.number = number
  · obtain ⟨p, hp, rfl⟩ := hfound
    have hsame : x.change p.number f = { x.change p.number f with phase := x.phase } := by
      rw [← change_phase x p.number f]
    rw [hsame]
    refine h.change hp x.phase (hnumber p) (fun _ => rfl) (fun q _ hq => hnone _ q hq) ?_
    exact hlocal p _ _ _ rfl (h.fits p hp)
  · have hmissing : x.episodes.find? (·.number = number) = none := by
      refine List.find?_eq_none.mpr fun p hp hn => hfound ⟨p, hp, ?_⟩
      simpa using hn
    unfold Course.change
    rw [hmissing]
    exact h.still fun p hp => hnone _ p fun hn => hfound ⟨p, hp, hn⟩

/-- A step of the one who waits for the end keeps the invariant if it does so for a process of which
that one has come so far. -/
theorem Sound.attend (h : x.Sound noticed) {number : Nat} {now next : Vigil}
    {f : Incarnation → Incarnation} {m : Move}
    (hnone : ∀ stage (p : Episode), p.number ≠ number ∨ p.vigil ≠ now → ¬ p.Notices stage m)
    (hlocal : ∀ (p : Episode) stage block (noticed : Prop), p.number = number → p.vigil = now →
      p.Fits stage block noticed →
      ({ p with incarnation := f p.incarnation, vigil := next } : Episode).taken.Fits stage
        (block ++ (f p.incarnation).news) (noticed ∨ p.Notices stage m)) :
    (x.attend number now f next).Sound fun n => noticed n ∨ x.Notices n m := by
  refine h.touch (fun p => p.attend_number ..) (fun stage p hn => hnone stage p (.inl hn))
    fun p stage block N hn hp => ?_
  unfold Episode.attend
  split
  next hvigil => exact hlocal p stage block N hn hvigil hp
  next hvigil =>
    refine Episode.Fits.congr ?_ (or_iff_left (hnone stage p (.inr hvigil)))
    exact hp.aside rfl rfl hp.running id id hp.finished

theorem Sound.block_unknown (h : x.Sound noticed) {n : Nat} (hn : x.episodes.length < n) :
    x.block n = [] := by
  unfold block
  rw [List.map_eq_nil_iff, List.filter_eq_nil_iff]
  intro e he
  rw [h.chronicle] at he
  obtain ⟨k, hk, he⟩ := List.mem_flatMap.mp he
  obtain ⟨s, -, rfl⟩ := List.mem_map.mp he
  have hle := (List.mem_range'_1.mp hk).2
  simp
  omega

theorem Sound.spawn (h : x.Sound noticed) (hphase : x.phase = .starting) {e : Episode} {m : Move}
    (hnone : ∀ p ∈ x.episodes, ¬ p.Notices (x.stage p.number) m)
    (hnumber : e.number = x.episodes.length + 1) (he : e.Fits .spawned [] False) :
    ({ x with episodes := e :: x.episodes, phase := .spawned } : Course).Sound
      fun n => noticed n ∨ x.Notices n m := by
  have hstill := h.still hnone
  refine ⟨?_, fun p hp => ?_, ?_, fun n hn => Nat.le_succ_of_le (hstill.known n hn)⟩
  · rw [List.map_cons, h.numbered, List.length_cons, List.range'_concat, List.reverse_append, hnumber,
      Nat.one_mul, Nat.add_comm 1]
    rfl
  · change p.Fits (if p.number = x.episodes.length + 1 then .spawned else .starting)
      (x.block p.number) _
    rcases List.mem_cons.mp hp with rfl | hp
    · have hunknown : ¬ (noticed p.number ∨ x.Notices p.number m) := fun hn => by
        have hle := hstill.known _ hn
        omega
      rw [if_pos hnumber, h.block_unknown (by omega)]
      exact he.congr (iff_of_false hunknown id)
    · have hle := h.number_le hp
      have hold := hstill.fits p hp
      have hstage : x.stage p.number = .starting := by
        unfold stage
        split
        · exact hphase
        · rfl
      rw [hstage] at hold
      rw [if_neg (by omega)]
      exact hold
  · change x.told = (List.range' 1 (x.episodes.length + 1)).flatMap fun n => (x.block n).map (n, ·)
    rw [List.range'_concat, List.flatMap_append, ← h.chronicle]
    simp [h.block_unknown (n := 1 + x.episodes.length) (by omega)]

/-- **One step.** Every move keeps the invariant. -/
theorem Sound.step (h : x.Sound noticed) {m : Move} (hm : m.Discreet) :
    (x.step m).Sound fun n => noticed n ∨ x.Notices n m := by
  cases m with
  | start =>
      have hnone : ∀ p ∈ x.episodes, ¬ p.Notices (x.stage p.number) .start := fun _ _ => id
      change (if x.phase = .idle ∧ x.state = .absent then { x with phase := .starting } else x).Sound _
      split
      next hready =>
        obtain ⟨hidle, habsent⟩ := hready
        refine h.rephase .starting hnone fun p rest hx => ?_
        have hp := h.fits p (hx ▸ List.mem_cons_self)
        rw [stage, if_pos (h.newest_number hx), hidle] at hp
        have hstate : p.incarnation.state = .absent := by
          rw [← habsent, state, hx]
        exact hp.restage rfl (fun _ => hp.watched (by decide)) (fun _ => hstate) fun _ _ => hstate
      next => exact h.still hnone
  | spawn normal workspace fault =>
      have hnone : ∀ p ∈ x.episodes, ¬ p.Notices (x.stage p.number) (.spawn normal workspace fault) :=
        fun _ _ => id
      by_cases hphase : x.phase = .starting
      · have hspawned := h.spawn hphase hnone rfl (.fresh _ normal workspace fault)
        rwa [Course.step, if_pos hphase]
      · rw [Course.step, if_neg hphase]
        exact h.still hnone
  | fail =>
      have hnone : ∀ p ∈ x.episodes, ¬ p.Notices (x.stage p.number) .fail := fun _ _ => id
      change (if x.phase = .starting then { x with phase := .idle } else x).Sound _
      split
      next hphase =>
        refine h.rephase .idle hnone fun p rest hx => ?_
        have hp := h.fits p (hx ▸ List.mem_cons_self)
        rw [stage, if_pos (h.newest_number hx), hphase] at hp
        exact hp.restage rfl (fun _ => hp.watched (by decide)) nofun fun _ _ => hp.replaced rfl
      next => exact h.still hnone
  | stop =>
      have hnone : ∀ p ∈ x.episodes, ¬ p.Notices (x.stage p.number) .stop := fun _ _ => id
      change (if x.phase = .idle ∧ x.running then { x with phase := .stopping } else x).Sound _
      split
      next hready =>
        refine h.rephase .stopping hnone fun p rest hx => ?_
        have hp := h.fits p (hx ▸ List.mem_cons_self)
        rw [stage, if_pos (h.newest_number hx), hready.1] at hp
        exact hp.restage rfl (fun _ => hp.watched (by decide)) nofun
          fun hvigil _ => hp.finished hvigil rfl
      next => exact h.still hnone
  | watch =>
      change (x.advance [.spawned] (·.watch) .watched).Sound _
      refine h.advance (fun _ _ _ => id) (by decide) fun p stage hstage block noticed hp => ?_
      obtain rfl := List.mem_singleton.mp hstage
      exact hp.watch.congr (or_iff_left id)
  | handshake =>
      change (x.advance [.watched] (·.handshake.1) .greeted).Sound _
      refine h.advance (fun _ _ _ => id) (by decide) fun p stage hstage block noticed hp => ?_
      obtain rfl := List.mem_singleton.mp hstage
      exact hp.greets.congr (or_iff_left id)
  | recheck =>
      change (x.advance [.greeted, .parted] (·.recheck.1) .idle).Sound _
      refine h.advance (fun stage p hlate hn => hlate hn.1) (by decide)
        fun p stage hstage block noticed hp => ?_
      exact hp.recheck hstage
  | farewell =>
      change (x.advance [.stopping] (·.farewell.1) .parted).Sound _
      refine h.advance (fun _ _ _ => id) (by decide) fun p stage hstage block noticed hp => ?_
      obtain rfl := List.mem_singleton.mp hstage
      exact hp.farewell.congr (or_iff_left id)
  | leave =>
      change (x.advance [.parted] id .idle).Sound _
      refine h.advance (fun _ _ _ => id) (by decide) fun p stage hstage block noticed hp => ?_
      obtain rfl := List.mem_singleton.mp hstage
      exact hp.leave.congr (or_iff_left id)
  | publish number =>
      change (x.attend number .waiting (·.reap) .published).Sound _
      refine h.attend (fun _ _ _ => id) fun p stage block noticed _ hvigil hp => ?_
      have haside := hp.aside (q := { p with incarnation := p.incarnation.reap, vigil := .published })
        rfl rfl (by simp [Incarnation.reap]) id (fun _ => rfl) nofun
      exact haside.congr (or_iff_left id)
  | signal number =>
      change (x.attend number .published id .signalled).Sound _
      refine h.attend (fun _ _ _ => id) fun p stage block noticed _ hvigil hp => ?_
      have haside := hp.aside (q := { p with vigil := .signalled }) rfl rfl
        (by simp [hp.running, hvigil]) id id nofun
      exact haside.congr (or_iff_left id)
  | report number =>
      change (x.attend number .signalled (·.report.1) .finished).Sound _
      refine h.attend (fun stage p hother hn => ?_) fun p stage block noticed hn hvigil hp => ?_
      · rcases hother with hnumber | hvigil
        · exact hnumber hn.1.symm
        · exact hvigil hn.2.1
      · subst hn
        exact hp.report hvigil
  | use number traffic =>
      refine h.touch (fun _ => rfl) (fun _ _ _ => id) fun p stage block noticed _ hp => ?_
      obtain ⟨c, hc⟩ := hp.held
      obtain ⟨hcontinues, hkept⟩ := Incarnation.use_continues hc hp.unseen traffic
      exact (hp.used hcontinues hkept rfl rfl).congr (or_iff_left id)
  | act number a =>
      refine h.touch (fun _ => rfl) (fun _ _ _ => id) fun p stage block noticed _ hp => ?_
      obtain ⟨c, hc⟩ := hp.held
      obtain ⟨hcontinues, hkept⟩ := Incarnation.perform_continues hc hp.unseen hm.1 hm.2
      exact (hp.used hcontinues hkept rfl rfl).congr (or_iff_left id)

/-- **A run.** What the moves of a run keep together. -/
theorem Sound.run (h : x.Sound noticed) {moves : List Move} (hm : ∀ m ∈ moves, m.Discreet) :
    (x.run moves).Sound fun n => noticed n ∨ x.Noticed n moves := by
  induction moves generalizing x noticed with
  | nil =>
      have hnone : (fun n => noticed n ∨ x.Noticed n []) = noticed := funext fun n => by simp [Noticed]
      rw [hnone]
      exact h
  | cons m rest ih =>
      obtain ⟨hfirst, hrest⟩ := List.forall_mem_cons.mp hm
      have hlater := ih (h.step hfirst) hrest
      simp only [or_assoc] at hlater
      exact hlater

theorem sound_new : ({} : Course).Sound fun _ => False where
  numbered := rfl
  fits _ hp := absurd hp List.not_mem_nil
  chronicle := rfl
  known _ := False.elim

/-! ### What the invariant says -/

/-- A process that was replaced has an absent session, and its chapter is closed. -/
theorem Sound.replaced (h : x.Sound noticed) (hp : p ∈ x.episodes)
    (hold : p.number < x.episodes.length) :
    noticed p.number ∧ p.incarnation.state = .absent ∧ (x.block p.number).getLast? = some .absent := by
  have hfits := h.fits p hp
  rw [stage, if_neg (by omega)] at hfits
  have habsent := hfits.replaced rfl
  have hchapter := hfits.chapter
  rw [habsent] at hchapter
  exact ⟨hfits.ended.mpr ⟨rfl, habsent⟩, habsent, hchapter.ends⟩

theorem Sound.older_number (h : x.Sound noticed) {rest : List Episode} (hx : x.episodes = p :: rest)
    (hq : q ∈ rest) : q.number < x.episodes.length := by
  have hmem : q ∈ x.episodes := hx ▸ List.mem_cons_of_mem p hq
  have hdistinct := h.distinct
  rw [Distinct, hx, List.map_cons, List.nodup_cons] at hdistinct
  have hne : q.number ≠ p.number := fun heq => hdistinct.1 (heq ▸ List.mem_map_of_mem hq)
  have hle := h.number_le hmem
  have hnewest := h.newest_number hx
  omega

/-- The session is in the state that was told last. -/
theorem Sound.state_told (h : x.Sound noticed) :
    x.state = (x.told.map (·.2)).getLastD .absent := by
  have hlast : (x.told.map (·.2)).getLast? =
      x.episodes.findSome? fun p => (x.block p.number).getLast? := by
    have hblocks : x.told.map (·.2) = (List.range' 1 x.episodes.length).flatMap x.block := by
      conv_lhs => rw [h.chronicle]
      simp [List.map_flatMap, Function.comp_def]
    rw [hblocks, List.getLast?_flatMap, ← h.numbered, List.findSome?_map]
    rfl
  rw [List.getLastD_eq_getLast?, hlast]
  cases hx : x.episodes with
  | nil => simp [state, hx]
  | cons p rest =>
      have hstate := (h.fits p (hx ▸ List.mem_cons_self)).chapter.last
      rw [List.getLastD_eq_getLast?] at hstate
      rw [state, hx, List.findSome?_cons]
      cases hp : (x.block p.number).getLast? with
      | some s =>
          rw [hp] at hstate
          exact hstate
      | none =>
          rw [hp] at hstate
          refine hstate.trans ?_
          -- nothing is told of the newest process yet, so the process before it was told of last
          cases hrest : rest with
          | nil => rfl
          | cons q _ =>
              have hq : q ∈ rest := hrest ▸ List.mem_cons_self
              have hreplaced := h.replaced (hx ▸ List.mem_cons_of_mem p hq) (h.older_number hx hq)
              rw [List.findSome?_cons, hreplaced.2.2]
              rfl

/-- A late report of the end of a process that was replaced tells nothing and leaves the session as it
is. -/
theorem Sound.late_report (h : x.Sound noticed) (hp : p ∈ x.episodes)
    (hold : p.number < x.episodes.length) :
    (x.step (.report p.number)).events = x.events ∧
      (x.step (.report p.number)).phase = x.phase ∧
      (x.step (.report p.number)).state = x.state ∧
      (x.step (.report p.number)).episodes.head? = x.episodes.head? := by
  have hfits := h.fits p hp
  obtain ⟨-, habsent, -⟩ := h.replaced hp hold
  let f (e : Episode) : Episode := e.attend .signalled (·.report.1) .finished
  have hstep : x.step (.report p.number) = x.change p.number f := rfl
  have hsilent : heard (f p).incarnation.seen = [] := by
    obtain ⟨c, hc⟩ := hfits.held
    unfold f Episode.attend
    split
    · exact Incarnation.report_silent hc hfits.unseen habsent
    · rw [hfits.unseen]
      rfl
  have hhead : (x.change p.number f).episodes.head? = x.episodes.head? := by
    obtain ⟨e, rest, hx⟩ := List.exists_cons_of_ne_nil (List.ne_nil_of_mem hp)
    have hnewest := h.newest_number hx
    rw [h.distinct.change_eq hp f, hx]
    simp only [List.map_cons, List.head?_cons]
    rw [if_neg (by omega)]
  rw [hstep]
  refine ⟨?_, change_phase .., ?_, hhead⟩
  · rw [h.distinct.change_eq hp f, hsilent]
    simp
  · have hstate : ∀ y : Course,
        y.state = ((y.episodes.head?.map (·.incarnation.state)).getD .absent) := by
      intro y
      unfold state
      split
      next p _ hy => rw [hy]; rfl
      next hy => rw [hy]; rfl
    rw [hstate, hhead, ← hstate]

/-- **The chapters of a session.** Whatever is done with a session and in whatever order, as long as
nobody else begins it or gives its connection up, the subscriber is told of one process after the
other, and the session is in the state that was told last. Nothing is told of a process before its
handshake. From then on what is told of it is that it started, perhaps that it runs, perhaps that it
shuts down, and then its absence, once and exactly if its end was noticed, which takes that it has
ended. It is noticed when the end was reported and the start is over, and always before the process is
replaced; a report that comes later still changes nothing for the process that replaced it. -/
theorem session_chapters (moves : List Move) (discreet : ∀ m ∈ moves, m.Discreet) :
    let x := ({} : Course).run moves
    x.episodes.map (·.number) = (List.range' 1 x.episodes.length).reverse ∧
    (x.told = (List.range' 1 x.episodes.length).flatMap fun n => (x.block n).map (n, ·)) ∧
    x.state = (x.told.map (·.2)).getLastD .absent ∧
    ∀ p ∈ x.episodes,
      let n := p.number
      let noticed := ({} : Course).Noticed n moves
      ((x.stage n).opened = false → x.block n = []) ∧
      ((x.stage n).opened = true → ∃ k ended, 1 ≤ k ∧ k ≤ 3 ∧ (ended = true ↔ noticed) ∧
        x.block n = [.started, .running, .shutdown].take k ++ if ended then [.absent] else []) ∧
      (noticed → p.incarnation.running = false) ∧
      (p.vigil = .finished → (x.stage n).settled = true → noticed) ∧
      (n < x.episodes.length → noticed ∧
        let y := x.step (.report n)
        y.events = x.events ∧ y.phase = x.phase ∧ y.state = x.state ∧
          y.episodes.head? = x.episodes.head?) := by
  intro x
  have h : x.Sound fun n => ({} : Course).Noticed n moves := by
    have hrun := sound_new.run discreet
    simpa only [false_or] using hrun
  refine ⟨h.numbered, h.chronicle, h.state_told, ?_⟩
  intro p hp n noticed
  have hfits := h.fits p hp
  refine ⟨fun hstage => ?_, fun hstage => ?_, hfits.reaped, fun hvigil hsettled => ?_,
    fun hold => ⟨(h.replaced hp hold).1, h.late_report hp hold⟩⟩
  · have hchapter := hfits.chapter
    rw [hstage] at hchapter
    exact hchapter.ungreeted.2
  · have hchapter := hfits.chapter
    rw [hstage] at hchapter
    obtain ⟨k, ended, hmin, hmax, hended, hblock⟩ := hchapter.shape
    refine ⟨k, ended, hmin, hmax, hended.trans ?_, hblock⟩
    exact ⟨fun habsent => hfits.ended.mpr ⟨hstage, habsent⟩, fun hn => (hfits.ended.mp hn).2⟩
  · have hopened : (x.stage n).opened = true := by
      revert hsettled
      cases x.stage n <;> decide
    exact hfits.ended.mpr ⟨hopened, hfits.finished hvigil hsettled⟩

/-- A server that ends while it is being started, and whose end is reported when it was already started
again. -/
theorem restarted_chapters :
    let moves : List Move :=
      [.start, .spawn some ⟨"/work", "file:///work", .null, false⟩ "", .watch, .handshake, .publish 1,
        .recheck, .start, .spawn some ⟨"/work", "file:///work", .null, false⟩ "", .watch, .handshake,
        .recheck, .signal 1, .report 1]
    let x := ({} : Course).run moves
    (∀ m ∈ moves, m.Discreet) ∧ x.told = [(1, .started), (1, .absent), (2, .started)] ∧
      x.state = (x.told.map (·.2)).getLastD .absent := by
  intro moves x
  have hmoves : ∀ m ∈ moves, m.Discreet := by simp [moves, Move.Discreet]
  exact ⟨hmoves, by rfl, (session_chapters moves hmoves).2.2.1⟩

end Course

end LanguageClient.Server
