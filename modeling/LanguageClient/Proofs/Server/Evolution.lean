import LanguageClient.Proofs.Server.Course
import LanguageClient.Proofs.Server.Stop
import LanguageClient.Server.Supervisor

/-!
# What becomes of processes beside a start

While time passes a supervisor uses the pipes of its processes, sends them signals and notices their
ends. For each process all this amounts to moves that concern it (`Process.Evolves`), and the moves of
several processes can be made in the order in which their observations are gathered (`run_evolves`). A
supervisor evolves whatever it does but start (`Supervisor.Evolves`).
-/

namespace LanguageClient

namespace Server

/-! ## One process -/

/-- Does the move concern the process with a number, other than by a start or a stop? -/
def Move.Concerns (number : Nat) : Move → Prop
  | .publish n => n = number
  | .signal n => n = number
  | .report n => n = number
  | .use n _ => n = number
  | .act n _ => n = number
  | _ => False

namespace Episode

/-- What such a move makes of the process; what is observed is not yet taken. -/
def undergo (p : Episode) : Move → Episode
  | .publish _ => p.attend .waiting (·.reap) .published
  | .signal _ => p.attend .published id .signalled
  | .report _ => p.attend .signalled (·.report.1) .finished
  | .use _ traffic => { p with incarnation := (p.incarnation.use traffic).1 }
  | .act _ a => { p with incarnation := (p.incarnation.perform a).1 }
  | _ => p

/-- What moves make of the process, one after the other. -/
def undergoes (p : Episode) (moves : List Move) : Episode := moves.foldl undergo p

@[simp] theorem undergo_number (p : Episode) (m : Move) : (p.undergo m).number = p.number := by
  cases m with
  | publish _ => exact p.attend_number ..
  | signal _ => exact p.attend_number ..
  | report _ => exact p.attend_number ..
  | _ => rfl

@[simp] theorem undergoes_number (p : Episode) (moves : List Move) :
    (p.undergoes moves).number = p.number := by
  induction moves generalizing p with
  | nil => rfl
  | cons m rest ih => exact (ih _).trans (undergo_number p m)

/-- It does not matter for a step whether the earlier observations have been taken, if it does not
matter for what is done with the incarnation. -/
theorem attend_taken (p : Episode) (now : Vigil) {f : Incarnation → Incarnation} (next : Vigil)
    (hf : ∀ i : Incarnation, { f { i with seen := [] } with seen := [] } = { f i with seen := [] } ∧
      (f i).seen = i.seen ++ (f { i with seen := [] }).seen) :
    (p.taken.attend now f next).taken = (p.attend now f next).taken ∧
      (p.attend now f next).incarnation.seen =
        p.incarnation.seen ++ (p.taken.attend now f next).incarnation.seen := by
  obtain ⟨htaken, hseen⟩ := hf p.incarnation
  by_cases hvigil : p.vigil = now
  · have hlater : p.taken.vigil = now := hvigil
    rw [attend, attend, if_pos hvigil, if_pos hlater]
    exact ⟨congrArg (Episode.mk p.number · next) htaken, hseen⟩
  · have hlater : p.taken.vigil ≠ now := hvigil
    rw [attend, attend, if_neg hvigil, if_neg hlater]
    exact ⟨rfl, (List.append_nil _).symm⟩

theorem undergo_taken (p : Episode) (m : Move) :
    (p.taken.undergo m).taken = (p.undergo m).taken ∧
      (p.undergo m).incarnation.seen =
        p.incarnation.seen ++ (p.taken.undergo m).incarnation.seen := by
  cases m with
  | publish _ => exact p.attend_taken _ _ fun i => ⟨rfl, (List.append_nil i.seen).symm⟩
  | signal _ => exact p.attend_taken _ _ fun i => ⟨rfl, (List.append_nil i.seen).symm⟩
  | report _ =>
      refine p.attend_taken _ _ fun i => ?_
      unfold Incarnation.report
      split
      · exact ⟨rfl, rfl⟩
      · exact ⟨rfl, (List.append_nil i.seen).symm⟩
  | use _ traffic =>
      refine ⟨rfl, ?_⟩
      simp [undergo, taken, Incarnation.use, Incarnation.note]
  | act _ a => exact ⟨rfl, rfl⟩
  | _ => exact ⟨rfl, (List.append_nil _).symm⟩

end Episode

namespace Course

variable {x : Course} {p : Episode}

theorem run_append (x : Course) (first second : List Move) :
    x.run (first ++ second) = (x.run first).run second := List.foldl_append

theorem step_eq_change (x : Course) {number : Nat} {m : Move} (hm : m.Concerns number) :
    x.step m = x.change number (·.undergo m) := by
  cases m with
  | publish _ => obtain rfl := hm; rfl
  | signal _ => obtain rfl := hm; rfl
  | report _ => obtain rfl := hm; rfl
  | use _ _ => obtain rfl := hm; rfl
  | act _ _ => obtain rfl := hm; rfl
  | _ => exact hm.elim

theorem replace_eq {front back : List Episode} (r : Episode)
    (h : ((front ++ p :: back).map (·.number)).Nodup) :
    (front ++ p :: back).map (fun e => if e.number = p.number then r else e) = front ++ r :: back := by
  rw [List.map_append, List.map_cons, List.nodup_middle, ← List.map_append, List.nodup_cons] at h
  have hother : ∀ e ∈ front ++ back, (if e.number = p.number then r else e) = id e := by
    intro e he
    refine if_neg fun heq => h.1 ?_
    rw [← heq]
    exact List.mem_map_of_mem he
  rw [List.map_append, List.map_cons, if_pos rfl,
    List.map_congr_left fun e he => hother e (List.mem_append_left _ he),
    List.map_congr_left fun e he => hother e (List.mem_append_right _ he), List.map_id, List.map_id]

/-- Two changes of one process are one change of it, with all that is observed. -/
theorem Distinct.change_change (h : x.Distinct) (hp : p ∈ x.episodes) {f g : Episode → Episode}
    (hf : ∀ e, (f e).number = e.number)
    (hg : ∀ e, (g e.taken).taken = (g e).taken ∧
      (g e).incarnation.seen = e.incarnation.seen ++ (g e.taken).incarnation.seen) :
    (x.change p.number f).change p.number g = x.change p.number fun e => g (f e) := by
  have hnumber : (f p).taken.number = p.number := hf p
  have hdistinct : (x.change p.number f).Distinct := by
    rw [Distinct, h.change_numbers hp (hf p)]
    exact h
  have hmem : (f p).taken ∈ (x.change p.number f).episodes := by
    rw [h.change_eq hp f]
    exact List.mem_map.mpr ⟨p, hp, if_pos rfl⟩
  have hchange := hdistinct.change_eq hmem g
  rw [hnumber] at hchange
  rw [hchange, h.change_eq hp f, h.change_eq hp fun e => g (f e)]
  obtain ⟨htaken, hseen⟩ := hg (f p)
  congr 1
  · rw [List.map_map]
    refine List.map_congr_left fun e _ => ?_
    simp only [Function.comp_def]
    by_cases he : e.number = p.number
    · rw [if_pos he, if_pos hnumber, if_pos he, htaken]
    · rw [if_neg he, if_neg he, if_neg he]
  · rw [hseen, heard_append, List.map_append, List.append_assoc]

theorem Distinct.run_concerns (h : x.Distinct) (hp : p ∈ x.episodes)
    (hseen : ∀ e ∈ x.episodes, e.incarnation.seen = []) {moves : List Move}
    (hmoves : ∀ m ∈ moves, m.Concerns p.number) :
    x.run moves = x.change p.number (·.undergoes moves) := by
  induction moves using List.reverseRecOn with
  | nil =>
      have htaken : ∀ e ∈ x.episodes, e.taken = e := fun e he => by
        rw [Episode.taken, ← hseen e he]
      have hsame : ∀ e ∈ x.episodes, (if e.number = p.number then p.taken else e) = id e := by
        intro e he
        split
        next heq => rw [h.eq he hp heq, htaken p hp]; rfl
        next => rfl
      rw [h.change_eq hp]
      change x = { x with
        episodes := x.episodes.map fun e => if e.number = p.number then p.taken else e
        events := x.events ++ (heard p.incarnation.seen).map (p.number, ·) }
      rw [List.map_congr_left hsame, List.map_id, hseen p hp]
      simp [heard]
  | append_singleton moves m ih =>
      obtain ⟨hbefore, hlast⟩ := List.forall_mem_append.mp hmoves
      rw [run_append, ih hbefore]
      change (x.change p.number _).step m = _
      rw [step_eq_change _ (List.forall_mem_singleton.mp hlast),
        h.change_change hp (fun e => e.undergoes_number moves) fun e => e.undergo_taken m]
      simp only [Episode.undergoes, List.foldl_append, List.foldl_cons, List.foldl_nil]

end Course

/-! ## Watched processes -/

namespace Process

/-- A watched process of a session, as a course has it. Its end is published, signalled and reported in
one go. -/
def episode (p : Process Incarnation) : Episode where
  number := p.number
  incarnation := p.pipes
  vigil := if p.ending.isNone then .waiting else .finished

/-- What is left of a process when the session has taken what was observed of it. -/
def taken (p : Process Incarnation) : Process Incarnation :=
  { p with pipes := { p.pipes with seen := [] } }

/-- What becomes of a process is made by moves that concern it. -/
def Evolves (p q : Process Incarnation) : Prop :=
  ∃ moves, (∀ m ∈ moves, m.Concerns p.number ∧ m.Discreet) ∧ q.episode = p.episode.undergoes moves

variable {p q r : Process Incarnation}

theorem Evolves.of_eq (h : q.episode = p.episode) : p.Evolves q := ⟨[], by simp, h⟩

theorem Evolves.number (h : p.Evolves q) : q.number = p.number := by
  obtain ⟨moves, -, heq⟩ := h
  have hnumber := p.episode.undergoes_number moves
  rw [← heq] at hnumber
  exact hnumber

theorem Evolves.trans (h : p.Evolves q) (h' : q.Evolves r) : p.Evolves r := by
  have hnumber := h.number
  obtain ⟨first, hfirst, heq⟩ := h
  obtain ⟨second, hsecond, heq'⟩ := h'
  rw [hnumber] at hsecond
  refine ⟨first ++ second, List.forall_mem_append.mpr ⟨hfirst, hsecond⟩, ?_⟩
  rw [heq', heq]
  exact List.foldl_append.symm

theorem Evolves.act {i : Incarnation} {a : Action} (hbegun : a ≠ .handshake)
    (hkept : a ≠ .connectionLost) (hi : i = (p.pipes.perform a).1) :
    p.Evolves { p with pipes := i } := by
  refine ⟨[.act p.number a], ?_, ?_⟩
  · simp [Move.Concerns, Move.Discreet, hbegun, hkept]
  · rw [hi]; rfl

theorem usePipes_evolves (p : Process Incarnation) (now : Host.Time) (news : Host.Child.News) :
    p.Evolves (p.usePipes now news).1 := by
  refine ⟨[.use p.number ⟨news.output, news.outputEnds, news.deaf⟩], ?_, rfl⟩
  simp [Move.Concerns, Move.Discreet]

theorem useErrors_evolves (p : Process Incarnation) (now : Host.Time) (news : Host.Child.News) :
    p.Evolves (p.useErrors now news).1 := by
  refine .of_eq ?_
  unfold useErrors
  split <;> rfl

/-- The end is noticed once, and reported at once. -/
theorem reap_evolves (p : Process Incarnation) (news : Host.Child.News) :
    p.Evolves (p.reap news).1 := by
  unfold reap
  split
  next e hnone _ =>
    refine ⟨[.publish p.number, .signal p.number, .report p.number], ?_, ?_⟩
    · simp [Move.Concerns, Move.Discreet]
    · have hwaiting : p.episode.vigil = .waiting := by simp [episode, hnone]
      simp only [Episode.undergoes, List.foldl_cons, List.foldl_nil, Episode.undergo, Episode.attend,
        hwaiting]
      rfl
  next => exact .of_eq rfl

theorem settle_evolves (p : Process Incarnation) (now : Host.Time) : p.Evolves (p.settle now).1 := by
  unfold settle
  generalize p.child.read now = read
  obtain ⟨child, news⟩ := read
  have hread : p.Evolves { p with child := child } := .of_eq rfl
  exact ((hread.trans (usePipes_evolves _ now news)).trans (useErrors_evolves _ now news)).trans
    (reap_evolves _ news)

end Process

theorem evolves_numbers {ps qs : List (Process Incarnation)} (h : List.Forall₂ Process.Evolves ps qs) :
    qs.map (·.number) = ps.map (·.number) := by
  induction h with
  | nil => rfl
  | cons hfirst _ ih => rw [List.map_cons, List.map_cons, hfirst.number, ih]

theorem run_evolves {x : Course} (h : x.Distinct) (hseen : ∀ e ∈ x.episodes, e.incarnation.seen = [])
    {newer : List Episode} {ps qs : List (Process Incarnation)}
    (hx : x.episodes = newer ++ ps.map (·.episode)) (hevolves : List.Forall₂ Process.Evolves ps qs) :
    ∃ moves, (∀ m ∈ moves, m.Discreet) ∧
      x.run moves =
        { x with
          episodes := newer ++ qs.map (·.taken.episode)
          events := x.events ++ qs.reverse.flatMap fun q => (heard q.pipes.seen).map (q.number, ·) } := by
  induction hevolves generalizing newer with
  | nil =>
      refine ⟨[], by simp, ?_⟩
      rw [List.map_nil] at hx
      simp [Course.run, ← hx]
  | @cons p q ps qs hfirst hrest ih =>
      obtain ⟨earlier, hearlier, hrun⟩ := @ih (newer ++ [p.episode]) (by simp [hx])
      have hnumber := hfirst.number
      obtain ⟨moves, hmoves, heq⟩ := hfirst
      refine ⟨earlier ++ moves,
        List.forall_mem_append.mpr ⟨hearlier, fun m hm => (hmoves m hm).2⟩, ?_⟩
      rw [Course.run_append, hrun]
      generalize hy : ({ x with
        episodes := newer ++ [p.episode] ++ qs.map (·.taken.episode)
        events := x.events ++ qs.reverse.flatMap fun q => (heard q.pipes.seen).map (q.number, ·) } :
          Course) = y
      have hepisodes : y.episodes = newer ++ p.episode :: qs.map (·.taken.episode) := by
        rw [← hy]
        simp
      have hdistinct : y.Distinct := by
        have hsame :
            (qs.map (·.taken.episode)).map (·.number) = (ps.map (·.episode)).map (·.number) := by
          have hnumbers := evolves_numbers hrest
          rw [List.map_map, List.map_map]
          exact hnumbers
        rw [Course.Distinct, hx, List.map_append, List.map_cons, List.map_cons, ← hsame] at h
        rw [Course.Distinct, hepisodes, List.map_append, List.map_cons]
        exact h
      have hp : p.episode ∈ y.episodes := by
        rw [hepisodes]
        exact List.mem_append_right _ List.mem_cons_self
      have hfresh : ∀ e ∈ y.episodes, e.incarnation.seen = [] := by
        intro e he
        rw [hepisodes, List.mem_append, List.mem_cons] at he
        rcases he with he | rfl | he
        · exact hseen e (hx ▸ List.mem_append_left _ he)
        · exact hseen _ (hx ▸ List.mem_append_right _ List.mem_cons_self)
        · obtain ⟨r, -, rfl⟩ := List.mem_map.mp he
          rfl
      rw [hdistinct.run_concerns hp hfresh fun m hm => (hmoves m hm).1, hdistinct.change_eq hp, ← heq,
        hepisodes, Course.replace_eq _ (hepisodes ▸ hdistinct), ← hy]
      simp only [List.map_cons, List.reverse_cons, List.flatMap_append, List.append_assoc,
        List.flatMap_cons, List.flatMap_nil, List.append_nil, hnumber]
      rfl

/-! ## Supervisors -/

namespace Supervisor

/-- What becomes of the processes of a session while none is started. -/
structure Evolves (s t : Supervisor Incarnation) : Prop where
  processes : List.Forall₂ Process.Evolves s.processes t.processes
  next : t.nextNumber = s.nextNumber

variable {s t u : Supervisor Incarnation}

theorem evolves_processes {ps qs rs : List (Process Incarnation)}
    (h : List.Forall₂ Process.Evolves ps qs) (h' : List.Forall₂ Process.Evolves qs rs) :
    List.Forall₂ Process.Evolves ps rs := by
  induction h generalizing rs with
  | nil =>
      cases h' with
      | nil => exact .nil
  | cons hfirst _ ih =>
      cases h' with
      | cons hfirst' hrest' => exact .cons (hfirst.trans hfirst') (ih hrest')

theorem Evolves.trans (h : s.Evolves t) (h' : t.Evolves u) : s.Evolves u where
  processes := evolves_processes h.processes h'.processes
  next := h'.next.trans h.next

theorem Evolves.of_map {f : Process Incarnation → Process Incarnation}
    (hf : ∀ p ∈ s.processes, p.Evolves (f p)) (hprocesses : t.processes = s.processes.map f)
    (hnext : t.nextNumber = s.nextNumber) : s.Evolves t where
  processes := by
    rw [hprocesses, List.forall₂_map_right_iff]
    exact List.forall₂_same.mpr hf
  next := hnext

theorem Evolves.newest {p q : Process Incarnation} {rest : List (Process Incarnation)}
    (hs : s.processes = p :: rest) (h : p.Evolves q) (log : List LogEvent) :
    s.Evolves ({ s with processes := q :: rest }.logAll log) where
  processes := by
    rw [hs]
    exact .cons h (List.forall₂_same.mpr fun _ _ => .of_eq rfl)
  next := rfl

theorem Evolves.of_eq (hprocesses : t.processes = s.processes) (hnext : t.nextNumber = s.nextNumber) :
    s.Evolves t :=
  .of_map (f := id) (fun _ _ => .of_eq rfl) (by rw [hprocesses, List.map_id]) hnext

theorem settleProcesses_evolves (s : Supervisor Incarnation) : s.Evolves s.settleProcesses := by
  have hfold : s.settleProcesses.processes = s.processes.map (fun p => (p.settle s.now).1) ∧
      s.settleProcesses.nextNumber = s.nextNumber ∧ s.settleProcesses.now = s.now := by
    unfold settleProcesses
    induction s.processes with
    | nil => exact ⟨rfl, rfl, rfl⟩
    | cons p rest ih =>
        obtain ⟨hprocesses, hnext, hnow⟩ := ih
        refine ⟨?_, hnext, hnow⟩
        rw [List.foldr_cons, List.map_cons, ← hprocesses]
        dsimp only
        rw [hnow]
  exact .of_map (fun p _ => p.settle_evolves s.now) hfold.1 hfold.2.1

theorem mapProcess_evolves {number : Nat} {f : Process Incarnation → Process Incarnation}
    (hf : ∀ p ∈ s.processes, p.number = number → p.Evolves (f p)) :
    s.Evolves (s.mapProcess number f) := by
  refine .of_map (f := fun p => if p.number = number then f p else p) (fun p hp => ?_) rfl rfl
  split
  next hnumber => exact hf p hp hnumber
  next => exact .of_eq rfl

theorem signal_evolves (s : Supervisor Incarnation) (number : Nat) (signal : Host.Signal) :
    s.Evolves (s.signal number signal) :=
  mapProcess_evolves fun _ _ _ => .of_eq rfl

theorem doDuty_evolves (s : Supervisor Incarnation) (d : Duty) : s.Evolves (s.doDuty d) := by
  unfold doDuty
  split
  · exact (s.signal_evolves d.number d.signal).trans (.of_eq rfl rfl)
  · exact .of_eq rfl rfl

theorem settle_evolves (s : Supervisor Incarnation) : s.Evolves s.settle := by
  have hduties : ∀ (due : List Duty) (t : Supervisor Incarnation), s.Evolves t →
      s.Evolves (due.foldl doDuty t) := by
    intro due
    induction due with
    | nil => exact fun _ h => h
    | cons d rest ih => exact fun t h => ih _ (h.trans (t.doDuty_evolves d))
  unfold settle
  dsimp only
  split
  · exact s.settleProcesses_evolves
  · refine (hduties _ _ ?_).trans (settleProcesses_evolves _)
    exact s.settleProcesses_evolves.trans (.of_eq rfl rfl)

theorem stop_evolves (s : Supervisor Incarnation) (grace kill : Option Nat) :
    s.Evolves (s.stop grace kill).2 := by
  refine Control.stop_keeps _ (P := s.Evolves) (fun time t h => ?_)
    (fun number signal t h => ?_)
    (fun e t h => h.trans (.of_eq rfl rfl)) grace kill (.of_eq rfl rfl)
  · change s.Evolves (t.waitEnded time).2
    unfold waitEnded
    split
    · exact h
    · exact Host.Timed.waitUntil_keeps (fun t h => h.trans t.settle_evolves)
        (fun t _ h => h.trans (.of_eq rfl rfl)) _ _ _ h
  · dsimp only [control]
    split
    · exact h.trans (t.signal_evolves _ signal)
    · exact h

theorem drop_evolves (s : Supervisor Incarnation) : s.Evolves (s.drop false) := by
  have hrelease : s.Evolves s.release := by
    refine .of_eq ?_ rfl
    unfold release
    split
    next hs => rw [hs]; rfl
    next hs => exact hs.symm
  refine hrelease.trans ?_
  unfold drop
  dsimp only
  split
  · exact .of_eq rfl rfl
  · exact .of_eq rfl rfl
  · exact .of_eq rfl rfl

/-- A start fails and changes no process, or it brings a new process with the next number. -/
theorem start_cases (s : Supervisor Incarnation) (pipes : Incarnation) :
    (∃ e, (s.start pipes).1 = .error e ∧ (s.start pipes).2.processes = s.processes ∧
      (s.start pipes).2.nextNumber = s.nextNumber) ∨
    (∃ p, (s.start pipes).1 = .ok () ∧ (s.start pipes).2.processes = p :: s.processes ∧
      (s.start pipes).2.nextNumber = s.nextNumber + 1 ∧ p.episode = ⟨s.nextNumber, pipes, .waiting⟩) := by
  unfold start
  split
  · exact .inl ⟨_, rfl, rfl, rfl⟩
  · dsimp only
    split
    · exact .inl ⟨_, rfl, rfl, rfl⟩
    · exact .inr ⟨_, rfl, rfl, rfl, rfl⟩

end Supervisor

end Server

end LanguageClient
