import LanguageClient.Proofs.Server.Evolution
import LanguageClient.Server.Session

/-!
# Sessions take courses

A session does the steps of a start one after the other, waits in a stop, and lets time pass while it
waits. Whatever is done with it, what becomes of it is a course (`Reached.takes`): the moves of the
pipes and of the ends of the processes fall between those of a start and of a stop. So what holds of all
courses holds of sessions.
-/

namespace LanguageClient.Server

open Document (EditOutcome)

namespace Session

/-- The course that a session has taken so far, when its subscriber has taken some events already. -/
def course (s : Session) (taken : List (Nat × SessionEvent)) (phase : Phase) : Course where
  episodes := s.supervisor.processes.map (·.episode)
  phase := phase
  events := taken ++ s.events

/-- What can become of a session, and the events that its subscriber has taken by then. Nobody begins
the session or gives its connection up but the session itself. -/
inductive Reached (site : Host.Site) (directory : Files.Location) (config : Config) :
    List (Nat × SessionEvent) → Session → Prop
  | new : Reached site directory config [] (.new site directory config)
  | start {taken s} : Reached site directory config taken s →
      Reached site directory config taken s.start.2
  | stop {taken s} (grace kill : Option Nat) : Reached site directory config taken s →
      Reached site directory config taken (s.stop grace kill).2
  | drop {taken s} : Reached site directory config taken s → Reached site directory config taken s.drop
  | act {taken s a} : a ≠ .handshake → a ≠ .connectionLost → Reached site directory config taken s →
      Reached site directory config taken (s.act a).2
  | notify {taken s} (method : String) (params : Json) : Reached site directory config taken s →
      Reached site directory config taken (s.notify method params).2
  | ask {taken s} (kind : RequestKind) (type : ReplyType) (params : Json) :
      Reached site directory config taken s →
      Reached site directory config taken (s.ask kind type params).2
  | respond {taken s} (number : Nat) (id : Rpc.RequestId) (outcome : EditOutcome) :
      Reached site directory config taken s →
      Reached site directory config taken (s.respond number id outcome).2
  | wait {taken s} (done : Session → Bool) (limit : Host.Time) (steps : Nat) :
      Reached site directory config taken s →
      Reached site directory config taken (Host.Timed.waitUntil done limit steps s).2
  | takeEvents {taken s} (n time : Nat) : Reached site directory config taken s →
      Reached site directory config (taken ++ (s.takeEvents n time).1) (s.takeEvents n time).2

/-- Moves make the course that a session has taken, in which a start or a stop may be at some step. -/
structure Takes (s : Session) (taken : List (Nat × SessionEvent)) (phase : Phase) : Prop where
  course : ∃ moves : List Move, (∀ m ∈ moves, m.Discreet) ∧
    ({} : Course).run moves = s.course taken phase
  next : s.supervisor.nextNumber = s.supervisor.processes.length + 1

theorem gather_eq (s : Session) :
    s.gather.supervisor = { s.supervisor with processes := s.supervisor.processes.map Process.taken } ∧
      s.gather.events = s.events ++
        s.supervisor.processes.reverse.flatMap fun p => (heard p.pipes.seen).map (p.number, ·) := by
  unfold gather
  generalize s.supervisor.processes = ps
  induction ps with
  | nil => exact ⟨rfl, (List.append_nil _).symm⟩
  | cons p rest ih =>
      obtain ⟨hsupervisor, hevents⟩ := ih
      rw [List.foldr_cons]
      refine ⟨?_, ?_⟩
      · dsimp only
        rw [hsupervisor]
        rfl
      · dsimp only
        rw [hevents, List.reverse_cons, List.flatMap_append, List.append_assoc]
        simp [heard]

variable {s t : Session} {taken : List (Nat × SessionEvent)} {phase : Phase}

theorem Takes.sound (h : s.Takes taken phase) : ∃ noticed, (s.course taken phase).Sound noticed := by
  obtain ⟨moves, hmoves, hrun⟩ := h.course
  exact ⟨_, hrun ▸ Course.sound_new.run hmoves⟩

theorem Takes.distinct (h : s.Takes taken phase) : (s.course taken phase).Distinct := by
  obtain ⟨_, hsound⟩ := h.sound
  exact hsound.distinct

theorem Takes.fits (h : s.Takes taken phase) {p : Process Incarnation}
    (hp : p ∈ s.supervisor.processes) :
    ∃ stage block noticed, p.episode.Fits stage block noticed := by
  obtain ⟨_, hsound⟩ := h.sound
  exact ⟨_, _, _, hsound.fits _ (List.mem_map_of_mem hp)⟩

theorem Takes.of_eq (h : s.Takes taken phase)
    (hprocesses : t.supervisor.processes = s.supervisor.processes)
    (hnext : t.supervisor.nextNumber = s.supervisor.nextNumber) (hevents : t.events = s.events) :
    t.Takes taken phase where
  course := by
    have hsame : t.course taken phase = s.course taken phase := by
      rw [Session.course, Session.course, hprocesses, hevents]
    rw [hsame]
    exact h.course
  next := by rw [hnext, hprocesses, h.next]

theorem Takes.moves (h : s.Takes taken phase) {next : Phase} {more : List Move}
    (hmore : ∀ m ∈ more, m.Discreet) (hcourse : (s.course taken phase).run more = t.course taken next)
    (hnext : t.supervisor.nextNumber = t.supervisor.processes.length + 1) : t.Takes taken next where
  course := by
    obtain ⟨moves, hmoves, hrun⟩ := h.course
    refine ⟨moves ++ more, List.forall_mem_append.mpr ⟨hmoves, hmore⟩, ?_⟩
    rw [Course.run_append, hrun, hcourse]
  next := hnext

theorem Takes.logAll (h : s.Takes taken phase) (log : List LogEvent) :
    (s.logAll log).Takes taken phase := h.of_eq rfl rfl rfl

theorem Takes.unseen (h : s.Takes taken phase) :
    ∀ p ∈ s.supervisor.processes, p.pipes.seen = [] := by
  intro p hp
  obtain ⟨_, _, _, hfits⟩ := h.fits hp
  exact hfits.unseen

/-- What becomes of the processes is a course, and what is observed of them is told in its order. -/
theorem Takes.gather (h : s.Takes taken phase) {supervisor : Supervisor Incarnation}
    (hevolves : s.supervisor.Evolves supervisor) :
    (Session.gather { s with supervisor := supervisor }).Takes taken phase ∧
      (Session.gather { s with supervisor := supervisor }).supervisor.nextNumber =
        s.supervisor.nextNumber := by
  have hseen : ∀ e ∈ (s.course taken phase).episodes, e.incarnation.seen = [] := by
    intro e he
    obtain ⟨p, hp, rfl⟩ := List.mem_map.mp he
    exact h.unseen p hp
  obtain ⟨more, hmore, hrun⟩ :=
    run_evolves h.distinct hseen (List.nil_append _).symm hevolves.processes
  obtain ⟨hsupervisor, hevents⟩ := gather_eq { s with supervisor := supervisor }
  refine ⟨h.moves hmore ?_ ?_, ?_⟩
  · rw [hrun]
    unfold Session.course
    rw [hsupervisor, hevents]
    simp [Function.comp_def]
  · rw [hsupervisor]
    change supervisor.nextNumber = (supervisor.processes.map Process.taken).length + 1
    rw [List.length_map, ← hevolves.processes.length_eq, hevolves.next, h.next]
  · rw [hsupervisor]
    exact hevolves.next

theorem Takes.gather_newest (h : s.Takes taken phase) {p : Process Incarnation}
    {rest : List (Process Incarnation)} (hs : s.supervisor.processes = p :: rest)
    (f : Incarnation → Incarnation) (log : List LogEvent) :
    (Session.gather { s with supervisor :=
      { s.supervisor with processes := { p with pipes := f p.pipes } :: rest }.logAll log }).course
        taken phase =
      (s.course taken phase).change p.number fun e => { e with incarnation := f e.incarnation } := by
  have hrest : ∀ q ∈ rest, q.pipes.seen = [] :=
    fun q hq => h.unseen q (hs ▸ List.mem_cons_of_mem p hq)
  have hepisodes : (s.course taken phase).episodes = p.episode :: rest.map (·.episode) := by
    rw [Session.course, hs]
    rfl
  have hdistinct := h.distinct
  have hreplaced := @Course.replace_eq p.episode [] (rest.map (·.episode))
    { p.episode with incarnation := { f p.pipes with seen := [] } } (hepisodes ▸ hdistinct)
  have hchange := hdistinct.change_eq (p := p.episode) (hepisodes ▸ List.mem_cons_self)
    fun e => { e with incarnation := f e.incarnation }
  rw [hepisodes] at hchange
  have htaken : (rest.map Process.taken).map (·.episode) = rest.map (·.episode) := by
    rw [List.map_map]
    refine List.map_congr_left fun q hq => ?_
    simp only [Function.comp_def, Process.taken, Process.episode, ← hrest q hq]
  have hnothing : (rest.reverse.flatMap fun q => (heard q.pipes.seen).map (q.number, ·)) = [] := by
    refine List.flatMap_eq_nil_iff.mpr fun q hq => ?_
    rw [hrest q (List.mem_reverse.mp hq)]
    rfl
  obtain ⟨hsupervisor, hevents⟩ := gather_eq { s with supervisor :=
    { s.supervisor with processes := { p with pipes := f p.pipes } :: rest }.logAll log }
  refine Eq.trans ?_ hchange.symm
  unfold Session.course
  rw [hsupervisor, hevents]
  congr 1
  · exact (congrArg _ htaken).trans hreplaced.symm
  · change taken ++ (s.events ++ ({ p with pipes := f p.pipes } :: rest).reverse.flatMap _) = _
    rw [List.reverse_cons, List.flatMap_append, hnothing]
    simp [Process.episode]

theorem Takes.stepCurrent (h : s.Takes taken phase) (hsome : 1 < s.supervisor.nextNumber)
    {F : Incarnation → Incarnation × List LogEvent} {m : Move} {now : List Phase} {next : Phase}
    (hm : m.Discreet) (hstep : ∀ x : Course, x.step m = x.advance now (fun i => (F i).1) next)
    (hnow : phase ∈ now) :
    (s.stepCurrent F).Takes taken next ∧
      (s.stepCurrent F).supervisor.nextNumber = s.supervisor.nextNumber := by
  have hcount := h.next
  obtain ⟨p, rest, hs⟩ : ∃ p rest, s.supervisor.processes = p :: rest := by
    refine List.exists_cons_of_ne_nil fun hnil => ?_
    rw [hnil, List.length_nil] at hcount
    omega
  have hnewest := h.gather_newest hs (fun i => (F i).1) (F p.pipes).2
  obtain ⟨hsupervisor, -⟩ := gather_eq { s with supervisor :=
    { s.supervisor with processes := { p with pipes := (F p.pipes).1 } :: rest }.logAll (F p.pipes).2 }
  unfold Session.stepCurrent
  rw [hs]
  refine ⟨h.moves (List.forall_mem_singleton.mpr hm) ?_ ?_, ?_⟩
  · change (s.course taken phase).step m = _
    have hepisodes : (s.course taken phase).episodes = p.episode :: rest.map (·.episode) := by
      rw [Session.course, hs]
      rfl
    have hphase : (s.course taken phase).phase ∈ now := hnow
    rw [hstep, Course.advance, hepisodes]
    dsimp only
    rw [if_pos hphase]
    change { (s.course taken phase).change p.number _ with phase := next } = _
    rw [← hnewest]
    rfl
  · rw [hsupervisor]
    change s.supervisor.nextNumber = (_ :: rest.map Process.taken).length + 1
    rw [hcount, hs]
    simp
  · rw [hsupervisor]
    rfl

/-! ### What is done with a session -/

theorem course_state (s : Session) (taken : List (Nat × SessionEvent)) (phase : Phase) :
    (s.course taken phase).state = s.state := by
  unfold Course.state Session.state Session.course Session.current?
  cases s.supervisor.processes <;> rfl

/-- A start is a course: it is ignored, it fails, or it takes all its steps. -/
theorem Takes.start (h : s.Takes taken .idle) : s.start.2.Takes taken .idle := by
  unfold Session.start
  split
  · exact h.logAll _
  next habsent =>
    have hready : (s.course taken .idle).phase = .idle ∧ (s.course taken .idle).state = .absent :=
      ⟨rfl, (course_state ..).trans (Decidable.not_not.mp habsent)⟩
    have hstart : (s.course taken .idle).run [.start] = s.course taken .starting := if_pos hready
    have hstarting : s.Takes taken .starting := h.moves (by simp [Move.Discreet]) hstart h.next
    dsimp only
    generalize hfresh : ({ s.supervisor with receivesLines := s.config.receivesErrors } :
      Supervisor Incarnation) = fresh
    generalize (⟨s.config.rootPath, s.config.rootUri, s.config.initializationOptions,
      s.config.semanticHighlighting⟩ : Document.Params.Workspace) = workspace
    have hprocesses : fresh.processes = s.supervisor.processes := by rw [← hfresh]
    have hnext : fresh.nextNumber = s.supervisor.nextNumber := by rw [← hfresh]
    rcases fresh.start_cases (Incarnation.begin s.normal workspace unreadPipe) with
      ⟨e, hresult, hsame, hcount⟩ | ⟨p, hresult, hnew, hcount, hp⟩
    · rw [hresult]
      have hfail : (s.course taken .starting).run [.fail] = s.course taken .idle := rfl
      have hfailed : s.Takes taken .idle := hstarting.moves (by simp [Move.Discreet]) hfail h.next
      exact hfailed.of_eq (hsame.trans hprocesses) (hcount.trans hnext) rfl
    · rw [hresult]
      dsimp only
      generalize (fresh.start (Incarnation.begin s.normal workspace unreadPipe)).2 = supervisor at *
      have hspawn : (s.course taken .starting).run [.spawn s.normal workspace unreadPipe] =
          ({ s with supervisor := supervisor } : Session).course taken .spawned := by
        have hepisodes : supervisor.processes.map (·.episode) =
            ⟨(s.supervisor.processes.map (·.episode)).length + 1,
              .begin s.normal workspace unreadPipe, .waiting⟩ ::
              s.supervisor.processes.map (·.episode) := by
          rw [hnew, List.map_cons, hp, hprocesses, hnext, h.next, List.length_map]
        change _ = ({
          episodes := supervisor.processes.map (·.episode)
          phase := .spawned
          events := taken ++ s.events } : Course)
        rw [hepisodes]
        rfl
      have hspawned : ({ s with supervisor := supervisor } : Session).Takes taken .spawned := by
        refine hstarting.moves (by simp [Move.Discreet]) hspawn ?_
        rw [hcount, hnew, hprocesses, hnext, h.next]
        rfl
      have hsome : 1 < supervisor.nextNumber := by
        rw [hcount, hnext, h.next]
        omega
      obtain ⟨hwatched, hcount₁⟩ := hspawned.stepCurrent (m := .watch) hsome
        (F := fun i => (i.watch, [])) trivial (fun _ => rfl) List.mem_cons_self
      obtain ⟨hgreeted, hcount₂⟩ := hwatched.stepCurrent (m := .handshake) (hcount₁ ▸ hsome)
        (F := Incarnation.handshake) trivial (fun _ => rfl) List.mem_cons_self
      exact (hgreeted.stepCurrent (m := .recheck) (hcount₂ ▸ hcount₁ ▸ hsome)
        (F := Incarnation.recheck) trivial (fun _ => rfl) List.mem_cons_self).1

theorem Takes.running (h : s.Takes taken phase) {number : Nat} (hrunning : s.running? = some number) :
    (s.course taken phase).running = true ∧ 1 < s.supervisor.nextNumber := by
  unfold Session.running? Supervisor.running? Supervisor.state at hrunning
  cases hs : s.supervisor.processes with
  | nil => simp [hs] at hrunning
  | cons p rest =>
      have hnone : p.ending.isNone = true := by
        rw [hs] at hrunning
        by_contra hended
        simp [hended] at hrunning
      have hwaiting : p.episode.vigil = .waiting := if_pos hnone
      obtain ⟨_, _, _, hp⟩ := h.fits (hs ▸ List.mem_cons_self)
      refine ⟨?_, ?_⟩
      · rw [Course.running, Session.course, hs]
        exact hp.running.mpr hwaiting
      · rw [h.next, hs, List.length_cons]
        omega

/-- A stop is a course: it finds no running process, or it takes all its steps while time passes. -/
theorem Takes.stop (h : s.Takes taken .idle) (grace kill : Option Nat) :
    (s.stop grace kill).2.Takes taken .idle := by
  unfold Session.stop
  split
  · exact h
  next number hrunning =>
    obtain ⟨hruns, hsome⟩ := h.running hrunning
    have hready : (s.course taken .idle).phase = .idle ∧ (s.course taken .idle).running = true :=
      ⟨rfl, hruns⟩
    have hstop : (s.course taken .idle).run [.stop] = s.course taken .stopping := if_pos hready
    have hstopping : s.Takes taken .stopping := h.moves (by simp [Move.Discreet]) hstop h.next
    obtain ⟨hparted, hcount⟩ := hstopping.stepCurrent (m := .farewell) hsome
      (F := Incarnation.farewell) trivial (fun _ => rfl) List.mem_cons_self
    dsimp only
    generalize s.stepCurrent Incarnation.farewell = t at *
    obtain ⟨hwaited, hcount'⟩ := hparted.gather (t.supervisor.stop_evolves grace kill)
    have hstopped := hwaited.stepCurrent (m := .recheck) (hcount' ▸ hcount ▸ hsome)
      (F := Incarnation.recheck) trivial (fun _ => rfl) (List.mem_cons_of_mem _ List.mem_cons_self)
    exact hstopped.1.logAll _

theorem Takes.act (h : s.Takes taken phase) {a : Action} (hbegun : a ≠ .handshake)
    (hkept : a ≠ .connectionLost) : (s.act a).2.Takes taken phase := by
  unfold Session.act
  split
  · exact h
  next p rest hs => exact (h.gather (.newest hs (.act hbegun hkept rfl) _)).1

theorem Takes.notify (h : s.Takes taken phase) (method : String) (params : Json) :
    (s.notify method params).2.Takes taken phase := by
  have hacted : (s.act (.notify method params)).2.Takes taken phase := h.act nofun nofun
  unfold Session.notify
  generalize s.act (.notify method params) = acted at hacted
  split <;> exact hacted

theorem Takes.ask (h : s.Takes taken phase) (kind : RequestKind) (type : ReplyType) (params : Json) :
    (s.ask kind type params).2.Takes taken phase := by
  have hnumbered : ({ s with nextTicket := s.nextTicket + 1 } : Session).Takes taken phase :=
    h.of_eq rfl rfl rfl
  have hacted := hnumbered.act (a := .send kind params { ticket := s.nextTicket, type := type })
    nofun nofun
  unfold Session.ask
  dsimp only
  generalize Session.act _ _ = acted at hacted ⊢
  split <;> exact hacted

theorem Takes.respond (h : s.Takes taken phase) (number : Nat) (id : Rpc.RequestId)
    (outcome : EditOutcome) : (s.respond number id outcome).2.Takes taken phase := by
  unfold Session.respond
  split
  · exact h
  next p hfound =>
    have hp := List.mem_of_find?_eq_some hfound
    obtain ⟨_, _, _, hfits⟩ := h.fits hp
    obtain ⟨c, hc⟩ := hfits.held
    have hclient : p.pipes.connection.client = some c := hc.client
    obtain ⟨hconnection, hseen⟩ := Connection.respond_eq_act p.pipes.normal hclient id outcome
    dsimp only
    rw [hconnection, hseen]
    have hevolves : s.supervisor.Evolves ((s.supervisor.mapProcess number fun q =>
        { q with pipes := (p.pipes.perform (.respond id outcome)).1 }).logAll
          (p.pipes.perform (.respond id outcome)).2) := by
      refine .trans (Supervisor.mapProcess_evolves fun q hq hnumber => ?_) (.of_eq rfl rfl)
      have hsame : q.episode = p.episode := by
        refine h.distinct.eq (List.mem_map_of_mem hq) (List.mem_map_of_mem hp) ?_
        have hpnumber : p.number = number := by simpa using List.find?_some hfound
        exact hnumber.trans hpnumber.symm
      have hpipes : q.pipes = p.pipes := congrArg Episode.incarnation hsame
      exact .act (a := .respond id outcome) nofun nofun (by rw [hpipes])
    exact (h.gather hevolves).1

theorem Takes.drop (h : s.Takes taken phase) : s.drop.Takes taken phase := by
  have hfarewell : (s.stepCurrent Incarnation.farewell).Takes taken phase := by
    unfold Session.stepCurrent
    split
    · exact h
    next p rest hs => exact (h.gather (.newest hs (.act (a := .shutdown) nofun nofun rfl) _)).1
  exact (hfarewell.gather (Supervisor.drop_evolves _)).1

theorem Takes.wait (h : s.Takes taken phase) (done : Session → Bool) (limit : Host.Time)
    (steps : Nat) : (Host.Timed.waitUntil done limit steps s).2.Takes taken phase :=
  Host.Timed.waitUntil_keeps (P := fun t => t.Takes taken phase)
    (fun t ht => (ht.gather t.supervisor.settle_evolves).1) (fun _ _ ht => ht.of_eq rfl rfl rfl)
    done limit steps h

theorem Takes.takeEvents (h : s.Takes taken phase) (n time : Nat) :
    (s.takeEvents n time).2.Takes (taken ++ (s.takeEvents n time).1) phase := by
  have hwaited := h.wait (fun s => n ≤ s.events.length) (Host.Timed.now s + Host.milliseconds time)
    Host.Timed.momentLimit
  refine ⟨?_, hwaited.next⟩
  have hsame : (s.takeEvents n time).2.course (taken ++ (s.takeEvents n time).1) phase =
      (Host.Timed.await (fun s => n ≤ s.events.length) (Host.milliseconds time) s).2.course
        taken phase := by
    unfold Session.takeEvents Session.course
    simp
  rw [hsame]
  exact hwaited.course

/-- **Sessions take courses.** What becomes of a session is made by moves, and what its subscriber has
taken and has yet to take are the events of the course. -/
theorem Reached.takes {site : Host.Site} {directory : Files.Location} {config : Config}
    (h : Reached site directory config taken s) : s.Takes taken .idle := by
  induction h with
  | new => exact ⟨⟨[], by simp, rfl⟩, rfl⟩
  | start _ ih => exact ih.start
  | stop grace kill _ ih => exact ih.stop grace kill
  | drop _ ih => exact ih.drop
  | act hbegun hkept _ ih => exact ih.act hbegun hkept
  | notify method params _ ih => exact ih.notify method params
  | ask kind type params _ ih => exact ih.ask kind type params
  | respond number id outcome _ ih => exact ih.respond number id outcome
  | wait done limit steps _ ih => exact ih.wait done limit steps
  | takeEvents n time _ ih => exact ih.takeEvents n time

/-- A session is in the state that its subscriber was told last, or has yet to take. -/
theorem Reached.state_told {site : Host.Site} {directory : Files.Location} {config : Config}
    (h : Reached site directory config taken s) :
    s.state = ((taken ++ s.events).filterMap (·.2.state?)).getLastD .absent := by
  obtain ⟨_, hsound⟩ := h.takes.sound
  have hstate := hsound.state_told
  rw [course_state, Course.told, List.map_filterMap] at hstate
  rw [hstate]
  simp [Session.course, Function.comp_def]

end Session

end LanguageClient.Server
