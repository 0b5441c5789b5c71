import LanguageClient.Proofs.Client.History
import Mathlib.Data.List.Induction
import Mathlib.Data.List.Infix

/-!
# Which requests for an edit are answered

The window is a queue with room for five, and answers leave it out of order. What it keeps of a
request `r` is described by the requests behind it: as long as `r` is in the window, those are
exactly the younger requests that nobody answered (`Keeps`), so `r` has to make room at the moment
at which five younger ones wait at once, and at no other. `respond_counts_iff` states this for every
history of a client whose connection lives, in terms of what was asked and answered alone.
-/

namespace LanguageClient

open Rpc Document

/-! ## What is asked and answered -/

namespace Action

/-- The request for an edit that an action brings. -/
def asks? : Action → Option RequestId
  | .receive message =>
      match Inbound.classify message with
      | some (.request id method _) => if method = Client.applyEditMethod then some id else none
      | _ => none
  | _ => none

/-- The request for an edit that an action answers. -/
def answers? : Action → Option RequestId
  | .respond id _ => some id
  | _ => none

end Action

/-- The requests for edits that a history brings, in the order of their arrival. -/
def asked (history : List Moment) : List RequestId := history.filterMap (·.action.asks?)

/-- The requests for edits that a history answers. -/
def answered (history : List Moment) : List RequestId := history.filterMap (·.action.answers?)

/-- The requests for edits that a history brings and does not answer afterwards, in the order of
their arrival. An answer counts whether or not it goes out: a request makes room only after all
older ones did, so behind a request in the window no answer is dropped. -/
def unanswered : List Moment → List RequestId
  | [] => []
  | m :: rest => m.action.asks?.toList.filter (· ∉ answered rest) ++ unanswered rest

/-- At some moment of a history as many requests of it were unanswered as the window can hold. -/
def Crowded (history : List Moment) : Prop :=
  ∃ moment, moment <+: history ∧ Window.capacity ≤ (unanswered moment).length

instance (history : List Moment) : Decidable (Crowded history) :=
  decidable_of_iff (∃ moment ∈ history.inits, Window.capacity ≤ (unanswered moment).length)
    (by simp only [List.mem_inits, Crowded])

theorem asked_append (first second : List Moment) :
    asked (first ++ second) = asked first ++ asked second := List.filterMap_append

theorem asked_concat (history : List Moment) (m : Moment) :
    asked (history ++ [m]) = asked history ++ m.action.asks?.toList := by
  rw [asked_append, asked]
  cases h : m.action.asks? <;> simp [h, asked]

theorem answered_concat (history : List Moment) (m : Moment) :
    answered (history ++ [m]) = answered history ++ m.action.answers?.toList := by
  unfold answered
  rw [List.filterMap_append]
  cases h : m.action.answers? <;> simp [h]

theorem unanswered_concat (history : List Moment) (m : Moment) :
    unanswered (history ++ [m]) =
      (unanswered history).filter (· ∉ m.action.answers?.toList) ++ m.action.asks?.toList := by
  induction history with
  | nil => simp [unanswered, answered]
  | cons first rest ih =>
      rw [List.cons_append, unanswered, unanswered, ih, answered_concat, List.filter_append,
        List.filter_filter, List.append_assoc]
      congr 1
      refine List.filter_congr fun id _ => ?_
      simp [Bool.and_comm]

theorem crowded_concat (history : List Moment) (m : Moment) :
    Crowded (history ++ [m]) ↔
      Crowded history ∨ Window.capacity ≤ (unanswered (history ++ [m])).length := by
  simp only [Crowded, List.prefix_concat_iff, or_and_right, exists_or, exists_eq_left]
  exact or_comm

/-- A moment that leaves the way to the server open. -/
def Moment.Live (m : Moment) : Prop := m.action ≠ .connectionLost ∧ m.action ≠ .writerEnded

/-! ## The window as a queue -/

namespace Window

/-- The window holds `r`, and behind it the requests `young`. -/
def Keeps (w : Window) (r : RequestId) (young : List RequestId) : Prop :=
  ∃ older, w = older ++ r :: young

variable {w : Window} {r : RequestId} {young : List RequestId}

theorem Keeps.mem (h : w.Keeps r young) : r ∈ w := by
  obtain ⟨older, rfl⟩ := h
  exact List.mem_append_right _ List.mem_cons_self

theorem length_track_le (h : w.length ≤ capacity) (id : RequestId) :
    (w.track id).length ≤ capacity := by
  have hpos : 0 < capacity := by decide
  unfold track
  split
  · rw [List.length_append, List.length_drop, List.length_singleton]
    omega
  · rw [List.length_append, List.length_singleton]
    omega

theorem track_sublist (w : Window) (id : RequestId) : (w.track id).Sublist (w ++ [id]) := by
  unfold track
  split
  · exact (List.drop_sublist 1 w).append (List.Sublist.refl _)
  · exact List.Sublist.refl _

theorem Keeps.track (h : w.Keeps r young) (hw : w.length ≤ capacity) (id : RequestId)
    (hroom : young.length + 1 < capacity) : (w.track id).Keeps r (young ++ [id]) := by
  obtain ⟨older, rfl⟩ := h
  unfold Window.track
  split
  · rename_i hfull
    cases older with
    | nil =>
        rw [List.nil_append, List.length_cons] at hfull
        omega
    | cons oldest older => exact ⟨older, by simp⟩
  · exact ⟨older, by simp⟩

/-- With room for no more, `r` is the oldest of a full window and has to go. -/
theorem Keeps.track_full (h : w.Keeps r young) (hw : w.length ≤ capacity) (id : RequestId)
    (hfull : capacity ≤ young.length + 1) : w.track id = young ++ [id] := by
  obtain ⟨older, rfl⟩ := h
  rw [List.length_append, List.length_cons] at hw
  have hnone : older = [] := List.eq_nil_of_length_eq_zero (by omega)
  subst hnone
  have hlen : (r :: young).length = capacity := by rw [List.length_cons]; omega
  unfold Window.track
  rw [List.nil_append, if_pos hlen, List.drop_one, List.tail_cons]

theorem Keeps.complete (h : w.Keeps r young) (hw : w.Nodup) {id : RequestId} (hid : id ≠ r) :
    (w.complete id).Keeps r (young.filter (· ≠ id)) := by
  obtain ⟨older, rfl⟩ := h
  refine ⟨older.filter (· ≠ id), ?_⟩
  have hsame : ∀ l : List RequestId, l.filter (· != id) = l.filter (· ≠ id) := fun l =>
    List.filter_congr fun x _ => by rw [Bool.eq_iff_iff]; simp
  unfold Window.complete
  rw [hw.erase_eq_filter, hsame, List.filter_append,
    List.filter_cons_of_pos (by simpa using hid.symm)]

/-- What an action can do to a window. -/
inductive Moves (w : Window) (a : Action) : Window → Prop
  | asked {id} : a.asks? = some id → a.answers? = none → Moves w a (w.track id)
  | answered {id} : a.asks? = none → a.answers? = some id → Moves w a (w.complete id)
  | kept : a.asks? = none → a.answers? = none → Moves w a w
  | lost : a = .connectionLost → Moves w a []

variable {a : Action} {w' : Window}

theorem Moves.length_le (h : w.Moves a w') (hw : w.length ≤ capacity) : w'.length ≤ capacity := by
  cases h with
  | asked _ _ => exact length_track_le hw _
  | answered _ _ => exact Nat.le_trans (List.erase_sublist ..).length_le hw
  | kept _ _ => exact hw
  | lost _ => exact Nat.zero_le _

theorem Moves.sublist (h : w.Moves a w') : w'.Sublist (w ++ a.asks?.toList) := by
  cases h with
  | asked hasks _ =>
      rw [hasks]
      exact track_sublist w _
  | answered _ _ => exact (List.erase_sublist ..).trans (List.sublist_append_left ..)
  | kept _ _ => exact List.sublist_append_left ..
  | lost _ => exact List.nil_sublist _

/-- Behind `r` come the younger requests that are not answered, until there are too many of them. -/
theorem Moves.keeps (h : w.Moves a w') (hk : w.Keeps r young) (hlen : w.length ≤ capacity)
    (hw : w.Nodup) (hlive : a ≠ .connectionLost) (hunused : a.answers? ≠ some r)
    (hfresh : a.asks? ≠ some r) {young' : List RequestId}
    (hyoung : young' = young.filter (· ∉ a.answers?.toList) ++ a.asks?.toList) :
    (young'.length < capacity → w'.Keeps r young') ∧ (capacity ≤ young'.length → r ∉ w') := by
  obtain ⟨older, hsplit⟩ := hk
  have hroom : young.length < capacity := by
    rw [hsplit, List.length_append, List.length_cons] at hlen
    omega
  have hyoungest : r ∉ young := by
    rw [hsplit] at hw
    exact (List.nodup_cons.mp (List.nodup_append.mp hw).2.1).1
  have hk : w.Keeps r young := ⟨older, hsplit⟩
  cases h with
  | @asked id hasks hanswers =>
      have hy : young' = young ++ [id] := by simp [hyoung, hasks, hanswers]
      have hid : r ≠ id := fun heq => hfresh (by rw [hasks, heq])
      subst hy
      rw [List.length_append, List.length_singleton]
      refine ⟨hk.track hlen id, fun hfull => ?_⟩
      rw [hk.track_full hlen id hfull]
      simp [hyoungest, hid]
  | @answered id hasks hanswers =>
      have hy : young' = young.filter (· ≠ id) := by simp [hyoung, hasks, hanswers, eq_comm]
      have hid : id ≠ r := fun heq => hunused (by rw [hanswers, heq])
      subst hy
      refine ⟨fun _ => hk.complete hw hid, fun hfull => ?_⟩
      exact absurd (Nat.le_trans hfull (List.length_filter_le ..)) (Nat.not_le.mpr hroom)
  | kept hasks hanswers =>
      have hy : young' = young := by simp [hyoung, hasks, hanswers]
      subst hy
      exact ⟨fun _ => hk, fun hfull => absurd hfull (Nat.not_le.mpr hroom)⟩
  | lost hlost => exact absurd hlost hlive

end Window

/-- What carries the identifier of a request of ours asks for nothing. -/
theorem Rpc.Carries.asks? {n : Nat} {message : Json} (h : Carries n message) :
    (Action.receive message).asks? = none := by
  obtain ⟨id, error, hclass, -⟩ := h.classify
  simp [Action.asks?, hclass]

namespace Client

/-! ## What a step does to the window -/

section Step

variable {normal : Normalizer} {c d : Client} {a : Action} {v : Answer} {es : List Effect}

theorem Transition.moves (t : Transition normal c a v d es) : c.window.Moves a d.window := by
  cases t with
  | editAsked hclass => exact .asked (by simp [Action.asks?, hclass]) rfl
  | @respondLate id outcome hlate =>
      have hmoves : c.window.Moves (.respond id outcome) (c.window.complete id) := .answered rfl rfl
      rwa [Window.complete, List.erase_of_not_mem hlate] at hmoves
  | responded _ _ => exact .answered rfl rfl
  | respondRefused _ _ => exact .answered rfl rfl
  | connectionLost => exact .lost rfl
  | replied hcarries _ _ => exact .kept hcarries.asks? rfl
  | opened hcarries _ _ _ => exact .kept hcarries.asks? rfl
  | openedLate hcarries _ _ _ => exact .kept hcarries.asks? rfl
  | stray hclass _ => exact .kept (by simp [Action.asks?, hclass]) rfl
  | unsupported hclass hmethod => exact .kept (by simp [Action.asks?, hclass, hmethod]) rfl
  | told hclass => exact .kept (by simp [Action.asks?, hclass]) rfl
  | unclassified hclass => exact .kept (by simp [Action.asks?, hclass]) rfl
  | writerEnded =>
      rw [writerEnded_window]
      exact .kept rfl rfl
  | _ => exact .kept rfl rfl

theorem Transition.link_up (t : Transition normal c a v d es) (hup : c.link = .up)
    (hkept : a ≠ .connectionLost) (hwrites : a ≠ .writerEnded) : d.link = .up := by
  cases t with
  | connectionLost => exact absurd rfl hkept
  | writerEnded => exact absurd rfl hwrites
  | _ => exact hup

theorem Transition.respond_tracked {r : RequestId} {outcome : EditOutcome}
    (t : Transition normal c (.respond r outcome) v d es) (hr : r ∈ c.window) (hup : c.link = .up) :
    v = .responded true ∧
      es = [.queue (.response (success r (Params.applyEditResponse outcome)))] := by
  cases t with
  | respondLate hlate => exact absurd hr hlate
  | responded _ _ => exact ⟨rfl, rfl⟩
  | respondRefused _ hcut => exact absurd hup hcut

theorem Transition.respond_untracked {r : RequestId} {outcome : EditOutcome}
    (t : Transition normal c (.respond r outcome) v d es) (hr : r ∉ c.window) :
    v = .responded false ∧ es = [] ∧ d.window = c.window := by
  cases t with
  | respondLate _ => exact ⟨rfl, rfl, rfl⟩
  | responded hmem _ => exact absurd hmem hr
  | respondRefused hmem _ => exact absurd hmem hr

end Step

/-! ## What a history does to the window -/

theorem link_after {c : Client} (hup : c.link = .up) {history : List Moment}
    (hlive : ∀ m ∈ history, m.Live) : (c.after history).link = .up := by
  induction history generalizing c with
  | nil => exact hup
  | cons m rest ih =>
      obtain ⟨hm, hrest⟩ := List.forall_mem_cons.mp hlive
      exact ih ((c.turn_transition m).link_up hup hm.1 hm.2) hrest

theorem window_after_length {c : Client} (hc : c.window.length ≤ Window.capacity)
    (history : List Moment) : (c.after history).window.length ≤ Window.capacity := by
  induction history generalizing c with
  | nil => exact hc
  | cons m rest ih => exact ih ((c.turn_transition m).moves.length_le hc)

theorem window_after_sublist (c : Client) (history : List Moment) :
    (c.after history).window.Sublist (c.window ++ asked history) := by
  induction history using List.reverseRecOn with
  | nil => simp [asked]
  | append_singleton rest m ih =>
      rw [after_concat, asked_concat, ← List.append_assoc]
      exact ((c.after rest).turn_transition m).moves.sublist.trans (ih.append (List.Sublist.refl _))

/-- **The place of a request.** Behind a request that was just tracked come exactly the younger ones
that are not answered, until they are as many as the window can hold; from then on it is out. -/
theorem window_after {c : Client} {r : RequestId} (hc : c.window.Keeps r [])
    (hlen : c.window.length ≤ Window.capacity) {later : List Moment}
    (hdistinct : (c.window ++ asked later).Nodup)
    (hlive : ∀ m ∈ later, m.action ≠ .connectionLost)
    (hunused : ∀ m ∈ later, m.action.answers? ≠ some r) :
    (¬ Crowded later → (c.after later).window.Keeps r (unanswered later)) ∧
      (Crowded later → r ∉ (c.after later).window) := by
  induction later using List.reverseRecOn with
  | nil =>
      refine ⟨fun _ => hc, ?_⟩
      rintro ⟨moment, hprefix, hcrowd⟩
      rw [List.prefix_nil.mp hprefix] at hcrowd
      exact absurd hcrowd (by decide)
  | append_singleton rest m ih =>
      rw [asked_concat, ← List.append_assoc] at hdistinct
      obtain ⟨hrest, -, hfresh⟩ := List.nodup_append.mp hdistinct
      obtain ⟨hkeeps, hgone⟩ := ih hrest (fun m hm => hlive m (List.mem_append_left _ hm))
        (fun m hm => hunused m (List.mem_append_left _ hm))
      have hlast : m ∈ rest ++ [m] := List.mem_append_right _ List.mem_cons_self
      have hother : r ∉ m.action.asks?.toList := fun hr =>
        hfresh r (List.mem_append_left _ hc.mem) r hr rfl
      have hmoves := ((c.after rest).turn_transition m).moves
      rw [after_concat, crowded_concat]
      by_cases hcrowded : Crowded rest
      · refine ⟨fun hnot => absurd (.inl hcrowded) hnot, fun _ hr => ?_⟩
        rcases List.mem_append.mp (hmoves.sublist.subset hr) with hr | hr
        · exact hgone hcrowded hr
        · exact hother hr
      · obtain ⟨hroom, hfull⟩ := hmoves.keeps (hkeeps hcrowded) (window_after_length hlen rest)
          (hrest.sublist (window_after_sublist c rest)) (hlive m hlast) (hunused m hlast)
          (fun h => hother (by simp [h])) (unanswered_concat rest m)
        refine ⟨fun hnot => hroom (Nat.not_le.mp fun h => hnot (.inr h)), ?_⟩
        rintro (h | h)
        · exact absurd h hcrowded
        · exact hfull h

/-- **Bounded patience.** On a connection that lives, with requests for edits under distinct
identifiers, the answer to one of them goes out exactly if at no moment since its arrival five younger
ones waited at once; otherwise it is dropped and changes nothing. The window never holds more than it
has room for. -/
theorem respond_counts_iff (workspace : Params.Workspace) (processId : Nat)
    (earlier later : List Moment) (arrival : Moment) (r : RequestId)
    (asks : arrival.action.asks? = some r)
    (live : ∀ m ∈ earlier ++ arrival :: later, m.Live)
    (distinct : (asked (earlier ++ arrival :: later)).Nodup)
    (unused : ∀ m ∈ later, m.action.answers? ≠ some r)
    (normal : Normalizer) (outcome : EditOutcome) :
    let start := fresh workspace processId
    let c := start.after (earlier ++ arrival :: later)
    let turn := c.turn ⟨normal, .respond r outcome⟩
    (turn.value = .responded true ∧
      visible turn.effects = [.queue (.response (success r (Params.applyEditResponse outcome)))] ↔
        ¬ Crowded later) ∧
    (Crowded later →
      turn.value = .responded false ∧ visible turn.effects = [] ∧
        turn.client.window = c.window) ∧
    ∀ history, (start.after history).window.length ≤ Window.capacity := by
  intro start c turn
  have hempty : start.window.length ≤ Window.capacity := Nat.zero_le _
  have hsplit : earlier ++ arrival :: later = (earlier ++ [arrival]) ++ later := by simp
  let arrived := start.after (earlier ++ [arrival])
  have hc : c = arrived.after later := by
    change start.after _ = _
    rw [hsplit, after_append]
  -- the request has just come in as the youngest
  have hkeeps : arrived.window.Keeps r [] := by
    have hmoves := ((start.after earlier).turn_transition arrival).moves
    rw [← after_concat] at hmoves
    change (start.after earlier).window.Moves arrival.action arrived.window at hmoves
    generalize arrived.window = w at hmoves ⊢
    cases hmoves with
    | asked hid _ =>
        obtain rfl := Option.some.inj (hid.symm.trans asks)
        exact ⟨_, rfl⟩
    | answered hnone _ => exact absurd (hnone.symm.trans asks) (by simp)
    | kept hnone _ => exact absurd (hnone.symm.trans asks) (by simp)
    | lost hlost => rw [hlost] at asks; exact absurd asks (by simp [Action.asks?])
  have hdistinct : (arrived.window ++ asked later).Nodup := by
    rw [hsplit, asked_append] at distinct
    exact distinct.sublist ((window_after_sublist start _).append (List.Sublist.refl _))
  have hlater : ∀ m ∈ later, m.action ≠ .connectionLost := fun m hm =>
    (live m (List.mem_append_right _ (List.mem_cons_of_mem _ hm))).1
  obtain ⟨hspared, hgone⟩ := window_after hkeeps (window_after_length hempty _) hdistinct hlater unused
  rw [← hc] at hspared hgone
  have hup : c.link = .up := link_after rfl live
  have t := c.turn_transition ⟨normal, .respond r outcome⟩
  refine ⟨⟨?_, fun h => t.respond_tracked (hspared h).mem hup⟩,
    fun h => t.respond_untracked (hgone h), window_after_length hempty⟩
  rintro ⟨hvalue, -⟩ hcrowded
  have hlate := (t.respond_untracked (hgone hcrowded)).1
  exact absurd (hvalue.symm.trans hlate) (by simp)

/-- Six requests arrive, and the third is answered. If that happens before the sixth arrives, the first
keeps its place; if it happens afterwards, the first is gone. -/
theorem respond_counts_iff_six :
    let ask (n : Nat) : Moment :=
      ⟨some, .receive (.mkObj [("id", RequestId.wire n), ("method", .str applyEditMethod)])⟩
    let relief : Moment := ⟨some, .respond (.number 3) {}⟩
    let relieved := [ask 2, ask 3, ask 4, ask 5, relief, ask 6]
    let crowded := [ask 2, ask 3, ask 4, ask 5, ask 6, relief]
    let after (later : List Moment) :=
      (fresh ⟨"/work", "file:///work", .null, false⟩ 0).after ([] ++ ask 1 :: later)
    (ask 1).action.asks? = some (.number 1) ∧
      (∀ later ∈ [relieved, crowded], (∀ m ∈ [] ++ ask 1 :: later, m.Live) ∧
        (asked ([] ++ ask 1 :: later)).Nodup ∧
        ∀ m ∈ later, m.action.answers? ≠ some (.number 1)) ∧
      ((after relieved).turn ⟨some, .respond (.number 1) {}⟩).value = .responded true ∧
      ((after crowded).turn ⟨some, .respond (.number 1) {}⟩).value = .responded false := by
  intro ask relief relieved crowded after
  have asks : (ask 1).action.asks? = some (.number 1) := by decide
  have meets : ∀ later ∈ [relieved, crowded], (∀ m ∈ [] ++ ask 1 :: later, m.Live) ∧
      (asked ([] ++ ask 1 :: later)).Nodup ∧ ∀ m ∈ later, m.action.answers? ≠ some (.number 1) := by
    intro later hlater
    rcases List.mem_pair.mp hlater with rfl | rfl
    · exact ⟨by simp [relieved, relief, ask, Moment.Live], by decide, by decide⟩
    · exact ⟨by simp [crowded, relief, ask, Moment.Live], by decide, by decide⟩
  obtain ⟨live, distinct, unused⟩ := meets relieved List.mem_cons_self
  obtain ⟨live', distinct', unused'⟩ :=
    meets crowded (List.mem_cons_of_mem _ List.mem_cons_self)
  have hrelieved := respond_counts_iff ⟨"/work", "file:///work", .null, false⟩ 0 [] relieved (ask 1)
    (.number 1) asks live distinct unused some {}
  have hcrowded := respond_counts_iff ⟨"/work", "file:///work", .null, false⟩ 0 [] crowded (ask 1)
    (.number 1) asks live' distinct' unused' some {}
  exact ⟨asks, meets, (hrelieved.1.mpr (by decide)).1, (hcrowded.2.1 (by decide)).1⟩

end Client

end LanguageClient
