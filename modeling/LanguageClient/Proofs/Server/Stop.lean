import LanguageClient.Server.Transport
import Mathlib.Data.List.Nodup

/-!
# What a stop says it did

A stop waits, asks the process to end, waits again, kills it; each stage may be skipped, and a process may
end at any moment on the way. The outcome is all that a caller learns. `Account` says what each outcome
tells about the signals that were sent and about the process, and `stop_accounts` that every stop gives
such an account of itself.

The stages are written against a `Control`, so they are looked at with a control that also notes its waits
and the signals that it tries (`Control.noting`); that changes nothing else (`stop_noting`). What has to be
known of the control is `Watches`: a wait is answered by what is known of the process at its end, one in
vain takes all its time, and a signal is sent exactly to a process that is not known to have ended. The end
may become known at any moment, also between a wait in vain and the signal after it. The supervisor's
control is of that kind (`control_watches`), whatever its process does.

One outcome tells less than its name: `stillRunning` does not mean that the process was left alone. If
only the kill is skipped, the process has been asked to end and is not waited for.
-/

namespace LanguageClient

open Host (Signal Time Timed)

/-! ## Waiting -/

namespace Host.Timed

variable {ω : Type} [Timed ω]

theorem waitUntil_keeps {P : ω → Prop} (hsettle : ∀ w, P w → P (settle w))
    (hmove : ∀ w t, P w → P (moveTo w t)) (done : ω → Bool) (limit : Time) (steps : Nat) {w : ω}
    (h : P w) : P (waitUntil done limit steps w).2 := by
  induction steps generalizing w with
  | zero => exact hsettle _ (hmove _ _ h)
  | succ steps ih =>
      have hsettled := hsettle w h
      rw [waitUntil]
      split
      · exact hsettled
      · split
        · exact hsettled
        · exact ih (hmove _ _ hsettled)

/-- A wait is answered by what holds at its end. -/
theorem waitUntil_fst (done : ω → Bool) (limit : Time) (steps : Nat) (w : ω) :
    (waitUntil done limit steps w).1 = done (waitUntil done limit steps w).2 := by
  induction steps generalizing w with
  | zero => rfl
  | succ steps ih =>
      rw [waitUntil]
      split
      next hdone => exact hdone.symm
      next hdone =>
        split
        · exact (Bool.not_eq_true _ ▸ hdone).symm
        · exact ih _

/-- A wait in vain ends at its limit. -/
theorem now_waitUntil (hsettle : ∀ w : ω, now (settle w) = now w)
    (hmove : ∀ (w : ω) t, now (moveTo w t) = t) (done : ω → Bool) {limit : Time} (steps : Nat) {w : ω}
    (hw : now w ≤ limit) (hvain : (waitUntil done limit steps w).1 = false) :
    now (waitUntil done limit steps w).2 = limit := by
  induction steps generalizing w with
  | zero =>
      show now (settle (moveTo w (max (now w) limit))) = limit
      rw [hsettle, hmove, Nat.max_eq_right hw]
  | succ steps ih =>
      rw [waitUntil] at hvain ⊢
      split at hvain
      · exact absurd hvain (by simp)
      next hdone =>
        rw [if_neg hdone]
        split at hvain
        next hlate =>
          rw [if_pos hlate]
          exact Nat.le_antisymm (hsettle w ▸ hw) hlate
        next hlate =>
          rw [if_neg hlate]
          refine ih ?_ hvain
          rw [hmove]
          cases hnext : ((next? (settle w) limit).filter (· ≤ limit)) with
          | none => exact Nat.le_refl limit
          | some t => exact of_decide_eq_true (Option.filter_eq_some_iff.mp hnext).2

end Host.Timed

namespace Server

/-! ## Stages -/

/-- A signal that was tried, the state just before, and whether it was sent. -/
structure Try (σ : Type) where
  signal : Signal
  before : σ
  sent : Bool

/-- What a stop did, in order: its waits, each with its answer, and the signals that it tried. -/
structure Record (σ : Type) where
  waits : List (Nat × Bool) := []
  tries : List (Try σ) := []

/-- The times of the waits in vain. -/
def Record.vain {σ : Type} (r : Record σ) : List Nat := (r.waits.filter (!·.2)).map Prod.fst

namespace Control

variable {σ : Type} (k : Control σ)

/-! ### The stages as equations -/

/-- What is done with a process that was killed: it is waited for, and logged if it stays. -/
def waitKilled (number : Nat) (w : σ) : σ :=
  if (k.wait reapTime w).1 then (k.wait reapTime w).2
  else k.log (.error .process s!"Process {number} not reaped after SIGKILL") (k.wait reapTime w).2

theorem killStage_some (number time : Nat) (terminated : Bool) (w : σ) :
    k.killStage number (some time) terminated w =
      if (k.wait time w).1 then (endedOutcome terminated, (k.wait time w).2)
      else (.killed, k.waitKilled number (k.signalRunning number .kill (k.log (.warn .process
        s!"Process {number} still running after {Text.duration time}, killing") (k.wait time w).2))) := rfl

theorem killStage_none (number : Nat) (terminated : Bool) (w : σ) :
    k.killStage number none terminated w =
      (if (k.wait 0 w).1 then endedOutcome terminated else .stillRunning, (k.wait 0 w).2) := rfl

theorem stop_some {number : Nat} (time : Nat) (kill : Option Nat) {w : σ}
    (hrunning : k.running? w = some number) : k.stop (some time) kill w =
      if (k.wait time w).1 then (.exited, (k.wait time w).2)
      else k.killStage number kill true (k.signalRunning number .terminate (k.log (.info .process
        s!"Process {number} still running after {Text.duration time}, terminating") (k.wait time w).2)) := by
  rw [stop, hrunning]

theorem stop_none {number : Nat} (kill : Option Nat) {w : σ} (hrunning : k.running? w = some number) :
    k.stop none kill w = k.killStage number kill false w := by
  rw [stop, hrunning]

theorem stop_keeps {P : σ → Prop} (hwait : ∀ t w, P w → P (k.wait t w).2)
    (hsignal : ∀ n s w, P w → P (k.signal n s w).2) (hlog : ∀ e w, P w → P (k.log e w))
    (grace kill : Option Nat) {w : σ} (h : P w) : P (k.stop grace kill w).2 := by
  have hsent : ∀ number s w, P w → P (k.signalRunning number s w) := fun number s w h =>
    hlog _ _ (hsignal number s w h)
  have hkilled : ∀ number terminated w, P w → P (k.killStage number kill terminated w).2 := by
    intro number terminated w h
    cases kill with
    | none => exact hwait 0 w h
    | some time =>
        have hwaited := hwait time w h
        have hreaped := hwait reapTime _ (hsent number .kill _ (hlog (.warn .process
          s!"Process {number} still running after {Text.duration time}, killing") _ hwaited))
        rw [killStage_some]
        split
        · exact hwaited
        · show P (k.waitKilled number _)
          rw [waitKilled]
          split
          · exact hreaped
          · exact hlog _ _ hreaped
  cases hrunning : k.running? w with
  | none =>
      rw [stop, hrunning]
      exact h
  | some number =>
      cases grace with
      | none =>
          rw [stop_none k kill hrunning]
          exact hkilled _ _ _ h
      | some time =>
          have hwaited := hwait time w h
          rw [stop_some k time kill hrunning]
          split
          · exact hwaited
          · exact hkilled _ _ _ (hsent _ _ _ (hlog _ _ hwaited))

/-! ### Deeds noted -/

/-- The control that also notes its waits and the signals that it tries. -/
def noting : Control (σ × Record σ) where
  running? w := k.running? w.1
  wait time w :=
    let (ended, after) := k.wait time w.1
    (ended, after, { w.2 with waits := w.2.waits ++ [(time, ended)] })
  signal number s w :=
    let (sent, after) := k.signal number s w.1
    (sent, after, { w.2 with tries := w.2.tries ++ [⟨s, w.1, sent⟩] })
  log e w := (k.log e w.1, w.2)

theorem waitKilled_noting (number : Nat) (w : σ × Record σ) : k.noting.waitKilled number w =
    (k.waitKilled number w.1, { w.2 with waits := w.2.waits ++ [(reapTime, (k.wait reapTime w.1).1)] }) := by
  show (if (k.wait reapTime w.1).1 then _ else _) = (if (k.wait reapTime w.1).1 then _ else _, _)
  split <;> rfl

theorem killStage_noting (number : Nat) (kill : Option Nat) (terminated : Bool) (w : σ × Record σ) :
    Prod.map id Prod.fst (k.noting.killStage number kill terminated w) =
      k.killStage number kill terminated w.1 := by
  cases kill with
  | none => rfl
  | some time =>
      rw [killStage_some, killStage_some, apply_ite (Prod.map id Prod.fst)]
      show (if (k.wait time w.1).1 then _ else _) = if (k.wait time w.1).1 then _ else _
      split
      · rfl
      · rw [waitKilled_noting]
        rfl

/-- Noting what is done changes nothing else. -/
theorem stop_noting (grace kill : Option Nat) (w : σ × Record σ) :
    Prod.map id Prod.fst (k.noting.stop grace kill w) = k.stop grace kill w.1 := by
  cases hrunning : k.running? w.1 with
  | none =>
      have hnoting : k.noting.running? w = none := hrunning
      rw [stop, stop, hrunning, hnoting]
      rfl
  | some number =>
      have hnoting : k.noting.running? w = some number := hrunning
      cases grace with
      | none =>
          rw [stop_none _ kill hnoting, stop_none _ kill hrunning]
          exact k.killStage_noting number kill false w
      | some time =>
          rw [stop_some _ time kill hnoting, stop_some _ time kill hrunning,
            apply_ite (Prod.map id Prod.fst)]
          show (if (k.wait time w.1).1 then _ else _) = if (k.wait time w.1).1 then _ else _
          split
          · rfl
          · rw [killStage_noting]
            rfl

/-! ### What a stop does -/

/-- From one state to a later one: an end that is known stays so. -/
structure Later (Here : σ → Prop) (w w' : σ) : Prop where
  here : Here w'
  gone : k.running? w = none → k.running? w' = none

/-- The control watches the process with a number, as long as `Here` holds, which all it does keeps. A
wait is answered only by what is known of the process, and one in vain takes all its time; a signal is
sent exactly if the process is not known to have ended. The end may become known at any moment, also
between a wait in vain and the signal that follows it. -/
structure Watches (number : Nat) (clock : σ → Time) (Here : σ → Prop) : Prop where
  wait_later : ∀ time w, Here w → k.Later Here w (k.wait time w).2
  wait_ended : ∀ time w, Here w → (k.wait time w).1 = true → k.running? (k.wait time w).2 = none
  wait_vain : ∀ time w, Here w → (k.wait time w).1 = false →
    clock w + Host.milliseconds time ≤ clock (k.wait time w).2
  signal_later : ∀ s w, Here w → k.Later Here w (k.signal number s w).2
  signal_iff : ∀ s w, Here w → ((k.signal number s w).1 = true ↔ k.running? w = some number)
  log_later : ∀ e w, Here w → k.Later Here w (k.log e w)
  clock_signal : ∀ s w, clock w ≤ clock (k.signal number s w).2
  clock_log : ∀ e w, clock w ≤ clock (k.log e w)

/-- What the result of a stop tells about what it did. -/
structure Account (number : Nat) (clock : σ → Time) (grace kill : Option Nat) (w : σ)
    (outcome : StopOutcome) (w' : σ) (r : Record σ) : Prop where
  found : outcome ≠ .notRunning
  /-- The outcome says how far the stop got, that is which of its waits were in vain. -/
  exited : outcome = .exited ↔ r.vain = []
  terminated : outcome = .terminated ↔ grace.isSome ∧ r.vain = grace.toList
  killed : outcome = .killed ↔ ∃ time, kill = some time ∧ grace.toList ++ [time] <+: r.vain
  stillRunning : outcome = .stillRunning ↔ kill = none ∧ r.vain = grace.toList ++ [0]
  /-- The process is asked to end if it outstays the grace, and killed if it outstays the further wait. -/
  tried : r.tries.map (·.signal) =
    (if grace.isSome ∧ r.vain ≠ [] then [.terminate] else []) ++
      if outcome = .killed then [.kill] else []
  asked_after : ∀ t ∈ r.tries, t.signal = .terminate → ∃ time, grace = some time ∧
    clock w + Host.milliseconds time ≤ clock t.before
  killed_after : ∀ t ∈ r.tries, t.signal = .kill → ∃ time, kill = some time ∧
    clock w + Host.milliseconds (grace.getD 0) + Host.milliseconds time ≤ clock t.before
  /-- A signal is sent only to a process that is not known to have ended, and else spared. -/
  sent_iff : ∀ t ∈ r.tries, (t.sent = true ↔ k.running? t.before = some number)
  spared : ∀ t ∈ r.tries, k.running? t.before = none → k.running? w' = none
  /-- A process that is said to have ended has ended. -/
  ended : outcome = .exited ∨ outcome = .terminated → k.running? w' = none

variable {k} {number : Nat} {clock : σ → Time} {Here : σ → Prop}

theorem Later.trans {w w' w'' : σ} (h : k.Later Here w w') (h' : k.Later Here w' w'') :
    k.Later Here w w'' where
  here := h'.here
  gone hw := h'.gone (h.gone hw)

/-- A signal that is tried after some words is noted, and sent exactly if the process is not known to
have ended by then. -/
theorem Watches.trying (h : k.Watches number clock Here) {w : σ} (hw : Here w) (s : Signal)
    (e : LogEvent) (r : Record σ) : ∃ t w',
      k.noting.signalRunning number s (k.noting.log e (w, r)) =
        (w', { r with tries := r.tries ++ [t] }) ∧ t.signal = s ∧
      (t.sent = true ↔ k.running? t.before = some number) ∧
      k.Later Here w t.before ∧ clock w ≤ clock t.before ∧
      k.Later Here t.before w' ∧ clock t.before ≤ clock w' := by
  have hlogged := h.log_later e w hw
  have hsent := h.signal_later s _ hlogged.here
  exact ⟨⟨s, k.log e w, (k.signal number s (k.log e w)).1⟩, _, rfl, rfl,
    h.signal_iff s _ hlogged.here, hlogged, h.clock_log e w,
    hsent.trans (h.log_later _ _ hsent.here), Nat.le_trans (h.clock_signal s _) (h.clock_log _ _)⟩

theorem Watches.waitKilled (h : k.Watches number clock Here) {w : σ} (hw : Here w) :
    k.Later Here w (k.waitKilled number w) := by
  have hwaited := h.wait_later reapTime w hw
  rw [Control.waitKilled]
  split
  · exact hwaited
  · exact hwaited.trans (h.log_later _ _ hwaited.here)

theorem Watches.killStage_cases (h : k.Watches number clock Here) (kill : Option Nat) (terminated : Bool)
    {w : σ} (hw : Here w) (r : Record σ) : ∃ w', k.Later Here w w' ∧
    ((k.noting.killStage number kill terminated (w, r) =
          (endedOutcome terminated, w', { r with waits := r.waits ++ [(kill.getD 0, true)] }) ∧
        k.running? w' = none) ∨
      (∃ time t ended, kill = some time ∧
        k.noting.killStage number kill terminated (w, r) = (.killed, w',
          ⟨r.waits ++ [(time, false)] ++ [(reapTime, ended)], r.tries ++ [t]⟩) ∧
        t.signal = .kill ∧ (t.sent = true ↔ k.running? t.before = some number) ∧
        clock w + Host.milliseconds time ≤ clock t.before ∧ k.Later Here t.before w') ∨
      kill = none ∧ k.noting.killStage number kill terminated (w, r) =
        (.stillRunning, w', { r with waits := r.waits ++ [(0, false)] })) := by
  cases kill with
  | none =>
      refine ⟨_, h.wait_later 0 w hw, ?_⟩
      rw [killStage_none]
      cases hwait : (k.wait 0 w).1 with
      | true =>
          refine Or.inl ⟨?_, h.wait_ended 0 w hw hwait⟩
          simp [noting, hwait]
      | false =>
          refine Or.inr (Or.inr ⟨rfl, ?_⟩)
          simp [noting, hwait]
  | some time =>
      have hwaited := h.wait_later time w hw
      rw [killStage_some]
      cases hwait : (k.wait time w).1 with
      | true =>
          refine ⟨_, hwaited, Or.inl ⟨?_, h.wait_ended time w hw hwait⟩⟩
          simp [noting, hwait]
      | false =>
          obtain ⟨t, w', hsent, hkill, hiff, hbefore, hclock, hafter, -⟩ := h.trying hwaited.here .kill
            (.warn .process s!"Process {number} still running after {Text.duration time}, killing")
            { r with waits := r.waits ++ [(time, false)] }
          have hreaped := h.waitKilled hafter.here
          refine ⟨_, (hwaited.trans (hbefore.trans hafter)).trans hreaped, Or.inr (Or.inl
            ⟨time, t, (k.wait reapTime w').1, rfl, ?_, hkill, hiff, ?_, hafter.trans hreaped⟩)⟩
          · have hnoted : k.noting.wait time (w, r) =
                (false, (k.wait time w).2, { r with waits := r.waits ++ [(time, false)] }) := by
              simp [noting, hwait]
            rw [hnoted, if_neg Bool.false_ne_true, hsent, waitKilled_noting]
          · exact Nat.le_trans (h.wait_vain time w hw hwait) hclock

/-- A stop is over after the grace, or goes on to its last stage, with or without having tried to ask the
process to end. -/
theorem Watches.stop_cases (h : k.Watches number clock Here) (grace kill : Option Nat) {w : σ}
    (hw : Here w) (hrunning : k.running? w = some number) :
    (∃ time w', grace = some time ∧
        k.noting.stop grace kill (w, {}) = (.exited, w', { waits := [(time, true)] }) ∧
        k.running? w' = none) ∨
      (∃ time t w', grace = some time ∧
        k.noting.stop grace kill (w, {}) =
          k.noting.killStage number kill true (w', { waits := [(time, false)], tries := [t] }) ∧
        t.signal = .terminate ∧ (t.sent = true ↔ k.running? t.before = some number) ∧
        clock w + Host.milliseconds time ≤ clock t.before ∧ clock t.before ≤ clock w' ∧
        k.Later Here t.before w') ∨
      grace = none ∧
        k.noting.stop grace kill (w, {}) = k.noting.killStage number kill false (w, {}) := by
  have hnoting : k.noting.running? (w, {}) = some number := hrunning
  cases grace with
  | none => exact Or.inr (Or.inr ⟨rfl, stop_none _ kill hnoting⟩)
  | some time =>
      have hwaited := h.wait_later time w hw
      rw [stop_some _ time kill hnoting]
      cases hwait : (k.wait time w).1 with
      | true =>
          refine Or.inl ⟨time, _, rfl, ?_, h.wait_ended time w hw hwait⟩
          simp [noting, hwait]
      | false =>
          obtain ⟨t, w', hsent, hasked, hiff, -, hclock, hafter, hpassed⟩ := h.trying hwaited.here .terminate
            (.info .process s!"Process {number} still running after {Text.duration time}, terminating")
            { waits := [(time, false)] }
          have hnoted : k.noting.wait time (w, {}) =
              (false, (k.wait time w).2, { waits := [(time, false)] }) := by
            simp [noting, hwait]
          refine Or.inr (Or.inl ⟨time, t, w', rfl, ?_, hasked, hiff, ?_, hpassed, hafter⟩)
          · rw [hnoted, if_neg Bool.false_ne_true, hsent]
            rfl
          · exact Nat.le_trans (h.wait_vain time w hw hwait) hclock

theorem Watches.account (h : k.Watches number clock Here) (grace kill : Option Nat) {w : σ} (hw : Here w)
    (hrunning : k.running? w = some number) : ∃ outcome w' r,
      k.noting.stop grace kill (w, {}) = (outcome, w', r) ∧
        k.Account number clock grace kill w outcome w' r := by
  rcases h.stop_cases grace kill hw hrunning with
    ⟨time, w', rfl, hstop, hgone⟩ |
    ⟨time, t, w₁, rfl, hstop, hasked, hiff, hclock, hpassed, hafter⟩ | ⟨rfl, hstop⟩
  · refine ⟨_, _, _, hstop, ?_⟩
    constructor <;> simp [Record.vain, hgone]
  · -- the process has been asked to end, if it was there
    obtain ⟨w', hlater, hcases⟩ := h.killStage_cases kill true hafter.here
      { waits := [(time, false)], tries := [t] }
    have hspared : k.running? t.before = none → k.running? w' = none := fun hg =>
      hlater.gone (hafter.gone hg)
    rcases hcases with ⟨heq, hgone⟩ | ⟨time', t', ended, rfl, heq, hkill, hiff', hclock', hafter'⟩ |
      ⟨rfl, heq⟩
    · refine ⟨_, _, _, hstop.trans heq, ?_⟩
      constructor <;> simp [Record.vain, endedOutcome, hgone, hasked, hclock, hiff]
    · have hlate := Nat.le_trans (Nat.add_le_add_right (Nat.le_trans hclock hpassed) _) hclock'
      refine ⟨_, _, _, hstop.trans heq, ?_⟩
      cases ended <;> constructor <;>
        simp [Record.vain, hasked, hkill, hclock, hlate, hiff, hiff'] <;>
        exact ⟨hspared, hafter'.gone⟩
    · refine ⟨_, _, _, hstop.trans heq, ?_⟩
      constructor <;> simp [Record.vain, hasked, hclock, hiff]
      exact hspared
  · -- the process has been left alone
    obtain ⟨w', hlater, hcases⟩ := h.killStage_cases kill false hw {}
    rcases hcases with ⟨heq, hgone⟩ | ⟨time', t', ended, rfl, heq, hkill, hiff', hclock', hafter'⟩ |
      ⟨rfl, heq⟩
    · refine ⟨_, _, _, hstop.trans heq, ?_⟩
      constructor <;> simp [Record.vain, endedOutcome, hgone]
    · have hnone : Host.milliseconds 0 = 0 := rfl
      refine ⟨_, _, _, hstop.trans heq, ?_⟩
      cases ended <;> constructor <;>
        simp [Record.vain, hkill, hnone, hclock', hiff'] <;> exact hafter'.gone
    · refine ⟨_, _, _, hstop.trans heq, ?_⟩
      constructor <;> simp [Record.vain]

/-- **A stop gives an account of itself**, whatever its process does and whenever it ends. Its outcome
tells which of its waits were in vain. It asks the process to end if it outstays the grace, and kills it if it
outstays the further wait; each signal is sent only if the process is not known to have ended by then, after
all the time that was given. What is said to have ended has ended. -/
theorem stop_accounts (h : k.Watches number clock Here) (grace kill : Option Nat) {w : σ} (hw : Here w)
    (hrunning : k.running? w = some number) : ∃ r,
      k.noting.stop grace kill (w, {}) = ((k.stop grace kill w).1, (k.stop grace kill w).2, r) ∧
        k.Account number clock grace kill w (k.stop grace kill w).1 (k.stop grace kill w).2 r := by
  obtain ⟨outcome, w', r, hnoted, haccount⟩ := h.account grace kill hw hrunning
  have hstop : (outcome, w') = k.stop grace kill w := by
    rw [← k.stop_noting grace kill (w, {}), hnoted]
    rfl
  rw [← hstop]
  exact ⟨r, hnoted, haccount⟩

/-- A process whose end is noticed as soon as something is logged, and the time. -/
def fleeting : Control (Bool × Time) where
  running? w := if w.1 then some 1 else none
  wait time w := if w.1 then (false, true, w.2 + Host.milliseconds time) else (true, w)
  signal _ _ w := (w.1, w)
  log _ w := (false, w.2)

/-- It outstays the grace and is gone before the signal: it counts as terminated, and was spared. -/
example : fleeting.Watches 1 Prod.snd (fun _ => True) ∧
    (fleeting.noting.stop (some 10) none ((true, 0), {})).1 = .terminated ∧
    (fleeting.noting.stop (some 10) none ((true, 0), {})).2.2.tries.map (·.sent) = [false] := by
  refine ⟨?_, by decide +kernel, by decide +kernel⟩
  constructor <;> simp +contextual [fleeting] <;> grind [Later]

end Control

/-! ## Supervisors -/

variable {τ : Type}

theorem Process.settle_number [PipeHolder τ] (p : Process τ) (now : Time) :
    (p.settle now).1.number = p.number := by
  have herrors : ∀ (p : Process τ) news, (p.useErrors now news).1.number = p.number := by
    intro p news
    rw [useErrors]
    split <;> rfl
  have hreap : ∀ (p : Process τ) news, (p.reap news).1.number = p.number := by
    intro p news
    rw [reap]
    split <;> rfl
  let news := (p.child.read now).2
  show (reap (useErrors (usePipes { p with child := (p.child.read now).1 } now news).1 now news).1
    news).1.number = p.number
  rw [hreap, herrors]
  rfl

theorem Process.settle_ended [PipeHolder τ] {p : Process τ} (hp : p.isRunning = false) (now : Time) :
    (p.settle now).1.isRunning = false := by
  have herrors : ∀ (p : Process τ) news, (p.useErrors now news).1.ending = p.ending := by
    intro p news
    rw [useErrors]
    split <;> rfl
  have hreap : ∀ (p : Process τ) news, p.isRunning = false → (p.reap news).1.isRunning = false := by
    intro p news hp
    rw [reap]
    split
    · rfl
    · exact hp
  let news := (p.child.read now).2
  let used := (usePipes { p with child := (p.child.read now).1 } now news).1
  have hused : (useErrors used now news).1.isRunning = false :=
    (congrArg Option.isNone (herrors used news)).trans hp
  exact hreap _ news hused

namespace Supervisor

/-- The numbers of the processes, of the newest first. -/
def numbers (s : Supervisor τ) : List Nat := s.processes.map (·.number)

/-- The process with the number is known to have ended. -/
def HasEnded (s : Supervisor τ) (number : Nat) : Prop :=
  ∃ p ∈ s.processes, p.number = number ∧ p.isRunning = false

/-- Nothing is started and no time passes from one supervisor to the other, and an end that is known
stays so. -/
structure Stays (s t : Supervisor τ) : Prop where
  numbers : t.numbers = s.numbers
  next : t.nextNumber = s.nextNumber
  now : t.now = s.now
  ended : ∀ n, s.HasEnded n → t.HasEnded n

variable {s t u : Supervisor τ}

theorem Stays.refl (s : Supervisor τ) : s.Stays s := ⟨rfl, rfl, rfl, fun _ h => h⟩

theorem Stays.trans (h : s.Stays t) (h' : t.Stays u) : s.Stays u :=
  ⟨h'.numbers.trans h.numbers, h'.next.trans h.next, h'.now.trans h.now,
    fun n hn => h'.ended n (h.ended n hn)⟩

theorem stays_mapProcess (s : Supervisor τ) (number : Nat) {f : Process τ → Process τ}
    (hf : ∀ p, (f p).number = p.number) (hended : ∀ p, (f p).ending = p.ending) :
    s.Stays (s.mapProcess number f) where
  numbers := by
    show (s.processes.map fun p => if p.number = number then f p else p).map (·.number) = _
    rw [List.map_map]
    refine List.map_congr_left fun p _ => ?_
    show (if p.number = number then f p else p).number = p.number
    split
    · exact hf p
    · rfl
  next := rfl
  now := rfl
  ended := by
    rintro n ⟨p, hp, hn, hrunning⟩
    refine ⟨_, List.mem_map_of_mem hp, ?_⟩
    split
    · exact ⟨(hf p).trans hn, (congrArg Option.isNone (hended p)).trans hrunning⟩
    · exact ⟨hn, hrunning⟩

theorem stays_signal (s : Supervisor τ) (number : Nat) (signal : Signal) :
    s.Stays (s.signal number signal) := s.stays_mapProcess number (fun _ => rfl) fun _ => rfl

theorem stays_doDuty (s : Supervisor τ) (d : Duty) : s.Stays (s.doDuty d) := by
  rw [doDuty]
  split
  · exact (s.stays_signal d.number d.signal).trans ⟨rfl, rfl, rfl, fun _ h => h⟩
  · exact Stays.refl s

section

variable [PipeHolder τ]

theorem stays_settleProcesses (s : Supervisor τ) : s.Stays s.settleProcesses := by
  have hfold : ∀ (ps : List (Process τ)) (t : Supervisor τ),
      let r := ps.foldr (fun p (s : Supervisor τ) =>
        { s with
          processes := (p.settle s.now).1 :: s.processes, lines := s.lines ++ (p.settle s.now).2.lines
          passedOn := s.passedOn ++ (p.settle s.now).2.passedOn
          endings := s.endings ++ (p.settle s.now).2.ending.toList
          log := s.log ++ (p.settle s.now).2.log }) t
      r.processes = ps.map (fun p => (p.settle t.now).1) ++ t.processes ∧
        r.nextNumber = t.nextNumber ∧ r.now = t.now := by
    intro ps t
    induction ps with
    | nil => exact ⟨rfl, rfl, rfl⟩
    | cons p rest ih =>
        obtain ⟨hprocesses, hnext, hnow⟩ := ih
        refine ⟨?_, hnext, hnow⟩
        rw [List.foldr_cons, List.map_cons, List.cons_append, ← hprocesses, ← hnow]
  obtain ⟨hprocesses, hnext, hnow⟩ := hfold s.processes { s with processes := [] }
  have hsettled : s.settleProcesses.processes = s.processes.map fun p => (p.settle s.now).1 :=
    hprocesses.trans (List.append_nil _)
  refine ⟨?_, hnext, hnow, fun n ⟨p, hp, hn, hrunning⟩ => ?_⟩
  · rw [numbers, hsettled, List.map_map]
    exact List.map_congr_left fun p _ => p.settle_number s.now
  · refine ⟨_, hsettled ▸ List.mem_map_of_mem hp, ?_, Process.settle_ended hrunning s.now⟩
    exact (p.settle_number s.now).trans hn

theorem stays_settle (s : Supervisor τ) : s.Stays s.settle := by
  have hduties : ∀ (ds : List Duty) (t : Supervisor τ), t.Stays (ds.foldl doDuty t) := by
    intro ds
    induction ds with
    | nil => exact Stays.refl
    | cons d rest ih => exact fun t => (t.stays_doDuty d).trans (ih _)
  rw [settle]
  dsimp only
  split
  · exact s.stays_settleProcesses
  · have hdue : ∀ due later, s.settleProcesses.Stays
        (List.foldl doDuty { s.settleProcesses with duties := later } due) := fun due later =>
      Stays.trans (t := { s.settleProcesses with duties := later })
        ⟨rfl, rfl, rfl, fun _ h => h⟩ (hduties due _)
    exact (s.stays_settleProcesses.trans (hdue _ _)).trans (stays_settleProcesses _)

end

/-! ### Watching the newest process -/

/-- The newest process has the number, and no other one has. -/
structure Watching (number : Nat) (s : Supervisor τ) : Prop where
  distinct : s.numbers.Nodup
  newest : s.numbers.head? = some number

theorem Watching.of_numbers {number : Nat} (h : s.Watching number) (hsame : t.numbers = s.numbers) :
    t.Watching number := ⟨hsame ▸ h.distinct, hsame ▸ h.newest⟩

theorem Watching.processes {number : Nat} (h : s.Watching number) :
    ∃ p rest, s.processes = p :: rest ∧ p.number = number ∧ ∀ q ∈ rest, q.number ≠ number := by
  obtain ⟨hdistinct, hnewest⟩ := h
  cases hs : s.processes with
  | nil =>
      rw [numbers, hs] at hnewest
      exact absurd hnewest (by simp)
  | cons p rest =>
      rw [numbers, hs] at hnewest hdistinct
      have hp : p.number = number := Option.some.inj hnewest
      refine ⟨p, rest, rfl, hp, fun q hq heq => (List.nodup_cons.mp hdistinct).1 ?_⟩
      exact List.mem_map.mpr ⟨q, hq, heq.trans hp.symm⟩

theorem running?_cons {p : Process τ} {rest : List (Process τ)} (hs : s.processes = p :: rest) :
    s.running? = if p.isRunning then some p.number else none := by
  rw [running?, state, hs]
  dsimp only
  by_cases hp : p.ending.isNone = true
  · rw [if_pos hp, if_pos (show p.isRunning = true from hp)]
  · rw [if_neg hp, if_neg (show ¬ p.isRunning = true from hp)]

theorem Watching.any_ended {number : Nat} (h : s.Watching number) :
    (s.processes.any fun q => q.number = number ∧ ¬ q.isRunning) = s.running?.isNone := by
  obtain ⟨p, rest, hs, hp, hrest⟩ := h.processes
  rw [running?_cons hs, hs]
  cases hrunning : p.isRunning with
  | true => simpa [hrunning] using fun q hq heq => absurd heq (hrest q hq)
  | false => simp [hp, hrunning]

theorem Watching.hasEnded_iff {number : Nat} (h : s.Watching number) :
    s.HasEnded number ↔ s.running? = none := by
  rw [← Option.isNone_iff_eq_none, ← h.any_ended, HasEnded]
  simp

variable [PipeHolder τ]

theorem Watching.waitEnded {number : Nat} (h : s.Watching number) (time : Nat) :
    (s.waitEnded time).2.Watching number ∧
      (s.waitEnded time).1 = (s.waitEnded time).2.running?.isNone ∧
      ((s.waitEnded time).1 = false → (s.waitEnded time).2.now = s.now + Host.milliseconds time) := by
  obtain ⟨p, rest, hs, rfl, -⟩ := h.processes
  let done (t : Supervisor τ) : Bool := t.processes.any fun q => q.number = p.number ∧ ¬ q.isRunning
  have hwait : s.waitEnded time =
      Timed.waitUntil done (s.now + Host.milliseconds time) Timed.momentLimit s := by
    rw [Supervisor.waitEnded, hs]
    rfl
  rw [hwait]
  have hnumbers : (Timed.waitUntil done (s.now + Host.milliseconds time) Timed.momentLimit s).2.numbers =
      s.numbers :=
    Timed.waitUntil_keeps (P := fun t : Supervisor τ => t.numbers = s.numbers)
      (fun t ht => t.stays_settle.numbers.trans ht) (fun _ _ ht => ht) done _ _ rfl
  have hthere := h.of_numbers hnumbers
  refine ⟨hthere, (Timed.waitUntil_fst done _ _ s).trans hthere.any_ended, ?_⟩
  exact Timed.now_waitUntil (fun t => t.stays_settle.now) (fun _ _ => rfl) done _ (Nat.le_add_right _ _)

/-- A process of which an end is known is waited for, and still known to have ended then. -/
theorem Watching.gone_waitEnded {number : Nat} (h : s.Watching number) (time : Nat)
    (hgone : s.running? = none) : (s.waitEnded time).2.running? = none := by
  refine (h.waitEnded time).1.hasEnded_iff.mp ?_
  have hended := h.hasEnded_iff.mpr hgone
  rw [Supervisor.waitEnded]
  split
  · exact hended
  · exact Timed.waitUntil_keeps (P := fun t : Supervisor τ => t.HasEnded number)
      (fun t ht => t.stays_settle.ended number ht) (fun _ _ ht => ht) _ _ _ hended

/-- The supervisor's control watches its newest process, whatever that does. -/
theorem control_watches (number : Nat) :
    (control : Control (Supervisor τ)).Watches number Supervisor.now (Watching number) where
  wait_later time s h := ⟨(h.waitEnded time).1, h.gone_waitEnded time⟩
  wait_ended time s h hended := by
    have hknown := (h.waitEnded time).2.1
    exact Option.isNone_iff_eq_none.mp (hknown.symm.trans hended)
  wait_vain time s h hvain := Nat.le_of_eq ((h.waitEnded time).2.2 hvain).symm
  signal_later signal s h := by
    dsimp only [control]
    split
    next hrunning =>
      refine ⟨h.of_numbers (s.stays_signal number signal).numbers, fun hgone => ?_⟩
      exact absurd (hrunning.symm.trans hgone) nofun
    next => exact ⟨h, id⟩
  signal_iff signal s _ := by
    dsimp only [control]
    split <;> simp [*]
  log_later _ _ h := ⟨h.of_numbers rfl, id⟩
  clock_signal signal s := by
    dsimp only [control]
    split <;> exact Nat.le_refl _
  clock_log _ _ := Nat.le_refl _

/-! ### Supervisors in use -/

/-- The processes are numbered: each has a number of its own, which was given to it. -/
structure Numbered (s : Supervisor τ) : Prop where
  distinct : s.numbers.Nodup
  given : ∀ n ∈ s.numbers, n < s.nextNumber

omit [PipeHolder τ] in
theorem Numbered.stays (h : s.Numbered) (hst : s.Stays t) : t.Numbered where
  distinct := hst.numbers ▸ h.distinct
  given := by
    intro n hn
    rw [hst.next]
    exact h.given n (hst.numbers ▸ hn)

omit [PipeHolder τ] in
theorem Numbered.start (h : s.Numbered) (pipes : τ) : (s.start pipes).2.Numbered := by
  rw [Supervisor.start]
  split
  · exact h
  · dsimp only
    split
    · exact h.stays ⟨rfl, rfl, rfl, fun _ h => h⟩
    · have hfresh : s.nextNumber ∉ s.numbers := fun hn => Nat.lt_irrefl _ (h.given _ hn)
      constructor
      · exact List.nodup_cons.mpr ⟨hfresh, h.distinct⟩
      · intro n hn
        cases hn with
        | head => exact Nat.lt_succ_self _
        | tail _ hn => exact Nat.lt_succ_of_lt (h.given n hn)

theorem Numbered.waitUntil (h : s.Numbered) (done : Supervisor τ → Bool) (limit : Time) (steps : Nat) :
    (Timed.waitUntil done limit steps s).2.Numbered :=
  Timed.waitUntil_keeps (P := Numbered) (fun t ht => ht.stays t.stays_settle)
    (fun _ _ ht => ⟨ht.distinct, ht.given⟩) done limit steps h

theorem Numbered.stop (h : s.Numbered) (grace kill : Option Nat) : (s.stop grace kill).2.Numbered := by
  refine Control.stop_keeps _ (P := Numbered) (fun time t ht => ?_) (fun number signal t ht => ?_)
    (fun _ _ ht => ht.stays ⟨rfl, rfl, rfl, fun _ h => h⟩) grace kill h
  · show (t.waitEnded time).2.Numbered
    rw [waitEnded]
    split
    · exact ht
    · exact ht.waitUntil _ _ _
  · rw [control]
    dsimp only
    split
    · exact ht.stays (t.stays_signal _ signal)
    · exact ht

omit [PipeHolder τ] in
theorem Numbered.watching {number : Nat} (h : s.Numbered) (hrunning : s.running? = some number) :
    s.Watching number := by
  refine ⟨h.distinct, ?_⟩
  cases hs : s.processes with
  | nil =>
      rw [Supervisor.running?, state, hs] at hrunning
      exact absurd hrunning (by simp)
  | cons p rest =>
      rw [running?_cons hs] at hrunning
      rw [numbers, hs]
      cases hp : p.isRunning with
      | false => exact absurd (hp ▸ hrunning) (by simp)
      | true => exact (hp ▸ hrunning : (if true then some p.number else none) = some number)

/-- The supervisors in use: whatever was started and stopped, time passed in between. -/
inductive InUse : Supervisor τ → Prop
  | unused {s : Supervisor τ} : s.processes = [] → InUse s
  | started {s : Supervisor τ} (pipes : τ) : InUse s → InUse (s.start pipes).2
  | stopped {s : Supervisor τ} (grace kill : Option Nat) : InUse s → InUse (s.stop grace kill).2
  | waited {s : Supervisor τ} (done : Supervisor τ → Bool) (limit : Time) (steps : Nat) :
      InUse s → InUse (Timed.waitUntil done limit steps s).2

/-- A supervisor in use numbers its processes, so a stop accounts for the process that runs. -/
theorem InUse.watching {number : Nat} (h : s.InUse) (hrunning : s.running? = some number) :
    s.Watching number := by
  refine Numbered.watching ?_ hrunning
  clear hrunning
  induction h with
  | @unused s hs =>
      have hnumbers : s.numbers = [] := by rw [numbers, hs, List.map_nil]
      exact ⟨hnumbers ▸ List.nodup_nil, fun n hn => absurd (hnumbers ▸ hn) List.not_mem_nil⟩
  | started pipes _ ih => exact ih.start pipes
  | stopped grace kill _ ih => exact ih.stop grace kill
  | waited done limit steps _ ih => exact ih.waitUntil done limit steps

/-- A supervisor of a program that is started at moment 0. -/
def lone (program : Host.Program) : Supervisor Transport where
  site := { tree := {}, launch := fun _ _ _ _ => .ok program }
  command := "program"
  arguments := []
  nextNumber := 2
  processes := [{ number := 1, child := Host.Child.begin program 0, pipes := {}, reader := none }]

/-- A program that does nothing until it is asked to end, and then ends after some time. -/
def obedient (delay : Time) : Host.Program := fun around _ =>
  { ending := around.signals.head?.map fun (t, signal) => (t + delay, .signalled signal.number) }

theorem numbered_lone (program : Host.Program) : (lone program).Numbered where
  distinct := List.nodup_singleton 1
  given _ hn := List.mem_singleton.mp hn ▸ Nat.one_lt_two

theorem stop_accounts_obedient :
    (control : Control (Supervisor Transport)).Watches 1 Supervisor.now (Watching 1) ∧
      (lone (obedient 50)).Watching 1 ∧ (lone (obedient 50)).running? = some 1 ∧
      ∃ r, control.noting.stop (some 10) (some 20) (lone (obedient 50), {}) =
          (((lone (obedient 50)).stop (some 10) (some 20)).1,
            ((lone (obedient 50)).stop (some 10) (some 20)).2, r) ∧
        control.Account 1 Supervisor.now (some 10) (some 20) (lone (obedient 50))
          ((lone (obedient 50)).stop (some 10) (some 20)).1
          ((lone (obedient 50)).stop (some 10) (some 20)).2 r := by
  have hwatching : (lone (obedient 50)).Watching 1 := (numbered_lone _).watching rfl
  exact ⟨control_watches 1, hwatching, rfl,
    Control.stop_accounts (control_watches 1) (some 10) (some 20) hwatching rfl⟩

/-- A process that was asked to end, and ends at once, is reported to go on: nobody knows of its end
yet. -/
theorem stop_asked_stillRunning :
    let stopped := control.noting.stop (some 10) none (lone (obedient 0), {})
    stopped.1 = .stillRunning ∧ stopped.2.2.tries.map (fun t => (t.signal, t.sent)) =
      [(.terminate, true)] ∧ (stopped.2.1.waitEnded 1).1 = true := by
  decide +kernel

end Supervisor
end Server
end LanguageClient
