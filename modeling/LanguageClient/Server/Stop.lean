import LanguageClient.Host.Basic
import LanguageClient.Log
import LanguageClient.Text.Duration

/-!
# Stopping a process by stages

First the process may leave by itself, then it is asked to end, then it is killed. Each stage can be
skipped. What the process is and how time passes for it is left open: all that is needed is a way to
wait for it and a way to send it signals.
-/

namespace LanguageClient.Server

open Host (Signal)

/-- How stopping a process went. -/
inductive StopOutcome where
  /-- There was no running process. -/
  | notRunning
  /-- The process ended without a signal. -/
  | exited
  /-- The process ended after it was asked to. -/
  | terminated
  /-- The process had to be killed. -/
  | killed
  /-- Both stages were skipped, and the process goes on. -/
  | stillRunning
deriving DecidableEq, Repr

/-- The name of an outcome. -/
def StopOutcome.name : StopOutcome → String
  | .notRunning => "NotRunning"
  | .exited => "Exited"
  | .terminated => "Terminated"
  | .killed => "Killed"
  | .stillRunning => "StillRunning"

/-- The name of a signal in log events. -/
def signalName : Signal → String
  | .terminate => "Term"
  | .kill => "Kill"

/-- What can be done with a process whose state, and that of all around it, is in `σ`. -/
structure Control (σ : Type) where
  /-- The number of the process while it runs, and is not known to have ended. -/
  running? : σ → Option Nat
  /-- Waits until the process is known to have ended, some milliseconds at most; has it? -/
  wait : Nat → σ → Bool × σ
  /-- Sends a signal to the process with a number, unless it is known to have ended; was it sent? -/
  signal : Nat → Signal → σ → Bool × σ
  log : LogEvent → σ → σ

namespace Control

variable {σ : Type} (k : Control σ)

/-- Tries to send a signal to a process. -/
def signalRunning (number : Nat) (s : Signal) (w : σ) : σ :=
  let (sent, w) := k.signal number s w
  k.log
    (if sent then .info .process s!"Sent {signalName s} to process {number}"
    else .debug .process s!"Process {number} already reaped, not sending {signalName s}") w

/-- How long a killed process may take to be gone, in milliseconds. -/
def reapTime : Nat := 2000

/-- The outcome for a process that has ended without being killed. -/
def endedOutcome (terminated : Bool) : StopOutcome := if terminated then .terminated else .exited

/-- The stage that kills: after a wait if a time is given, else only a look. -/
def killStage (number : Nat) (kill : Option Nat) (terminated : Bool) (w : σ) : StopOutcome × σ :=
  match kill with
  | some time =>
      let (ended, w) := k.wait time w
      if ended then (endedOutcome terminated, w)
      else
        let w := k.log (.warn .process
          s!"Process {number} still running after {Text.duration time}, killing") w
        let (ended, w) := k.wait reapTime (k.signalRunning number .kill w)
        (.killed,
          if ended then w
          else k.log (.error .process s!"Process {number} not reaped after SIGKILL") w)
  | none =>
      let (ended, w) := k.wait 0 w
      (if ended then endedOutcome terminated else .stillRunning, w)

/-- Stops a process. With `grace` it may leave by itself within that many milliseconds and is asked
to end then; with `kill` it may leave within that many more and is killed then. -/
def stop (grace kill : Option Nat) (w : σ) : StopOutcome × σ :=
  match k.running? w with
  | none => (.notRunning, w)
  | some number =>
      match grace with
      | none => k.killStage number kill false w
      | some time =>
          let (ended, w) := k.wait time w
          if ended then (.exited, w)
          else
            let w := k.log (.info .process
              s!"Process {number} still running after {Text.duration time}, terminating") w
            k.killStage number kill true (k.signalRunning number .terminate w)

end Control

end LanguageClient.Server
