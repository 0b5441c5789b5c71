import LanguageClient.Files.Tree
import LanguageClient.Host.Basic
import LanguageClient.Host.Shell.Command

/-!
# Running in time

The state of a running program, and the steps that every program is made of: letting time pass,
reading, writing, running another program and waiting for it. A run stops where it would need to
know what happens after the horizon; it is then run again later, from the start, with a later
horizon.
-/

namespace LanguageClient.Host

open Shell

/-- What programs find on their host. -/
structure Premises where
  tree : Files.Tree
  environment : List (String × String) := []
  /-- Programs that are installed beside the usual tools: their paths and what they do with
  arguments. -/
  installed : List (String × (List String → Program)) := []

/-- What a descriptor stands for. -/
inductive Handle where
  | stream (number : Nat)
  /-- Nothing can be read, and what is written is lost. -/
  | null
deriving DecidableEq, Repr

/-- What a request to end does. -/
inductive Disposition where
  | standard
  | ignored
  /-- A script is run. -/
  | handled (source : String)
deriving DecidableEq, Repr

/-- What became of a program that another one started: it ended, with the status that the other
one sees, or it goes on behind the horizon. -/
inductive Left where
  | ended (moment : Time) (status : Nat)
  | goesOn
deriving DecidableEq, Repr

/-- A running program. -/
structure Machine where
  site : Premises
  now : Time
  horizon : Time
  /-- Standard input, output and errors come first. -/
  streams : Array Stream
  /-- How much of each stream has been read. -/
  taken : Array Nat := #[]
  /-- When the readers of a stream went away. -/
  deserted : List (Nat × Time) := []
  descriptors : List (Nat × Handle) := [(0, .stream 0), (1, .stream 1), (2, .stream 2)]
  /-- Is this the program itself, and not one that it started? -/
  principal : Bool := true
  /-- When the program closed its last descriptor of a stream. -/
  shut : List (Nat × Time) := []
  signals : List (Time × Signal) := []
  termination : Disposition := .standard
  /-- A signal has come that is to be handled. -/
  caught : Bool := false
  /-- Started programs that are not waited for. -/
  lingering : List Left := []
  directory : Files.Location := []
  bindings : List (String × String) := []
  functions : List (String × Command) := []
  name : String := "sh"
  arguments : List String := []
  /-- The status of the last command. -/
  status : Nat := 0
  /-- The status of the command whose output was used last. -/
  substituted : Option Nat := none
  /-- Variables that are restored when the current function ends. -/
  locals : List (String × Option String) := []
  /-- What runs at the end. -/
  farewell : Option String := none

/-- Why a run stops. -/
inductive Halt where
  | exits (status : Nat)
  | killed (signal : Nat)
  /-- What happens next lies behind the horizon. -/
  | blocked
  /-- A function returns. -/
  | returns
  /-- Loops are left, or go on with their next turn. -/
  | breaks (loops : Nat)
  | continues (loops : Nat)
deriving DecidableEq, Repr

/-- A step of a running program. -/
abbrev Act := ExceptT Halt (StateM Machine)

/-! ## Shell texts and bytes -/

/-- The bytes that a shell text stands for. -/
def rawBytes (s : String) : Bytes := s.toList.map fun c => c.toNat.toUInt8

/-- The shell text of bytes. -/
def rawText (bytes : Bytes) : String := String.ofList (bytes.map fun b => Char.ofNat b.toNat)

/-- The shell text of a text. -/
def rawOfText (s : String) : String := rawText (Utf8.encode s)

/-- The text that a shell text stands for. -/
def plainOfRaw (s : String) : String := Utf8.lossy (rawBytes s)

/-! ## Time -/

/-- Moves to a moment, unless it lies behind the horizon. -/
def reach (goal : Option Time) : Act Unit := do
  let m ← get
  match goal with
  | some t => if t ≤ m.horizon then set { m with now := max m.now t } else throw .blocked
  | none => throw .blocked

/-- Lets time pass until a moment, or for ever, while signals may come in. With `heeds`, a signal
that is to be handled ends the waiting early; the answer tells whether the moment was reached. -/
def passWith (goal : Option Time) (heeds : Bool) : List (Time × Signal) → Act Bool
  | [] => do
      reach goal
      return true
  | (t, signal) :: rest => do
      if goal.any (· < t) then
        reach goal
        return true
      modify fun m => { m with signals := rest }
      let m ← get
      match signal, m.termination with
      | .kill, _ | .terminate, .standard =>
          modify fun m => { m with now := max m.now t }
          throw (.killed signal.number)
      | .terminate, .ignored => passWith goal heeds rest
      | .terminate, .handled _ =>
          modify fun m => { m with caught := true }
          if heeds then
            modify fun m => { m with now := max m.now t }
            return false
          else passWith goal heeds rest

/-- Lets time pass until a moment, or for ever. -/
def pass (goal : Option Time) (heeds : Bool := false) : Act Bool := do
  passWith goal heeds (← get).signals

/-! ## Reading and writing -/

/-- What a descriptor stands for. -/
def handle? (descriptor : Nat) : Act (Option Handle) := do
  return (← get).descriptors.lookup descriptor

/-- Takes what can be read at once from a stream, up to a limit. -/
def takeReady (number limit : Nat) : Act Bytes := do
  let m ← get
  let start := m.taken.getD number 0
  let s := m.streams.getD number {}
  let ready := (s.readable start m.now).take limit
  let taken := if m.taken.size ≤ number then
      m.taken ++ Array.replicate (number + 1 - m.taken.size) 0
    else m.taken
  set { m with taken := taken.set! number (start + ready.length) }
  return ready

/-- Is the end of a stream reached? -/
def atEnd (number : Nat) : Act Bool := do
  let m ← get
  let s := m.streams.getD number {}
  return m.taken.getD number 0 ≥ s.bytes.size && s.isClosed m.now

/-- Reads some bytes, and waits for them if need be. Nothing is read at the end of a stream; there
is no answer if a signal ends the waiting, or without the descriptor. -/
def readSome (descriptor limit : Nat) (heeds : Bool := false) : Act (Option Bytes) := do
  match ← handle? descriptor with
  | none => return none
  | some .null => return some []
  | some (.stream number) =>
      let ready ← takeReady number limit
      if ¬ ready.isEmpty then return some ready
      if ← atEnd number then return some []
      let m ← get
      let next := (m.streams.getD number {}).next? (m.taken.getD number 0) m.now
      if ← pass next heeds then return some (← takeReady number limit) else return none

/-- Writes bytes; whoever writes where nobody reads any more is ended by a signal. The answer tells
whether there is the descriptor. -/
def emit (descriptor : Nat) (bytes : Bytes) : Act Bool := do
  match ← handle? descriptor with
  | none => return false
  | some .null => return true
  | some (.stream number) =>
      let m ← get
      if ¬ bytes.isEmpty ∧ (m.deserted.lookup number).any (· < m.now) then
        throw (.killed brokenPipeSignal)
      set { m with streams := m.streams.modify number (·.write m.now bytes) }
      return true

/-- Writes a text. -/
def emitText (descriptor : Nat) (s : String) : Act Unit := do
  let _ ← emit descriptor (rawBytes s)

/-- Writes a line about a failure. -/
def complain (s : String) : Act Unit := emitText 2 (s ++ "\n")

/-- A new stream. -/
def newStream (s : Stream := {}) : Act Nat := do
  let m ← get
  set { m with streams := m.streams.push s }
  return m.streams.size

/-- Notes which of the standard streams have no descriptor any more. -/
def noteShut : Act Unit := modify fun m =>
  if ¬ m.principal then m
  else
    let lost := [0, 1, 2].filter fun n =>
      ¬ (m.descriptors.any fun (_, h) => h = .stream n) ∧ (m.shut.lookup n).isNone
    { m with shut := m.shut ++ lost.map fun n => (n, m.now) }

/-! ## Other programs -/

/-- Runs steps as a program of their own, which starts now. What it does to streams stays; all else
is as before, the time included. Signals do not reach it. -/
def spawn (body : Act Unit) : Act Left := do
  let before ← get
  let termination := match before.termination with
    | .ignored => .ignored
    | _ => .standard
  set { before with
    principal := false, signals := [], caught := false, termination := termination,
    farewell := none }
  let left : Left ← tryCatch
    (do
      body
      let m ← get
      return .ended m.now (m.status % 256))
    fun halt => do
      let m ← get
      return match halt with
        | .exits status => .ended m.now (status % 256)
        | .killed signal => .ended m.now (128 + signal)
        | .blocked => .goesOn
        | _ => .ended m.now (m.status % 256)
  let after ← get
  set { before with
    streams := after.streams, taken := after.taken, lingering := after.lingering }
  return left

/-- The moment at which the last of some programs has ended, if all have. -/
def lastEnd (ls : List Left) : Option Time :=
  ls.foldl (fun all l => match all, l with
    | some t, .ended e _ => some (max t e)
    | _, _ => none) (some 0)

/-- Waits for programs. If the waiting program is killed meanwhile, they linger. -/
def await (ls : List Left) : Act Unit :=
  tryCatch
    (do let _ ← pass (lastEnd ls))
    fun halt => do
      if let .killed _ := halt then
        modify fun m => { m with lingering := m.lingering ++ ls }
      throw halt

/-- The status of a program that has ended. -/
def Left.status : Left → Nat
  | .ended _ status => status
  | .goesOn => 0

end LanguageClient.Host
