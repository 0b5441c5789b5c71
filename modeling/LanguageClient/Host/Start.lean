import LanguageClient.Host.Child
import LanguageClient.Host.Shell.Run

/-!
# Starting programs

What the system does when it is asked to start a program: it finds the program, or says why it
cannot be started.
-/

namespace LanguageClient.Host

open Shell

/-- How many steps a script may take before it counts as busy for ever. -/
def stepLimit : Nat := 4000

/-- How a run has ended, if it has. -/
def endingOf (m : Machine) : Except Halt Unit → Option Ending
  | .ok () | .error .returns | .error (.breaks _) | .error (.continues _) =>
      some (.exited (m.status % 256))
  | .error (.exits status) => some (.exited (status % 256))
  | .error (.killed signal) => some (.signalled signal)
  | .error .blocked => none

/-- What a run has done. The standard streams stay open as long as a program lingers that the run
has started. -/
def conductOf (m : Machine) (result : Except Halt Unit) : Conduct :=
  let ending := endingOf m result
  let closed : Option Time :=
    if ending.isNone then none else (lastEnd m.lingering).map (max m.now)
  let held (number : Nat) : Option Time := (m.shut.lookup number).orElse fun _ => closed
  let stream (number : Nat) : Stream :=
    { (m.streams.getD number {}).sorted with closed := held number }
  { output := stream 1, errors := stream 2, inputLeft := held 0,
    ending := ending.map fun e => (m.now, e) }

/-- Steps as a program. -/
def perform (site : Premises) (directory : Files.Location) (body : Act Unit) : Program :=
  fun around horizon =>
    let deserted : List (Nat × Time) :=
      (around.outputLeft.map fun t => (1, t)).toList ++
        (around.errorsLeft.map fun t => (2, t)).toList
    let m : Machine :=
      { site := site, now := around.born, horizon := horizon,
        streams := #[around.input, {}, {}], deserted := deserted, signals := around.signals,
        directory := directory }
    let begun : Act Unit := do
      let _ ← pass (some (around.born + startingTime))
      body
    let (result, m) := begun.run m
    conductOf m result

/-- The directory in which a program starts. -/
def startingDirectory (site : Premises) (current : Files.Location) (path : Option String) :
    Except Files.FileError Files.Location :=
  match path with
  | none => .ok current
  | some path => do
      let place ← site.tree.resolve current path
      if site.tree.entry? place = some .directory then return place else throw .notDirectory

/-- Starts a program: what it does from then on. A name without a slash is looked for where
programs are; any other one is a path seen from the starting directory. -/
def start (site : Premises) (current : Files.Location) (path : Option String) (name : String)
    (arguments : List String) : Except Files.FileError Program := do
  if (name :: arguments ++ path.toList).any fun s => s.toList.any (·.toNat = 0) then
    throw .embeddedNull
  let directory ← startingDirectory site current path
  match locate site directory name with
  | .installed program => return program arguments
  | .forbidden => throw .accessDenied
  | .missing =>
      if name.contains '/' then
        match site.tree.resolve directory name with
        | .error e => throw e
        | .ok _ => throw .notFound
      else if name.utf8ByteSize > 255 then throw .nameTooLong
      else throw .notFound
  | _ =>
      return perform site directory
        (become stepLimit (rawOfText name) (arguments.map rawOfText))

/-- The premises as a host. -/
def Premises.host (site : Premises) : Site where
  tree := site.tree
  environment := site.environment
  launch := start site

end LanguageClient.Host
