import LanguageClient.CommandLine.Value

/-!
# Reading a command line

Arguments are read from left to right, and the first fault met is reported. A switch takes its
value behind an equals sign or as the next argument; in the second form the value counts as met
only when something follows that is no value, so an unknown switch behind a bad value is reported
first.
-/

namespace LanguageClient.CommandLine

/-- A command line, read so far. -/
structure Reading where
  given : Given := {}
  /-- The switch that waits for its value, and the value if it has arrived. -/
  waiting : Option (Switch × Option String) := none

/-- The switches met so far, as messages show them. -/
def Reading.met (p : Program) (r : Reading) : List String :=
  r.given.switches.filterMap fun (name, _) => (p.switches.find? (·.name = name)).map (·.shown)

/-- Adds a switch. -/
def addSwitch (g : Given) (s : Switch) (text : String) : Except Refusal Given :=
  if g.has s.name then .error (.repeated s.shown)
  else match s.valueFault? text with
    | some refusal => .error refusal
    | none => .ok { g with switches := g.switches ++ [(s.name, text)] }

/-- Settles the switch that waits for its value. -/
def settle (r : Reading) : Except Refusal Given :=
  match r.waiting with
  | none => .ok r.given
  | some (s, none) => .error (.valueMissing s.shown)
  | some (s, some text) => addSwitch r.given s text

/-- The reading after settling, if there is no fault in it. -/
def settled (r : Reading) : Reading :=
  match settle r with
  | .ok given => { given := given }
  | .error _ => { given := r.given }

/-- Splits the text of a switch at its equals sign. -/
def splitEquals (cs : List Char) : String × Option String :=
  let name := String.ofList (cs.takeWhile (· ≠ '='))
  match cs.dropWhile (· ≠ '=') with
  | _ :: text => (name, some (String.ofList text))
  | [] => (name, none)

/-- The question about the program itself that a name asks. -/
def question? (p : Program) (name : String) : Option Request :=
  if name = "help" then some .help
  else if name = "version" ∧ p.version.isSome then some .version
  else none

/-- Reads one long switch: the reading goes on, or the program is asked about itself. -/
def readLong (p : Program) (r : Reading) (cs : List Char) : Except Refusal (Reading ⊕ Request) := do
  let (name, text) := splitEquals cs
  match question? p name, p.switches.find? (·.name = name), text with
  | some _, _, some text => .error (.valueForFlag text ("--" ++ name) ((settled r).met p))
  | some request, _, none =>
      let _ ← settle r
      return .inr request
  | none, none, _ => .error (.unexpected ("--" ++ name) ((settled r).met p))
  | none, some s, text =>
      match s.value, text with
      | none, some text => .error (.valueForFlag text s.shown ((settled r).met p))
      | none, none => return .inl { given := ← addSwitch (← settle r) s "" }
      | some _, some text => return .inl { given := ← addSwitch (← settle r) s text }
      | some _, none => return .inl { given := ← settle r, waiting := some (s, none) }

/-- Reads the short switch that a letter names; only questions have one. -/
def readShort (p : Program) (r : Reading) (letter : Char) : Except Refusal (Reading ⊕ Request) := do
  let name := if letter = 'h' then "help" else if letter = 'V' then "version" else ""
  match question? p name with
  | some request =>
      let _ ← settle r
      return .inr request
  | none => .error (.unexpected (String.ofList ['-', letter]) ((settled r).met p))

/-- The switches that are missing beside given ones. -/
def missing (p : Program) (g : Given) : List Switch :=
  p.switches.filter fun s => ¬ g.has s.name ∧
    p.switches.any fun other => g.has other.name ∧ other.needs.contains s.name

/-- Ends a reading with the arguments that are passed on. -/
def finish (p : Program) (r : Reading) (passedOn : List String) : Except Refusal Request := do
  match p.passedOn, passedOn with
  | none, first :: _ => .error (.unexpected first ((settled r).met p))
  | _, _ =>
      let g := { ← settle r with passedOn := passedOn }
      let lacking := missing p g
      if lacking.isEmpty then .ok (.run g)
      else .error (.required (lacking.map (·.shown)) (({ given := g } : Reading).met p))

/-- Reads arguments, one after the other. -/
def readArgs (p : Program) (r : Reading) : List String → Except Refusal Request
  | [] => finish p r []
  | argument :: rest =>
      match argument.toList with
      | ['-', '-'] => finish p r rest
      | '-' :: '-' :: cs => do
          match ← readLong p r cs with
          | .inl r => readArgs p r rest
          | .inr request => .ok request
      | '-' :: letter :: _ => do
          match ← readShort p r letter with
          | .inl r => readArgs p r rest
          | .inr request => .ok request
      | _ =>
          match r.waiting with
          | some (s, none) => readArgs p { r with waiting := some (s, some argument) } rest
          | _ => .error (.unexpected argument ((settled r).met p))

/-- Reads a command line. -/
def read (p : Program) (arguments : List String) : Except Refusal Request :=
  readArgs p {} arguments

end LanguageClient.CommandLine
