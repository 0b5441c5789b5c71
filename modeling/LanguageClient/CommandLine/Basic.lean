/-!
# Command lines

What a program's command line can hold, what one holds, and why one is refused. Switches have long
names and stand in any order; what stands behind `--` is passed on.
-/

namespace LanguageClient.CommandLine

/-- What a value must be. -/
inductive ValueKind where
  | text
  /-- A text that is not empty. -/
  | path
  | nat32
  | nat64
deriving DecidableEq, Repr

/-- A switch. Without a value it is a flag. -/
structure Switch where
  name : String
  about : String
  /-- The kind of its value, and what stands for the value in texts. -/
  value : Option (ValueKind × String) := none
  /-- The value that is used when none is given. -/
  standard : Option String := none
  /-- Switches that must be given together with this one. -/
  needs : List String := []
deriving DecidableEq, Repr

/-- The switch with its value, as messages show it. -/
def Switch.shown (s : Switch) : String :=
  match s.value with
  | some (_, placeholder) => s!"--{s.name} <{placeholder}>"
  | none => s!"--{s.name}"

/-- What a program's command line can hold. Every program can be asked for help, and for its
version if it has one. -/
structure Program where
  name : String
  about : String
  version : Option String := none
  switches : List Switch
  /-- Where arguments are passed on: what stands for them in texts, and what they are. -/
  passedOn : Option (String × String) := none
deriving DecidableEq, Repr

/-- The names of all switches of a program, with those that every program has. -/
def Program.names (p : Program) : List String :=
  p.switches.map (·.name) ++ ["help"] ++ (if p.version.isSome then ["version"] else [])

/-- What a command line holds. -/
structure Given where
  /-- Switches with their values, in order; the value of a flag is empty. -/
  switches : List (String × String) := []
  passedOn : List String := []
deriving DecidableEq, Repr

namespace Given

/-- Is the switch given? -/
def has (g : Given) (name : String) : Bool := g.switches.any (·.1 = name)

/-- The value of a switch. -/
def value? (g : Given) (name : String) : Option String := g.switches.lookup name

end Given

/-- Why a command line is refused. Switches are named as messages show them. -/
inductive Refusal where
  /-- No switch of that name; `given` are the switches met so far. -/
  | unexpected (argument : String) (given : List String)
  | valueForFlag (value shown : String) (given : List String)
  | valueMissing (shown : String)
  | repeated (shown : String)
  | badValue (value shown cause : String)
  | required (lacking given : List String)
deriving DecidableEq, Repr

/-- What a command line asks for. -/
inductive Request where
  | run (g : Given)
  | help
  | version
deriving DecidableEq, Repr

end LanguageClient.CommandLine
