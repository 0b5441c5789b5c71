import LanguageClient.Host.Tools

/-!
# Commands of the shell itself

The commands that change the shell's own state, as far as they need not run other commands.
-/

namespace LanguageClient.Host.Shell

/-- The number that a script sees as its own process. -/
def ownNumber : Nat := 4242

/-- The name of the shell in front of its complaints. -/
def complainAs (s : String) : Act Unit := do complain s!"{(← get).name}: 1: {s}"

/-- Sets the status of the last command. -/
def setStatus (n : Nat) : Act Unit := modify fun m => { m with status := n }

/-! ## Variables -/

/-- The value of a variable. -/
def valueOf? (m : Machine) (name : String) : Option String :=
  (m.bindings.lookup name).orElse fun _ => (m.site.environment.lookup name).map rawOfText

/-- Sets a variable. -/
def assign (name value : String) : Act Unit := modify fun m =>
  { m with bindings := (name, value) :: m.bindings.filter (·.1 ≠ name) }

/-- Removes a variable. -/
def forget (name : String) : Act Unit := modify fun m =>
  { m with bindings := m.bindings.filter (·.1 ≠ name) }

/-- The characters that divide fields. -/
def dividers (m : Machine) : String := (m.bindings.lookup "IFS").getD " \t\n"

/-- The value of a parameter, if it is set. -/
def parameter? (m : Machine) (name : String) : Option String :=
  match name with
  | "?" => some (toString m.status)
  | "#" => some (toString m.arguments.length)
  | "$" => some (toString ownNumber)
  | "!" => if m.lingering.isEmpty then none else some (toString (ownNumber + m.lingering.length))
  | "-" => some ""
  | "0" => some m.name
  | "@" | "*" => if m.arguments.isEmpty then none else some (" ".intercalate m.arguments)
  | name =>
      match Tool.natural? name with
      | some n => m.arguments[n - 1]?
      | none => valueOf? m name

/-- Splits an assignment at its equals sign. -/
def splitAssignment (s : String) : String × Option String :=
  let cs := s.toList
  match cs.dropWhile (· ≠ '=') with
  | _ :: value => (String.ofList (cs.takeWhile (· ≠ '=')), some (String.ofList value))
  | [] => (s, none)

/-! ## Reading a line -/

/-- Reads a line byte by byte. Without `plain`, a backslash joins lines and makes the next character
stand for itself. The answer tells whether the end of the line was met. -/
def readLine (plain : Bool) : Nat → List Atom → Act (List Atom × Bool)
  | 0, _ => throw .blocked
  | fuel + 1, acc => do
      match ← readSome 0 1 true with
      | some (b :: _) =>
          let c := Char.ofNat b.toNat
          if c = '\n' then return (acc.reverse, true)
          else if c = '\x00' then readLine plain fuel acc
          else if c = '\\' ∧ ¬ plain then
            match ← readSome 0 1 true with
            | some (10 :: _) => readLine plain fuel acc
            | some (d :: _) => readLine plain fuel (.char (Char.ofNat d.toNat) true false :: acc)
            | _ => return (acc.reverse, false)
          else readLine plain fuel (.char c false true :: acc)
      | _ => return (acc.reverse, false)

/-- Drops dividing blanks in front. -/
def dropBlanks (ds : String) (atoms : List Atom) : List Atom :=
  atoms.dropWhile fun
    | .char c _ splits => splits && isBlankDivider ds c
    | _ => false

/-- Divides a line among a number of names; the last one gets all that is left. -/
def divide (ds : String) : Nat → List Atom → List String
  | 0, _ => []
  | 1, atoms =>
      [textOf (dropBlanks ds (dropBlanks ds atoms).reverse).reverse]
  | n + 1, atoms =>
      let isDivider : Atom → Bool
        | .char c _ splits => splits && ds.contains c
        | _ => false
      let atoms := dropBlanks ds atoms
      let field := atoms.takeWhile (¬ isDivider ·)
      let rest := dropBlanks ds (atoms.drop field.length)
      let rest := match rest with
        | .char c _ true :: others =>
            if ds.contains c ∧ ¬ isBlankDivider ds c ∧ field.length < atoms.length then others
            else rest
        | rest => rest
      textOf field :: divide ds n rest

/-- Reads a line into variables; fails at the end of the input. -/
def readVariables (arguments : List String) : Act Nat := do
  let options := arguments.takeWhile (·.startsWith "-")
  let names := arguments.drop options.length
  let (atoms, complete) ← readLine (options.any (·.contains 'r')) Tool.patience []
  let values := divide (dividers (← get)) names.length atoms
  for (name, value) in names.zip values do
    assign name value
  return if complete then 0 else 1

/-! ## Signals -/

/-- The number of a signal by its name, with or without its usual start, or by its number. -/
def signalNumber? (s : String) : Option Nat :=
  let name := if s.startsWith "SIG" then (s.drop 3).toString else s
  match name with
  | "EXIT" => some 0
  | "HUP" => some 1
  | "INT" => some 2
  | "QUIT" => some 3
  | "ABRT" => some 6
  | "KILL" => some 9
  | "USR1" => some 10
  | "SEGV" => some 11
  | "USR2" => some 12
  | "PIPE" => some 13
  | "ALRM" => some 14
  | "TERM" => some 15
  | name => Tool.natural? name

/-- Sends a signal to the shell itself. -/
def signalSelf (number : Nat) : Act Nat := do
  let m ← get
  if number = 0 then return 0
  else if number = 15 then
    match m.termination with
    | .standard => throw (.killed 15)
    | .ignored => return 0
    | .handled _ =>
        set { m with caught := true }
        return 0
  else throw (.killed number)

/-- Sends a signal. -/
def kill (arguments : List String) : Act Nat := do
  let (signal, targets) := match arguments with
    | "-s" :: name :: rest => (signalNumber? name, rest)
    | "--" :: rest => (some 15, rest)
    | first :: rest =>
        if first.startsWith "-" then (signalNumber? (first.drop 1).toString, rest)
        else (some 15, first :: rest)
    | [] => (none, [])
  match signal with
  | none =>
      complainAs "kill: invalid signal number or name"
      return 2
  | some number =>
      let mut status := 0
      for target in targets do
        if target = toString ownNumber then status := ← signalSelf number
        else
          complainAs "kill: No such process"
          status := 1
      return status

/-- Says what a signal does from now on. -/
def trap (arguments : List String) : Act Nat := do
  match arguments.filter (· ≠ "--") with
  | action :: names =>
      for name in names do
        match signalNumber? name with
        | some 15 =>
            let d : Disposition :=
              if action = "-" then .standard else if action = "" then .ignored
              else .handled action
            modify fun m => { m with termination := d }
        | some 0 =>
            let farewell := if action = "-" ∨ action = "" then none else some action
            modify fun m => { m with farewell := farewell }
        | _ => pure ()
      return 0
  | [] => return 0

/-! ## The shell's state -/

/-- Changes the working directory. -/
def changeDirectory (arguments : List String) : Act Nat := do
  let m ← get
  let goal := arguments.headD ((valueOf? m "HOME").getD "/")
  match m.site.tree.resolve m.directory (plainOfRaw goal) with
  | .ok place =>
      if m.site.tree.entry? place = some .directory then
        set { m with directory := place }
        return 0
      else
        complainAs s!"cd: can't cd to {goal}"
        return 2
  | .error _ =>
      complainAs s!"cd: can't cd to {goal}"
      return 2

/-- Sets the arguments; options are passed over. -/
def setArguments (arguments : List String) : Act Nat := do
  match arguments with
  | "--" :: rest => modify fun m => { m with arguments := rest }
  | first :: rest =>
      if ¬ (first.startsWith "-" ∨ first.startsWith "+") then
        modify fun m => { m with arguments := first :: rest }
  | [] => return 0
  return 0

/-- Assigns variables, or only names them. -/
def declare (isLocal : Bool) (arguments : List String) : Act Nat := do
  for a in arguments do
    let (name, value) := splitAssignment a
    if isLocal then
      modify fun m => { m with locals := (name, m.bindings.lookup name) :: m.locals }
    if let some v := value then assign name v
  return 0

/-- The first number above those that the shell's own commands take. -/
def numberLimit : Nat := 0x80000000

/-- A number among the arguments of a command; what is no number ends the shell. -/
def argumentOr (command : String) (standard : Nat) (arguments : List String) : Act Nat := do
  match arguments with
  | [] => return standard
  | s :: _ =>
      match (Tool.natural? s).filter (· < numberLimit) with
      | some n => return n
      | none =>
          complainAs s!"{command}: Illegal number: {s}"
          throw (.exits 2)

/-- The commands of the shell that run no other commands. -/
def builtin? (name : String) : Option (List String → Act Nat) :=
  match name with
  | ":" | "true" | "umask" | "ulimit" | "readonly" => some fun _ => return 0
  | "false" => some fun _ => return 1
  | "echo" => some (Tool.echo true)
  | "printf" => some fun arguments => do Tool.printf s!"{(← get).name}: 1: printf" arguments
  | "test" => some fun arguments => do Tool.test s!"{(← get).name}: 1: test" arguments
  | "[" => some fun arguments => do
      if arguments.getLast? = some "]" then
        Tool.test s!"{(← get).name}: 1: [" arguments.dropLast
      else
        complainAs "[: missing ]"
        return 2
  | "pwd" => some fun _ => Tool.pwd
  | "cd" => some changeDirectory
  | "read" => some readVariables
  | "kill" => some kill
  | "trap" => some trap
  | "set" => some setArguments
  | "shift" => some fun arguments => do
      let n ← argumentOr "shift" 1 arguments
      let m ← get
      if n > m.arguments.length then
        complainAs "shift: can't shift that many"
        throw (.exits 2)
      set { m with arguments := m.arguments.drop n }
      return 0
  | "export" => some (declare false)
  | "local" => some (declare true)
  | "unset" => some fun arguments => do
      for name in arguments do
        forget name
      return 0
  | "exit" => some fun arguments => do
      throw (.exits (← argumentOr "exit" (← get).status arguments))
  | "return" => some fun arguments => do
      setStatus (← argumentOr "return" (← get).status arguments)
      throw .returns
  | "break" => some fun arguments => do throw (.breaks (← argumentOr "break" 1 arguments))
  | "continue" => some fun arguments => do
      throw (.continues (← argumentOr "continue" 1 arguments))
  | "wait" => some fun _ => do
      let m ← get
      await m.lingering
      modify fun m => { m with lingering := [] }
      return 0
  | _ => none

end LanguageClient.Host.Shell
