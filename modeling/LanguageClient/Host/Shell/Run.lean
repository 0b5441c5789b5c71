import LanguageClient.Host.Shell.Builtin
import LanguageClient.Host.Shell.Grammar

/-!
# Running scripts

Commands are run one after the other. A script that has not ended when the steps run out counts as
busy for ever.
-/

namespace LanguageClient.Host.Shell

/-! ## Finding programs -/

/-- What a name stands for. -/
inductive Found where
  | tool (run : List String → Act Nat)
  | installed (run : List String → Program)
  /-- The shell, and the program that runs another one. -/
  | shell
  | environment
  | missing
  | forbidden

/-- The directories in which programs without a path are found. -/
def programDirectories : List String := ["/usr/bin/", "/bin/"]

/-- The program of a name without a path. -/
def toolNamed (name : String) : Found :=
  match name with
  | "sh" => .shell
  | "env" => .environment
  | "[" => .tool (Tool.test "[")
  | name =>
      match tool? name with
      | some run => .tool run
      | none => .missing

/-- The program that a name or a path leads to. -/
def locate (site : Premises) (directory : Files.Location) (name : String) : Found :=
  if ¬ name.contains '/' then toolNamed name
  else match site.installed.lookup name with
    | some run => .installed run
    | none =>
        let named := programDirectories.filterMap fun d =>
          if name.startsWith d then some (name.drop d.length).toString else none
        match named with
        | tool :: _ =>
            if tool.contains '/' then .missing else toolNamed tool
        | [] =>
            if (site.tree.resolve directory name).toOption.isSome then .forbidden else .missing

/-- Runs an installed program from here on, in place of the running one. -/
def becomeInstalled (program : Program) : Act Unit := do
  let m ← get
  let input : Stream := match m.descriptors.lookup 0 with
    | some (.stream n) =>
        let s := m.streams.getD n {}
        { s with bytes := s.bytes.extract (m.taken.getD n 0) s.bytes.size }
    | _ => { closed := some 0 }
  let left (descriptor : Nat) : Option Time := match m.descriptors.lookup descriptor with
    | some (.stream n) => m.deserted.lookup n
    | _ => none
  let around : Surroundings :=
    { born := m.now, input := input, outputLeft := left 1, errorsLeft := left 2,
      signals := m.signals.filter fun (_, s) => ¬ (m.termination = .ignored ∧ s = .terminate) }
  let conduct := program around m.horizon
  let deliver (descriptor : Nat) (s : Stream) : Act Unit := modify fun m =>
    match m.descriptors.lookup descriptor with
    | some (.stream n) =>
        { m with streams := m.streams.modify n fun all =>
            { all with bytes := all.bytes ++ s.bytes } }
    | _ => m
  deliver 1 conduct.output
  deliver 2 conduct.errors
  match conduct.ending with
  | some (t, .exited code) =>
      modify fun m => { m with now := max m.now t, signals := [] }
      throw (.exits code)
  | some (t, .signalled signal) =>
      modify fun m => { m with now := max m.now t, signals := [] }
      throw (.killed signal)
  | none => throw .blocked

/-! ## Redirections -/

/-- Changes one descriptor as a redirection says; the answer tells whether that was possible. -/
def applyRedirect (descriptor : Nat) (kind : Redirection) (target : String) : Act Bool := do
  let become (h : Option Handle) : Act Unit := modify fun m =>
    let others := m.descriptors.filter (·.1 ≠ descriptor)
    { m with descriptors := match h with
      | some h => (descriptor, h) :: others
      | none => others }
  match kind with
  | .fromText =>
      become (some (.stream (← newStream ((({} : Stream).write 0 (rawBytes target)).close 0))))
      return true
  | .fromFile =>
      match ← Tool.fileStream target with
      | .ok number =>
          become (some (.stream number))
          return true
      | .error e =>
          complainAs s!"cannot open {target}: {Tool.openingReason e}"
          return false
  | .toFile _ =>
      match target with
      | "/dev/stdout" => become (← handle? 1)
      | "/dev/stderr" => become (← handle? 2)
      | _ => become (some .null)
      return true
  | .duplicate =>
      if target = "-" then
        become none
        return true
      else match ← (match Tool.natural? target with | some n => handle? n | none => pure none) with
        | some h =>
            become (some h)
            return true
        | none =>
            complainAs s!"{target}: Bad file descriptor"
            return false

/-! ## Running -/

/-- The atoms of a value that was expanded. -/
def valueAtoms (quoted : Bool) (s : String) : List Atom :=
  let chars := s.toList.map fun c => .char c quoted (¬ quoted)
  if quoted then .quotes :: chars else chars

/-- The atoms of the argument list. -/
def argumentAtoms (quoted : Bool) (arguments : List String) : List Atom :=
  let separator : Atom := if quoted then .boundary else .char ' ' false true
  (arguments.map (valueAtoms quoted)).intersperse [separator] |>.flatten

/-- Does the script handle signals, or its own end? -/
def hasTraps (m : Machine) : Bool :=
  m.farewell.isSome || match m.termination with
    | .handled _ => true
    | _ => false

/-- Reports that a source text cannot be read, and ends the shell. -/
def refuse (fault : Fault) : Act Unit := do
  complainAs fault.message
  throw (.exits 2)

/-- Saves what a subordinate run may change of the descriptors. -/
def keepingDescriptors (body : Act Unit) : Act Unit := do
  let before := (← get).descriptors
  tryCatch body fun halt => do
    modify fun m => { m with descriptors := before }
    throw halt
  modify fun m => { m with descriptors := before }

/-- The shell makes room for another program, which does not inherit what signals run. -/
def replaced : Act Unit := modify fun m => { m with
  farewell := none
  termination := if m.termination = .ignored then .ignored else .standard }

/-- Runs one turn of a loop; the answer tells whether the loop goes on. -/
def turn (body : Act Unit) : Act Bool :=
  tryCatch (do body; return true) fun
    | .breaks n => if n > 1 then throw (.breaks (n - 1)) else return false
    | .continues n => if n > 1 then throw (.continues (n - 1)) else return true
    | halt => throw halt

/-- What a shell is to run, with its name and its arguments: a text, a file or its input. -/
def scriptOf (arguments : List String) : Act (String × String × List String) := do
  match arguments with
  | "-c" :: source :: name :: rest => return (source, name, rest)
  | ["-c", source] => return (source, "sh", [])
  | [] => return (rawText (← Tool.inputAll), "sh", [])
  | path :: rest =>
      let m ← get
      match m.site.tree.read m.directory (plainOfRaw path) with
      | .ok content => return (rawText content, path, rest)
      | .error e =>
          complain s!"{m.name}: 0: cannot open {path}: {Tool.openingReason e}"
          throw (.exits 2)

mutual

/-- Expands a part of a word. -/
def expandPart : Nat → Part → Act (List Atom)
  | 0, _ => throw .blocked
  | _, .text quoted s =>
      let chars := s.toList.map fun c => .char c quoted false
      return if quoted then .quotes :: chars else chars
  | _, .length quoted name => do
      return valueAtoms quoted (toString ((parameter? (← get) name).getD "").length)
  | _, .parameter quoted name none => do
      let m ← get
      if name = "@" ∨ (name = "*" ∧ ¬ quoted) then return argumentAtoms quoted m.arguments
      return valueAtoms quoted ((parameter? m name).getD "")
  | fuel + 1, .parameter quoted name (some (operation, word)) => do
      let value := parameter? (← get) name
      let usable := if operation.startsWith ":" then value.filter (· ≠ "") else value
      match operation with
      | ":-" | "-" =>
          match usable with
          | some v => return valueAtoms quoted v
          | none => expandSource fuel quoted word
      | ":+" | "+" => if usable.isSome then expandSource fuel quoted word else return []
      | ":=" | "=" =>
          match usable with
          | some v => return valueAtoms quoted v
          | none =>
              let v := textOf (← expandSource fuel quoted word)
              assign name v
              return valueAtoms quoted v
      | ":?" | "?" =>
          match usable with
          | some v => return valueAtoms quoted v
          | none =>
              let words := textOf (← expandSource fuel true word)
              let words := if words = "" then "parameter not set" else words
              complainAs s!"{name}: {words}"
              throw (.exits 2)
      | operation =>
          let g := glob (← expandSource fuel false word)
          let v := value.getD ""
          let v := match operation with
            | "#" => withoutFront false g v
            | "##" => withoutFront true g v
            | "%" => withoutEnd false g v
            | _ => withoutEnd true g v
          return valueAtoms quoted v
  | fuel + 1, .command quoted source => do
      let output ← newStream
      let left ← spawn do
        modify fun m => { m with descriptors := (1, .stream output) :: m.descriptors }
        runSource fuel true source
      await [left]
      let m ← get
      let bytes := ((m.streams.getD output {}).sorted.bytes.toList.map (·.2)).filter (· ≠ 0)
      let text := (bytes.reverse.dropWhile (· = 10)).reverse
      set { m with status := left.status, substituted := some left.status }
      return valueAtoms quoted (rawText text)
  | fuel + 1, .arithmetic quoted source => do
      let text := textOf (← expandSource fuel true source)
      let m ← get
      let value (name : String) : Int := (argumentNumber ((valueOf? m name).getD "")).1
      match Arithmetic.eval value text with
      | some n => return valueAtoms quoted (toString n)
      | none =>
          complainAs s!"arithmetic expression: expecting primary: \"{text}\""
          throw (.exits 2)

/-- Expands a source text as one word. -/
def expandSource : Nat → Bool → String → Act (List Atom)
  | 0, _, _ => throw .blocked
  | fuel + 1, quoted, source =>
      match wholeWord quoted source with
      | .ok parts => expandWord fuel parts
      | .error fault => do
          refuse fault
          return []

/-- Expands a word. -/
def expandWord : Nat → Word → Act (List Atom)
  | 0, _ => throw .blocked
  | _, [] => return []
  | fuel + 1, part :: rest => do
      let front ← expandPart fuel part
      let later ← expandWord fuel rest
      return front ++ later

/-- Expands words into fields. -/
def expandFields : Nat → List Word → Act (List String)
  | 0, _ => throw .blocked
  | _, [] => return []
  | fuel + 1, word :: rest => do
      let atoms ← expandWord fuel word
      let front := fields (dividers (← get)) atoms
      let later ← expandFields fuel rest
      return front ++ later

/-- Sets bindings. -/
def runAssignments : Nat → List (String × Word) → Act Unit
  | 0, _ => throw .blocked
  | _, [] => return ()
  | fuel + 1, (name, word) :: rest => do
      assign name (textOf (← expandWord fuel word))
      runAssignments fuel rest

/-- Applies redirections; the answer tells whether all were possible. -/
def redirectAll : Nat → List Redirect → Act Bool
  | 0, _ => throw .blocked
  | _, [] => return true
  | fuel + 1, r :: rest => do
      let target := textOf (← expandWord fuel r.target)
      if ← applyRedirect r.descriptor r.kind target then redirectAll fuel rest else return false

/-- Runs a script. With `last`, its last program takes the place of the shell. -/
def runSource : Nat → Bool → String → Act Unit
  | 0, _, _ => throw .blocked
  | fuel + 1, last, source =>
      match readScript source with
      | .ok command => run fuel last command
      | .error fault => refuse fault

/-- Runs what a caught signal asks for. -/
def heed : Nat → Act Unit
  | 0 => throw .blocked
  | fuel + 1 => do
      let m ← get
      match m.caught, m.termination with
      | true, .handled source =>
          set { m with caught := false }
          runSource fuel false source
          setStatus m.status
      | _, _ => return ()

/-- Runs a program by its name, in place of the shell. -/
def become : Nat → String → List String → Act Unit
  | 0, _, _ => throw .blocked
  | fuel + 1, name, arguments => do
      let m ← get
      match locate m.site m.directory (plainOfRaw name) with
      | .tool run =>
          let status ← run arguments
          throw (.exits status)
      | .installed program => becomeInstalled (program (arguments.map plainOfRaw))
      | .shell =>
          let (source, name, rest) ← scriptOf arguments
          modify fun m => { m with name := name, arguments := rest, functions := [], status := 0 }
          tryCatch (runSource fuel true source) fun
            | .exits status => setStatus status
            | halt => throw halt
          bidFarewell fuel
          throw (.exits (← get).status)
      | .environment =>
          let settings := arguments.takeWhile (·.contains '=')
          for s in settings do
            let (name, value) := splitAssignment s
            assign name (value.getD "")
          match arguments.drop settings.length with
          | name :: rest => become fuel name rest
          | [] => do
              let m ← get
              let listed := m.site.environment.filter fun (name, _) =>
                (m.bindings.lookup name).isNone
              for (name, value) in listed.map (fun (k, v) => (k, rawOfText v)) ++
                  m.bindings.reverse do
                emitText 1 s!"{name}={value}\n"
              throw (.exits 0)
      | .missing =>
          complainAs s!"{name}: not found"
          throw (.exits 127)
      | .forbidden =>
          complainAs s!"{name}: Permission denied"
          throw (.exits 126)

/-- Runs what was asked for the end. -/
def bidFarewell : Nat → Act Unit
  | 0 => throw .blocked
  | fuel + 1 => do
      let m ← get
      if let some source := m.farewell then
        set { m with farewell := none }
        runSource fuel false source
        setStatus m.status

/-- Runs a command by its name. -/
def call : Nat → Bool → String → List String → Act Unit
  | 0, _, _, _ => throw .blocked
  | fuel + 1, last, name, arguments => do
      let m ← get
      match m.functions.lookup name, builtin? name with
      | some body, _ =>
          modify fun m => { m with arguments := arguments, locals := [] }
          let restore : Act Unit := modify fun after => { after with
            arguments := m.arguments, locals := m.locals,
            bindings := after.locals.foldl (fun vs (name, value) =>
              let others := vs.filter (·.1 ≠ name)
              match value with
              | some v => (name, v) :: others
              | none => others) after.bindings }
          tryCatch (run fuel false body) fun halt => do
            if halt ≠ .returns then throw halt
          restore
      | none, some builtin => setStatus (← builtin arguments)
      | none, none =>
          match name with
          | "eval" => runSource fuel last (" ".intercalate arguments)
          | "command" =>
              match arguments with
              | name :: rest => call fuel last name rest
              | [] => setStatus 0
          | "." =>
              match m.site.tree.read m.directory (plainOfRaw (arguments.headD "")) with
              | .ok content => runSource fuel false (rawText content)
              | .error _ =>
                  complainAs (".: cannot open " ++ arguments.headD "" ++ ": No such file")
                  throw (.exits 2)
          | "exec" =>
              match arguments with
              | [] => setStatus 0
              | name :: rest =>
                  replaced
                  match locate m.site m.directory (plainOfRaw name) with
                  | .missing =>
                      complainAs s!"exec: {name}: not found"
                      throw (.exits 127)
                  | _ => become fuel name rest
          | name =>
              if last ∧ ¬ hasTraps m then
                replaced
                become fuel name arguments
              else
                let left ← spawn (become fuel name arguments)
                await [left]
                setStatus left.status
      heed fuel

/-- Runs a command. With `last`, nothing follows it. -/
def run : Nat → Bool → Command → Act Unit
  | 0, _, _ => throw .blocked
  | fuel + 1, last, c => do
      match c with
      | .nothing => return ()
      | .simple assignments words =>
          modify fun m => { m with substituted := none }
          match ← expandFields fuel words with
          | [] =>
              runAssignments fuel assignments
              setStatus ((← get).substituted.getD 0)
          | name :: arguments =>
              let before := (← get).bindings
              runAssignments fuel assignments
              call fuel last name arguments
              if ¬ assignments.isEmpty then modify fun m => { m with bindings := before }
      | .redirected (.simple [] [[.text false "e", .text false "x", .text false "e",
          .text false "c"]]) redirects =>
          if ← redirectAll fuel redirects then
            noteShut
            setStatus 0
          else throw (.exits 2)
      | .redirected body redirects =>
          keepingDescriptors do
            if ← redirectAll fuel redirects then run fuel last body else setStatus 2
      | .sequence first second =>
          run fuel false first
          run fuel last second
      | .both first second =>
          run fuel false first
          if (← get).status = 0 then run fuel last second
      | .either first second =>
          run fuel false first
          if (← get).status ≠ 0 then run fuel last second
      | .negated body =>
          run fuel false body
          setStatus (if (← get).status = 0 then 1 else 0)
      | .pipe first second => runPipe fuel first second
      | .subshell body =>
          let left ← spawn (run fuel true body)
          await [left]
          setStatus left.status
          heed fuel
      | .background body =>
          let left ← spawn do
            modify fun m => { m with descriptors := (0, .null) :: m.descriptors }
            run fuel true body
          modify fun m => { m with lingering := m.lingering ++ [left], status := 0 }
      | .choice test yes no =>
          run fuel false test
          if (← get).status = 0 then run fuel last yes
          else
            setStatus 0
            run fuel last no
      | .loop untilSuccess test body => runLoop fuel untilSuccess test body 0
      | .each name words body =>
          let values ← match words with
            | some words => expandFields fuel words
            | none => pure (← get).arguments
          setStatus 0
          runEach fuel name values body
      | .select word arms =>
          let text := textOf (← expandWord fuel word)
          setStatus 0
          runArms fuel last text arms
      | .arm _ _ _ => return ()
      | .define name body =>
          modify fun m => { m with functions := (name, body) :: m.functions, status := 0 }

/-- Runs two commands of which one reads what the other writes. When the reader has ended, the
writer cannot write any more; it is run again with that in mind. -/
def runPipe : Nat → Command → Command → Act Unit
  | 0, _, _ => throw .blocked
  | fuel + 1, first, second => do
      let joint ← newStream
      let start ← get
      let attempt (left : Option Time) : Act (Left × Left) := do
        set { start with
          deserted := match left with
            | some t => (joint, t) :: start.deserted
            | none => start.deserted }
        let writer ← spawn do
          modify fun m => { m with descriptors := (1, .stream joint) :: m.descriptors }
          run fuel true first
        modify fun m => { m with streams := m.streams.modify joint fun s =>
          match writer with
          | .ended t _ => s.sorted.close t
          | .goesOn => s.sorted }
        let reader ← spawn do
          modify fun m => { m with descriptors := (0, .stream joint) :: m.descriptors }
          run fuel true second
        return (writer, reader)
      let (writer, reader) ← attempt none
      let (writer, reader) ← match writer, reader with
        | .goesOn, .ended t _ => attempt (some (t + 1))
        | _, _ => pure (writer, reader)
      await [writer, reader]
      setStatus reader.status
      heed fuel

/-- Runs a loop whose last turn had a status. -/
def runLoop : Nat → Bool → Command → Command → Nat → Act Unit
  | 0, _, _, _, _ => throw .blocked
  | fuel + 1, untilSuccess, test, body, status => do
      run fuel false test
      if ((← get).status = 0) = untilSuccess then setStatus status
      else
        if ← turn (run fuel false body) then runLoop fuel untilSuccess test body (← get).status

/-- Runs a command for values. -/
def runEach : Nat → String → List String → Command → Act Unit
  | 0, _, _, _ => throw .blocked
  | _, _, [], _ => return ()
  | fuel + 1, name, value :: rest, body => do
      assign name value
      if ← turn (run fuel false body) then runEach fuel name rest body

/-- Runs the first arm that matches a text. -/
def runArms : Nat → Bool → String → Command → Act Unit
  | 0, _, _, _ => throw .blocked
  | fuel + 1, last, text, .arm patterns body others => do
      if ← anyMatches fuel text patterns then run fuel last body
      else runArms fuel last text others
  | _, _, _, _ => return ()

/-- Does a text match one of some patterns? -/
def anyMatches : Nat → String → List Word → Act Bool
  | 0, _, _ => throw .blocked
  | _, _, [] => return false
  | fuel + 1, text, word :: rest => do
      let g := glob (← expandWord fuel word)
      if matchesGlob g text.toList then return true else anyMatches fuel text rest

end

end LanguageClient.Host.Shell
