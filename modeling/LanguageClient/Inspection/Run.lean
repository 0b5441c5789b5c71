import LanguageClient.Inspection.Options
import LanguageClient.Inspection.Report
import LanguageClient.Json.Pretty
import LanguageClient.Log.Filter
import LanguageClient.Log.Line
import LanguageClient.Log.Setup

/-!
# Inspecting a server

The program starts a server, waits for the handshake, asks about one document if it was told one,
prints a report, and stops the server. Whatever goes wrong ends it early, with a reason.
-/

namespace LanguageClient.Inspection

open Document Server

/-- An inspection under way: it changes the session, and may end early. -/
abbrev Inspect := ExceptT Failure (StateM Session)

/-- Does a step of the session. -/
def step {α : Type} (f : Session → α × Session) : Inspect α := modifyGet f

/-! ## The handshake -/

/-- Waits up to a moment until the session runs. Edits that the server asks for meanwhile are
refused. The number bounds the events on the way. -/
def awaitRunning (limit : Host.Time) : Nat → Inspect Unit
  | 0 => throw .timedOut
  | events + 1 => do
      let came ← step (Host.Timed.waitUntil (fun s : Session => ¬ s.events.isEmpty) limit
        Host.Timed.momentLimit)
      if ¬ came then throw .timedOut
      match ← step (·.takeEvents 1 0) with
      | [(_, .state .running)] => pure ()
      | [(_, .state .absent)] => throw .exited
      | [(number, .applyEdit id _)] =>
          let _ ← step (·.respond number id ⟨false, none⟩)
          awaitRunning limit events
      | _ => awaitRunning limit events

/-! ## Questions about a document -/

/-- The URI of a document's real place. -/
def documentUri (tree : Files.Tree) (directory : Files.Location) (file : String) :
    Except Failure String := do
  let place ← (tree.resolve directory file).mapError .document
  let url := (Uri.Url.ofLocation place).chars
  match Uri.reference? url with
  | some uri => return uri
  | none => throw (.documentUri (String.ofList url) (Uri.referenceLength url))

/-- The text of a document. -/
def documentText (tree : Files.Tree) (directory : Files.Location) (file : String) :
    Except Failure String := do
  match Utf8.decode? (← (tree.read directory file).mapError .document) with
  | some text => return text
  | none => throw (.document .invalidEncoding)

/-- Tells the server something. -/
def tell (n : Notice) : Inspect Unit := do
  match ← step (·.tell n) with
  | some (.error e) => throw (.send e)
  | _ => pure ()

/-- Warns about a request without a reply. -/
def warn (message : String) : Inspect Unit :=
  modify (·.logAll [.warn .program message])

/-- Asks the server something and waits for the reply, some milliseconds at most. -/
def ask (q : Query) (time : Nat) (what : String) : Inspect (Option Reply) := do
  match ← step (·.query q) with
  | none => return none
  | some asked =>
      match ← step (·.awaitReply asked.ticket time) with
      | .replied r => return some r
      | .abandoned =>
          warn (what ++ " was abandoned")
          return none
      | .timedOut =>
          warn (what ++ " timed out")
          return none

/-- Asks about a document: its symbols, and a hover text if a position is named. -/
def queryDocument (o : Options) (file : String) : Inspect (Option Reply × Option Reply) := do
  let s ← get
  let tree := s.supervisor.site.tree
  let uri ← documentUri tree s.supervisor.directory file
  let text ← documentText tree s.supervisor.directory file
  tell (.didOpen uri 1 o.languageId text)
  let symbols ← ask (.documentSymbols uri) o.timeout "documentSymbol"
  let hover ← match o.position with
    | some (line, character) => ask (.hover uri ⟨line, character⟩) o.timeout "hover"
    | none => pure none
  tell (.didClose uri)
  return (symbols, hover)

/-- The inspection, up to its report. -/
def inspect (o : Options) (server : String) : Inspect Report := do
  match ← step Session.start with
  | .error e => throw (.start e)
  | .ok () => pure ()
  let limit := (← get).supervisor.now + Host.milliseconds o.timeout
  awaitRunning limit Host.Timed.momentLimit
  let (symbols, hover) ← match o.file with
    | some file => queryDocument o file
    | none => pure (none, none)
  let s ← get
  return { server := server, process := s.running?, capabilities := s.capabilities
           symbols := symbols, hover := hover }

/-! ## The program -/

/-- What a run of the program leaves. -/
structure Outcome where
  code : Nat
  output : String := ""
  /-- What is on standard error beside the events. -/
  errors : String := ""
  /-- The events that were kept, and how they are written. -/
  events : List LogEvent := []
  style : Log.Style := .text
  /-- The file that the events are written to, if not to standard error. -/
  logFile : Option String := none
  /-- The files afterwards; events in the log file are not among its bytes. -/
  tree : Files.Tree

/-- The lines on standard error that are not the first line of an event. -/
def Outcome.remarks (o : Outcome) : List String :=
  let lines := o.errors.splitOn "\n"
  (if o.logFile.isSome then [] else o.events.flatMap o.style.furtherLines) ++
    if lines.getLast? = some "" then lines.dropLast else lines

/-- The events on standard error. -/
def Outcome.shownEvents (o : Outcome) : List LogEvent := if o.logFile.isSome then [] else o.events

/-- The files in a directory that are named like log files, each with the events that were written
to it. -/
def Outcome.logFiles (o : Outcome) (directory : Files.Location) :
    List (String × List LogEvent) :=
  let written := o.logFile.bind fun path => (o.tree.resolve directory path).toOption
  o.tree.entries.filterMap fun (place, _) => do
    let name ← place.getLast?
    let real ← (o.tree.resolve directory name).toOption
    if place.dropLast = directory ∧ name.endsWith ".log" ∧ o.tree.isFile directory name then
      return (name, if written = some real then o.events else [])
    else none

/-- What a run leaves behind that ends early. -/
def failureText (f : Failure) : String := "Error: " ++ f.shown ++ "\n"

/-- Bytes that were passed on, as text. -/
def passedText (bytes : Bytes) : String := (Utf8.decode? bytes).getD ""

/-- Runs an inspection with a configuration: exit code, output, errors and events. -/
def runWith (o : Options) (s : Session) (server : String) :
    Nat × String × String × List LogEvent :=
  match (inspect o server).run.run s with
  | (.ok report, s) =>
      let (outcome, s) := s.stop (some o.stopTimeout) (some o.stopTimeout)
      let s := s.logAll [.info .program s!"Server stop outcome: {outcome.name}"]
      (0, report.toJson.pretty ++ "\n", passedText s.supervisor.passedOn, s.drop.supervisor.log)
  | (.error f, s) =>
      (1, "", passedText s.supervisor.passedOn ++ failureText f, s.drop.supervisor.log)

/-- Runs an inspection. -/
def runOptions (site : Host.Site) (directory : Files.Location) (o : Options) :
    Nat × String × String × List LogEvent :=
  let server := chooseProgram o.server (site.environment.lookup "LSP_SERVER")
  let root := o.root.getD (Files.Tree.text directory)
  let begun : List LogEvent := [.info .program s!"Using server: {server} (root {root})"]
  let draft : Config.Draft :=
    { command := server :: o.serverArguments, root := some root
      semanticHighlighting := o.semanticHighlighting }
  match Config.build site.tree directory draft with
  | .error e => (1, "", failureText (.config e), begun)
  | .ok config => runWith o ((Session.new site directory config).logAll begun) server

/-- The form of the events. Colours are for terminals, and only where nobody declines them. -/
def styleOf (setup : LogSetup) (environment : List (String × String)) : Log.Style :=
  if setup.json then .json
  else if setup.file.isSome then .text
  else if (environment.lookup "NO_COLOR").any (· ≠ "") then .text
  else .coloured

/-- Runs the program in a directory; `tag` is what makes the name of a log file unique. -/
def run (site : Host.Site) (directory : Files.Location) (tag : String)
    (arguments : List String) : Outcome :=
  match CommandLine.read program arguments with
  | .error refusal => { code := 2, errors := refusal.report program, tree := site.tree }
  | .ok .help => { code := 0, output := program.help, tree := site.tree }
  | .ok .version => { code := 0, output := program.versionText, tree := site.tree }
  | .ok (.run given) =>
      let o := Options.ofGiven given
      let environment := LogEnvironment.ofVariables fun name => site.environment.lookup name
      let setup := (LogSetup.ofEnvironment tag environment).override o.logLevel o.logFile
      match setup.start site.tree directory false with
      | (tree, .error e) =>
          { code := 1, errors := s!"Failed to initialize logging: {e.message}\n", tree := tree }
      | (tree, .ok ()) =>
          let (code, output, errors, events) := runOptions { site with tree := tree } directory o
          { code := code, output := output, errors := errors
            events := events.filter (Log.Filter.ofText setup.level).keeps
            style := styleOf setup site.environment, logFile := setup.file, tree := tree }

end LanguageClient.Inspection
