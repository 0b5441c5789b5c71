import LanguageClient.Host.Machine
import LanguageClient.Host.Shell.Field
import LanguageClient.Host.Shell.Format

/-!
# The usual tools

Small programs that read their input, or files, and write something about it. Those that only
rearrange what they read write it when the input has ended.
-/

namespace LanguageClient.Host

open Shell

namespace Tool

/-! ## Input -/

/-- How many times a tool reads at most. -/
def patience : Nat := 100000

/-- Reads up to the end, or until enough bytes have come; pieces come last one first. -/
def gather (limit : Option Nat) : Nat → List Bytes → Nat → Act Bytes
  | 0, _, _ => throw .blocked
  | fuel + 1, pieces, size => do
      let wanted := match limit with
        | some n => n - size
        | none => 65536
      if wanted = 0 then return pieces.reverse.flatten
      match ← readSome 0 (min wanted 65536) with
      | none | some [] => return pieces.reverse.flatten
      | some bytes => gather limit fuel (bytes :: pieces) (size + bytes.length)

/-- All of the input. -/
def inputAll : Act Bytes := gather none patience [] 0

/-- Copies the input to the output, as it comes. -/
def copy : Nat → Act Unit
  | 0 => throw .blocked
  | fuel + 1 => do
      match ← readSome 0 65536 with
      | none | some [] => return ()
      | some bytes =>
          let _ ← emit 1 bytes
          copy fuel

/-- A stream with the content of a file. -/
def fileStream (path : String) : Act (Except Files.FileError Nat) := do
  let m ← get
  if path = "/dev/null" then return .ok (← newStream { closed := some 0 })
  match m.site.tree.read m.directory (plainOfRaw path) with
  | .ok content => return .ok (← newStream ((({} : Stream).write 0 content).close 0))
  | .error e => return .error e

/-- Runs steps that read another stream as their input. -/
def withInput {α : Type} (number : Nat) (body : Act α) : Act α := do
  let before := (← get).descriptors
  modify fun m => { m with descriptors := (0, .stream number) :: before }
  let result ← body
  modify fun m => { m with descriptors := before }
  return result

/-- The system's words for an error, without its number. -/
def reason (e : Files.FileError) : String := (e.message.splitOn " (os error").headD ""

/-- The shell's words for a file that cannot be opened. -/
def openingReason (e : Files.FileError) : String :=
  if e = .notFound then "No such file" else reason e

/-- Runs steps for each named file in turn, or for the input if none is named. The answer tells
whether all files could be read, and whether any of the steps found something. -/
def overFiles (tool : String) (paths : List String) (body : String → Act Bool) :
    Act (Bool × Bool) := do
  if paths.isEmpty then return (true, ← body "")
  let mut readable := true
  let mut found := false
  for path in paths do
    if path = "-" then found := (← body path) || found
    else match ← fileStream path with
      | .ok number => found := (← withInput number (body path)) || found
      | .error e =>
          complain s!"{tool}: {path}: {reason e}"
          readable := false
  return (readable, found)

/-- Runs steps for each named file in turn; the status is one if a file cannot be read. -/
def eachFile (tool : String) (paths : List String) (body : String → Act Unit) : Act Nat := do
  let (readable, _) ← overFiles tool paths fun path => do
    body path
    return true
  return if readable then 0 else 1

/-! ## Lines -/

/-- The lines of bytes, without their ends; is the last one complete? -/
def linesOf (bytes : Bytes) : List Bytes × Bool :=
  let pieces := bytes.splitOn 10
  match pieces.getLast? with
  | some [] => (pieces.dropLast, true)
  | _ => (pieces, false)

/-- Lines with their ends. -/
def ofLines (ls : List Bytes) : Bytes := ls.flatMap (· ++ [10])

/-- A number among the arguments. -/
def natural? (s : String) : Option Nat :=
  if ¬ s.isEmpty ∧ s.toList.all Char.isDigit then s.toNat? else none

/-! ## Tools for whole inputs -/

/-- Writes files, or the input, one behind the other. -/
def cat (arguments : List String) : Act Nat :=
  eachFile "cat" (arguments.filter (· ≠ "-u")) fun _ => copy patience

/-- What part of an input is wanted. -/
structure Part where
  count : Nat := 10
  lines : Bool := true
  /-- Counted from the start of the input, and not from its end. -/
  fromStart : Bool := false

/-- Reads the arguments that name a part. -/
def partOf : Part → List String → Option (Part × List String)
  | p, "-n" :: n :: rest => countOf { p with lines := true } n rest
  | p, "-c" :: n :: rest => countOf { p with lines := false } n rest
  | p, s :: rest =>
      match s.toList with
      | '-' :: 'n' :: n => countOf { p with lines := true } (String.ofList n) rest
      | '-' :: 'c' :: n => countOf { p with lines := false } (String.ofList n) rest
      | '-' :: d :: n =>
          if d.isDigit then countOf { p with lines := true } (String.ofList (d :: n)) rest else none
      | _ => some (p, s :: rest)
  | p, [] => some (p, [])
where
  /-- Reads a count. -/
  countOf (p : Part) (n : String) (rest : List String) : Option (Part × List String) :=
    match n.toList with
    | '+' :: n => (natural? (String.ofList n)).map ({ p with count := ·, fromStart := true }, rest)
    | '-' :: n => (natural? (String.ofList n)).map ({ p with count := · }, rest)
    | _ => (natural? n).map ({ p with count := · }, rest)

/-- Reads until enough lines have come, a block at a time. -/
def gatherLines (count : Nat) : Nat → Bytes → Act Bytes
  | 0, _ => throw .blocked
  | fuel + 1, got => do
      if (got.filter (· = 10)).length ≥ count then return got
      match ← readSome 0 8192 with
      | none | some [] => return got
      | some bytes => gatherLines count fuel (got ++ bytes)

/-- The first lines of bytes. -/
def firstLines : Nat → Bytes → Bytes
  | 0, _ => []
  | _, [] => []
  | n + 1, b :: rest => b :: if b = 10 then firstLines n rest else firstLines (n + 1) rest

/-- Writes the first part of files, or of the input. -/
def head (arguments : List String) : Act Nat := do
  match partOf {} arguments with
  | none =>
      complain s!"head: invalid option"
      return 1
  | some (p, paths) => eachFile "head" paths fun _ => do
      if p.lines then
        let _ ← emit 1 (firstLines p.count (← gatherLines p.count patience []))
      else
        let _ ← emit 1 (← gather (some p.count) patience [] 0)

/-- Writes the last part of files, or of the input. -/
def tail (arguments : List String) : Act Nat := do
  match partOf {} arguments with
  | none =>
      complain s!"tail: invalid option"
      return 1
  | some (p, paths) => eachFile "tail" paths fun _ => do
      let bytes ← inputAll
      if p.lines then
        let (ls, complete) := linesOf bytes
        let kept := ls.drop (if p.fromStart then p.count - 1 else ls.length - p.count)
        let text := ofLines kept
        let _ ← emit 1 (if complete then text else text.dropLast)
      else
        let _ ← emit 1 (bytes.drop (if p.fromStart then p.count - 1 else bytes.length - p.count))

/-! ## Characters -/

/-- The characters of a class. -/
def classOf (name : String) : List Char :=
  let span (a b : Char) : List Char :=
    (List.range (b.toNat + 1 - a.toNat)).map fun n => Char.ofNat (a.toNat + n)
  match name with
  | "upper" => span 'A' 'Z'
  | "lower" => span 'a' 'z'
  | "digit" => span '0' '9'
  | "alpha" => span 'A' 'Z' ++ span 'a' 'z'
  | "alnum" => span '0' '9' ++ span 'A' 'Z' ++ span 'a' 'z'
  | "space" => ['\t', '\n', '\x0b', '\x0c', '\r', ' ']
  | "blank" => ['\t', ' ']
  | "print" => span ' ' '~'
  | "cntrl" => span '\x00' '\x1f' ++ ['\x7f']
  | _ => []

/-- The characters that a list of characters, ranges and classes names; the number bounds the
steps. -/
def setOf : Nat → List Char → List Char
  | 0, _ => []
  | _, [] => []
  | fuel + 1, '[' :: ':' :: rest =>
      let name := rest.takeWhile (· ≠ ':')
      classOf (String.ofList name) ++ setOf fuel (rest.drop (name.length + 2))
  | fuel + 1, cs =>
      let (first, rest) := match cs with
        | '\\' :: rest =>
            let (cs, rest) := escaped false rest
            (cs.getLast?.getD '\\', rest)
        | c :: rest => (c, rest)
        | [] => (' ', [])
      match rest with
      | '-' :: last :: rest =>
          (List.range (last.toNat + 1 - first.toNat)).map (fun n => Char.ofNat (first.toNat + n)) ++
            setOf fuel rest
      | rest => first :: setOf fuel rest

/-- Joins runs of one character of a set. -/
def squeezed (set : List Char) : List Char → List Char
  | a :: b :: rest =>
      if a = b ∧ set.contains a then squeezed set (b :: rest) else a :: squeezed set (b :: rest)
  | cs => cs

/-- Replaces, deletes or joins characters of the input. -/
def tr (arguments : List String) : Act Nat := do
  let options := arguments.takeWhile fun s => s.startsWith "-" ∧ s.length > 1
  let letters := options.flatMap fun s => s.toList.drop 1
  let sets := (arguments.drop options.length).map fun s => setOf (s.length + 1) s.toList
  let first := sets.headD []
  let second := (sets.drop 1).headD []
  let complement := letters.contains 'c' || letters.contains 'C'
  let inFirst (c : Char) : Bool := first.contains c != complement
  let text := (rawText (← inputAll)).toList
  let replace (c : Char) : Char :=
    if complement then (if inFirst c then second.getLast?.getD c else c)
    else match first.findIdx? (· = c) with
      | some n => (second[n]?).getD (second.getLast?.getD c)
      | none => c
  let text :=
    if letters.contains 'd' then text.filter (¬ inFirst ·)
    else if second.isEmpty then text
    else text.map replace
  let text :=
    if letters.contains 's' then squeezed (if second.isEmpty then first else second) text else text
  emitText 1 (String.ofList text)
  return 0

/-! ## Searching -/

/-- A piece of a search pattern: what it accepts, and whether it may repeat. -/
structure Piece where
  item : Glob
  repeats : Bool := false
deriving DecidableEq, Repr

/-- Reads the pieces of a search pattern; the number bounds the steps. -/
def pieces : Nat → List Char → List Piece
  | 0, _ => []
  | _, [] => []
  | fuel + 1, cs =>
      let (item, rest) := match cs with
        | '\\' :: c :: rest => (Glob.char c, rest)
        | '.' :: rest => (Glob.any, rest)
        | '[' :: rest =>
            match bracket? (rest.map fun c => .char c false false) with
            | some (g, left) => (g, rest.drop (rest.length - left.length))
            | none => (Glob.char '[', rest)
        | c :: rest => (Glob.char c, rest)
        | [] => (Glob.any, [])
      match rest with
      | '*' :: rest => ⟨item, true⟩ :: pieces fuel rest
      | rest => ⟨item, false⟩ :: pieces fuel rest

/-- Does a text begin with a match? With `whole` the match must be all of it. -/
def beginsWith (whole : Bool) : List Piece → List Char → Bool
  | [], cs => ¬ whole || cs.isEmpty
  | p :: ps, [] => p.repeats && beginsWith whole ps []
  | p :: ps, c :: cs =>
      if p.repeats then
        beginsWith whole ps (c :: cs) || (p.item.accepts c && beginsWith whole (p :: ps) cs)
      else p.item.accepts c && beginsWith whole ps cs
termination_by ps cs => (ps.length, cs.length)

/-- Is there a match anywhere in a text? -/
def occurs (whole : Bool) (ps : List Piece) : List Char → Bool
  | [] => beginsWith whole ps []
  | c :: cs => beginsWith whole ps (c :: cs) || occurs whole ps cs

/-- Does a line match a pattern? A caret binds it to the start, a dollar sign to the end. -/
def lineMatches (fixed exact : Bool) (pattern line : List Char) : Bool :=
  if fixed then
    if exact then line = pattern
    else occurs false (pattern.map fun c => ⟨.char c, false⟩) line
  else
    let (start, pattern) := match pattern with
      | '^' :: rest => (true, rest)
      | rest => (exact, rest)
    let (whole, pattern) :=
      if pattern.getLast? = some '$' then (true, pattern.dropLast) else (exact, pattern)
    let ps := pieces (pattern.length + 1) pattern
    if start then beginsWith whole ps line else occurs whole ps line

/-- Writes the lines that match, or counts them. -/
def grep (arguments : List String) : Act Nat := do
  let options := arguments.takeWhile fun s => s.startsWith "-" ∧ s.length > 1 ∧ s ≠ "-e"
  let letters := options.flatMap fun s => s.toList.drop 1
  let has (c : Char) : Bool := letters.contains c
  let (pattern, paths) := match arguments.drop options.length with
    | "-e" :: pattern :: paths | pattern :: paths => (pattern, paths)
    | [] => ("", [])
  let fold (cs : List Char) : List Char := if has 'i' then cs.map Char.toLower else cs
  let good (line : Bytes) : Bool :=
    lineMatches (has 'F') (has 'x') (fold pattern.toList) (fold (rawText line).toList) != has 'v'
  let (readable, found) ← overFiles "grep" paths fun path => do
    let (ls, _) := linesOf (← inputAll)
    let hits := (ls.zipIdx 1).filter fun (line, _) => good line
    let label := if paths.length > 1 then path ++ ":" else ""
    if has 'q' then return ¬ hits.isEmpty
    if has 'c' then emitText 1 s!"{label}{hits.length}\n"
    else
      for (line, n) in hits do
        emitText 1 (label ++ (if has 'n' then s!"{n}:" else "") ++ rawText line ++ "\n")
    return ¬ hits.isEmpty
  return if ¬ readable then 2 else if found then 0 else 1

/-! ## Counting and waiting -/

/-- The number of words. -/
def wordCount (bytes : Bytes) : Nat :=
  (fields " \t\n" ((rawText bytes).toList.map fun c => .char c false true)).length

/-- Counts lines, words and bytes. -/
def wc (arguments : List String) : Act Nat := do
  let options := arguments.takeWhile fun s => s.startsWith "-" ∧ s.length > 1
  let letters := options.flatMap fun s => s.toList.drop 1
  eachFile "wc" (arguments.drop options.length) fun path => do
    let bytes ← inputAll
    let counts := [('l', (bytes.filter (· = 10)).length), ('w', wordCount bytes),
      ('c', bytes.length)]
    let shown := (counts.filter fun (c, _) => letters.isEmpty ∨ letters.contains c).map (·.2)
    let width := if letters.length = 1 then 0 else 7
    let texts := shown.map fun n => String.ofList (fit { width := width } [] (toString n).toList)
    emitText 1 (" ".intercalate texts ++ (if path = "" then "" else " " ++ path) ++ "\n")

/-- A length of time as text: a decimal number of seconds, or of another unit. -/
def duration? (s : String) : Option Time :=
  let cs := s.toList
  let (unit, cs) := match cs.getLast? with
    | some 's' => (1, cs.dropLast)
    | some 'm' => (60, cs.dropLast)
    | some 'h' => (3600, cs.dropLast)
    | some 'd' => (86400, cs.dropLast)
    | _ => (1, cs)
  let whole := cs.takeWhile Char.isDigit
  let fraction := match cs.drop whole.length with
    | '.' :: rest => some rest
    | [] => some []
    | _ => none
  match fraction with
  | some digits =>
      if (whole.isEmpty ∧ digits.isEmpty) ∨ ¬ digits.all Char.isDigit then none
      else
        let value (ds : List Char) : Nat := (String.ofList ds).toNat?.getD 0
        let micros := value ((digits ++ List.replicate 6 '0').take 6)
        some (unit * (value whole * 1000000 + micros))
  | none => none

/-- Lets time pass. -/
def sleep (arguments : List String) : Act Nat := do
  match arguments.mapM duration? with
  | some (d :: ds) =>
      let _ ← pass (some ((← get).now + ds.foldl (· + ·) d))
      return 0
  | some [] =>
      complain "sleep: missing operand\nTry 'sleep --help' for more information."
      return 1
  | none =>
      for s in arguments.filter fun s => (duration? s).isNone do
        complain s!"sleep: invalid time interval '{s}'"
      complain "Try 'sleep --help' for more information."
      return 1

/-- Writes the numbers of a range. -/
def seq (arguments : List String) : Act Nat := do
  let (first, last) ← match arguments.map natural? with
    | [some last] => pure (1, last)
    | [some first, some last] => pure (first, last)
    | _ => pure (1, 0)
  for n in List.range (last + 1 - first) do
    emitText 1 s!"{first + n}\n"
  return 0

/-- Writes its arguments. Escapes count only when asked for, or when `always` says so. -/
def echo (always : Bool) (arguments : List String) : Act Nat := do
  let isOption (s : String) : Bool :=
    if always then s = "-n"
    else match s.toList with
      | '-' :: c :: cs => (c :: cs).all fun c => "neE".contains c
      | _ => false
  let options := if always then (arguments.take 1).filter isOption else arguments.takeWhile isOption
  let letters := options.flatMap fun s => s.toList.drop 1
  let text := " ".intercalate (arguments.drop options.length)
  let (text, stops) := if always ∨ letters.contains 'e' then unescape text else (text, false)
  emitText 1 (if stops ∨ letters.contains 'n' then text else text ++ "\n")
  return 0

/-- Writes arguments in a format. -/
def printf (name : String) (arguments : List String) : Act Nat := do
  match arguments with
  | [] =>
      complain s!"{name}: usage: printf format [arg ...]"
      return 2
  | form :: values =>
      let f := format form values
      for value in f.faults do
        complain s!"{name}: {value}: expected numeric value"
      emitText 1 (String.ofList f.text)
      return if f.faults.isEmpty then 0 else 1

/-- Writes the working directory. -/
def pwd : Act Nat := do
  emitText 1 (rawOfText (Files.Tree.text (← get).directory) ++ "\n")
  return 0

/-- Writes the names in a directory, or the path of anything else. -/
def ls (arguments : List String) : Act Nat := do
  let options := arguments.takeWhile (·.startsWith "-")
  let goal := (arguments.drop options.length).headD "."
  let m ← get
  match m.site.tree.resolve m.directory (plainOfRaw goal) with
  | .error e =>
      complain s!"ls: cannot access '{goal}': {reason e}"
      return 2
  | .ok place =>
      if m.site.tree.entry? place = some .directory then
        let all := options.any (·.contains 'a')
        let hidden := all ∨ options.any (·.contains 'A')
        let names := (m.site.tree.children place).filter fun name => hidden ∨ ¬ name.startsWith "."
        for name in (if all then [".", ".."] else []) ++ names.mergeSort (· ≤ ·) do
          emitText 1 (rawOfText name ++ "\n")
      else emitText 1 (goal ++ "\n")
      return 0

/-! ## Conditions -/

/-- A condition of one argument. -/
def unary (m : Machine) (op value : String) : Option Bool :=
  let path := plainOfRaw value
  match op with
  | "-n" => some (value ≠ "")
  | "-z" => some (value = "")
  | "-e" => some (m.site.tree.resolve m.directory path).toOption.isSome
  | "-f" => some (m.site.tree.isFile m.directory path)
  | "-d" => some (m.site.tree.isDirectory m.directory path)
  | "-r" | "-w" | "-x" => some (m.site.tree.resolve m.directory path).toOption.isSome
  | "-s" => some ((m.site.tree.read m.directory path).toOption.any fun b => ¬ b.isEmpty)
  | "-t" => some false
  | _ => none

/-- A condition of two arguments. -/
def binary (a op b : String) : Option Bool :=
  let numbers (f : Int → Int → Bool) : Option Bool :=
    match argumentNumber a, argumentNumber b with
    | (x, true), (y, true) => some (f x y)
    | _, _ => none
  match op with
  | "=" | "==" => some (a = b)
  | "!=" => some (a ≠ b)
  | "<" => some (a < b)
  | ">" => some (b < a)
  | "-eq" => numbers fun x y => x = y
  | "-ne" => numbers fun x y => x ≠ y
  | "-lt" => numbers fun x y => x < y
  | "-le" => numbers fun x y => x ≤ y
  | "-gt" => numbers fun x y => y < x
  | "-ge" => numbers fun x y => y ≤ x
  | _ => none

mutual

/-- Conditions joined by "or"; the number bounds the steps. -/
def anyOf (m : Machine) : Nat → List String → Option (Bool × List String)
  | 0, _ => none
  | fuel + 1, ws => do
      let (a, rest) ← allOf m fuel ws
      match rest with
      | "-o" :: rest =>
          let (b, rest) ← anyOf m fuel rest
          return (a || b, rest)
      | rest => return (a, rest)

/-- Conditions joined by "and". -/
def allOf (m : Machine) : Nat → List String → Option (Bool × List String)
  | 0, _ => none
  | fuel + 1, ws => do
      let (a, rest) ← primary m fuel ws
      match rest with
      | "-a" :: rest =>
          let (b, rest) ← allOf m fuel rest
          return (a && b, rest)
      | rest => return (a, rest)

/-- One condition. -/
def primary (m : Machine) : Nat → List String → Option (Bool × List String)
  | 0, _ => none
  | fuel + 1, ws =>
      match ws with
      | a :: op :: b :: rest =>
          match binary a op b with
          | some r => some (r, rest)
          | none => simplePrimary m fuel ws
      | ws => simplePrimary m fuel ws

/-- A condition that does not compare two arguments. -/
def simplePrimary (m : Machine) : Nat → List String → Option (Bool × List String)
  | 0, _ => none
  | fuel + 1, ws =>
      match ws with
      | "!" :: rest => (primary m fuel rest).map fun (r, rest) => (¬ r, rest)
      | "(" :: rest =>
          match anyOf m fuel rest with
          | some (r, ")" :: rest) => some (r, rest)
          | _ => none
      | [a] => some (a ≠ "", [])
      | op :: value :: rest =>
          match unary m op value with
          | some r => some (r, rest)
          | none => some (op ≠ "", value :: rest)
      | [] => some (false, [])

end

/-- Decides a condition: zero if it holds. -/
def test (name : String) (arguments : List String) : Act Nat := do
  let m ← get
  match anyOf m (4 * (arguments.length + 2)) arguments with
  | some (r, []) => return if r then 0 else 1
  | _ =>
      complain s!"{name}: unexpected operator"
      return 2

end Tool

/-- The tools that are found by their names. -/
def tool? (name : String) : Option (List String → Act Nat) :=
  match name with
  | "cat" => some Tool.cat
  | "head" => some Tool.head
  | "tail" => some Tool.tail
  | "tr" => some Tool.tr
  | "grep" => some Tool.grep
  | "wc" => some Tool.wc
  | "sleep" => some Tool.sleep
  | "seq" => some Tool.seq
  | "echo" => some (Tool.echo false)
  | "printf" => some (Tool.printf "printf")
  | "pwd" => some fun _ => Tool.pwd
  | "ls" => some Tool.ls
  | "true" => some fun _ => return 0
  | "false" => some fun _ => return 1
  | "test" => some (Tool.test "test")
  | _ => none

end LanguageClient.Host
