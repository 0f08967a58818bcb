import LedgerScript.Check.Basic
import LedgerScript.Diagnostic.Display
import LedgerScript.Run.Basic
import LedgerScript.Trace.Sink

/-!
# What all commands share

A command belongs to a release and works on a workspace.
-/

/-!
## Flags

An argument that starts with two dashes is a flag.  Its value stands after an equals sign or is the next argument; a
switch needs none.  Flags and other arguments come in any order, and after two dashes alone there are no more flags.
If a flag is given twice, the later one counts.
-/

namespace LedgerScript

inductive FlagKind where
  | switch
  | text
  | number
  | duration
  deriving DecidableEq, Repr, Inhabited

structure Flag where
  name : String
  kind : FlagKind := .text
  deriving DecidableEq, Repr, Inhabited

/-- What is wrong with the arguments. -/
inductive FlagFault where
  | unknown (name : Bytes)
  | short (given : Bytes)
  | malformed (given : Bytes)
  | noValue (flag : Flag)
  | badValue (flag : Flag) (given : Bytes)
  deriving DecidableEq, Repr, Inhabited

/-- What is said about wrong arguments. -/
def FlagFault.text : FlagFault → Bytes
  | unknown name => utf8 "unknown flag: --" ++ name
  | short given =>
    utf8 "unknown shorthand flag: '" ++ (given.drop 1).take 1 ++ utf8 "' in " ++ given
  | malformed given => utf8 "bad flag syntax: " ++ given
  | noValue flag => utf8 ("flag needs an argument: --" ++ flag.name)
  | badValue flag given =>
    let reason := match flag.kind with
      | .switch => utf8 "strconv.ParseBool: parsing " ++ Text.quoted given ++ utf8 ": invalid syntax"
      | .number => utf8 "strconv.ParseInt: parsing " ++ Text.quoted given ++ utf8 ": invalid syntax"
      | _ => utf8 "time: invalid duration " ++ Text.quoted given
    utf8 "invalid argument " ++ Text.quoted given ++ utf8 (" for \"--" ++ flag.name ++ "\" flag: ") ++ reason

/-- The truth value that a text names. -/
def readSwitch? (text : Bytes) : Option Bool :=
  if ["1", "t", "T", "TRUE", "true", "True"].any (utf8 · == text) then some true
  else if ["0", "f", "F", "FALSE", "false", "False"].any (utf8 · == text) then some false
  else none

namespace Flag

def accepts (f : Flag) (value : Bytes) : Bool :=
  match f.kind with
  | .switch => (readSwitch? value).isSome
  | .text => true
  | .number => (readWhole? value).isSome
  | .duration => (readDuration value).toOption.isSome

end Flag

/-- Flags with their values, the later ones first. -/
structure Flags where
  given : List (String × Bytes) := []
  deriving Repr, Inhabited

namespace Flags

/-- Two dashes start a flag. -/
def dashes : Bytes := utf8 "--"

def text (f : Flags) (name : String) (usual : Bytes) : Bytes :=
  (f.given.lookup name).getD usual

def switch (f : Flags) (name : String) : Bool :=
  ((f.given.lookup name).bind readSwitch?).getD false

def number (f : Flags) (name : String) (usual : Int) : Int :=
  ((f.given.lookup name).bind readWhole?).getD usual

def set (f : Flags) (flag : Flag) (value : Bytes) : Except FlagFault Flags :=
  if flag.accepts value then .ok { given := (flag.name, value) :: f.given } else .error (.badValue flag value)

/-- The flags among arguments, and the other arguments. -/
def read (known : List Flag) (flags : Flags) : List Bytes → Except FlagFault (Flags × List Bytes)
  | [] => .ok (flags, [])
  | arg :: rest =>
    if arg = dashes then .ok (flags, rest)
    else if dashes.isPrefixOf arg then
      let body := arg.drop 2
      let name := body.takeWhile (· ≠ ascii '=')
      let value := body.drop (name.length + 1)
      if name = [] || name.head? = some (ascii '-') then .error (.malformed arg)
      else
        match known.find? (utf8 ·.name == name) with
        | none => .error (.unknown name)
        | some flag =>
          if name.length < body.length then
            match flags.set flag value with
            | .ok flags => read known flags rest
            | .error f => .error f
          else if flag.kind = .switch then read known { given := (flag.name, utf8 "true") :: flags.given } rest
          else
            match rest with
            | [] => .error (.noValue flag)
            | value :: rest =>
              match flags.set flag value with
              | .ok flags => read known flags rest
              | .error f => .error f
    else if arg.length > 1 && arg.head? = some (ascii '-') then .error (.short arg)
    else do
      let (flags, others) ← read known flags rest
      return (flags, arg :: others)

/-- The first argument that is no flag and no value of one, and the arguments without it.  A flag that is not among
the known switches takes a value. -/
def splitCommand? (known : List Flag) : List Bytes → Option (Bytes × List Bytes)
  | [] => none
  | arg :: rest =>
    if arg = dashes then none
    else if arg.head? = some (ascii '-') then
      let isSwitch := known.any fun f => f.kind = .switch && dashes ++ utf8 f.name == arg
      if arg.contains (ascii '=') || isSwitch || !dashes.isPrefixOf arg && arg.length ≠ 2 then
        (splitCommand? known rest).map fun (command, others) => (command, arg :: others)
      else
        match rest with
        | [] => none
        | value :: rest => (splitCommand? known rest).map fun (command, others) => (command, arg :: value :: others)
    else if arg = [] then (splitCommand? known rest).map fun (command, others) => (command, arg :: others)
    else some (arg, rest)

end Flags

end LedgerScript

/-!
## The version of the program

A version has three numbers and perhaps a suffix after a hyphen.  On a terminal each number has its own colour.
-/

namespace LedgerScript

structure Release where
  version : Bytes := utf8 "0.1.0-dev"
  commit : Bytes := []
  message : Bytes := []
  date : Bytes := []
  deriving DecidableEq, Repr, Inhabited

namespace Release

def numberStyles : List Style :=
  [.bright "33", .bright "32", .bright "34"]

/-- The parts of a text before and after the first of a byte. -/
def cut (separator : UInt8) (text : Bytes) : Bytes × Bytes :=
  (text.takeWhile (· ≠ separator), (text.dropWhile (· ≠ separator)).drop 1)

/-- The version with its numbers in their styles; a version of another form stays as it is. -/
def colored (r : Release) (styles : List Style) : Bytes :=
  let (core, suffix) := cut (ascii '-') r.version
  match Text.splitOn (ascii '.') core with
  | major :: minor :: patch :: more =>
    let parts := [major, minor, Text.join (utf8 ".") (patch :: more)]
    let shown := (parts.zip styles).map fun (p, s) => s.paint p
    Text.join (utf8 ".") shown ++ if suffix = [] then [] else utf8 "-" ++ suffix
  | _ => r.version

/-- The lines that tell about a release; what is not known is left out. -/
def banner (r : Release) (shownVersion : Bytes) : Bytes :=
  let line (title : String) (text : Bytes) : Bytes := if text = [] then [] else utf8 title ++ text ++ utf8 "\n"
  utf8 "gard " ++ shownVersion ++ utf8 "\n" ++ line "commit: " r.commit ++ line "message: " r.message ++
    line "built: " r.date

end Release

/-!
## Commands

A command works on a workspace, the files and what else outlives it, and writes to two outputs.  It ends well or with a
fault, which is told on the second output unless everything has been said already.
-/

structure Workspace where
  tree : FileTree := {}
  /-- What checks have found before, by the folder that it is kept in. -/
  checked : List (Bytes × List (Bytes × CheckedFile)) := []
  /-- How many transactions have been made. -/
  made : Nat := 0
  /-- The times that a clock shows, in nanoseconds. -/
  clock : List Int := [0]
  release : Release := {}
  deriving Inhabited

/-- Why a command fails. -/
inductive CommandFault where
  /-- Everything has been said. -/
  | reported
  | flags (f : FlagFault)
  | noCommand
  | unknownCommand (name : Bytes)
  | tooMany (most given : Nat)
  | tooFew (least given : Nat)
  | notExactly (wanted given : Nat)
  | unexpected (name command : Bytes)
  | paths (given : Bytes)
  | file (f : FileFault)
  | load (f : LoadFault)
  | settings (f : SettingsFault)
  | trace (f : TraceFault)
  | tracer (f : TracerFault)
  | noMain
  | timings (given : Bytes)
  | setup (f : SetupFault)
  | progress (given : Bytes)
  | checkFormat (given : Bytes)
  | noSources
  | reportFormat (given : Bytes)
  | shownAndChecked
  | shownNotText
  | formatPaths (f : FormatPathsFault)
  | notFormatted (failed total : Nat)
  | needFormat (count : Nat)
  | notPersisted (kind : Bytes)
  | noChain (path : Bytes) (f : FileFault)
  | store (f : StoreFault)
  | chain (f : ChainFault)
  | releaseFormat (given : Bytes)
  | tokenFormat (given : Bytes)
  | notParsed (f : FileFault)
  | treeFormat (given : Bytes)
  deriving Inhabited

/-- What is said about a failure. -/
def CommandFault.text : CommandFault → Bytes
  | reported => utf8 "errors reported"
  | flags f => f.text
  | noCommand => utf8 "no command given"
  | unknownCommand name => utf8 "unknown command " ++ Text.quoted name ++ utf8 " for \"gard\""
  | tooMany most given => utf8 s!"accepts at most {most} arg(s), received {given}"
  | tooFew least given => utf8 s!"requires at least {least} arg(s), only received {given}"
  | notExactly wanted given => utf8 s!"accepts {wanted} arg(s), received {given}"
  | unexpected name command =>
    utf8 "unknown command " ++ Text.quoted name ++ utf8 " for " ++ Text.quoted (utf8 "gard " ++ command)
  | paths given => PathMode.unknownText given
  | file f => f.text
  | load f => f.text
  | settings f => f.text
  | trace f => f.text
  | tracer f => utf8 "failed to create tracer: " ++ f.text
  | noMain => utf8 "run: no file given and gard.toml has no [run] main"
  | timings given =>
    utf8 "run: unsupported --timings value " ++ Text.quoted given ++ utf8 " (expected text|json)"
  | setup f => f.text
  | progress given => utf8 "invalid --ui value " ++ Text.quoted given ++ utf8 " (expected auto|on|off)"
  | checkFormat given => utf8 "check: unsupported format " ++ Text.quoted given
  | noSources => utf8 "check: no " ++ sourceEnding ++ utf8 " files found"
  | reportFormat given => utf8 "fmt: unsupported output format " ++ Text.quoted given
  | shownAndChecked => utf8 "fmt: --stdout cannot be used with --check"
  | shownNotText => utf8 "fmt: --stdout is only supported with text output"
  | formatPaths f => f.text
  | notFormatted failed total => utf8 s!"fmt: {failed} of {total} files failed"
  | needFormat count => utf8 s!"fmt: {count} files need formatting"
  | notPersisted kind =>
    utf8 "ledger: store is " ++ Text.quoted kind ++
      utf8 ", nothing is persisted (set [ledger] store = \"leveldb\")"
  | noChain path f => utf8 "ledger: no chain at " ++ path ++ utf8 ": " ++ f.text
  | store f => utf8 f.text
  | chain f => utf8 "ledger: chain is broken: " ++ f.text
  | releaseFormat given => utf8 "unsupported format " ++ Text.quoted given ++ utf8 " (must be pretty or json)"
  | tokenFormat given => utf8 "tokenize: unknown format " ++ Text.quoted given
  | notParsed f => utf8 "parsing failed: " ++ f.text
  | treeFormat given => utf8 "unknown format: " ++ given

/-- A command on its way: the workspace and what has been written, the latest first. -/
structure CommandState where
  space : Workspace
  output : List Bytes := []
  errors : List Bytes := []
  deriving Inhabited

abbrev CommandM := ExceptT CommandFault (StateM CommandState)

namespace CommandM

def space : CommandM Workspace := do
  return (← get).space

def tree : CommandM FileTree := do
  return (← get).space.tree

def modifySpace (f : Workspace → Workspace) : CommandM Unit :=
  modify fun s => { s with space := f s.space }

def setTree (tree : FileTree) : CommandM Unit :=
  modifySpace fun w => { w with tree }

def write (text : Bytes) : CommandM Unit :=
  modify fun s => { s with output := text :: s.output }

/-- A text goes to the second output. -/
def writeError (text : Bytes) : CommandM Unit :=
  modify fun s => { s with errors := text :: s.errors }

/-- What may fail. -/
def lift (cause : ε → CommandFault) : Except ε α → CommandM α
  | .ok a => pure a
  | .error e => throw (cause e)

end CommandM

structure CommandOptions where
  isColored : Bool := false
  isQuiet : Bool := false
  /-- How many diagnostics are shown at most; no limit is zero. -/
  limit : Nat := 100
  pathMode : PathMode := .asGiven
  flags : Flags := {}
  deriving Inhabited

namespace CommandOptions

def known : List Flag :=
  [⟨"color", .text⟩, ⟨"quiet", .switch⟩, ⟨"max-diagnostics", .number⟩, ⟨"paths", .text⟩, ⟨"config", .text⟩,
    ⟨"trace", .text⟩, ⟨"trace-level", .text⟩, ⟨"trace-mode", .text⟩, ⟨"trace-ring-size", .number⟩,
    ⟨"trace-heartbeat", .duration⟩, ⟨"cpu-profile", .text⟩, ⟨"mem-profile", .text⟩, ⟨"runtime-trace", .text⟩]

/-- What the flags say.  Colors are used only if they are asked for. -/
def ofFlags (flags : Flags) : CommandM CommandOptions := do
  let given := flags.text "paths" (utf8 "auto")
  match PathMode.ofName? given with
  | none => throw (.paths given)
  | some pathMode =>
    return { isColored := flags.text "color" [] = utf8 "on", isQuiet := flags.switch "quiet"
             limit := (flags.number "max-diagnostics" 100).toNat, pathMode, flags }

/-- How diagnostics are shown. -/
def display (o : CommandOptions) (t : FileTree) : DisplayOptions :=
  { workDir := t.homePath, pathMode := o.pathMode, notes := true }

/-- Diagnostics with the lines around them. -/
def shown (o : CommandOptions) (t : FileTree) (fs : FileSet) (b : Bag) : Bytes :=
  (o.display t).showAll (if o.isColored then Palette.colored else {}) 2 fs b.items

/-- The settings for a file or folder: those that are asked for, or else the nearest ones. -/
def settingsNear (o : CommandOptions) (path : Bytes) : CommandM Settings := do
  let t ← CommandM.tree
  let asked := o.flags.text "config" []
  if asked ≠ [] then
    CommandM.lift .load (Settings.load t asked)
  else
    let start := if path = [] then utf8 "." else path
    match t.inspect start with
    | .ok (.file _) => CommandM.lift .load (Settings.discover t (Path.dir start))
    | _ => CommandM.lift .load (Settings.discover t start)

/-- What the settings and the flags want of a tracer; the flags count more.  An output without a level asks for the
phases. -/
def traceRequest (o : CommandOptions) (s : Settings) : CommandM (Option TraceRequest) := do
  let level ← CommandM.lift .settings s.traceLevel
  let format ← CommandM.lift .settings s.traceFormat
  let output := o.flags.text "trace" []
  let asked := o.flags.text "trace-level" []
  let level ← if asked = [] then pure level else CommandM.lift .trace (TraceLevel.read asked)
  let level := if output ≠ [] && level = .off && asked = [] then .phase else level
  if level = .off then return none
  let mode ← CommandM.lift .trace (TraceMode.read (o.flags.text "trace-mode" (utf8 "stream")))
  return some {
    level, mode := mode.number, format, output := if output = [] then s.traceOutput else output
    ringSize := o.flags.number "trace-ring-size" 4096 }

def tracer (o : CommandOptions) (s : Settings) : CommandM (Option (TraceRequest × Tracer)) := do
  match ← o.traceRequest s with
  | none => return none
  | some r =>
    let (tracer, tree) ← CommandM.lift .tracer (Tracer.create (← CommandM.tree) r)
    CommandM.setTree tree
    return some (r, tracer)

end CommandOptions

end LedgerScript
