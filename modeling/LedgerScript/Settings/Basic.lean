import LedgerScript.Files.Tree
import LedgerScript.Number.Duration
import LedgerScript.Toml.Document
import LedgerScript.Trace.Event

/-!
# Settings

What can be set about a run: its main file, the scheduler, the ledger and the trace.  Settings are texts as they were
written; `check` says what is wrong with them first, and the functions after it give what they stand for.
-/

namespace LedgerScript

structure SchedulerSettings where
  /-- `virtual` or `real`, in any case. -/
  clock : Bytes := utf8 "virtual"
  /-- How long a task may run; nothing at all is no limit. -/
  deadline : Bytes := []
  fuzz : Bool := false
  seed : Nat := 0
  deriving DecidableEq, Repr, Inhabited

structure LedgerSettings where
  blockSize : Int := 16
  store : Bytes := utf8 "memory"
  path : Bytes := utf8 ".gard/chain"
  sender : Bytes := utf8 "main"
  /-- The balances that a new ledger starts with. -/
  genesis : List (Bytes × Bytes) := []
  deriving DecidableEq, Repr, Inhabited

structure TraceSettings where
  level : Bytes := utf8 "off"
  format : Bytes := utf8 "text"
  output : Bytes := []
  deriving DecidableEq, Repr, Inhabited

structure Settings where
  /-- The file that they were read from, if any. -/
  path : Bytes := []
  main : Bytes := []
  scheduler : SchedulerSettings := {}
  ledger : LedgerSettings := {}
  trace : TraceSettings := {}
  deriving DecidableEq, Repr, Inhabited

inductive SettingsFault where
  | clock (given : Bytes)
  | deadline (f : DurationFault)
  | negativeDeadline
  | store (given : Bytes)
  | blockSize
  | trace (f : TraceFault)
  | genesis (address given : Bytes)
  deriving DecidableEq, Repr, Inhabited

/-- What is said about wrong settings. -/
def SettingsFault.text : SettingsFault → Bytes
  | clock s => utf8 "invalid scheduler.clock: " ++ Text.quoted s ++ utf8 " (expected: virtual|real)"
  | deadline f => utf8 "invalid scheduler.default_deadline: " ++ f.text
  | negativeDeadline => utf8 "scheduler.default_deadline must not be negative"
  | store s => utf8 "invalid ledger.store: " ++ Text.quoted s ++ utf8 " (expected: memory|leveldb)"
  | blockSize => utf8 "ledger.block_size must be positive"
  | trace f => f.text
  | genesis address s => utf8 "invalid genesis balance for " ++ address ++ utf8 ": " ++ Text.quoted s

namespace Settings

/-- The clock shows the time of day. -/
def realClock (s : Settings) : Except SettingsFault Bool :=
  let clock := Text.lower s.scheduler.clock
  if clock = [] || clock = utf8 "virtual" then .ok false
  else if clock = utf8 "real" then .ok true
  else .error (.clock s.scheduler.clock)

/-- How long a task may run, in nanoseconds. -/
def deadline (s : Settings) : Except SettingsFault Int := do
  if s.scheduler.deadline = [] then return 0
  let d ← (readDuration s.scheduler.deadline).mapError .deadline
  if d < 0 then throw .negativeDeadline
  return d

def onDisk (s : Settings) : Except SettingsFault Bool :=
  if s.ledger.store = utf8 "memory" then .ok false
  else if s.ledger.store = utf8 "leveldb" then .ok true
  else .error (.store s.ledger.store)

def traceLevel (s : Settings) : Except SettingsFault TraceLevel :=
  (TraceLevel.read s.trace.level).mapError .trace

/-- How events are written. -/
def traceFormat (s : Settings) : Except SettingsFault TraceFormat :=
  (TraceFormat.read s.trace.format).mapError .trace

def balanceOf (entry : Bytes × Bytes) : Except SettingsFault (Bytes × Int) :=
  match readWhole? (Text.trim entry.2) with
  | some n => if n < 0 then .error (.genesis entry.1 entry.2) else .ok (entry.1, n)
  | none => .error (.genesis entry.1 entry.2)

/-- The balances that a new ledger starts with, by address. -/
def genesis (s : Settings) : Except SettingsFault (List (Bytes × Int)) :=
  (s.ledger.genesis.mergeSort fun a b => Text.lexLe a.1 b.1).mapM balanceOf

/-- The first thing that is wrong, if any. -/
def check (s : Settings) : Except SettingsFault Unit := do
  let _ ← s.realClock
  let _ ← s.deadline
  let _ ← s.onDisk
  if s.ledger.blockSize ≤ 0 then throw .blockSize
  let _ ← s.traceLevel
  let _ ← s.traceFormat
  let _ ← s.genesis

/-- The folder of the settings; `.` if they come from no file. -/
def root (s : Settings) : Bytes :=
  if s.path = [] then utf8 "." else Path.dir s.path

/-- A path as it is meant: relative ones start at the folder of the settings. -/
def resolve (s : Settings) (path : Bytes) : Bytes :=
  if Path.isRooted path then path else Path.join [s.root, path]

def storePath (s : Settings) : Bytes :=
  s.resolve s.ledger.path

/-- Where the trace goes; nothing at all and `-` are no files. -/
def traceOutput (s : Settings) : Bytes :=
  if s.trace.output = [] || s.trace.output = utf8 "-" then s.trace.output else s.resolve s.trace.output

end Settings

end LedgerScript

/-!
## Settings in files

Settings are written as TOML.  Names of settings are read in any case, and a name that stands for no setting is an
error.  A value has to be of the kind that its setting takes; only for the balances of a genesis anything will do, but
nothing other than a table has any.  The file of settings is looked for in a folder and then in the folders around it.
-/

namespace LedgerScript

/-- Why settings cannot be read. -/
inductive LoadFault where
  | unreadable (path : Bytes) (f : FileFault)
  /-- The file is malformed, or has a value of the wrong kind. -/
  | malformed (path : Bytes)
  | unknownKeys (path : Bytes) (keys : List TomlKey)
  | wrong (path : Bytes) (f : SettingsFault)
  /-- The folders cannot be searched. -/
  | search (path : Bytes) (f : FileFault)
  deriving Inhabited

/-- What is said about settings that cannot be read. -/
def LoadFault.text : LoadFault → Bytes
  | unreadable path f => path ++ utf8 ": failed to parse TOML: " ++ f.text
  | malformed path => path ++ utf8 ": failed to parse TOML"
  | unknownKeys path keys => path ++ utf8 ": unknown keys: " ++ Text.join (utf8 ", ") (keys.map TomlKey.text)
  | wrong path f => path ++ utf8 ": " ++ f.text
  | search path f => utf8 "failed to stat " ++ Text.quoted path ++ utf8 ": " ++ f.text

namespace Settings

/-! ## From a document -/

/-- Settings on their way, and the keys that stand for something. -/
structure Loading where
  settings : Settings := {}
  known : List TomlKey := []

abbrev LoadM := StateT Loading Option

/-- A character whose letter case does not count.  The two letters `i` of Turkish have no other case. -/
def foldedChar (c : Char) : Char :=
  if c.toNat = 0x130 || c.toNat = 0x131 then c else Text.lowerChar (Text.upperChar c)

/-- Two names are the same but for the case of letters. -/
def sameName (name : String) (key : Bytes) : Bool :=
  name.toList.map foldedChar == (Text.shownChars key).map foldedChar

/-- What is done with the value of a key. -/
abbrev Loader := TomlKey → Toml.Node → LoadM Unit

def loadTable (loaders : List (String × Loader)) : Loader := fun context node => do
  match node with
  | .table entries =>
    for (k, v) in entries do
      match loaders.find? (sameName ·.1 k) with
      | none => pure ()
      | some (_, load) =>
        modify fun l => { l with known := (context ++ [k]) :: l.known }
        load (context ++ [k]) v
  | _ => failure

def change (f : Settings → Settings) : LoadM Unit :=
  modify fun l => { l with settings := f l.settings }

def loadText (f : Bytes → Settings → Settings) : Loader := fun _ node =>
  match node with
  | .scalar (.text t) => change (f t)
  | _ => failure

def loadWhole (f : Int → Settings → Settings) : Loader := fun _ node =>
  match node with
  | .scalar (.whole n) => change (f n)
  | _ => failure

/-- A setting that is true or false. -/
def loadFlag (f : Bool → Settings → Settings) : Loader := fun _ node =>
  match node with
  | .scalar (.flag b) => change (f b)
  | _ => failure

/-- Any number of texts by name; what is no table has none. -/
def loadTexts (f : Bytes → Bytes → Settings → Settings) : Loader := fun context node => do
  if let .table entries := node then
    for (k, v) in entries do
      modify fun l => { l with known := (context ++ [k]) :: l.known }
      loadText (f k) (context ++ [k]) v

/-- The settings of the scheduler by name. -/
def schedulerLoaders : List (String × Loader) :=
  [("clock", loadText fun t s => { s with scheduler := { s.scheduler with clock := t } }),
    ("default_deadline", loadText fun t s => { s with scheduler := { s.scheduler with deadline := t } }),
    ("fuzz", loadFlag fun b s => { s with scheduler := { s.scheduler with fuzz := b } }),
    ("seed", loadWhole fun n s => { s with scheduler := { s.scheduler with seed := (n % Int.pow 2 64).toNat } })]

/-- The settings of the ledger by name. -/
def ledgerLoaders : List (String × Loader) :=
  [("block_size", loadWhole fun n s => { s with ledger := { s.ledger with blockSize := n } }),
    ("store", loadText fun t s => { s with ledger := { s.ledger with store := t } }),
    ("path", loadText fun t s => { s with ledger := { s.ledger with path := t } }),
    ("default_sender", loadText fun t s => { s with ledger := { s.ledger with sender := t } }),
    ("genesis", loadTexts fun a t s => { s with ledger := { s.ledger with genesis := s.ledger.genesis ++ [(a, t)] } })]

/-- The settings of the trace by name. -/
def traceLoaders : List (String × Loader) :=
  [("level", loadText fun t s => { s with trace := { s.trace with level := t } }),
    ("format", loadText fun t s => { s with trace := { s.trace with format := t } }),
    ("output", loadText fun t s => { s with trace := { s.trace with output := t } })]

/-- All settings by name. -/
def loaders : List (String × Loader) :=
  [("run", loadTable [("main", loadText fun t s => { s with main := t })]),
    ("scheduler", loadTable schedulerLoaders), ("ledger", loadTable ledgerLoaders),
    ("trace", loadTable traceLoaders)]

/-- The settings that a text stands for, before they are checked, and the keys that stand for nothing. -/
def ofText? (text : Bytes) : Option (Settings × List TomlKey) := do
  let d ← Toml.Document.ofText? text
  let (_, l) ← (loadTable loaders [] (.table d.root)).run {}
  return (l.settings, d.keys.filter (!l.known.contains ·))

/-! ## From files -/

def load (t : FileTree) (path : Bytes) : Except LoadFault Settings := do
  let text ← (t.read path).mapError (.unreadable path)
  match ofText? text with
  | none => throw (.malformed path)
  | some (s, []) =>
    let s := { s with path }
    s.check.mapError (.wrong path)
    return s
  | some (_, keys) => throw (.unknownKeys path keys)

def fileName : Bytes := utf8 "gard.toml"

/-- The file of settings in a folder or in one of the folders around it; the first argument bounds their number. -/
def findAbove (t : FileTree) : Nat → Bytes → Except LoadFault (Option Bytes)
  | 0, _ => .ok none
  | n + 1, dir =>
    let candidate := Path.join [dir, fileName]
    match t.inspect candidate with
    | .ok _ => .ok (some candidate)
    | .error f =>
      if f.problem ≠ .missing then .error (.search candidate f)
      else if Path.dir dir = dir then .ok none
      else findAbove t n (Path.dir dir)

/-- The settings that hold in a folder: those of the nearest file, or else the usual ones. -/
def discover (t : FileTree) (start : Bytes) : Except LoadFault Settings := do
  let dir := Path.absolute t.homePath (if start = [] then utf8 "." else start)
  match ← findAbove t (dir.length + 1) dir with
  | some path => load t path
  | none => return {}

end Settings

end LedgerScript
