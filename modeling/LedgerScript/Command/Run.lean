import LedgerScript.Command.Basic

/-!
# Running programs

The command that runs a program, and the times of its phases that it tells.
-/

/-!
## How long the phases take

A timer notes the phases of a run in the order in which they start.  A phase that is stopped again only gets another
note.  The summary has a line for each phase and one for their sum.
-/

namespace LedgerScript

-- Powers are those of the numbers themselves, whatever algebra is at hand.
attribute [local instance (high)] instPowNat

structure TimedPhase where
  name : Bytes
  millis : Float := 0
  note : Bytes := []
  start : Int
  isDone : Bool := false
  deriving Inhabited

structure PhaseTimer where
  /-- What the clock will show, in nanoseconds; the last reading stays. -/
  clock : List Int
  phases : List TimedPhase := []

namespace PhaseTimer

def tick (t : PhaseTimer) : Int × PhaseTimer :=
  match t.clock with
  | [] => (0, t)
  | [n] => (n, t)
  | n :: rest => (n, { t with clock := rest })

def start (t : PhaseTimer) (name : Bytes) : PhaseTimer :=
  let (now, t) := t.tick
  { t with phases := t.phases ++ [{ name, start := now }] }

def millis (nanos : Int) : Float :=
  Float.ofInt nanos / 1000000

def stop (t : PhaseTimer) (i : Nat) (note : Bytes) : PhaseTimer :=
  match t.phases[i]? with
  | none => t
  | some p =>
    let (now, t) := if p.isDone then (0, t) else t.tick
    let p := if p.isDone then { p with note } else { p with note, isDone := true, millis := millis (now - p.start) }
    { t with phases := t.phases.set i p }

def measure (t : PhaseTimer) (name note : Bytes) : PhaseTimer :=
  (t.start name).stop t.phases.length note

/-- The time that all phases took. -/
def total (t : PhaseTimer) : Float :=
  t.phases.foldl (fun sum p => sum + p.millis) 0

/-- A number with two places after the point, a half-way case to the even neighbour. -/
def twoPlaces (x : Float) : Bytes :=
  let (m, e) := BinaryFormat.double.decode (x.abs.toBits.toNat)
  let cents := match e with
    | .ofNat n => m * 2 ^ n * 100
    | .negSucc n => BinaryFormat.roundDiv (m * 100) (2 ^ (n + 1))
  (if x.toBits.toNat ≥ Nat.pow 2 63 then utf8 "-" else []) ++ Text.decimal (cents / 100) ++ utf8 "." ++
    paddedNumber 2 (cents % 100)

def line (columns : Nat) (name : Bytes) (ms : Float) (note : Bytes) : Bytes :=
  utf8 "  " ++ name ++ List.replicate (columns - (Text.glyphs name).length) 32 ++ utf8 " " ++
    TraceRecord.padLeft 8 (twoPlaces ms) ++ utf8 " ms" ++ (if note = [] then [] else utf8 "  // " ++ note) ++ utf8 "\n"

/-- The phases and their sum, one below the other. -/
def summary (t : PhaseTimer) : Bytes :=
  let columns := t.phases.foldl (fun n p => max n p.name.length) 5
  utf8 "timings:\n" ++ t.phases.flatMap (fun p => line columns p.name p.millis p.note) ++
    line columns (utf8 "total") t.total []

end PhaseTimer

end LedgerScript

/-!
## Running a program

The program is the file that is named, or else the one that the settings name.  What it prints goes to the first
output; its events, its diagnostics and, after a failure, the events that a ring kept go to the second.
-/

namespace LedgerScript.RunCommand

def known : List Flag :=
  [⟨"timings", .text⟩, ⟨"sender", .text⟩, ⟨"clock", .text⟩, ⟨"deadline", .text⟩, ⟨"store", .text⟩, ⟨"receipts", .switch⟩]

def override (flags : Flags) (s : Settings) : Settings :=
  let pick (name : String) (usual : Bytes) : Bytes :=
    let given := flags.text name []
    if given = [] then usual else given
  { s with
    scheduler := { s.scheduler with
      clock := pick "clock" s.scheduler.clock, deadline := pick "deadline" s.scheduler.deadline }
    ledger := { s.ledger with store := pick "store" s.ledger.store } }

/-- The file that is run. -/
def programPath (s : Settings) : List Bytes → CommandM Bytes
  | path :: _ => if path = [] then programPath s [] else pure path
  | [] => if s.main = [] then throw .noMain else pure (s.resolve s.main)

def timed (clock : List Int) (r : Run) : PhaseTimer :=
  r.phases.foldl (fun t p => t.measure (utf8 p.1) p.2) { clock }

/-- What a timer saw as a document. -/
def timingJson (t : PhaseTimer) : Text.Json :=
  let number (x : Float) : Text.Json := .literal (doubleText x)
  let note (text : Bytes) : List (String × Text.Json) := if text = [] then [] else [("note", .text text)]
  .object [("total_ms", number t.total),
    ("phases", .list (t.phases.map fun p =>
      .object ([("name", .text p.name), ("duration_ms", number p.millis)] ++ note p.note)))]

def receiptTable (r : Run) : Table where
  heading := ["tx", "status", "block", "events", "reason"].map utf8
  rows := r.receipts.map fun x =>
    [x.id.take 8, utf8 x.status.name, Text.decimal x.block, Text.decimal x.events.length, x.reason]

/-- The store that a run starts with. -/
def openStore (t : FileTree) (s : Settings) (isKept : Bool) : Store :=
  if isKept then .ofFolder t s.storePath else {}

/-- What a run leaves behind. -/
def keepRun (s : Settings) (isKept : Bool) (r : Run) : CommandM Unit :=
  CommandM.modifySpace fun w =>
    { w with
      made := max w.made r.ledger.made
      tree := if isKept && r.phases.length > 1 then r.ledger.store.toFolder w.tree s.storePath else w.tree }

/-- The events of a run go to the tracer and from there to a file or to the second output. -/
def traceRun (tracer : Option (TraceRequest × Tracer)) (r : Run) : CommandM (Option TraceRing) := do
  match tracer with
  | none => return none
  | some (request, tracer) =>
    let tracer := tracer.follow 0 r.events
    match tracer.stream with
    | none => return tracer.ring
    | some stream =>
      if request.hasFile then CommandM.setTree ((← CommandM.tree).add request.output stream.written)
      else CommandM.writeError stream.written
      return tracer.ring

def reportTime (timings : Bytes) (clock : List Int) (r : Run) : CommandM Unit := do
  if timings = utf8 "text" then CommandM.writeError (timed clock r).summary
  else if timings = utf8 "json" then
    CommandM.writeError ((timingJson (timed clock r)).indented 0 ++ utf8 "\n")

def reportFailures (o : CommandOptions) (ring : Option TraceRing) (r : Run) : CommandM Unit := do
  if r.failures.isEmpty then return ()
  CommandM.writeError (o.shown (← CommandM.tree) r.files (r.diagnostics o.limit).sort)
  if let some ring := ring then
    CommandM.writeError (utf8 "\n--- trace ---\n" ++ ring.dump .text)
  throw .reported

def execute (o : CommandOptions) (args : List Bytes) : CommandM Unit := do
  let found ← o.settingsNear (args.headD [])
  let path ← programPath found args
  let settings := override o.flags found
  CommandM.lift .settings settings.check
  let timings := o.flags.text "timings" []
  if ["", "text", "json"].all (utf8 · ≠ timings) then throw (.timings timings)
  let tracer ← o.tracer settings
  let w ← CommandM.space
  let text ← CommandM.lift .file (w.tree.read path)
  let isKept := settings.onDisk.toOption.getD false
  let r ← CommandM.lift .setup (Run.ofProgram {
    path, text, settings, sender := o.flags.text "sender" [], readModule := w.tree.readModule (Path.dir path)
    store := openStore w.tree settings isKept, made := w.made })
  keepRun settings isKept r
  CommandM.write r.output
  let ring ← traceRun tracer r
  reportTime timings w.clock r
  if o.flags.switch "receipts" && !r.receipts.isEmpty then CommandM.write (receiptTable r).text
  reportFailures o ring r

end LedgerScript.RunCommand
