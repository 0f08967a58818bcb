import LedgerScript.Eval.Activation
import LedgerScript.Settings.Basic

/-!
# Runs

A run takes a program through three phases.  The file is parsed; the ledger is opened and gets its first balances; and
the top level is evaluated as the main task, until no task can do anything any more.  The journal records the phases
around what the scheduler and the ledger note.

A run starts with a heap that holds the built-in classes and functions, and leaves the store of its ledger behind, so
that another run can go on from there.
-/

/-!
## What goes wrong in a run

A run fails because its file cannot be parsed, because a value is thrown that nobody catches, or because its tasks wait
for each other.  The failures of tasks that nobody awaits count too.
-/

namespace LedgerScript

inductive RunFailure where
  /-- The file cannot be parsed. -/
  | source (f : SourceFault)
  /-- A value that nobody caught, and the tasks that were left suspended, if that was the end of it. -/
  | thrown (v : Value) (span : Span) (cause : Option Fault) (stalled : List StalledTask)
  | stalled (tasks : List StalledTask)
  | crashed (task : TaskId) (message : Bytes)
  /-- The run was called off. -/
  | interrupted
  | other (f : Fault)
  deriving Inhabited

namespace RunFailure

def text (h : Heap) : RunFailure → Bytes
  | source f => f.text
  | thrown v _ _ [] => h.shown v
  | thrown v _ _ tasks => h.shown v ++ utf8 ("\n" ++ stalledText tasks)
  | stalled tasks => utf8 (stalledText tasks)
  | crashed task message => (ScheduleFault.crashed task message).text
  | interrupted => ScheduleFault.interrupted.text
  | other f => f.text h

def code (h : Heap) : RunFailure → DiagnosticCode
  | source f => f.code
  | thrown v span cause _ => (Fault.thrown v span cause).code h
  | _ => .unknown

def span : RunFailure → Span
  | source f => f.span
  | thrown _ span _ _ => span
  | _ => {}

def diagnostic (h : Heap) (f : RunFailure) : Diagnostic :=
  { code := f.code h, message := f.text h, span := f.span }

end RunFailure

def Heap.thrownMessage (h : Heap) (v : Value) : Bytes :=
  match v with
  | .ref .object r =>
    match (h.object? r).bind fun o => lookupName "message" o.fields with
    | some m => h.shown m
    | none => h.shown v
  | v => h.shown v

/-- What is told about a failure beyond its text, code and span. -/
inductive FailureDetail where
  | source (f : SourceFault)
  | thrown (className : String) (message : Bytes) (value : Heap.ShownValue) (stalled : List StalledTask)
  | stalled (tasks : List StalledTask)
  | crashed
  | other
  deriving Inhabited

/-- A failure with everything shown. -/
structure FailureReport where
  text : Bytes
  code : DiagnosticCode
  span : Span
  detail : FailureDetail
  deriving Inhabited

def RunFailure.report (h : Heap) (f : RunFailure) : FailureReport :=
  { text := f.text h, code := f.code h, span := f.span
    detail := match f with
      | .source f => .source f
      | .thrown v _ _ tasks => .thrown (h.typeName v) (h.thrownMessage v) (h.report v) tasks
      | .stalled tasks => .stalled tasks
      | .crashed .. => .crashed
      | .interrupted | .other _ => .other }

def TaskFault.failure : TaskFault Fault → RunFailure
  | .own (.thrown v span cause) => .thrown v span cause []
  | .own f => .other f
  | .schedule (.crashed task message) => .crashed task message
  | .schedule f => .other (.schedule f)

def TaskFault.toFault : TaskFault Fault → Fault
  | .own f => f
  | .schedule f => .schedule f

end LedgerScript

/-! ## The run itself -/

namespace LedgerScript

/-- What is run. -/
structure Program where
  path : Bytes := utf8 "main.gard"
  text : Bytes
  settings : Settings := {}
  /-- Who sends transactions; if nothing, whom the settings name. -/
  sender : Address := []
  /-- Where modules come from. -/
  readModule : Bytes → Except ImportFault Bytes
  /-- The store that the ledger is opened on. -/
  store : Store := {}
  /-- How many transactions have been made before. -/
  made : Nat := 0

/-- Why a run cannot start. -/
inductive SetupFault where
  | settings (f : SettingsFault)
  | ledger (f : LedgerFault)
  deriving Inhabited

/-- What is said about a run that cannot start. -/
def SetupFault.text : SetupFault → Bytes
  | settings f => f.text
  | ledger f => f.text

structure Run where
  output : Bytes := []
  value : Value := .null
  failures : List RunFailure := []
  /-- The receipts in the order in which they were issued. -/
  receipts : List (Receipt Fault) := []
  heap : Heap := {}
  ledger : Ledger := {}
  files : FileSet
  phases : List (String × Bytes)
  /-- The events in the order in which they happened. -/
  events : List RunEvent
  deriving Inhabited

namespace Run

def diagnostics (r : Run) (limit : Nat) : Bag :=
  r.failures.foldl (fun b f => (b.add (f.diagnostic r.heap)).2) { limit }

/-! ## The start -/

abbrev Sched := Scheduler Value Fault Request

def firstHeap : Heap :=
  ErrorClass.all.foldl (fun h c => (h.newClass c.toClass).2) {}

def addBuiltins (h : Heap) : List (String × Value) × Heap :=
  Builtin.table.foldr
    (fun (name, _) (values, h) =>
      let (v, h) := h.newFunction (.native name)
      ((name, v) :: values, h))
    ([], h)

/-- The frame of the main file. -/
def globalFrame : HoldId := 1

/-- The environment at the start: the names of the built-in classes. -/
def firstEnv : Env :=
  let (_, e) := ({} : Env).enter 0 { isFunction := true }
  ErrorClass.all.foldl (fun e c => (e.declare (e.held globalFrame) c.name .constDecl (.ref .classRef c.ref)).2) e

/-- What the tasks of a run share at the start. -/
def firstState (heap : Heap) (ledger : Ledger) (modules : Modules) : RunState :=
  let (messageClass, heap) := heap.newClass { name := "Message" }
  let (builtins, heap) := addBuiltins heap
  { heap, env := firstEnv, ledger, global := globalFrame, builtins, messageClass, modules }

/-! ## The journal -/

/-- The number of the span around the whole run. -/
def wholeSpan : Nat := 1

def phaseEvent (kind : TraceKind) (name : String) (number : Nat) (detail : Bytes) : RunEvent :=
  { kind, scope := .phase, span := wholeSpan + number, parent := wholeSpan, name, detail }

def runEvent (kind : TraceKind) (detail : Bytes) : RunEvent :=
  { kind, scope := .driver, span := wholeSpan, name := "run", detail }

def lastEvent (failures : List RunFailure) : RunEvent :=
  runEvent .spanEnd (utf8 (toString failures.length ++ " errors"))

/-! ## The end -/

def mainFailure (h : Heap) (ended : RunEnd) (fault : Option (TaskFault Fault)) : List RunFailure × Heap :=
  let tasks := match ended with
    | .stalled tasks => tasks
    | _ => []
  match fault.map TaskFault.toFault with
  | some (.thrown v span cause) => ([.thrown v span cause tasks], h)
  | some f =>
    let (v, h) := h.newObject { cls := f.errorClass.ref, fields := [("message", .str (f.errorMessage h))] }
    ([.thrown v {} (some f) tasks], h)
  | none =>
    match ended with
    | .stalled tasks => ([.stalled tasks], h)
    | .interrupted => ([.interrupted], h)
    | _ => ([], h)

def mainTask : TaskId := 1

/-- The failures of tasks that nobody took notice of. -/
def backgroundFailures (s : Sched) (observed : List TaskId) : List RunFailure :=
  s.tasks.toList.filterMap fun t =>
    if t.id = mainTask || t.killed || observed.contains t.id then none else t.fault.map (·.failure)

/-! ## The phases -/

/-- What the setup of a run gives: the scheduler, the heap and the ledger. -/
def setup (p : Program) (journal : List RunEvent) : Except SetupFault (LedgerState Value Fault Request) := do
  p.settings.check.mapError .settings
  let deadline ← p.settings.deadline.mapError .settings
  let balances ← p.settings.genesis.mapError .settings
  let (ledger, heap) ← (Ledger.load p.settings.ledger.blockSize p.store firstHeap).mapError .ledger
  let sched : Sched := { defaultDeadline := deadline, journal }
  let (r, s) := (LedgerM.genesis balances).run.run ⟨sched, heap, { ledger with made := p.made }⟩
  let _ ← r.mapError .ledger
  return s

def senderOf (p : Program) : Address :=
  if p.sender ≠ [] then p.sender
  else if p.settings.ledger.sender ≠ [] then p.settings.ledger.sender
  else utf8 "main"

/-- The world before the first turn: the top level of a file is the main task. -/
def firstWorld (p : Program) (s : LedgerState Value Fault Request) (files : FileSet) (items : List Stmt) :
    World RunState Value Fault Request :=
  let state := firstState s.heap s.ledger { read := p.readModule, files }
  let (_, sched) := s.sched.spawn "main" (.topLevel items globalFrame none)
  ⟨sched, { state with contexts := #[{ sender := senderOf p }] }⟩

/-- The top level of a file is evaluated as the main task. -/
def evaluate (p : Program) (s : LedgerState Value Fault Request) (files : FileSet) (items : List Stmt) :
    RunEnd × World RunState Value Fault Request :=
  let (ended, m) := Machine.run Eval.host { world := firstWorld p s files items }
  (ended, m.world)

def ofProgram (p : Program) : Except SetupFault Run := do
  let (files, file) := ({} : FileSet).addRead p.path p.text
  let begun := [phaseEvent .spanBegin "parse" 1 [], runEvent .spanBegin []]
  match parse file with
  | .error f =>
    let failures := [.source f]
    let events := (lastEvent failures :: phaseEvent .spanEnd "parse" 1 (utf8 "failed") :: begun).reverse
    return { failures, files, phases := [("parse", utf8 "failed")], events }
  | .ok tree =>
    let parsed := utf8 (toString tree.items.length ++ " items")
    let store := p.settings.ledger.store
    let s ← setup p (phaseEvent .spanBegin "setup" 2 [] :: phaseEvent .spanEnd "parse" 1 parsed :: begun)
    let journal := phaseEvent .spanBegin "eval" 3 [] :: phaseEvent .spanEnd "setup" 2 store :: s.sched.journal
    let (ended, w) := evaluate p { s with sched := { s.sched with journal } } files tree.items
    let (result, fault) := w.sched.outcome mainTask
    let (main, heap) := mainFailure w.own.heap ended fault
    let failures := main ++ backgroundFailures w.sched w.own.observed
    let evaluated := utf8 (toString w.own.receipts.length ++ " transactions")
    let events := (lastEvent failures :: phaseEvent .spanEnd "eval" 3 evaluated :: w.sched.journal).reverse
    return {
      output := w.own.output.reverse.flatten, value := result.getD .null, failures
      receipts := w.own.receipts.reverse, heap, ledger := w.own.ledger, files := w.own.modules.files
      phases := [("parse", parsed), ("setup", store), ("eval", evaluated)], events }

/-- Programs are run one after the other.  A store on a disk is handed on, one in memory is not, and transactions are
counted through. -/
def sequence (made : Nat) (store : Store) : List Program → List (Except SetupFault Run)
  | [] => []
  | p :: rest =>
    let keeps := p.settings.onDisk.toOption.getD false
    let kind : StoreKind := if keeps then .disk else .memory
    let r := ofProgram { p with made, store := if keeps then { store with kind } else { kind } }
    match r with
    | .ok run =>
      let store := if keeps && run.phases.length > 1 then { run.ledger.store with isClosed := false } else store
      r :: sequence (max made run.ledger.made) store rest
    | .error _ => r :: sequence made store rest

end Run

end LedgerScript
