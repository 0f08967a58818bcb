import LedgerScript.Schedule.Machine

/-!
# Scripts for the scheduler

A script is a set of task definitions, each a list of steps that use the scheduler directly.  Running one gives a log
with a row for every step that returned.  The values that scripts send, return and log are of any type.
-/

namespace LedgerScript

/-- A step of a scripted task.  Numbers name definitions, locks, semaphores, channels and barriers by position. -/
inductive ScriptStep (V : Type) where
  | log (v : V)
  | sleep (ms : Int)
  | yield
  | spawn (definition : Nat)
  | await (definition : Nat)
  | cancel (definition : Nat)
  | deadline (definition : Nat) (ms : Int)
  | state (definition : Nat)
  | timers
  | lock (i : Nat)
  | tryLock (i : Nat)
  | unlock (i : Nat)
  | locked (i : Nat)
  | acquire (i : Nat)
  | tryAcquire (i : Nat)
  | release (i : Nat)
  | available (i : Nat)
  | send (c : Nat) (v : V)
  | receive (c : Nat)
  | tryReceive (c : Nat)
  | close (c : Nat)
  | channel (c : Nat)
  | arrive (b : Nat)
  | barrier (b : Nat)
  | interrupt
  | fail (message : Bytes)
  | crash (message : Bytes)
  | finish (v : V)
  | unknown

inductive StepResult (V : Type) where
  | nothing
  | value (v : V)
  | text (t : Bytes)
  | flag (b : Bool)
  | count (n : Int)
  | row (items : List (StepResult V))
  deriving Inhabited

structure NamedStep (V : Type) where
  name : String
  step : ScriptStep V

structure ScriptTask (V : Type) where
  name : String
  steps : List (NamedStep V)

/-- A row of the log: when, by which task, which step, and what it gave. -/
structure ScriptRow (V : Type) where
  time : Nat
  task : String
  step : String
  result : StepResult V

structure ScriptState (V : Type) where
  definitions : List (ScriptTask V)
  /-- The latest task of each definition that has been spawned. -/
  spawned : List (Nat × TaskId) := []
  locks : List ObjectId := []
  semaphores : List ObjectId := []
  channels : List ObjectId := []
  barriers : List ObjectId := []
  log : List (ScriptRow V) := []

inductive ScriptEnd (V : Type) where
  | returned (v : Option V)
  | failed (message : Bytes)
  | crashed (message : Bytes)
  | killed

namespace Script

variable {V : Type}

/-- The scheduler of a script; an error is a message, and a body is the number of a definition. -/
abbrev Sched (V : Type) := Scheduler V Bytes Nat

abbrev Work (V R : Type) := Act (ScriptState V) V Bytes Nat (ScriptEnd V) R

def faultResult : Option ScheduleFault → StepResult V
  | none => .nothing
  | some f => .text f.text

def taskFaultText : TaskFault Bytes → Bytes
  | .schedule f => f.text
  | .own e => e

/-- Something of the scheduler that does not change. -/
def read {R : Type} (f : Sched V → R) : Work V R :=
  Act.onSched (.read f)

def own {R : Type} (f : ScriptState V → R) : Work V R :=
  Act.onOwn fun o => (f o, o)

def objectAt (ids : List ObjectId) (i : Nat) : ObjectId :=
  ids[i]?.getD 0

def taskOf (definition : Nat) : Work V (Option TaskId) :=
  own fun o => (o.spawned.find? (·.1 = definition)).map (·.2)

def waiting (op : WaitOp V) : Work V (Option (StepResult V)) := do
  return (← Act.wait op).map fun r => faultResult r.fault

def receivedResult (r : Option V × Bool) : List (StepResult V) :=
  [match r.1 with
    | some v => .value v
    | none => .nothing, .flag r.2]

/-- A new task of a definition. -/
def spawn (definition : Nat) : Work V (StepResult V) := do
  let name ← own fun o => ((o.definitions[definition]?).map (·.name)).getD ""
  let id ← Act.onSched (.spawn name definition id)
  Act.onOwn fun o => ((), { o with spawned := (definition, id) :: o.spawned.filter (·.1 ≠ definition) })
  return .text (utf8 (← read fun s => ((s.task? id).map Task.label).getD ""))

def labelOf (s : Sched V) (id : TaskId) : String :=
  ((s.task? id).map Task.label).getD ""

/-- A step; there is no result if the task was killed in it. -/
def perform : ScriptStep V → Work V (Option (StepResult V))
  | .log v => return some (.value v)
  | .sleep ms => waiting (.sleep (ms * 1000000))
  | .yield => waiting .yield
  | .spawn i => return some (← spawn i)
  | .await i => do
    match ← taskOf i with
    | none => return some (.text (utf8 "no task"))
    | some id =>
      match ← Act.wait (.await id) with
      | none => return none
      | some { fault := some f, .. } => return some (.row [.nothing, .text f.text])
      | some { fault := none, .. } =>
        let (v, f) ← read (·.outcome id)
        return some (.row [match v with
          | some v => .value v
          | none => .nothing, match f with
          | some f => .text (taskFaultText f)
          | none => .nothing])
  | .cancel i => do
    if let some id ← taskOf i then Act.onSched (.cancel id ())
    return some .nothing
  | .deadline i ms => do
    if let some id ← taskOf i then Act.onSched (.setDeadline id (ms * 1000000) ())
    return some (.count (← read (·.timers.length)))
  | .state i => do
    match (← taskOf i), (← read fun s => s) with
    | none, _ => return some (.text (utf8 "no task"))
    | some id, s =>
      match s.task? id with
      | none => return some (.text (utf8 "no task"))
      | some t =>
        return some (.row [.text (utf8 t.state.name), .text (utf8 t.reason.name), .flag t.isDone, .flag t.killed])
  | .timers => return some (.count (← read (·.timers.length)))
  | .lock i => do
    let id ← own fun o => objectAt o.locks i
    waiting (.lock id)
  | .tryLock i => do
    let id ← own fun o => objectAt o.locks i
    return some (.flag (← Act.onSched (.tryLock id fun taken => taken)))
  | .unlock i => do
    let id ← own fun o => objectAt o.locks i
    Act.onSched (.unlock id ())
    return some .nothing
  | .locked i => do
    let id ← own fun o => objectAt o.locks i
    match ← read fun s => (s.lockHolder id).map (labelOf s) with
    | some label => return some (.row [.flag true, .text (utf8 label)])
    | none => return some (.row [.flag false, .nothing])
  | .acquire i => do
    let id ← own fun o => objectAt o.semaphores i
    waiting (.permit id)
  | .tryAcquire i => do
    let id ← own fun o => objectAt o.semaphores i
    return some (.flag (← Act.onSched (.tryAcquire id fun taken => taken)))
  | .release i => do
    let id ← own fun o => objectAt o.semaphores i
    Act.onSched (.release id ())
    return some .nothing
  | .available i => do
    let id ← own fun o => objectAt o.semaphores i
    return some (.count (← read (·.permits id)))
  | .send c v => do
    let id ← own fun o => objectAt o.channels c
    waiting (.send id v)
  | .receive c => do
    let id ← own fun o => objectAt o.channels c
    match ← Act.wait (.receive id) with
    | none => return none
    | some r => return some (.row (receivedResult r.received ++ [faultResult r.fault]))
  | .tryReceive c => do
    let id ← own fun o => objectAt o.channels c
    let v ← Act.onSched (.tryReceive id fun v => v)
    return some (.row (receivedResult (v, v.isSome)))
  | .close c => do
    let id ← own fun o => objectAt o.channels c
    Act.onSched (.close id ())
    return some .nothing
  | .channel c => do
    let id ← own fun o => objectAt o.channels c
    let c ← read (·.channel id)
    return some (.row [.count c.buffer.length, .count c.capacity, .flag c.isClosed])
  | .arrive b => do
    let id ← own fun o => objectAt o.barriers b
    match ← Act.wait (.barrier id) with
    | none => return none
    | some r => return some (.row [faultResult r.fault, .count (← read fun s => ((s.barrierState id).2 : Int))])
  | .barrier b => do
    let id ← own fun o => objectAt o.barriers b
    let (parties, generation) ← read (·.barrierState id)
    return some (.row [.count parties, .count generation])
  | .interrupt => do
    Act.onSched (.interrupt ())
    return some .nothing
  | .fail _ | .crash _ | .finish _ => return some .nothing
  | .unknown => return some (.text (utf8 "unknown step"))

/-- The log gets a row. -/
def addRow (step : String) (result : StepResult V) : Work V Unit := do
  let (time, task) ← read fun s => (s.now, match s.current with
    | some id => labelOf s id
    | none => "-")
  Act.onOwn fun o => ((), { o with log := { time, task, step, result } :: o.log })

/-- Steps one after another, until one ends the task. -/
def performAll : List (NamedStep V) → Work V (ScriptEnd V)
  | [] => return .returned none
  | s :: rest =>
    match s.step with
    | .fail message => return .failed message
    | .crash message => return .crashed message
    | .finish v => return .returned (some v)
    | step => do
      match ← perform step with
      | none => return .killed
      | some r =>
        addRow s.name r
        performAll rest

/-- Scripted tasks start with the steps of their definition and never ask for activations. -/
def host : Host (ScriptState V) V Bytes Nat (ScriptEnd V) where
  start definition := do
    let steps ← own fun o => ((o.definitions[definition]?).map (·.steps)).getD []
    return .answer (← performAll steps)
  conclude id
    | .returned v => (v, none)
    | .failed message => (none, some (.own message))
    | .crashed message => (none, some (.schedule (.crashed id message)))
    | .killed => (none, some (.schedule .cancelled))
  errorText _ e := e

/-- Steps that run outside any task and therefore never suspend. -/
def outside (w : World (ScriptState V) V Bytes Nat) (steps : List (NamedStep V)) : World (ScriptState V) V Bytes Nat :=
  steps.foldl (fun w s =>
    let work : Work V (Turn Nat (ScriptEnd V)) := do
      if let some r ← perform s.step then addRow s.name r
      return .answer (.returned none)
    (host.runThread activationLimit (work.run w) []).world) w

end Script

/-- A script: task definitions, the objects they use, and what is done before, during and after the run. -/
structure Script (V : Type) where
  /-- The default deadline in milliseconds. -/
  deadline : Int := 0
  locks : Nat := 0
  semaphores : List Int := []
  channels : List Int := []
  barriers : List Int := []
  tasks : List (ScriptTask V)
  start : List Nat
  before : List (NamedStep V)
  after : List (NamedStep V)

def Script.run {V : Type} (s : Script V) : RunEnd × World (ScriptState V) V Bytes Nat :=
  let sched : Script.Sched V := { defaultDeadline := s.deadline * 1000000 }
  let makeAll {P : Type} (make : Script.Sched V → P → ObjectId × Script.Sched V) (ps : List P) (sched : Script.Sched V) :
      List ObjectId × Script.Sched V :=
    ps.foldl (fun (ids, sched) p => let (id, sched) := make sched p; (ids ++ [id], sched)) ([], sched)
  let (locks, sched) := makeAll (fun sched (_ : Nat) => sched.newLock) (List.range s.locks) sched
  let (semaphores, sched) := makeAll Scheduler.newSemaphore s.semaphores sched
  let (channels, sched) := makeAll Scheduler.newChannel s.channels sched
  let (barriers, sched) := makeAll Scheduler.newBarrier s.barriers sched
  let own : ScriptState V := { definitions := s.tasks, locks, semaphores, channels, barriers }
  let spawnAll : Script.Work V Unit := s.start.forM fun i => do let _ ← Script.spawn i
  let world := (spawnAll.run ⟨sched, own⟩).world
  let (ended, m) := Machine.run Script.host { world := Script.outside world s.before }
  (ended, Script.outside m.world s.after)

end LedgerScript
