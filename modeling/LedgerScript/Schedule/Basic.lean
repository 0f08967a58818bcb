import LedgerScript.Number.Duration
import LedgerScript.Trace.Event

/-!
# The scheduler

The operations of the scheduler, on a state that is made of finite maps.
-/

/-!
## Tasks

A task is ready, running, suspended, completed or failed.  A suspended task has a reason, and waits in at most one
place: under a wait key, or in a queue of a channel.  What a task runs is data, its *body*; the machine that runs
tasks knows how to start it.

The types of values, of errors and of bodies are parameters.
-/

namespace LedgerScript

/-- Tasks are numbered from one in the order in which they were spawned. -/
abbrev TaskId := Nat

abbrev TimerId := Nat

/-- Locks, semaphores, barriers and channels are numbered together from one. -/
abbrev ObjectId := Nat

inductive TaskState where
  | ready
  | running
  | suspended
  | completed
  | failed
  deriving DecidableEq, Repr, Inhabited

def TaskState.name : TaskState → String
  | ready => "ready"
  | running => "running"
  | suspended => "suspended"
  | completed => "completed"
  | failed => "failed"

/-- What a suspended task waits for. -/
inductive WaitReason where
  | none
  | await
  | lock
  | semaphore
  | channelSend
  | channelReceive
  | barrier
  | sleep
  | yield
  deriving DecidableEq, Repr, Inhabited

def WaitReason.name : WaitReason → String
  | none => "none"
  | await => "await"
  | lock => "lock"
  | semaphore => "semaphore"
  | channelSend => "channel send"
  | channelReceive => "channel recv"
  | barrier => "barrier"
  | sleep => "sleep"
  | yield => "yield"

inductive WaitKey where
  | join (task : TaskId)
  | lock (id : ObjectId)
  | permit (id : ObjectId)
  | barrier (id : ObjectId)
  | timer (id : TimerId)
  deriving DecidableEq, Repr, Inhabited

/-- Why an operation of the scheduler fails. -/
inductive ScheduleFault where
  | cancelled
  | deadline (task : TaskId) (after : Int)
  | crashed (task : TaskId) (message : Bytes)
  /-- The run as a whole was called off. -/
  | interrupted
  | channelClosed
  | noTask
  | selfAwait
  deriving DecidableEq, Repr, Inhabited

def ScheduleFault.text : ScheduleFault → Bytes
  | cancelled => utf8 "task cancelled"
  | deadline task after => utf8 ("task #" ++ toString task ++ " exceeded its deadline of " ++ durationText after)
  | crashed task message => utf8 ("task #" ++ toString task ++ " panicked: ") ++ message
  | interrupted => utf8 "context canceled"
  | channelClosed => utf8 "send on closed channel"
  | noTask => utf8 "sched: not inside a task"
  | selfAwait => utf8 "task awaits itself"

/-- Why a task failed: by a fault of the scheduler or by an error of its own. -/
inductive TaskFault (E : Type) where
  | schedule (f : ScheduleFault)
  | own (e : E)
  deriving Inhabited

structure Task (V E B : Type) where
  id : TaskId
  name : String
  body : B
  state : TaskState := .ready
  reason : WaitReason := .none
  result : Option V := none
  fault : Option (TaskFault E) := none
  started : Bool := false
  /-- Cancelled, or past its deadline. -/
  killed : Bool := false
  deadline : Option TimerId := none
  sleep : Option TimerId := none
  received : Option V × Bool := (none, false)
  /-- A waiting sender was woken because the channel was closed. -/
  sendRefused : Bool := false

namespace Task

variable {V E B : Type}

def isDone (t : Task V E B) : Bool :=
  t.state == .completed || t.state == .failed

def label (t : Task V E B) : String :=
  "task #" ++ toString t.id ++ if t.name = "" then "" else " " ++ t.name

end Task

end LedgerScript

/-!
## Finite maps

A finite map gives each of some keys one value.  What is known about it is what is found under a key after a change.
-/

namespace LedgerScript

structure FinMap (κ α : Type) where
  rows : List (κ × α) := []

namespace FinMap

variable {κ α : Type} [DecidableEq κ]

/-- What is found under a key. -/
def get? (m : FinMap κ α) (k : κ) : Option α :=
  (m.rows.find? (·.1 = k)).map (·.2)

def has (m : FinMap κ α) (k : κ) : Bool :=
  (m.get? k).isSome

/-- Nothing is found under a key any more. -/
def erase (m : FinMap κ α) (k : κ) : FinMap κ α where
  rows := m.rows.filter (·.1 ≠ k)

/-- A value is put under a key, in place of what is there. -/
def set (m : FinMap κ α) (k : κ) (a : α) : FinMap κ α where
  rows := (k, a) :: (m.erase k).rows

@[simp] theorem get?_empty (k : κ) : ({} : FinMap κ α).get? k = none := rfl

@[simp] theorem get?_erase (m : FinMap κ α) (k k' : κ) : (m.erase k).get? k' = if k' = k then none else m.get? k' := by
  simp only [get?, erase, List.find?_filter]
  by_cases same : k' = k
  · simp +contextual [same]
  · rw [if_neg same]
    congr 2
    funext p
    by_cases here : p.1 = k' <;> simp [here, same]

@[simp] theorem get?_set (m : FinMap κ α) (k k' : κ) (a : α) :
    (m.set k a).get? k' = if k' = k then some a else m.get? k' := by
  have rest := m.get?_erase k k'
  unfold get? at rest ⊢
  by_cases same : k' = k
  · simp [set, same]
  · simp only [same, if_false] at rest ⊢
    rw [← rest, set, List.find?_cons_of_neg (by simpa using Ne.symm same)]

@[simp] theorem has_empty (k : κ) : ({} : FinMap κ α).has k = false := rfl

@[simp] theorem has_erase (m : FinMap κ α) (k k' : κ) : (m.erase k).has k' = (decide (k' ≠ k) && m.has k') := by
  by_cases same : k' = k <;> simp [has, same]

@[simp] theorem has_set (m : FinMap κ α) (k k' : κ) (a : α) : (m.set k a).has k' = (decide (k' = k) || m.has k') := by
  by_cases same : k' = k <;> simp [has, same]

end FinMap

/-!
## State and operations

Tasks take turns: exactly one runs at a time, and it runs until it suspends itself.  The scheduler keeps the queue of
ready tasks, the tasks that wait under a key in the order of their arrival, the armed timers in the order in which
they fire, and the killed tasks that still have to unwind.  Two more maps tell which tasks are in the queue and under
which key a task waits.  Time is virtual: it stands still while a task is ready, and then jumps to the first timer.

All operations are functions on the state of the scheduler.  Those that may suspend the current task say so by their
result; the machine does the suspending.

A scheduler remembers what became of its locks: who entered a block that a lock guards and who left it, which locks
were used outside such blocks, and which tasks have ended.  It also remembers what became of the values that were sent
through channels, and when its timers fired.  Nothing depends on this history; what holds at every moment of a run is
said about it.
-/

inductive TimerAction where
  /-- A sleeping task wakes. -/
  | wake (task : TaskId)
  /-- A task that is still unfinished after so many nanoseconds fails. -/
  | expire (task : TaskId) (after : Int)
  deriving DecidableEq, Repr, Inhabited

structure Timer where
  id : TimerId
  due : Nat
  action : TimerAction
  deriving DecidableEq, Repr, Inhabited

inductive SyncObject (V : Type) where
  | lock (holder : Option TaskId)
  | semaphore (permits : Int)
  | barrier (parties : Nat) (generation : Nat)
  | channel (capacity : Nat) (buffer : List V) (isClosed : Bool) (senders : List (TaskId × V)) (receivers : List TaskId)
  deriving Inhabited

/-- A moment in the history of the locks. -/
inductive LockUse where
  /-- A task has entered a block that a lock guards. -/
  | entered (task : TaskId) (lock : ObjectId)
  /-- A task leaves such a block, while a task, or nobody, holds the lock. -/
  | left (task : TaskId) (lock : ObjectId) (holder : Option TaskId)
  /-- A lock is used outside such blocks. -/
  | byHand (lock : ObjectId)
  | ended (task : TaskId)
  deriving DecidableEq, Repr, Inhabited

/-- A moment in the history of the channels. -/
inductive ChannelUse (V : Type) where
  /-- A value is sent without a wait. -/
  | sent (channel : ObjectId) (v : V)
  | offered (channel : ObjectId) (task : TaskId) (v : V)
  /-- The value of a waiting sender is taken. -/
  | admitted (channel : ObjectId) (task : TaskId)
  | handed (channel : ObjectId) (receiver : Option TaskId) (v : V)
  | collected (channel : ObjectId) (receiver : TaskId) (v : V)
  /-- A receiver returns without a value. -/
  | drained (channel : ObjectId)
  | closed (channel : ObjectId)
  | ended (task : TaskId)
  deriving DecidableEq, Repr, Inhabited

structure Scheduler (V E B : Type) where
  /-- Milliseconds since the start. -/
  now : Nat := 0
  /-- Given to every task that is spawned, in nanoseconds; none if not positive. -/
  defaultDeadline : Int := 0
  tasks : Array (Task V E B) := #[]
  ready : List TaskId := []
  readySet : FinMap TaskId Unit := {}
  /-- Which of the ready tasks is to run next, turn by turn; when no picks are left it is always the first one. -/
  picks : List Nat := []
  /-- The tasks that wait under a key, in the order of their arrival. -/
  waiters : FinMap WaitKey (List TaskId) := {}
  parked : FinMap TaskId WaitKey := {}
  current : Option TaskId := none
  unwinding : List TaskId := []
  /-- Armed timers in the order in which they fire. -/
  timers : List Timer := []
  lastTimer : TimerId := 0
  objects : Array (SyncObject V) := #[]
  /-- The run as a whole was called off. -/
  interrupted : Bool := false
  /-- Events of the run, the latest first. -/
  journal : List RunEvent := []
  lockUses : List LockUse := []
  channelUses : List (ChannelUse V) := []
  /-- The history of the timers: when one fired, and which, the latest first. -/
  timerUses : List (Nat × Timer) := []

/-- How an operation that may suspend went at first. -/
inductive Attempt (α : Type) where
  | done (a : α)
  /-- The current task is now registered as waiting and has to leave the processor. -/
  | parked
  deriving Inhabited

/-- A task left suspended when nothing could run any more. -/
structure StalledTask where
  id : TaskId
  name : String
  reason : WaitReason
  deriving DecidableEq, Repr, Inhabited

def stalledText (tasks : List StalledTask) : String :=
  let part (t : StalledTask) : String :=
    "#" ++ toString t.id ++ (if t.name = "" then "" else " " ++ t.name) ++ " (" ++ t.reason.name ++ ")"
  "scheduler stalled: " ++ toString tasks.length ++ " task(s) suspended: " ++ ", ".intercalate (tasks.map part)

namespace Scheduler

variable {V E B : Type}

def task? (s : Scheduler V E B) (id : TaskId) : Option (Task V E B) :=
  if id = 0 then none else s.tasks[id - 1]?

def modifyTask (s : Scheduler V E B) (id : TaskId) (f : Task V E B → Task V E B) : Scheduler V E B :=
  if id = 0 then s else { s with tasks := s.tasks.modify (id - 1) f }

/-- The task is unknown or finished. -/
def isDone (s : Scheduler V E B) (id : TaskId) : Bool :=
  match s.task? id with
  | some t => t.isDone
  | none => true

def object? (s : Scheduler V E B) (id : ObjectId) : Option (SyncObject V) :=
  if id = 0 then none else s.objects[id - 1]?

def modifyObject (s : Scheduler V E B) (id : ObjectId) (f : SyncObject V → SyncObject V) : Scheduler V E B :=
  if id = 0 then s else { s with objects := s.objects.modify (id - 1) f }

def newObject (s : Scheduler V E B) (o : SyncObject V) : ObjectId × Scheduler V E B :=
  (s.objects.size + 1, { s with objects := s.objects.push o })

/-- A moment enters the history of the locks. -/
def use (s : Scheduler V E B) (u : LockUse) : Scheduler V E B :=
  { s with lockUses := u :: s.lockUses }

/-- A moment enters the history of the channels. -/
def useChannel (s : Scheduler V E B) (u : ChannelUse V) : Scheduler V E B :=
  { s with channelUses := u :: s.channelUses }

def noteEnd (s : Scheduler V E B) (id : TaskId) : Scheduler V E B :=
  (s.use (.ended id)).useChannel (.ended id)

def note (s : Scheduler V E B) (e : RunEvent) : Scheduler V E B :=
  { s with journal := e :: s.journal }

/-- A point of a task enters the journal. -/
def noteTask (s : Scheduler V E B) (name : String) (id : TaskId) (detail : Bytes) : Scheduler V E B :=
  let taskName := match s.task? id with
    | some t => t.name
    | none => ""
  s.note { scope := .task, name, detail, attrs := [("task", Text.decimal id), ("name", utf8 taskName)] }

/-! ## Readiness -/

/-- A task joins the end of the ready queue, unless it is there already. -/
def enqueue (s : Scheduler V E B) (id : TaskId) : Scheduler V E B :=
  if s.readySet.has id then s
  else
    { s with ready := s.ready ++ [id], readySet := s.readySet.set id () }.modifyTask id fun t =>
      if t.isDone then t else { t with state := .ready }

def unready (s : Scheduler V E B) (id : TaskId) : Scheduler V E B :=
  if s.readySet.has id then { s with ready := s.ready.erase id, readySet := s.readySet.erase id } else s

def waitersOf (s : Scheduler V E B) (key : WaitKey) : List TaskId :=
  (s.waiters.get? key).getD []

def setWaiters (s : Scheduler V E B) (key : WaitKey) : List TaskId → Scheduler V E B
  | [] => { s with waiters := s.waiters.erase key }
  | ids => { s with waiters := s.waiters.set key ids }

/-- A task is taken from those that wait under a key. -/
def removeWaiter (s : Scheduler V E B) (key : WaitKey) (id : TaskId) : Scheduler V E B :=
  s.setWaiters key ((s.waitersOf key).erase id)

/-- It is forgotten under which key a task waits. -/
def unpark (s : Scheduler V E B) (id : TaskId) : Scheduler V E B :=
  { s with parked := s.parked.erase id }

/-- A task stops waiting. -/
def unregister (s : Scheduler V E B) (id : TaskId) : Scheduler V E B :=
  match s.parked.get? id with
  | none => s
  | some key => (s.removeWaiter key id).unpark id

/-- A task joins those that wait under a key. -/
def addWaiter (s : Scheduler V E B) (key : WaitKey) (id : TaskId) : Scheduler V E B :=
  { s with parked := s.parked.set id key, waiters := s.waiters.set key (s.waitersOf key ++ [id]) }

/-- A task waits under a key, and no longer under another one. -/
def register (s : Scheduler V E B) (id : TaskId) (key : WaitKey) : Scheduler V E B :=
  match s.parked.get? id with
  | none => s.addWaiter key id
  | some before => if before = key then s else (s.removeWaiter before id).addWaiter key id

/-- A suspended task becomes ready. -/
def wake (s : Scheduler V E B) (id : TaskId) : Scheduler V E B :=
  if s.isDone id then s else (s.unregister id).enqueue id

/-- All tasks that wait under a key become ready. -/
def wakeAll (s : Scheduler V E B) (key : WaitKey) : Scheduler V E B :=
  match s.waitersOf key with
  | [] => s
  | ids => ids.foldl (fun s id => (s.unpark id).wake id) (s.setWaiters key [])

/-- Of the tasks that wait under a key, the first unfinished one no longer waits, nor do the finished ones before it. -/
def popUnfinished (s : Scheduler V E B) (key : WaitKey) : List TaskId → Option TaskId × Scheduler V E B
  | [] => (none, s)
  | id :: rest =>
    let s := (s.setWaiters key rest).unpark id
    if s.isDone id then s.popUnfinished key rest else (some id, s)

/-- The unfinished task that has waited longest under a key no longer waits; finished ones before it are dropped. -/
def popWaiter (s : Scheduler V E B) (key : WaitKey) : Option TaskId × Scheduler V E B :=
  s.popUnfinished key (s.waitersOf key)

/-! ## Timers -/

/-- A timer takes its place among the others. -/
def insertTimer (t : Timer) : List Timer → List Timer
  | [] => [t]
  | u :: rest => if u.due ≤ t.due then u :: insertTimer t rest else t :: u :: rest

def armTimer (s : Scheduler V E B) (delay : Nat) (action : TimerAction) : TimerId × Scheduler V E B :=
  let id := s.lastTimer + 1
  (id, { s with lastTimer := id, timers := insertTimer { id, due := s.now + delay, action } s.timers })

def disarm (s : Scheduler V E B) (id : Option TimerId) : Scheduler V E B :=
  match id with
  | none => s
  | some id => { s with timers := s.timers.filter (·.id ≠ id) }

/-! ## The end of a task -/

def finishDetail (errorText : E → Bytes) : Option (TaskFault E) → Bytes
  | none => utf8 "completed"
  | some (.schedule f) => utf8 "failed: " ++ f.text
  | some (.own e) => utf8 "failed: " ++ errorText e

/-- A task ends with a result or a fault.  Its timers are disarmed, it leaves every queue but those of channels, and
whoever awaits it becomes ready. -/
def finish (s : Scheduler V E B) (errorText : E → Bytes) (id : TaskId) (result : Option V)
    (fault : Option (TaskFault E)) : Scheduler V E B :=
  match s.task? id with
  | none => s
  | some t =>
    let s := (s.disarm t.deadline).disarm t.sleep
    let s := (s.noteEnd id).modifyTask id fun t =>
      { t with
        result, fault, deadline := none, sleep := none
        state := if fault.isSome then .failed else .completed }
    let s := (s.unregister id).unready id
    let s := s.noteTask "task.finish" id (finishDetail errorText fault)
    s.wakeAll (.join id)

/-- An unfinished task is killed.  Unless it is the one that runs, it still has to unwind if it has started. -/
def kill (s : Scheduler V E B) (id : TaskId) (cause : ScheduleFault) : Scheduler V E B :=
  match s.task? id with
  | none => s
  | some t =>
    if t.isDone then s
    else
      let s := s.modifyTask id fun t => { t with killed := true }
      let s := s.finish (fun _ => []) id none (some (.schedule cause))
      if s.current = some id || !t.started then s else { s with unwinding := s.unwinding ++ [id] }

def cancel (s : Scheduler V E B) (id : TaskId) : Scheduler V E B :=
  s.kill id .cancelled

def fire (s : Scheduler V E B) : TimerAction → Scheduler V E B
  | .wake id => s.wake id
  | .expire id after => (s.modifyTask id fun t => { t with deadline := none }).kill id (.deadline id after)

def ring (s : Scheduler V E B) (t : Timer) (rest : List Timer) : Scheduler V E B :=
  { s with timers := rest, timerUses := (s.now, t) :: s.timerUses }.fire t.action

def fireDue (s : Scheduler V E B) : Nat → Scheduler V E B
  | 0 => s
  | n + 1 =>
    match s.timers with
    | t :: rest =>
      if t.due ≤ s.now then (s.ring t rest).fireDue n else s
    | [] => s

/-- Time jumps to the first timer, and all timers that are due then fire; nothing happens without a timer. -/
def advance? (s : Scheduler V E B) : Option (Scheduler V E B) :=
  match s.timers with
  | [] => none
  | t :: _ => some ({ s with now := max s.now t.due }.fireDue s.timers.length)

/-! ## What tasks do -/

/-- An unfinished task gets a deadline, in nanoseconds from now, in place of the one it has. -/
def setDeadline (s : Scheduler V E B) (id : TaskId) (after : Int) : Scheduler V E B :=
  match s.task? id with
  | none => s
  | some t =>
    if t.isDone then s
    else
      let s := s.disarm t.deadline
      let (timer, s) := s.armTimer (wholeMillis after) (.expire id after)
      s.modifyTask id fun t => { t with deadline := some timer }

/-- A new task, ready to start. -/
def spawn (s : Scheduler V E B) (name : String) (body : B) : TaskId × Scheduler V E B :=
  let id := s.tasks.size + 1
  let s := { s with tasks := s.tasks.push { id, name, body } }
  let s := s.enqueue id
  let s := if s.defaultDeadline > 0 then s.setDeadline id s.defaultDeadline else s
  (id, s.noteTask "task.spawn" id [])

def park (s : Scheduler V E B) (id : TaskId) (key : Option WaitKey) (reason : WaitReason) : Scheduler V E B :=
  let s := match key with
    | some key => s.register id key
    | none => s
  s.modifyTask id fun t => { t with state := .suspended, reason }

def outcome (s : Scheduler V E B) (id : TaskId) : Option V × Option (TaskFault E) :=
  match s.task? id with
  | some t => (t.result, t.fault)
  | none => (none, none)

/-- The current task waits until another one has finished. -/
def await (s : Scheduler V E B) (target : TaskId) : Attempt (Option ScheduleFault) × Scheduler V E B :=
  match s.current with
  | none => (.done (some .noTask), s)
  | some id =>
    if target = id then (.done (some .selfAwait), s)
    else if s.isDone target then (.done none, s)
    else (.parked, s.park id (some (.join target)) .await)

/-- The current task lets all other ready tasks run first. -/
def yield (s : Scheduler V E B) : Attempt (Option ScheduleFault) × Scheduler V E B :=
  match s.current with
  | none => (.done (some .noTask), s)
  | some id => (.parked, (s.enqueue id).modifyTask id fun t => { t with reason := .yield })

/-- The current task waits for a time in nanoseconds. -/
def sleep (s : Scheduler V E B) (ns : Int) : Attempt (Option ScheduleFault) × Scheduler V E B :=
  match s.current with
  | none => (.done (some .noTask), s)
  | some id =>
    let timer := s.lastTimer + 1
    let s := s.park id (some (.timer timer)) .sleep
    let (_, s) := s.armTimer (wholeMillis ns) (.wake id)
    (.parked, s.modifyTask id fun t => { t with sleep := some timer })

/-- The current task has slept. -/
def awoken (s : Scheduler V E B) : Scheduler V E B :=
  match s.current with
  | none => s
  | some id => s.modifyTask id fun t => { t with sleep := none }

/-- The tasks that are suspended, in the order in which they were spawned. -/
def stalled (s : Scheduler V E B) : List StalledTask :=
  s.tasks.toList.filterMap fun t =>
    if t.state == .suspended then some { id := t.id, name := t.name, reason := t.reason } else none

/-- A ready task that is not finished leaves the queue, after at most so many picks; finished ones that are picked
before it are dropped. -/
def pickReady (s : Scheduler V E B) : Nat → Option TaskId × Scheduler V E B
  | 0 => (none, s)
  | n + 1 =>
    let i := s.picks.headD 0 % s.ready.length
    match s.ready[i]? with
    | none => (none, s)
    | some id =>
      let s := { s with ready := s.ready.eraseIdx i, readySet := s.readySet.erase id, picks := s.picks.tail }
      if s.isDone id then s.pickReady n else (some id, s)

/-- The ready task that runs next leaves the queue. -/
def nextReady (s : Scheduler V E B) : Option TaskId × Scheduler V E B :=
  s.pickReady s.ready.length

def setCurrent (s : Scheduler V E B) (id : Option TaskId) : Scheduler V E B :=
  { s with current := id }

def setRunning (s : Scheduler V E B) (id : TaskId) : Scheduler V E B :=
  s.modifyTask id fun t => { t with state := .running, reason := .none, started := true }

def currentKilled (s : Scheduler V E B) : Bool :=
  match s.current.bind s.task? with
  | some t => t.killed
  | none => false

end Scheduler

end LedgerScript
