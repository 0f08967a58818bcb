import LedgerScript.Schedule.Sync

/-!
# The machine that runs tasks

What a task does is a *process*: it works on the world until it is done, asks for an activation, starts an operation
that may suspend it, or enters a block that a lock guards.  In all but the first case it hands over a continuation, so
a suspended task is a value, and nothing of it is on any stack of the machine.

Whatever a process does to the scheduler in between is an operation of tasks; a piece of work carries the proof of this.
So all that can ever happen to the scheduler is said by the operations and by the machine.

An *activation* is a piece of work named by a request: a function call, one pass of a loop, the body of a task.  It
ends with an answer for whoever asked, or by becoming another activation, which is how a loop goes around.  A thread
is the running activation on top of those that wait for an answer.  Requests are data, so the bodies of tasks are
requests too.  What a lock guards is an activation as well, and when it answers the lock is given back.

`Machine.run` is the loop of the scheduler.  It lets killed tasks unwind, fires due timers and gives the next ready
task its turn; when no task is ready, time advances to the next timer, and when there is none, the run ends.  Two
bounds make it total: one on the turns of the loop and one on the activations of a turn.
-/

namespace LedgerScript

/-- The scheduler together with what its tasks work on. -/
structure World (S V E B : Type) where
  sched : Scheduler V E B
  own : S

/-- How a block that a lock guards went: the lock could not be had, the task was killed, or the block gave an answer. -/
inductive BlockEnd (A : Type) where
  | refused (f : ScheduleFault)
  | killed
  | left (a : A)

/-- A process over a world: it is done, asks for an activation, starts an operation that may suspend it, or enters a
block.  There is nothing to go on with after an operation in which the task was killed. -/
inductive Proc (S V E B A R : Type) where
  | done (w : World S V E B) (r : R)
  | ask (w : World S V E B) (request : B) (k : World S V E B → A → Proc S V E B A R)
  | wait (w : World S V E B) (op : WaitOp V) (k : World S V E B → Option (Woken V) → Proc S V E B A R)
  | block (w : World S V E B) (lock : ObjectId) (request : B) (k : World S V E B → BlockEnd A → Proc S V E B A R)

namespace Proc

variable {S V E B A R R' : Type}

def world : Proc S V E B A R → World S V E B
  | done w _ | ask w _ _ | wait w _ _ | block w _ _ _ => w

def bind (p : Proc S V E B A R) (f : World S V E B → R → Proc S V E B A R') : Proc S V E B A R' :=
  match p with
  | done w r => f w r
  | ask w q k => ask w q fun w a => (k w a).bind f
  | wait w op k => wait w op fun w r => (k w r).bind f
  | block w m q k => block w m q fun w r => (k w r).bind f

/-- What a process does to the world is related step by step.  What it has done first is said apart; while it waits,
anything may happen to the world. -/
def Within (related : World S V E B → World S V E B → Prop) (first : World S V E B → Prop) : Proc S V E B A R → Prop
  | done w _ => first w
  | ask w _ k => first w ∧ ∀ w a, (k w a).Within related (related w)
  | wait w _ k => first w ∧ ∀ w r, (k w r).Within related (related w)
  | block w _ _ k => first w ∧ ∀ w r, (k w r).Within related (related w)

section

variable {related : World S V E B → World S V E B → Prop} {first first' : World S V E B → Prop}
variable {p : Proc S V E B A R}

theorem Within.world (within : p.Within related first) : first p.world := by
  cases p with
  | done => exact within
  | ask => exact within.1
  | wait => exact within.1
  | block => exact within.1

theorem Within.mono (within : p.Within related first) (weaker : ∀ w, first w → first' w) : p.Within related first' := by
  cases p with
  | done w => exact weaker w within
  | ask w => exact ⟨weaker w within.1, within.2⟩
  | wait w => exact ⟨weaker w within.1, within.2⟩
  | block w => exact ⟨weaker w within.1, within.2⟩

theorem Within.bind {f : World S V E B → R → Proc S V E B A R'}
    (trans : ∀ {w₁ w₂ w₃}, related w₁ w₂ → related w₂ w₃ → related w₁ w₃)
    (follows : ∀ {w w'}, first w → related w w' → first w') (within : p.Within related first)
    (rest : ∀ w r, (f w r).Within related (related w)) : (p.bind f).Within related first := by
  induction p generalizing first with
  | done w r => exact (rest w r).mono fun w' => follows within
  | ask w q k ih => exact ⟨within.1, fun w a => ih w a trans (within.2 w a)⟩
  | wait w op k ih => exact ⟨within.1, fun w r => ih w r trans (within.2 w r)⟩
  | block w m q k ih => exact ⟨within.1, fun w r => ih w r trans (within.2 w r)⟩

end

/-- From a state of the scheduler on, a process only uses operations of tasks. -/
abbrev Sound (s : Scheduler V E B) (p : Proc S V E B A R) : Prop :=
  p.Within (fun w w' => w.sched.Steps w'.sched) fun w => s.Steps w.sched

end Proc

/-- Work on a world that may suspend. -/
structure Act (S V E B A R : Type) where
  run : World S V E B → Proc S V E B A R
  sound : ∀ w, (run w).Sound w.sched

namespace Act

variable {S V E B A R R' : Type}

/-- No work. -/
@[inline] def pure (r : R) : Act S V E B A R where
  run w := .done w r
  sound w := .refl w.sched

/-- One piece of work after another. -/
@[inline] def bind (x : Act S V E B A R) (f : R → Act S V E B A R') : Act S V E B A R' where
  run w := match x.run w with
    | .done w r => (f r).run w
    | p => p.bind fun w r => (f r).run w
  sound w := by
    have whole : ((x.run w).bind fun w r => (f r).run w).Sound w.sched :=
      (x.sound w).bind .trans .trans fun w r => (f r).sound w
    revert whole
    cases x.run w <;> exact fun whole => whole

instance : Monad (Act S V E B A) where
  pure := Act.pure
  bind := Act.bind

/-- The answer of an activation. -/
def ask (request : B) : Act S V E B A A where
  run w := .ask w request fun w a => .done w a
  sound w := ⟨.refl w.sched, fun w _ => .refl w.sched⟩

/-- An operation that may suspend.  There is no result if the task was killed. -/
def wait (op : WaitOp V) : Act S V E B A (Option (Woken V)) where
  run w := .wait w op fun w r => .done w r
  sound w := ⟨.refl w.sched, fun w _ => .refl w.sched⟩

def block (lock : ObjectId) (request : B) : Act S V E B A (BlockEnd A) where
  run w := .block w lock request fun w r => .done w r
  sound w := ⟨.refl w.sched, fun w _ => .refl w.sched⟩

/-- Something of the world, which may change; the scheduler only as by operations of tasks. -/
@[inline] def onWorld (f : World S V E B → R × World S V E B)
    (lawful : ∀ w : World S V E B, w.sched.Steps (f w).2.sched) : Act S V E B A R where
  run w :=
    let (r, w) := f w
    .done w r
  sound := lawful

/-- An operation of the scheduler that is over at once. -/
@[inline] def onSched (op : TaskOp V E B R) : Act S V E B A R :=
  onWorld (fun ⟨sched, own⟩ =>
    let (r, sched) := op.run sched
    (r, ⟨sched, own⟩)) fun w => .single op w.sched

/-- Something of what the tasks work on, which may change. -/
@[inline] def onOwn (f : S → R × S) : Act S V E B A R :=
  onWorld (fun ⟨sched, own⟩ =>
    let (r, own) := f own
    (r, ⟨sched, own⟩)) fun w => .refl w.sched

end Act

/-- How an activation ends. -/
inductive Turn (B A : Type) where
  | answer (a : A)
  | become (request : B)

/-- No turn of a task has as many activations and waits. -/
def activationLimit : Nat := Nat.pow 2 60

/-- What the machine has to know about activations. -/
structure Host (S V E B A : Type) where
  /-- An activation begins. -/
  start : B → Act S V E B A (Turn B A)
  /-- How a task ends whose body gave an answer. -/
  conclude : TaskId → A → Option V × Option (TaskFault E)
  /-- What is said about an error. -/
  errorText : S → E → Bytes
  /-- How many activations and waits one turn of a task may have. -/
  activations : Nat := activationLimit

/-- An activation that waits for an answer, and the lock under which the answer is worked out. -/
structure Waiting (S V E B A : Type) where
  guard : Option ObjectId := none
  resume : World S V E B → A → Proc S V E B A (Turn B A)

inductive Suspended (S V E B A : Type) where
  | wait (op : WaitOp V) (k : World S V E B → Option (Woken V) → Proc S V E B A (Turn B A))
  | enter (lock : ObjectId) (request : B) (k : World S V E B → BlockEnd A → Proc S V E B A (Turn B A))

/-- A suspended task: what it was about to do, on top of the activations that wait for answers. -/
structure Thread (S V E B A : Type) where
  suspended : Suspended S V E B A
  stack : List (Waiting S V E B A)

inductive TurnEnd (S V E B A : Type) where
  | ended (w : World S V E B) (a : A)
  | parked (w : World S V E B) (t : Thread S V E B A)
  /-- The bound on activations is reached. -/
  | exhausted (w : World S V E B)

inductive ThreadStep (S V E B A : Type) where
  | stop (e : TurnEnd S V E B A)
  | go (p : Proc S V E B A (Turn B A)) (stack : List (Waiting S V E B A))

def TurnEnd.world {S V E B A : Type} : TurnEnd S V E B A → World S V E B
  | .ended w _ | .parked w _ | .exhausted w => w

def World.onSched {S V E B : Type} (w : World S V E B) (f : Scheduler V E B → Scheduler V E B) : World S V E B :=
  match w with
  | ⟨sched, own⟩ => ⟨f sched, own⟩

def Scheduler.notePark {V E B : Type} (s : Scheduler V E B) : Scheduler V E B :=
  let reason := match s.current.bind s.task? with
    | some t => t.reason.name
    | none => ""
  s.noteTask "task.park" (s.current.getD 0) (utf8 reason)

namespace Waiting

variable {S V E B A : Type}

/-- The answer has come, and the lock is given back if there is one. -/
def answer (f : Waiting S V E B A) (w : World S V E B) (a : A) : Proc S V E B A (Turn B A) :=
  match f.guard with
  | none => f.resume w a
  | some lock => f.resume (w.onSched (·.leaveBlock lock)) a

end Waiting

namespace Host

variable {S V E B A : Type}

/-- The current task, which has the lock, enters a block. -/
def enter (host : Host S V E B A) (w : World S V E B) (lock : ObjectId) (request : B)
    (k : World S V E B → BlockEnd A → Proc S V E B A (Turn B A)) (stack : List (Waiting S V E B A)) :
    Proc S V E B A (Turn B A) × List (Waiting S V E B A) :=
  ((host.start request).run (w.onSched (·.enterBlock lock)),
    { guard := some lock, resume := fun w a => k w (.left a) } :: stack)

/-- A suspended task goes on; if it was killed meanwhile, with nothing. -/
def goOn (host : Host S V E B A) (w : World S V E B) (t : Thread S V E B A) :
    Proc S V E B A (Turn B A) × List (Waiting S V E B A) :=
  match t.suspended with
  | .wait op k =>
    if w.sched.currentKilled then (k w none, t.stack)
    else
      match w with
      | ⟨sched, own⟩ =>
        let (r, sched) := op.finish sched
        (k ⟨sched, own⟩ (some r), t.stack)
  | .enter lock request k =>
    if w.sched.currentKilled then (k w .killed, t.stack) else host.enter w lock request k t.stack

/-- One step of a thread.  A killed task that should wait does not even leave. -/
def step (host : Host S V E B A) (p : Proc S V E B A (Turn B A)) (stack : List (Waiting S V E B A)) :
    ThreadStep S V E B A :=
  match p with
  | .done w (.answer a) =>
    match stack with
    | [] => .stop (.ended w a)
    | f :: rest => .go (f.answer w a) rest
  | .done w (.become request) => .go ((host.start request).run w) stack
  | .ask w request k => .go ((host.start request).run w) ({ resume := k } :: stack)
  | .wait ⟨sched, own⟩ op k =>
    match op.start sched with
    | (.done r, sched) => .go (k ⟨sched, own⟩ (some r)) stack
    | (.parked, sched) =>
      if sched.currentKilled then .go (k ⟨sched, own⟩ none) stack
      else .stop (.parked ⟨sched.notePark, own⟩ { suspended := .wait op k, stack })
  | .block ⟨sched, own⟩ lock request k =>
    match sched.takeLock lock with
    | (.done (some f), sched) => .go (k ⟨sched, own⟩ (.refused f)) stack
    | (.done none, sched) =>
      let (p, stack) := host.enter ⟨sched, own⟩ lock request k stack
      .go p stack
    | (.parked, sched) =>
      if sched.currentKilled then .go (k ⟨sched, own⟩ .killed) stack
      else .stop (.parked ⟨sched.notePark, own⟩ { suspended := .enter lock request k, stack })

/-- A thread runs until it ends or parks. -/
def runThread (host : Host S V E B A) :
    Nat → Proc S V E B A (Turn B A) → List (Waiting S V E B A) → TurnEnd S V E B A
  | 0, p, _ => .exhausted p.world
  | fuel + 1, p, stack =>
    match host.step p stack with
    | .stop e => e
    | .go p stack => host.runThread fuel p stack

end Host

/-- A world with its suspended tasks. -/
structure Machine (S V E B A : Type) where
  world : World S V E B
  threads : List (TaskId × Thread S V E B A) := []

/-- A machine between two turns, or in the turn of a task that runs a process on a stack. -/
inductive Stage (S V E B A : Type) where
  | between (m : Machine S V E B A)
  | running (threads : List (TaskId × Thread S V E B A)) (me : TaskId) (p : Proc S V E B A (Turn B A))
    (stack : List (Waiting S V E B A))

inductive RunEnd where
  | finished
  /-- Nothing could run any more, and these tasks were left suspended. -/
  | stalled (tasks : List StalledTask)
  | interrupted
  /-- A bound of the machine is reached. -/
  | exhausted
  deriving DecidableEq, Repr, Inhabited

/-- What comes of one turn of the loop. -/
inductive LoopStep (S V E B A : Type) where
  | over (e : RunEnd) (m : Machine S V E B A)
  | again (m : Machine S V E B A)

namespace Machine

variable {S V E B A : Type}

def onSched (m : Machine S V E B A) (f : Scheduler V E B → Scheduler V E B) : Machine S V E B A :=
  { m with world := { m.world with sched := f m.world.sched } }

def afterTurn (host : Host S V E B A) (threads : List (TaskId × Thread S V E B A)) (id : TaskId) :
    TurnEnd S V E B A → Bool × Machine S V E B A
  | .ended w a =>
    let m : Machine S V E B A := { world := w, threads }
    let m := if w.sched.isDone id then m
      else m.onSched fun s =>
        let (result, fault) := host.conclude id a
        s.finish (host.errorText w.own) id result fault
    (true, m.onSched (·.setCurrent none))
  | .parked w t =>
    let m : Machine S V E B A := { world := w, threads := (id, t) :: threads }
    (true, m.onSched (·.setCurrent none))
  | .exhausted w => (false, { world := w, threads })

/-- A task gets its turn: it goes on, or starts with its body. -/
def opening (host : Host S V E B A) (m : Machine S V E B A) (id : TaskId) : Stage S V E B A :=
  let m := m.onSched (·.setCurrent (some id))
  match m.threads.find? (·.1 = id), m.world.sched.task? id with
  | some (_, t), _ =>
    let (p, stack) := host.goOn m.world t
    .running (m.threads.filter (·.1 ≠ id)) id p stack
  | none, some t => .running m.threads id ((host.start t.body).run m.world) []
  | none, none => .between (m.onSched (·.setCurrent none))

/-- A task runs until it ends or parks; the result says that no bound was reached. -/
def resume (host : Host S V E B A) (m : Machine S V E B A) (id : TaskId) : Bool × Machine S V E B A :=
  match m.opening host id with
  | .running threads me p stack => afterTurn host threads me (host.runThread host.activations p stack)
  | .between m => (true, m)

/-- The killed tasks unwind, at most so many. -/
def unwind (host : Host S V E B A) (m : Machine S V E B A) : Nat → Bool × Machine S V E B A
  | 0 => (true, m)
  | n + 1 =>
    match m.world.sched.unwinding with
    | [] => (true, m)
    | id :: rest =>
      match (m.onSched fun s => { s with unwinding := rest }).resume host id with
      | (true, m) => m.unwind host n
      | (false, m) => (false, m)

def unwindAll (host : Host S V E B A) (m : Machine S V E B A) : Bool × Machine S V E B A :=
  m.unwind host (m.world.sched.tasks.size + m.world.sched.unwinding.length)

def killAll (m : Machine S V E B A) (cause : ScheduleFault) : Machine S V E B A :=
  (m.world.sched.tasks.toList.map (·.id)).foldl (fun m id => m.onSched fun s => s.kill id cause) m

/-- All unfinished tasks are killed and unwind, and the run ends, unless a bound is reached. -/
def shutDown (host : Host S V E B A) (m : Machine S V E B A) (cause : ScheduleFault) (e : RunEnd) : LoopStep S V E B A :=
  match (m.killAll cause).unwindAll host with
  | (true, m) => .over e m
  | (false, m) => .over .exhausted m

/-- A ready task gets its turn. -/
def dispatch (host : Host S V E B A) (m : Machine S V E B A) (id : TaskId) : Bool × Machine S V E B A :=
  (m.onSched (·.setRunning id)).resume host id

def turn (host : Host S V E B A) (m : Machine S V E B A) : LoopStep S V E B A :=
  match m.unwindAll host with
  | (false, m) => .over .exhausted m
  | (true, m) =>
    if m.world.sched.interrupted then m.shutDown host .interrupted .interrupted
    else
      let m := m.onSched fun s => s.fireDue s.timers.length
      let (next, sched) := m.world.sched.nextReady
      let m := m.onSched fun _ => sched
      match next with
      | some id =>
        match m.dispatch host id with
        | (true, m) => .again m
        | (false, m) => .over .exhausted m
      | none =>
        match m.world.sched.advance? with
        | some sched => .again (m.onSched fun _ => sched)
        | none =>
          match m.world.sched.stalled with
          | [] => .over .finished m
          | tasks =>
            let m := m.onSched fun s =>
              s.note { scope := .task, name := "sched.stalled", detail := utf8 (stalledText tasks) }
            m.shutDown host .cancelled (.stalled tasks)

/-- The loop of the scheduler, with a bound on its turns. -/
def loop (host : Host S V E B A) : Nat → Machine S V E B A → RunEnd × Machine S V E B A
  | 0, m => (.exhausted, m)
  | fuel + 1, m =>
    match m.turn host with
    | .over e m => (e, m)
    | .again m => loop host fuel m

def turnLimit : Nat := Nat.pow 2 60

def begun (m : Machine S V E B A) : Machine S V E B A :=
  m.onSched fun s => s.note { scope := .task, name := "sched.run" }

/-- The tasks run until nothing is left to do. -/
def run (host : Host S V E B A) (m : Machine S V E B A) : RunEnd × Machine S V E B A :=
  loop host turnLimit m.begun

end Machine

end LedgerScript
