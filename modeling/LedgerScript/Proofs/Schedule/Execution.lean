import LedgerScript.Schedule.Machine
import Mathlib.Logic.Function.Basic
import Mathlib.Logic.Relation

/-!
# Runs, stage by stage

A machine is between two turns, or in the turn of a task.  `Stage.Next` says what can follow: a killed task unwinds, a
ready one gets its turn, timers fire, the process of the task in turn takes a step, or its turn ends.  This is all that
the loop of the scheduler does.

What a process does to the scheduler are operations of tasks.  So a run can be told without its processes, as a sequence
of *scenes*: the scheduler, the task in turn, the blocks that each task is inside, and the block that a suspended task is
about to enter.  `Scene.Step` tells all that can happen.  What every such step preserves holds at every stage of a run.
-/

open Function (update)

namespace LedgerScript

variable {S V E B A : Type}

namespace Stage

def sched : Stage S V E B A → Scheduler V E B
  | between m => m.world.sched
  | running _ _ p _ => p.world.sched

def hand : Stage S V E B A → Option TaskId
  | between _ => none
  | running _ me _ _ => some me

/-- What can follow a stage while time stands still. -/
inductive Acts (host : Host S V E B A) : Stage S V E B A → Stage S V E B A → Prop where
  | unwind {m : Machine S V E B A} {id : TaskId} {rest : List TaskId} (first : m.world.sched.unwinding = id :: rest) :
    Acts host (.between m) ((m.onSched fun s => { s with unwinding := rest }).opening host id)
  | dispatch {m : Machine S V E B A} {id : TaskId} {s : Scheduler V E B} (next : m.world.sched.nextReady = (some id, s)) :
    Acts host (.between m) ((m.onSched fun _ => s.setRunning id).opening host id)
  /-- No task is ready but finished ones. -/
  | idle {m : Machine S V E B A} {s : Scheduler V E B} (none : m.world.sched.nextReady = (none, s)) :
    Acts host (.between m) (.between (m.onSched fun _ => s))
  | fire (m : Machine S V E B A) (n : Nat) : Acts host (.between m) (.between (m.onSched (·.fireDue n)))
  /-- The run is called off, and tasks are killed. -/
  | kill (m : Machine S V E B A) (id : TaskId) (cause : ScheduleFault) :
    Acts host (.between m) (.between (m.onSched (·.kill id cause)))
  | note (m : Machine S V E B A) (e : RunEvent) : Acts host (.between m) (.between (m.onSched (·.note e)))
  | step {threads : List (TaskId × Thread S V E B A)} {me : TaskId} {p p' : Proc S V E B A (Turn B A)}
    {stack stack' : List (Waiting S V E B A)} (goes : host.step p stack = .go p' stack') :
    Acts host (.running threads me p stack) (.running threads me p' stack')
  | stop {threads : List (TaskId × Thread S V E B A)} {me : TaskId} {p : Proc S V E B A (Turn B A)}
    {stack : List (Waiting S V E B A)} {e : TurnEnd S V E B A} (stops : host.step p stack = .stop e) :
    Acts host (.running threads me p stack) (.between (Machine.afterTurn host threads me e).2)

inductive Next (host : Host S V E B A) : Stage S V E B A → Stage S V E B A → Prop where
  | act {stage stage' : Stage S V E B A} (acts : Acts host stage stage') : Next host stage stage'
  | advance {m : Machine S V E B A} {s : Scheduler V E B} (later : m.world.sched.advance? = some s) :
    Next host (.between m) (.between (m.onSched fun _ => s))

/-- What the loop lets follow a stage: time passes only while no task is ready. -/
inductive Goes (host : Host S V E B A) : Stage S V E B A → Stage S V E B A → Prop where
  | act {stage stage' : Stage S V E B A} (acts : Acts host stage stage') : Goes host stage stage'
  | advance {m : Machine S V E B A} {s : Scheduler V E B} (idle : m.world.sched.ready = [])
    (later : m.world.sched.advance? = some s) : Goes host (.between m) (.between (m.onSched fun _ => s))

theorem Goes.next {host : Host S V E B A} {stage stage' : Stage S V E B A} (goes : Goes host stage stage') :
    Next host stage stage' := by
  cases goes with
  | act acts => exact .act acts
  | advance idle later => exact .advance later

abbrev Reaches (host : Host S V E B A) : Stage S V E B A → Stage S V E B A → Prop :=
  Relation.ReflTransGen (Next host)

/-- One stage after another while time stands still. -/
abbrev Stays (host : Host S V E B A) : Stage S V E B A → Stage S V E B A → Prop :=
  Relation.ReflTransGen (Acts host)

/-- One stage after another as the loop lets them follow. -/
abbrev Course (host : Host S V E B A) : Stage S V E B A → Stage S V E B A → Prop :=
  Relation.ReflTransGen (Goes host)

variable {host : Host S V E B A} {stage stage' : Stage S V E B A}

theorem course_of_stays (stays : Stays host stage stage') : Course host stage stage' :=
  Relation.ReflTransGen.mono (fun _ _ => .act) _ _ stays

theorem reaches_of_course (course : Course host stage stage') : Reaches host stage stage' :=
  Relation.ReflTransGen.mono (fun _ _ => Goes.next) _ _ course

end Stage

/-! ## The loop goes from stage to stage -/

namespace Machine

open Stage

variable {host : Host S V E B A} {m m' : Machine S V E B A} {threads : List (TaskId × Thread S V E B A)}
  {me id : TaskId}
variable (n : Nat)

theorem stays_runThread (fuel : Nat) (p : Proc S V E B A (Turn B A)) (stack : List (Waiting S V E B A))
    (ended : afterTurn host threads me (host.runThread fuel p stack) = (true, m')) :
    Stays host (.running threads me p stack) (.between m') := by
  induction fuel generalizing p stack with
  | zero => exact absurd (congrArg Prod.fst ended) (Bool.false_ne_true)
  | succ fuel ih =>
    unfold Host.runThread at ended
    split at ended
    · rename_i e stops
      have last : (afterTurn host threads me e).2 = m' := by rw [ended]
      exact last ▸ .single (.stop stops)
    · rename_i p' stack' goes
      exact .head (.step goes) (ih p' stack' ended)

theorem stays_resume (ended : m.resume host id = (true, m')) : Stays host (m.opening host id) (.between m') := by
  unfold resume at ended
  split at ended
  · rename_i threads me p stack opened
    rw [opened]
    exact stays_runThread host.activations p stack ended
  · rename_i m'' opened
    cases ended
    rw [opened]

theorem stays_unwind (m : Machine S V E B A) (ended : m.unwind host n = (true, m')) :
    Stays host (.between m) (.between m') := by
  induction n generalizing m with
  | zero =>
    cases ended
    exact .refl
  | succ n ih =>
    unfold unwind at ended
    split at ended
    · cases ended
      exact .refl
    · rename_i id rest first
      split at ended
      · rename_i m₁ resumed
        exact .head (.unwind first) ((stays_resume resumed).trans (ih m₁ ended))
      · cases ended

def fired (m : Machine S V E B A) : Machine S V E B A :=
  m.onSched fun s => s.fireDue s.timers.length

/-- It is noted that nothing can run any more. -/
def noteStalled (m : Machine S V E B A) (tasks : List StalledTask) : Machine S V E B A :=
  m.onSched fun s => s.note { scope := .task, name := "sched.stalled", detail := utf8 (stalledText tasks) }

/-- What a turn of the loop may come to. -/
inductive Round (host : Host S V E B A) (m : Machine S V E B A) : LoopStep S V E B A → Prop where
  | exhausted (m' : Machine S V E B A) : Round host m (.over .exhausted m')
  | interrupted {m₁ : Machine S V E B A} (unwound : m.unwindAll host = (true, m₁))
    (off : m₁.world.sched.interrupted = true) : Round host m (m₁.shutDown host .interrupted .interrupted)
  | dispatch {m₁ m' : Machine S V E B A} {s : Scheduler V E B} {id : TaskId} (unwound : m.unwindAll host = (true, m₁))
    (next : m₁.fired.world.sched.nextReady = (some id, s))
    (resumed : (m₁.fired.onSched fun _ => s).dispatch host id = (true, m')) : Round host m (.again m')
  | advance {m₁ : Machine S V E B A} {s s' : Scheduler V E B} (unwound : m.unwindAll host = (true, m₁))
    (nobody : m₁.fired.world.sched.nextReady = (none, s)) (later : s.advance? = some s') :
    Round host m (.again (m₁.fired.onSched fun _ => s'))
  | finished {m₁ : Machine S V E B A} {s : Scheduler V E B} (unwound : m.unwindAll host = (true, m₁))
    (nobody : m₁.fired.world.sched.nextReady = (none, s)) (never : s.advance? = none) (all : s.stalled = []) :
    Round host m (.over .finished (m₁.fired.onSched fun _ => s))
  | stalled {m₁ : Machine S V E B A} {s : Scheduler V E B} (unwound : m.unwindAll host = (true, m₁))
    (nobody : m₁.fired.world.sched.nextReady = (none, s)) (never : s.advance? = none) (left : s.stalled ≠ []) :
    Round host m (((m₁.fired.onSched fun _ => s).noteStalled s.stalled).shutDown host .cancelled (.stalled s.stalled))

theorem round (host : Host S V E B A) (m : Machine S V E B A) : m.Round host (m.turn host) := by
  unfold turn
  split
  · exact .exhausted _
  · rename_i m₁ unwound
    split
    · rename_i off
      exact .interrupted unwound off
    · dsimp only
      rw [show m₁.onSched (fun s => s.fireDue s.timers.length) = m₁.fired from rfl]
      generalize picked : m₁.fired.world.sched.nextReady = next
      obtain ⟨next, s⟩ := next
      cases next with
      | some id =>
        dsimp only
        split
        · rename_i m' resumed
          exact .dispatch unwound picked resumed
        · exact .exhausted _
      | none =>
        dsimp only
        split
        · rename_i s' later
          show m.Round host (.again (m₁.fired.onSched fun _ => s'))
          exact .advance unwound picked later
        · rename_i never
          split
          · rename_i all
            exact .finished unwound picked never all
          · rename_i left
            exact .stalled unwound picked never left

theorem shutDown_ne_again (m m' : Machine S V E B A) (cause : ScheduleFault) (e : RunEnd) :
    m.shutDown host cause e ≠ .again m' := by
  unfold shutDown
  split <;> nofun

theorem ready_of_pickReady {s s' : Scheduler V E B} (enough : s.ready.length ≤ n)
    (nobody : s.pickReady n = (none, s')) : s'.ready = [] := by
  induction n generalizing s with
  | zero =>
    cases nobody
    exact List.eq_nil_of_length_eq_zero (Nat.le_zero.mp enough)
  | succ n ih =>
    unfold Scheduler.pickReady at nobody
    dsimp only at nobody
    split at nobody
    · rename_i missing
      cases nobody
      rw [List.getElem?_eq_none_iff] at missing
      by_contra waiting
      exact absurd missing (Nat.not_le.mpr (Nat.mod_lt _ (List.length_pos_iff.mpr waiting)))
    · rename_i id here
      obtain ⟨inside, -⟩ := List.getElem?_eq_some_iff.mp here
      split at nobody
      · refine ih ?_ nobody
        rw [List.length_eraseIdx_of_lt inside]
        omega
      · cases nobody

theorem ready_of_nextReady {s s' : Scheduler V E B} (nobody : s.nextReady = (none, s')) : s'.ready = [] :=
  ready_of_pickReady _ (Nat.le_refl _) nobody

theorem stays_fired (unwound : m.unwindAll host = (true, m')) : Stays host (.between m) (.between m'.fired) :=
  (stays_unwind _ m unwound).tail (.fire m' m'.world.sched.timers.length)

/-- A turn of the loop is made of steps. -/
theorem course_turn (again : m.turn host = .again m') : Course host (.between m) (.between m') := by
  have round := m.round host
  rw [again] at round
  generalize turned : LoopStep.again m' = r at round
  cases round with
  | exhausted | finished => cases turned
  | interrupted | stalled => exact (shutDown_ne_again _ _ _ _ turned.symm).elim
  | dispatch unwound next resumed =>
    cases turned
    exact course_of_stays ((stays_fired unwound).trans (.head (.dispatch next) (stays_resume resumed)))
  | advance unwound nobody later =>
    cases turned
    have idle := ready_of_nextReady nobody
    exact (course_of_stays ((stays_fired unwound).tail (.idle nobody))).tail (.advance idle later)

theorem reaches_turn (again : m.turn host = .again m') : Reaches host (.between m) (.between m') :=
  reaches_of_course (course_turn again)

/-- The loop takes turns. -/
abbrev Turns (host : Host S V E B A) : Machine S V E B A → Machine S V E B A → Prop :=
  Relation.ReflTransGen fun m m' => m.turn host = .again m'

/-- The machine after so many turns, if none of them is the last one. -/
def after (host : Host S V E B A) : Nat → Machine S V E B A → Option (Machine S V E B A)
  | 0, m => some m
  | n + 1, m =>
    match m.turn host with
    | .again m => m.after host n
    | .over _ _ => none

theorem turns_of_after (m : Machine S V E B A) (later : m.after host n = some m') : m.Turns host m' := by
  induction n generalizing m with
  | zero =>
    cases later
    exact .refl
  | succ n ih =>
    unfold after at later
    split at later
    · rename_i m₁ again
      exact .head again (ih m₁ later)
    · cases later

theorem Turns.course (turns : Turns host m m') : Course host (.between m) (.between m') := by
  induction turns with
  | refl => exact .refl
  | tail _ again ih => exact ih.trans (course_turn again)

/-- Every turn of the loop begins at a stage that is reached by steps. -/
theorem Turns.reaches (turns : Turns host m m') : Reaches host (.between m) (.between m') :=
  reaches_of_course turns.course

end Machine

/-! ## Scenes -/

/-- What can happen between two turns. -/
inductive Scheduler.Interlude (s : Scheduler V E B) : Scheduler V E B → Prop where
  | idle {s' : Scheduler V E B} (nobody : s.nextReady = (none, s')) : Interlude s s'
  | fire (n : Nat) : Interlude s (s.fireDue n)
  | advance {s' : Scheduler V E B} (later : s.advance? = some s') : Interlude s s'
  | kill (id : TaskId) (cause : ScheduleFault) : Interlude s (s.kill id cause)
  | note (e : RunEvent) : Interlude s (s.note e)

/-- What the task in turn can do without losing its turn, and without a block. -/
inductive Scheduler.Work (s : Scheduler V E B) : Scheduler V E B → Prop where
  | operate {s' : Scheduler V E B} (steps : s.Steps s') : Work s s'
  /-- An operation that may suspend is done at once. -/
  | attempt {s' : Scheduler V E B} {op : WaitOp V} {r : Woken V} (done : op.start s = (.done r, s')) : Work s s'
  /-- A killed task does not leave. -/
  | stay {s' : Scheduler V E B} {op : WaitOp V} (parked : op.start s = (.parked, s'))
    (killed : s'.currentKilled = true) : Work s s'
  /-- A task has waited, and goes on. -/
  | awake (op : WaitOp V) : Work s (op.finish s).2
  /-- There is no lock to be had for a block. -/
  | refuse {s' : Scheduler V E B} {m : ObjectId} {f : ScheduleFault} (refused : s.takeLock m = (.done (some f), s')) :
    Work s s'
  /-- A killed task does not wait for a lock either. -/
  | deny {s' : Scheduler V E B} {m : ObjectId} (parked : s.takeLock m = (.parked, s'))
    (killed : s'.currentKilled = true) : Work s s'

/-- A run without its processes. -/
structure Scene (V E B : Type) where
  sched : Scheduler V E B
  hand : Option TaskId
  /-- The locks whose blocks a task is inside, the innermost first. -/
  guards : TaskId → List ObjectId
  /-- The lock of the block that a suspended task is about to enter. -/
  entering : TaskId → Option ObjectId

namespace Scene

/-- All that can happen. -/
inductive Step (x : Scene V E B) : Scene V E B → Prop where
  | between {s : Scheduler V E B} (free : x.hand = none) (interlude : x.sched.Interlude s) : Step x { x with sched := s }
  /-- A killed task is taken in hand. -/
  | unwind {me : TaskId} {rest : List TaskId} (free : x.hand = none) (first : x.sched.unwinding = me :: rest) :
    Step x { x with sched := { x.sched with unwinding := rest }.setCurrent (some me), hand := some me }
  | dispatch {me : TaskId} {s : Scheduler V E B} (free : x.hand = none) (next : x.sched.nextReady = (some me, s)) :
    Step x { x with sched := (s.setRunning me).setCurrent (some me), hand := some me }
  | work {me : TaskId} {s : Scheduler V E B} (turn : x.hand = some me) (calm : x.entering me = none)
    (work : x.sched.Work s) : Step x { x with sched := s }
  | park {me : TaskId} {s : Scheduler V E B} {op : WaitOp V} (turn : x.hand = some me) (calm : x.entering me = none)
    (parked : op.start x.sched = (.parked, s)) (alive : s.currentKilled = false) :
    Step x { x with sched := s.notePark.setCurrent none, hand := none }
  | enter {me : TaskId} {s : Scheduler V E B} {m : ObjectId} (turn : x.hand = some me) (calm : x.entering me = none)
    (taken : x.sched.takeLock m = (.done none, s)) :
    Step x { x with sched := s.enterBlock m, guards := update x.guards me (m :: x.guards me) }
  /-- The task in turn has to wait for the lock of a block. -/
  | queue {me : TaskId} {s : Scheduler V E B} {m : ObjectId} (turn : x.hand = some me) (calm : x.entering me = none)
    (parked : x.sched.takeLock m = (.parked, s)) (alive : s.currentKilled = false) :
    Step x { x with
      sched := s.notePark.setCurrent none, hand := none, entering := update x.entering me (some m) }
  /-- A task that has waited for a lock enters its block. -/
  | enterAfter {me : TaskId} {m : ObjectId} (turn : x.hand = some me) (waited : x.entering me = some m)
    (alive : x.sched.currentKilled = false) :
    Step x { x with
      sched := x.sched.enterBlock m, guards := update x.guards me (m :: x.guards me)
      entering := update x.entering me none }
  /-- A task that has waited for a lock does not enter its block. -/
  | giveUp {me : TaskId} (turn : x.hand = some me) : Step x { x with entering := update x.entering me none }
  /-- The task in turn leaves a block. -/
  | leave {me : TaskId} {m : ObjectId} {ms : List ObjectId} (turn : x.hand = some me) (calm : x.entering me = none)
    (inside : x.guards me = m :: ms) :
    Step x { x with sched := x.sched.leaveBlock m, guards := update x.guards me ms }
  | rest {me : TaskId} (turn : x.hand = some me) (done : x.sched.isDone me = true) :
    Step x { x with sched := x.sched.setCurrent none, hand := none }
  | finish {me : TaskId} (turn : x.hand = some me) (errorText : E → Bytes) (result : Option V)
    (fault : Option (TaskFault E)) :
    Step x { x with sched := (x.sched.finish errorText me result fault).setCurrent none, hand := none }

abbrev Steps : Scene V E B → Scene V E B → Prop :=
  Relation.ReflTransGen Step

end Scene

/-! ## What is left to do -/

section

variable (related : World S V E B → World S V E B → Prop)

/-- Once it has its answer, an activation leads from one world to a related one. -/
def Waiting.Within (f : Waiting S V E B A) : Prop :=
  ∀ w a, (f.resume w a).Within related (related w)

/-- Once it goes on, a suspended task leads from one world to a related one. -/
def Suspended.Within : Suspended S V E B A → Prop
  | .wait _ k => ∀ w r, (k w r).Within related (related w)
  | .enter _ _ k => ∀ w r, (k w r).Within related (related w)

/-- All of a thread leads from one world to a related one. -/
structure Thread.Within (t : Thread S V E B A) : Prop where
  suspended : t.suspended.Within related
  stack : ∀ f ∈ t.stack, f.Within related

end

/-- An activation only uses operations of tasks. -/
abbrev Waiting.Sound (f : Waiting S V E B A) : Prop :=
  f.Within fun w w' => w.sched.Steps w'.sched

/-- A thread only uses operations of tasks. -/
abbrev Thread.Sound (t : Thread S V E B A) : Prop :=
  t.Within fun w w' => w.sched.Steps w'.sched

/-- The locks whose blocks are on a stack, the innermost first. -/
def stackGuards (stack : List (Waiting S V E B A)) : List ObjectId :=
  stack.filterMap (·.guard)

/-- The lock of the block that a suspended task is about to enter. -/
def Thread.entering (t : Thread S V E B A) : Option ObjectId :=
  match t.suspended with
  | .wait _ _ => none
  | .enter lock _ _ => some lock

def threadRead {α : Type} (read : Thread S V E B A → α) (missing : α) (threads : List (TaskId × Thread S V E B A))
    (t : TaskId) : α :=
  ((threads.find? (·.1 = t)).map fun x => read x.2).getD missing

/-- The locks whose blocks the task of a thread is inside. -/
abbrev threadGuards : List (TaskId × Thread S V E B A) → TaskId → List ObjectId :=
  threadRead (fun t => stackGuards t.stack) []

/-- The lock of the block that the task of a thread is about to enter. -/
abbrev threadEntering : List (TaskId × Thread S V E B A) → TaskId → Option ObjectId :=
  threadRead Thread.entering none

namespace Stage

/-- What is left to do only uses operations of tasks, and the task in turn has no thread. -/
def Sound : Stage S V E B A → Prop
  | between m => ∀ x ∈ m.threads, x.2.Sound
  | running threads me p stack =>
    (∀ x ∈ threads, x.2.Sound) ∧ threads.find? (·.1 = me) = none ∧ p.Sound p.world.sched ∧ ∀ f ∈ stack, f.Sound

def turnScene (threads : List (TaskId × Thread S V E B A)) (me : TaskId) (stack : List (Waiting S V E B A))
    (s : Scheduler V E B) : Scene V E B where
  sched := s
  hand := some me
  guards := update (threadGuards threads) me (stackGuards stack)
  entering := update (threadEntering threads) me none

def scene : Stage S V E B A → Scene V E B
  | between m => ⟨m.world.sched, none, threadGuards m.threads, threadEntering m.threads⟩
  | running threads me p stack => turnScene threads me stack p.world.sched

end Stage

/-! ## Runs are sequences of scenes -/

open Stage (turnScene)
variable {host : Host S V E B A} {threads : List (TaskId × Thread S V E B A)} {me : TaskId} {s s' : Scheduler V E B}
  {p p' : Proc S V E B A (Turn B A)} {stack stack' : List (Waiting S V E B A)}

/-- What a process has done already does not matter for what is left to do. -/
theorem Proc.Within.here {related : World S V E B → World S V E B → Prop} {first : World S V E B → Prop}
    (refl : ∀ w, related w w) (within : p.Within related first) : p.Within related (related p.world) := by
  cases p with
  | done w r => exact refl w
  | ask w q k => exact ⟨refl w, within.2⟩
  | wait w op k => exact ⟨refl w, within.2⟩
  | block w m q k => exact ⟨refl w, within.2⟩

structure GoesOn (threads : List (TaskId × Thread S V E B A)) (me : TaskId) (x : Scene V E B)
    (p : Proc S V E B A (Turn B A)) (stack : List (Waiting S V E B A)) : Prop where
  scenes : x.Steps (turnScene threads me stack p.world.sched)
  process : p.Sound p.world.sched
  frames : ∀ f ∈ stack, f.Sound

/-- The scene after the turn of a task that has to wait. -/
def leftScene (threads : List (TaskId × Thread S V E B A)) (me : TaskId) (t : Thread S V E B A)
    (s : Scheduler V E B) : Scene V E B where
  sched := s.setCurrent none
  hand := none
  guards := update (threadGuards threads) me (stackGuards t.stack)
  entering := update (threadEntering threads) me t.entering

def ThreadStep.Follows (threads : List (TaskId × Thread S V E B A)) (me : TaskId) (x : Scene V E B) :
    ThreadStep S V E B A → Prop
  | .go p stack => GoesOn threads me x p stack
  | .stop (.ended w _) => x.Steps (turnScene threads me [] w.sched)
  | .stop (.parked w t) => x.Steps (leftScene threads me t w.sched) ∧ t.Sound
  | .stop (.exhausted _) => False

theorem calm_turnScene : (turnScene threads me stack s).entering me = none :=
  Function.update_self ..

/-- What a process does are operations of tasks. -/
theorem goesOn {x : Scene V E B} (scenes : x.Steps (turnScene threads me stack s)) (process : p.Sound s)
    (frames : ∀ f ∈ stack, f.Sound) : GoesOn threads me x p stack := by
  have work : (turnScene threads me stack s).sched.Work p.world.sched := .operate process.world
  exact ⟨scenes.tail (.work rfl calm_turnScene work), process.here fun w => .refl w.sched, frames⟩

theorem goesOn_work (work : s.Work s') (process : p.Sound s') (frames : ∀ f ∈ stack, f.Sound) :
    GoesOn threads me (turnScene threads me stack s) p stack := by
  have step : (turnScene threads me stack s).sched.Work s' := work
  exact goesOn (.single (.work rfl calm_turnScene step)) process frames

/-- The task in turn is inside one more block. -/
theorem turnScene_enter {f : Waiting S V E B A} {m : ObjectId} (guard : f.guard = some m) :
    turnScene threads me (f :: stack) s =
      { turnScene threads me stack s with
        guards := update (turnScene threads me stack s).guards me (m :: (turnScene threads me stack s).guards me) } := by
  simp [turnScene, stackGuards, guard]

theorem goesOn_enter {x : Scene V E B} {lock : ObjectId} (request : B) (own : S)
    {k : World S V E B → BlockEnd A → Proc S V E B A (Turn B A)} (sound : ∀ w r, (k w r).Sound w.sched)
    (frames : ∀ f ∈ stack, f.Sound)
    (scenes : x.Steps { turnScene threads me stack (s.enterBlock lock) with
      guards := update (turnScene threads me stack s).guards me (lock :: (turnScene threads me stack s).guards me) }) :
    GoesOn threads me x (host.enter ⟨s, own⟩ lock request k stack).1 (host.enter ⟨s, own⟩ lock request k stack).2 := by
  refine goesOn ?_ ((host.start request).sound ⟨s.enterBlock lock, own⟩) ?_
  · unfold Host.enter
    rw [turnScene_enter rfl]
    exact scenes
  · exact List.forall_mem_cons.mpr ⟨fun w a => sound w (.left a), frames⟩

/-- An activation gets its answer, and the block that it asked for is left. -/
theorem goesOn_answer {f : Waiting S V E B A} (frames : ∀ g ∈ f :: stack, g.Sound) (own : S) (a : A) :
    GoesOn threads me (turnScene threads me (f :: stack) s) (f.answer ⟨s, own⟩ a) stack := by
  obtain ⟨sound, rest⟩ := List.forall_mem_cons.mp frames
  unfold Waiting.answer
  split
  · rename_i none
    have same : turnScene threads me (f :: stack) s = turnScene threads me stack s := by
      simp [turnScene, stackGuards, none]
    rw [same]
    exact goesOn .refl (sound ⟨s, own⟩ a) rest
  · rename_i lock guard
    refine goesOn (.single ?_) (sound ⟨s.leaveBlock lock, own⟩ a) rest
    have inside : (turnScene threads me (f :: stack) s).guards me = lock :: stackGuards stack := by
      simp [turnScene, stackGuards, guard]
    have left := Scene.Step.leave rfl calm_turnScene inside
    simpa [turnScene] using left

/-- The task in turn has to wait, unless it has been killed. -/
theorem follows_park {op : WaitOp V} (parked : op.start s = (.parked, s')) (own : S)
    {k : World S V E B → Option (Woken V) → Proc S V E B A (Turn B A)} (sound : ∀ w r, (k w r).Sound w.sched)
    (frames : ∀ f ∈ stack, f.Sound) :
    ThreadStep.Follows threads me (turnScene threads me stack s)
      (if s'.currentKilled then .go (k ⟨s', own⟩ none) stack
        else .stop (.parked ⟨s'.notePark, own⟩ { suspended := .wait op k, stack })) := by
  split
  · rename_i killed
    exact goesOn_work (.stay parked killed) (sound ⟨s', own⟩ none) frames
  · rename_i alive
    rw [Bool.not_eq_true] at alive
    exact ⟨.single (.park rfl calm_turnScene parked alive), sound, frames⟩

/-- The task in turn has to wait for the lock of a block, unless it has been killed. -/
theorem follows_queue {lock : ObjectId} (parked : s.takeLock lock = (.parked, s')) (own : S) (request : B)
    {k : World S V E B → BlockEnd A → Proc S V E B A (Turn B A)} (sound : ∀ w r, (k w r).Sound w.sched)
    (frames : ∀ f ∈ stack, f.Sound) :
    ThreadStep.Follows threads me (turnScene threads me stack s)
      (if s'.currentKilled then .go (k ⟨s', own⟩ .killed) stack
        else .stop (.parked ⟨s'.notePark, own⟩ { suspended := .enter lock request k, stack })) := by
  split
  · rename_i killed
    exact goesOn_work (.deny parked killed) (sound ⟨s', own⟩ .killed) frames
  · rename_i alive
    rw [Bool.not_eq_true] at alive
    refine ⟨.single ?_, sound, frames⟩
    have left := Scene.Step.queue (x := turnScene threads me stack s) rfl calm_turnScene parked alive
    simpa [turnScene, leftScene, Thread.entering] using left

theorem follows_step (host : Host S V E B A) (threads : List (TaskId × Thread S V E B A)) (me : TaskId)
    (process : p.Sound p.world.sched) (frames : ∀ f ∈ stack, f.Sound) :
    (host.step p stack).Follows threads me (turnScene threads me stack p.world.sched) := by
  cases p with
  | done w r =>
    cases r with
    | answer a =>
      cases stack with
      | nil => exact .refl
      | cons f rest => exact goesOn_answer frames w.own a
    | become request => exact goesOn .refl ((host.start request).sound w) frames
  | ask w request k =>
    refine goesOn .refl ((host.start request).sound w) (List.forall_mem_cons.mpr ⟨process.2, frames⟩)
  | wait w op k =>
    obtain ⟨s, own⟩ := w
    unfold Host.step
    dsimp only
    split
    · rename_i r s' done
      exact goesOn_work (.attempt done) (process.2 ⟨s', own⟩ (some r)) frames
    · rename_i s' parked
      exact follows_park parked own process.2 frames
  | block w lock request k =>
    obtain ⟨s, own⟩ := w
    unfold Host.step
    dsimp only
    split
    · rename_i f s' refused
      exact goesOn_work (.refuse refused) (process.2 ⟨s', own⟩ (.refused f)) frames
    · rename_i s' taken
      exact goesOn_enter request own process.2 frames (.single (.enter rfl calm_turnScene taken))
    · rename_i s' parked
      exact follows_queue parked own request process.2 frames

/-! ## Threads -/

section

variable {α : Type} (read : Thread S V E B A → α) (missing : α)

theorem threadRead_cons (threads : List (TaskId × Thread S V E B A)) (me : TaskId) (t : Thread S V E B A) :
    threadRead read missing ((me, t) :: threads) = update (threadRead read missing threads) me (read t) := by
  funext id
  by_cases same : id = me
  · simp [threadRead, same]
  · simp [threadRead, same, Ne.symm same]

theorem find?_filter_thread (threads : List (TaskId × Thread S V E B A)) (me id : TaskId) :
    (threads.filter (·.1 ≠ me)).find? (·.1 = id) = if id = me then none else threads.find? (·.1 = id) := by
  rw [List.find?_filter]
  by_cases same : id = me
  · simp +contextual [same]
  · rw [if_neg same]
    congr 1
    funext x
    by_cases here : x.1 = id <;> simp [here, same]

/-- A thread is taken out, to go on. -/
theorem threadRead_filter {id : TaskId} {t : Thread S V E B A} (found : threads.find? (·.1 = me) = some (id, t)) :
    threadRead read missing threads = update (threadRead read missing (threads.filter (·.1 ≠ me))) me (read t) := by
  funext id
  by_cases same : id = me
  · simp [threadRead, same, found]
  · rw [Function.update_of_ne same, threadRead, threadRead, find?_filter_thread, if_neg same]

theorem threadRead_missing (absent : threads.find? (·.1 = me) = none) : threadRead read missing threads me = missing := by
  simp [threadRead, absent]

theorem threadRead_absent (absent : threads.find? (·.1 = me) = none) :
    update (threadRead read missing threads) me missing = threadRead read missing threads := by
  have same := Function.update_eq_self me (threadRead read missing threads)
  rwa [threadRead_missing read missing absent] at same

end

/-- A task without a thread is inside no block. -/
theorem turnScene_of_find? (absent : threads.find? (·.1 = me) = none) (s : Scheduler V E B) :
    turnScene threads me [] s = ⟨s, some me, threadGuards threads, threadEntering threads⟩ := by
  unfold turnScene
  rw [threadRead_absent _ _ absent]
  congr 1
  exact threadRead_absent _ _ absent

/-- A suspended task that is taken in hand goes on. -/
theorem goesOn_goOn (host : Host S V E B A) {t : Thread S V E B A} (sound : t.Sound) (own : S) :
    GoesOn threads me
      ⟨s, some me, update (threadGuards threads) me (stackGuards t.stack), update (threadEntering threads) me t.entering⟩
      (host.goOn ⟨s, own⟩ t).1 (host.goOn ⟨s, own⟩ t).2 := by
  obtain ⟨suspended, stack⟩ := t
  obtain ⟨sound, frames⟩ := sound
  unfold Host.goOn
  cases suspended with
  | wait op k =>
    dsimp only
    split
    · exact goesOn .refl (sound ⟨s, own⟩ none) frames
    · exact goesOn_work (.awake op) (sound ⟨(op.finish s).2, own⟩ _) frames
  | enter lock request k =>
    dsimp only
    split
    · refine goesOn (.single ?_) (sound ⟨s, own⟩ .killed) frames
      have left := Scene.Step.giveUp (x := ⟨s, some me, update (threadGuards threads) me (stackGuards stack),
        update (threadEntering threads) me (some lock)⟩) rfl
      simpa [turnScene, Thread.entering] using left
    · rename_i alive
      rw [Bool.not_eq_true] at alive
      refine goesOn_enter request own sound frames (.single ?_)
      have entered := Scene.Step.enterAfter (x := ⟨s, some me, update (threadGuards threads) me (stackGuards stack),
        update (threadEntering threads) me (some lock)⟩) (m := lock) rfl (by simp) alive
      simpa [turnScene, Thread.entering] using entered

namespace Stage

variable {stage stage' : Stage S V E B A}

/-- A task gets its turn. -/
theorem scenes_opening (host : Host S V E B A) (m : Machine S V E B A) (sound : ∀ x ∈ m.threads, x.2.Sound) (me : TaskId) :
    (m.opening host me).Sound ∧
      Scene.Steps ⟨m.world.sched.setCurrent (some me), some me, threadGuards m.threads, threadEntering m.threads⟩
        (m.opening host me).scene := by
  unfold Machine.opening
  dsimp only
  split
  · rename_i id t found
    have found : m.threads.find? (·.1 = me) = some (id, t) := found
    have goes : GoesOn (m.threads.filter (·.1 ≠ me)) me ⟨m.world.sched.setCurrent (some me), some me, _, _⟩ _ _ :=
      goesOn_goOn host (sound (id, t) (List.mem_of_find?_eq_some found)) m.world.own
    rw [threadGuards, threadEntering, threadRead_filter _ _ found, threadRead_filter _ _ found]
    refine ⟨⟨fun x mem => sound x (List.mem_filter.mp mem).1, ?_, goes.process, goes.frames⟩, goes.scenes⟩
    rw [find?_filter_thread, if_pos rfl]
  · rename_i k absent known
    have absent : m.threads.find? (·.1 = me) = none := absent
    have process := (host.start k.body).sound ⟨m.world.sched.setCurrent (some me), m.world.own⟩
    have goes : GoesOn m.threads me (turnScene m.threads me [] (m.world.sched.setCurrent (some me))) _ [] :=
      goesOn .refl process nofun
    rw [← turnScene_of_find? absent]
    exact ⟨⟨sound, absent, goes.process, goes.frames⟩, goes.scenes⟩
  · rename_i unknown
    have unknown : m.world.sched.task? me = none := unknown
    refine ⟨sound, .single (.rest rfl ?_)⟩
    simp only [Scheduler.isDone, Scheduler.task?, Scheduler.setCurrent] at unknown ⊢
    rw [unknown]

theorem scenes_afterTurn {e : TurnEnd S V E B A} {x : Scene V E B} (sound : ∀ y ∈ threads, y.2.Sound)
    (absent : threads.find? (·.1 = me) = none) (follows : (ThreadStep.stop e).Follows threads me x) :
    (between (Machine.afterTurn host threads me e).2).Sound ∧
      x.Steps (between (Machine.afterTurn host threads me e).2).scene := by
  cases e with
  | ended w a =>
    have follows : x.Steps (turnScene threads me [] w.sched) := follows
    rw [turnScene_of_find? absent] at follows
    unfold Machine.afterTurn
    dsimp only
    split
    · rename_i done
      exact ⟨sound, follows.tail (.rest rfl done)⟩
    · exact ⟨sound, follows.tail (.finish rfl _ _ _)⟩
  | parked w t =>
    obtain ⟨scenes, thread⟩ := follows
    refine ⟨List.forall_mem_cons.mpr ⟨thread, sound⟩, ?_⟩
    have same : (between (Machine.afterTurn host threads me (.parked w t)).2).scene = leftScene threads me t w.sched := by
      show (⟨_, none, threadGuards ((me, t) :: threads), threadEntering ((me, t) :: threads)⟩ : Scene V E B) = _
      rw [threadGuards, threadEntering, threadRead_cons, threadRead_cons]
      rfl
    rw [same]
    exact scenes
  | exhausted w => exact follows.elim

/-- Every step of a run is a sequence of scenes. -/
theorem Sound.next (sound : stage.Sound) (next : Next host stage stage') :
    stage'.Sound ∧ stage.scene.Steps stage'.scene := by
  cases next with
  | advance later => exact ⟨sound, .single (.between rfl (.advance later))⟩
  | act acts =>
    cases acts with
    | @unwind m id rest first =>
      have opened := scenes_opening host (m.onSched fun s => { s with unwinding := rest }) sound id
      exact ⟨opened.1, .head (.unwind rfl first) opened.2⟩
    | @dispatch m id s picked =>
      have opened := scenes_opening host (m.onSched fun _ => s.setRunning id) sound id
      exact ⟨opened.1, .head (.dispatch rfl picked) opened.2⟩
    | idle picked => exact ⟨sound, .single (.between rfl (.idle picked))⟩
    | fire m n => exact ⟨sound, .single (.between rfl (.fire n))⟩
    | kill m id cause => exact ⟨sound, .single (.between rfl (.kill id cause))⟩
    | note m e => exact ⟨sound, .single (.between rfl (.note e))⟩
    | @step threads me p p' stack stack' goes =>
      obtain ⟨others, absent, process, frames⟩ := sound
      have follows := follows_step host threads me process frames
      rw [goes] at follows
      exact ⟨⟨others, absent, follows.process, follows.frames⟩, follows.scenes⟩
    | @stop threads me p stack e stops =>
      obtain ⟨others, absent, process, frames⟩ := sound
      have follows := follows_step host threads me process frames
      rw [stops] at follows
      exact scenes_afterTurn others absent follows

/-- A run is a sequence of scenes. -/
theorem Sound.reaches (sound : stage.Sound) (reaches : Reaches host stage stage') :
    stage'.Sound ∧ stage.scene.Steps stage'.scene := by
  induction reaches with
  | refl => exact ⟨sound, .refl⟩
  | tail _ next ih =>
    obtain ⟨sound', scenes⟩ := ih.1.next next
    exact ⟨sound', ih.2.trans scenes⟩

end Stage

end LedgerScript
