import LedgerScript.Proofs.Schedule.View
import Mathlib.Logic.Function.Basic

/-!
# The lives of tasks

The *life* of a scheduler is what lasts of its tasks while they wait, become ready and run: whether they have started or
been killed, how they have ended, and why they were suspended last.  It tells the time, too, and the timers, and who still
has to unwind.  What wakes tasks leaves it alone.
-/

open Function (update)

namespace LedgerScript

variable {V E B : Type}

namespace Task

/-- What lasts of a task while it waits and goes on. -/
def lasting (t : Task V E B) : Task V E B :=
  { t with state := if t.isDone then t.state else .ready, received := (none, false), sendRefused := false }

theorem isDone_lasting (t : Task V E B) : t.lasting.isDone = t.isDone := by
  unfold lasting isDone
  cases t.state <;> rfl

theorem lasting_ready {t : Task V E B} (unfinished : ¬ t.isDone) : { t with state := .ready }.lasting = t.lasting := by
  have ready : { t with state := .ready }.isDone = false := rfl
  unfold lasting
  rw [ready, if_neg unfinished]
  rfl

theorem state_lasting {t : Task V E B} (done : t.isDone = true) : t.lasting.state = t.state := by
  unfold lasting
  rw [if_pos done]

def ended (result : Option V) (fault : Option (TaskFault E)) (t : Task V E B) : Task V E B :=
  { t with result, fault, deadline := none, sleep := none, state := if fault.isSome then .failed else .completed }

/-- A task has got its turn. -/
def dispatched (t : Task V E B) : Task V E B :=
  { t with state := .ready, reason := .none, started := true }

theorem isDone_ended (result : Option V) (fault : Option (TaskFault E)) (t : Task V E B) :
    (t.ended result fault).isDone = true := by
  cases fault <;> rfl

theorem lasting_ended (result : Option V) (fault : Option (TaskFault E)) (t : Task V E B) :
    (t.ended result fault).lasting = t.lasting.ended result fault := by
  cases fault <;> rfl

def slain (cause : ScheduleFault) (t : Task V E B) : Task V E B :=
  { t with killed := true }.ended none (some (.schedule cause))

end Task

/-- The lives of tasks, and time. -/
@[ext] structure Life (V E B : Type) where
  now : Nat
  tasks : TaskId → Option (Task V E B)
  size : Nat
  timers : List Timer
  lastTimer : TimerId
  unwinding : List TaskId
  timerUses : List (Nat × Timer)

namespace Life

def put (l : Life V E B) (id : TaskId) (k : Task V E B) : Life V E B :=
  { l with tasks := update l.tasks id (some k) }

def clear (l : Life V E B) (k : Task V E B) : Life V E B :=
  { l with timers := l.timers.filter fun x => k.deadline ≠ some x.id ∧ k.sleep ≠ some x.id }

def kill (l : Life V E B) (hand : Option TaskId) (id : TaskId) (k : Task V E B) (cause : ScheduleFault) : Life V E B :=
  { (l.clear k).put id (k.slain cause) with
    unwinding := if hand = some id ∨ k.started = false then l.unwinding else l.unwinding ++ [id] }

def setDeadline (l : Life V E B) (id : TaskId) (k : Task V E B) (after : Int) : Life V E B :=
  { l.put id { k with deadline := some (l.lastTimer + 1) } with
    lastTimer := l.lastTimer + 1
    timers := Scheduler.insertTimer { id := l.lastTimer + 1, due := l.now + wholeMillis after, action := .expire id after }
      (l.timers.filter fun x => k.deadline ≠ some x.id) }

def spawn (l : Life V E B) (name : String) (body : B) : Life V E B :=
  { l with tasks := update l.tasks (l.size + 1) (some { id := l.size + 1, name, body }), size := l.size + 1 }

/-- A timer has fired, and others are left. -/
def ring (l : Life V E B) (x : Timer) (rest : List Timer) : Life V E B :=
  { l with timers := rest, timerUses := (l.now, x) :: l.timerUses }

end Life

namespace Scheduler

variable {s s' : Scheduler V E B} {t id : TaskId} {k : Task V E B}

/-- The lives of the tasks. -/
def life (s : Scheduler V E B) : Life V E B where
  now := s.now
  tasks t := (s.task? t).map Task.lasting
  size := s.tasks.size
  timers := s.timers
  lastTimer := s.lastTimer
  unwinding := s.unwinding
  timerUses := s.timerUses

theorem life_modifyTask (s : Scheduler V E B) (id : TaskId) {f : Task V E B → Task V E B}
    (lasts : ∀ t, (f t).lasting = t.lasting) : (s.modifyTask id f).life = s.life := by
  have eq := s.modifyTask_eq id f
  rw [Life.ext_iff]
  refine ⟨by rw [eq]; rfl, funext fun t => ?_, ?_, by rw [eq]; rfl, by rw [eq]; rfl, by rw [eq]; rfl, by rw [eq]; rfl⟩
  · simp only [life, task?_modifyTask]
    split
    · cases s.task? t <;> simp [lasts]
    · rfl
  · rw [eq]
    simp only [life]
    split <;> simp

theorem task?_of_tasks (here : s.life.tasks id = some k) : ∃ k₀, s.task? id = some k₀ ∧ k₀.lasting = k :=
  Option.map_eq_some_iff.mp here

theorem life_put (here : s.life.tasks id = some k) {f g : Task V E B → Task V E B}
    (lasts : ∀ t, (f t).lasting = g t.lasting) : (s.modifyTask id f).life = s.life.put id (g k) := by
  obtain ⟨k₀, known, rfl⟩ := task?_of_tasks here
  have eq := s.modifyTask_eq id f
  rw [Life.ext_iff]
  refine ⟨by rw [eq]; rfl, funext fun t => ?_, ?_, by rw [eq]; rfl, by rw [eq]; rfl, by rw [eq]; rfl, by rw [eq]; rfl⟩
  · show ((s.modifyTask id f).task? t).map Task.lasting = update s.life.tasks id (some (g k₀.lasting)) t
    rw [task?_modifyTask]
    by_cases same : t = id
    · rw [if_pos same, same, known, Function.update_self, ← lasts]
      rfl
    · rw [if_neg same, Function.update_of_ne same]
      rfl
  · rw [eq]
    simp only [life, Life.put]
    split <;> simp

theorem task?_of_life (same : s'.life = s.life) (here : s.task? t = some k) :
    ∃ k', s'.task? t = some k' ∧ k'.lasting = k.lasting := by
  have tasks : (s'.task? t).map Task.lasting = (s.task? t).map Task.lasting := congrFun (congrArg Life.tasks same) t
  rw [here] at tasks
  exact Option.map_eq_some_iff.mp tasks

theorem isDone_of_tasks (here : s.life.tasks id = some k) : s.isDone id = k.isDone := by
  obtain ⟨k₀, known, rfl⟩ := task?_of_tasks here
  rw [Task.isDone_lasting, isDone, known]

theorem tasks_of_isDone (unfinished : s.isDone id = false) : ∃ k, s.life.tasks id = some k ∧ k.isDone = false := by
  obtain ⟨k, here, unfinished⟩ := task?_of_isDone unfinished
  exact ⟨k.lasting, congrArg (Option.map Task.lasting) here, k.isDone_lasting.trans unfinished⟩

theorem killed_of_tasks (here : s.life.tasks id = some k) : (s.view id).killed = k.killed := by
  obtain ⟨k₀, known, rfl⟩ := task?_of_tasks here
  simp only [view, known, Option.any_some]
  rfl

end Scheduler

end LedgerScript
