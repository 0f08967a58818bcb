import LedgerScript.Schedule.Sync
import Mathlib.Data.List.Basic

/-!
# The books of the scheduler

The books are the ready queue and the maps that go with it, the lists of waiting tasks, the queues of channels, the
timers, and the list of tasks that still have to unwind.  They are *tidy* if the lists and the maps agree.

What they say about one task is its *view*.  A small change to the scheduler changes the view of one task, and leaves
those of all others as they are.
-/

namespace LedgerScript

variable {V E B : Type}

def SyncObject.queued : SyncObject V → List TaskId
  | .channel _ _ _ senders receivers => senders.map (·.1) ++ receivers
  | _ => []

def TaskState.isFinal (st : TaskState) : Bool :=
  st == .completed || st == .failed

/-- What the books say about a task. -/
@[ext] structure TaskView where
  /-- None if there is no such task. -/
  status : Option TaskState := none
  killed : Bool := false
  /-- The end of the task is in the history. -/
  ended : Bool := false
  ready : Bool := false
  parked : Option WaitKey := none
  /-- How many entries in queues of channels the task has. -/
  queued : Nat := 0
  /-- How many timers will wake the task. -/
  alarms : Nat := 0
  unwinding : Bool := false

namespace TaskView

/-- The task is unknown or finished. -/
def isDone (v : TaskView) : Bool :=
  v.status.all TaskState.isFinal

def wake (v : TaskView) : TaskView :=
  { v with parked := none, ready := true, status := if v.ready then v.status else some .ready }

end TaskView

namespace Scheduler

structure QueueTidy (ready : List TaskId) (readySet : FinMap TaskId Unit) : Prop where
  nodup : ready.Nodup
  has_iff : ∀ t, readySet.has t ↔ t ∈ ready

/-- The lists and the maps agree. -/
structure Tidy (s : Scheduler V E B) : Prop where
  queue : QueueTidy s.ready s.readySet
  parked_iff : ∀ t key, s.parked.get? t = some key ↔ t ∈ s.waitersOf key
  waiters_nodup : ∀ key, (s.waitersOf key).Nodup
  waiters_ne_nil : ∀ key, s.waiters.get? key ≠ some []

def queued (s : Scheduler V E B) : List TaskId :=
  s.objects.toList.flatMap SyncObject.queued

def alarms (s : Scheduler V E B) (t : TaskId) : Nat :=
  s.timers.countP (·.action = .wake t)

def Ended (s : Scheduler V E B) (t : TaskId) : Prop :=
  .ended t ∈ s.lockUses

instance (s : Scheduler V E B) (t : TaskId) : Decidable (s.Ended t) :=
  inferInstanceAs (Decidable (_ ∈ s.lockUses))

/-- What the books say about a task. -/
def view (s : Scheduler V E B) (t : TaskId) : TaskView where
  status := (s.task? t).map (·.state)
  killed := (s.task? t).any (·.killed)
  ended := s.Ended t
  ready := t ∈ s.ready
  parked := s.parked.get? t
  queued := s.queued.count t
  alarms := s.alarms t
  unwinding := t ∈ s.unwinding

variable {s s' : Scheduler V E B} {t id : TaskId} {key : WaitKey}

theorem isDone_view (s : Scheduler V E B) (t : TaskId) : (s.view t).isDone = s.isDone t := by
  unfold isDone TaskView.isDone view
  cases s.task? t <;> rfl

/-! ## Tasks -/

theorem modifyTask_eq (s : Scheduler V E B) (id : TaskId) (f : Task V E B → Task V E B) :
    s.modifyTask id f = { s with tasks := if id = 0 then s.tasks else s.tasks.modify (id - 1) f } := by
  unfold modifyTask
  split <;> rfl

theorem task?_modifyTask (s : Scheduler V E B) (id t : TaskId) (f : Task V E B → Task V E B) :
    (s.modifyTask id f).task? t = if t = id then (s.task? t).map f else s.task? t := by
  rw [modifyTask_eq]
  unfold task?
  split
  · simp
  · rename_i known
    by_cases same : t = id
    · simp [same ▸ known, same, Array.getElem?_modify]
    · by_cases zero : id = 0
      · simp [zero, known]
      · have other : id - 1 ≠ t - 1 := fun eq => same (by simp only [TaskId] at *; omega)
        simp [zero, same, Array.getElem?_modify, other]

theorem view_modifyTask {k : Task V E B} (here : s.task? id = some k) (f : Task V E B → Task V E B) (t : TaskId) :
    (s.modifyTask id f).view t =
      if t = id then { s.view t with status := some (f k).state, killed := (f k).killed } else s.view t := by
  have tasks := s.task?_modifyTask id t f
  unfold view
  rw [tasks, modifyTask_eq]
  by_cases same : t = id
  · subst same
    simp only [if_pos, here]
    rfl
  · simp only [if_neg same]
    rfl

theorem modifyTask_unknown (none : s.task? id = none) (f : Task V E B → Task V E B) : s.modifyTask id f = s := by
  unfold task? at none
  unfold modifyTask
  split
  · rfl
  · rename_i known
    have large : s.tasks.size ≤ id - 1 := by simpa [known] using none
    have same : s.tasks.modify (id - 1) f = s.tasks := by
      apply Array.ext'
      rw [Array.toList_modify]
      exact List.modify_eq_self (by simpa using large)
    rw [same]

/-- A change to a task that leaves its state alone cannot be seen. -/
theorem view_modifyTask_same (s : Scheduler V E B) (id t : TaskId) {f : Task V E B → Task V E B}
    (state : ∀ k, (f k).state = k.state) (killed : ∀ k, (f k).killed = k.killed) :
    (s.modifyTask id f).view t = s.view t := by
  cases here : s.task? id with
  | none => rw [modifyTask_unknown here]
  | some k =>
    rw [view_modifyTask here, state, killed]
    split
    · rename_i same
      subst same
      simp only [view, here]
      rfl
    · rfl

theorem Tidy.of_same (tidy : s.Tidy)
    (same : (s'.ready, s'.readySet, s'.parked, s'.waiters) = (s.ready, s.readySet, s.parked, s.waiters)) : s'.Tidy := by
  simp only [Prod.mk.injEq] at same
  obtain ⟨ready, readySet, parked, waiters⟩ := same
  have of (key : WaitKey) : s'.waitersOf key = s.waitersOf key := by rw [waitersOf, waitersOf, waiters]
  refine ⟨by rw [ready, readySet]; exact tidy.queue, fun t key => ?_, fun key => ?_, fun key => ?_⟩
  · rw [parked, of]
    exact tidy.parked_iff t key
  · rw [of]
    exact tidy.waiters_nodup key
  · rw [waiters]
    exact tidy.waiters_ne_nil key

theorem Tidy.modifyTask (tidy : s.Tidy) (id : TaskId) (f : Task V E B → Task V E B) : (s.modifyTask id f).Tidy := by
  rw [modifyTask_eq]
  exact tidy.of_same rfl

theorem task?_of_isDone (unfinished : s.isDone id = false) : ∃ k, s.task? id = some k ∧ k.isDone = false := by
  unfold isDone at unfinished
  cases here : s.task? id with
  | none => simp [here] at unfinished
  | some k => exact ⟨k, rfl, by simpa [here] using unfinished⟩

/-! ## The ready queue -/

theorem QueueTidy.has_readySet (tidy : QueueTidy s.ready s.readySet) (t : TaskId) :
    s.readySet.has t = (s.view t).ready := by
  have iff := tidy.has_iff t
  by_cases mem : t ∈ s.ready
  · simp [view, mem, iff.mpr mem]
  · simp [view, mem, mt iff.mp mem]

theorem QueueTidy.enqueue (tidy : QueueTidy s.ready s.readySet) (id : TaskId) :
    QueueTidy (s.enqueue id).ready (s.enqueue id).readySet := by
  unfold Scheduler.enqueue
  split
  · exact tidy
  · rename_i fresh
    rw [modifyTask_eq]
    refine ⟨?_, ?_⟩
    · refine List.nodup_append.mpr ⟨tidy.nodup, by simp, ?_⟩
      intro t mem id' mem' same
      rw [List.mem_singleton.mp mem'] at same
      exact fresh ((tidy.has_iff id).mpr (same ▸ mem))
    · intro t
      simp [tidy.has_iff, or_comm]

/-- What the state is when a task has joined the queue. -/
theorem enqueue_eq (s : Scheduler V E B) (id : TaskId) :
    ∃ ready readySet tasks, s.enqueue id = { s with ready, readySet, tasks } := by
  unfold enqueue
  split
  · exact ⟨s.ready, s.readySet, s.tasks, rfl⟩
  · exact ⟨_, _, _, modifyTask_eq _ _ _⟩

theorem Tidy.enqueue (tidy : s.Tidy) (id : TaskId) : (s.enqueue id).Tidy := by
  have queue := tidy.queue.enqueue id
  obtain ⟨ready, readySet, tasks, eq⟩ := s.enqueue_eq id
  rw [eq] at queue ⊢
  exact ⟨queue, tidy.parked_iff, tidy.waiters_nodup, tidy.waiters_ne_nil⟩

theorem view_enqueue (tidy : QueueTidy s.ready s.readySet) (unfinished : s.isDone id = false) (t : TaskId) :
    (s.enqueue id).view t = if t = id then
      { s.view t with ready := true, status := if (s.view t).ready then (s.view t).status else some .ready }
      else s.view t := by
  unfold Scheduler.enqueue
  rw [tidy.has_readySet]
  split
  · rename_i ready
    split
    · rename_i same
      rw [same, ready]
      rw [TaskView.ext_iff]
      simp [ready]
    · rfl
  · rename_i fresh
    obtain ⟨k, here, live⟩ := task?_of_isDone unfinished
    have joined : view { s with ready := s.ready ++ [id], readySet := s.readySet.set id () } t =
        { s.view t with ready := decide (t ∈ s.ready ++ [id]) } := rfl
    rw [view_modifyTask (by exact here), joined]
    split
    · rename_i same
      subst same
      have killed : (s.view t).killed = k.killed := by simp [view, here]
      simp [live, fresh, killed]
    · rename_i other
      rw [TaskView.ext_iff]
      simp [view, other]

theorem Tidy.unready (tidy : s.Tidy) (id : TaskId) : (s.unready id).Tidy := by
  unfold Scheduler.unready
  split
  · refine ⟨⟨tidy.queue.nodup.erase id, fun t => ?_⟩, tidy.parked_iff, tidy.waiters_nodup, tidy.waiters_ne_nil⟩
    simp [tidy.queue.has_iff, tidy.queue.nodup.mem_erase_iff]
  · exact tidy

theorem view_unready (tidy : s.Tidy) (id t : TaskId) :
    (s.unready id).view t = if t = id then { s.view t with ready := false } else s.view t := by
  unfold Scheduler.unready
  rw [tidy.queue.has_readySet]
  split
  · have left : view { s with ready := s.ready.erase id, readySet := s.readySet.erase id } t =
        { s.view t with ready := decide (t ∈ s.ready.erase id) } := rfl
    rw [left, TaskView.ext_iff]
    by_cases same : t = id
    · simp [same, tidy.queue.nodup.mem_erase_iff]
    · simp [same, tidy.queue.nodup.mem_erase_iff, view]
  · rename_i absent
    split
    · rename_i same
      subst same
      rw [TaskView.ext_iff]
      simpa using absent
    · rfl

/-! ## Waiting under a key -/

theorem waitersOf_setWaiters (s : Scheduler V E B) (key : WaitKey) (ids : List TaskId) (key' : WaitKey) :
    (s.setWaiters key ids).waitersOf key' = if key' = key then ids else s.waitersOf key' := by
  unfold waitersOf setWaiters
  split
  · by_cases same : key' = key <;> simp [same]
  · by_cases same : key' = key <;> simp [same]

theorem setWaiters_ne_nil (stored : ∀ key, s.waiters.get? key ≠ some []) (key : WaitKey) (ids : List TaskId)
    (key' : WaitKey) : (s.setWaiters key ids).waiters.get? key' ≠ some [] := by
  unfold setWaiters
  split
  · rw [FinMap.get?_erase]
    split
    · simp
    · exact stored key'
  · rename_i some
    rw [FinMap.get?_set]
    split
    · exact fun none => some (Option.some.inj none)
    · exact stored key'

theorem setWaiters_eq (s : Scheduler V E B) (key : WaitKey) (ids : List TaskId) :
    s.setWaiters key ids = { s with waiters := (s.setWaiters key ids).waiters } := by
  unfold setWaiters
  split <;> rfl

theorem view_setWaiters (s : Scheduler V E B) (key : WaitKey) (ids : List TaskId) (t : TaskId) :
    (s.setWaiters key ids).view t = s.view t := by
  rw [setWaiters_eq]
  rfl

theorem view_unpark (s : Scheduler V E B) (id t : TaskId) :
    (s.unpark id).view t = if t = id then { s.view t with parked := none } else s.view t := by
  have left : (s.unpark id).view t = { s.view t with parked := (s.parked.erase id).get? t } := rfl
  rw [left, FinMap.get?_erase]
  split <;> rfl

theorem parked_setWaiters (s : Scheduler V E B) (key : WaitKey) (ids : List TaskId) :
    (s.setWaiters key ids).parked = s.parked := by
  rw [setWaiters_eq]

theorem view_unregister (s : Scheduler V E B) (id t : TaskId) :
    (s.unregister id).view t = if t = id then { s.view t with parked := none } else s.view t := by
  unfold unregister
  split
  · rename_i none
    split
    · rename_i same
      rw [same, ← none]
      rfl
    · rfl
  · rw [view_unpark, removeWaiter, view_setWaiters]

/-- A task leaves a list of waiting tasks and is not known to wait any more. -/
theorem Tidy.unpark (tidy : s.Tidy) (here : s.parked.get? id = some key) : ((s.removeWaiter key id).unpark id).Tidy := by
  have others : ∀ key', (s.removeWaiter key id).waitersOf key' =
      if key' = key then (s.waitersOf key).erase id else s.waitersOf key' := s.waitersOf_setWaiters key _
  have queue : QueueTidy (s.removeWaiter key id).ready (s.removeWaiter key id).readySet := by
    rw [removeWaiter, setWaiters_eq]
    exact tidy.queue
  refine ⟨queue, fun t key' => ?_, fun key' => ?_, setWaiters_ne_nil tidy.waiters_ne_nil key _⟩
  · show ((s.removeWaiter key id).parked.erase id).get? t = some key' ↔ t ∈ (s.removeWaiter key id).waitersOf key'
    rw [others, removeWaiter, parked_setWaiters, FinMap.get?_erase]
    by_cases same : t = id
    · subst same
      -- the task was registered under no other key
      have only : key' ≠ key → t ∉ s.waitersOf key' := fun other mem =>
        other (Option.some.inj (((tidy.parked_iff t key').mpr mem).symm.trans here))
      by_cases here : key' = key
      · simp [here, (tidy.waiters_nodup key).mem_erase_iff]
      · simp [here, only here]
    · rw [if_neg same, tidy.parked_iff]
      by_cases here : key' = key
      · simp [here, List.mem_erase_of_ne same]
      · simp [here]
  · show ((s.removeWaiter key id).waitersOf key').Nodup
    rw [others]
    split
    · exact (tidy.waiters_nodup key).erase id
    · exact tidy.waiters_nodup key'

theorem Tidy.unregister (tidy : s.Tidy) (id : TaskId) : (s.unregister id).Tidy := by
  unfold Scheduler.unregister
  split
  · exact tidy
  · rename_i key here
    exact tidy.unpark here

theorem view_addWaiter (s : Scheduler V E B) (key : WaitKey) (id t : TaskId) :
    (s.addWaiter key id).view t = if t = id then { s.view t with parked := some key } else s.view t := by
  have joined : (s.addWaiter key id).view t = { s.view t with parked := (s.parked.set id key).get? t } := rfl
  rw [joined, FinMap.get?_set]
  split <;> rfl

theorem Tidy.addWaiter (tidy : s.Tidy) (key : WaitKey) (free : s.parked.get? id = none) : (s.addWaiter key id).Tidy := by
  have others : ∀ key', (s.addWaiter key id).waitersOf key' =
      if key' = key then s.waitersOf key ++ [id] else s.waitersOf key' := by
    intro key'
    by_cases same : key' = key <;> simp [waitersOf, Scheduler.addWaiter, same]
  have absent : ∀ key', id ∉ s.waitersOf key' := fun key' mem => by
    simp [(tidy.parked_iff id key').mpr mem] at free
  refine ⟨tidy.queue, fun t key' => ?_, fun key' => ?_, fun key' => ?_⟩
  · rw [others]
    show (s.parked.set id key).get? t = _ ↔ _
    rw [FinMap.get?_set]
    by_cases same : t = id
    · subst same
      by_cases here : key' = key
      · simp [here]
      · simp [here, absent key', Ne.symm here]
    · rw [if_neg same, tidy.parked_iff]
      by_cases here : key' = key
      · simp [here, same]
      · simp [here]
  · rw [others]
    split
    · refine List.nodup_append.mpr ⟨tidy.waiters_nodup key, by simp, ?_⟩
      intro t mem id' mem' same
      rw [List.mem_singleton.mp mem'] at same
      exact absent key (same ▸ mem)
    · exact tidy.waiters_nodup key'
  · show (s.waiters.set key _).get? key' ≠ some []
    rw [FinMap.get?_set]
    split
    · simp
    · exact tidy.waiters_ne_nil key'

theorem addWaiter_unpark (s : Scheduler V E B) (key : WaitKey) (id : TaskId) :
    (s.unpark id).addWaiter key id = s.addWaiter key id := by
  have twice : (s.parked.erase id).set id key = s.parked.set id key := by
    simp [FinMap.set, FinMap.erase, List.filter_filter]
  unfold addWaiter unpark
  rw [twice]
  rfl

/-- A task that waits under another key first stops waiting there. -/
theorem register_eq (s : Scheduler V E B) (id : TaskId) (key : WaitKey) :
    s.register id key = if s.parked.get? id = some key then s else (s.unregister id).addWaiter key id := by
  unfold register unregister
  cases here : s.parked.get? id with
  | none => simp
  | some before =>
    by_cases same : before = key
    · simp [same]
    · simp only [same, if_false, Option.some.injEq, addWaiter_unpark]

theorem Tidy.register (tidy : s.Tidy) (id : TaskId) (key : WaitKey) : (s.register id key).Tidy := by
  rw [register_eq]
  split
  · exact tidy
  · refine (tidy.unregister id).addWaiter key ?_
    show ((s.unregister id).view id).parked = none
    rw [view_unregister, if_pos rfl]

theorem view_register (s : Scheduler V E B) (id : TaskId) (key : WaitKey) (t : TaskId) :
    (s.register id key).view t = if t = id then { s.view t with parked := some key } else s.view t := by
  rw [register_eq]
  split
  · rename_i here
    split
    · rename_i same
      subst same
      rw [← here]
      rfl
    · rfl
  · rw [view_addWaiter, view_unregister]
    split <;> rfl

/-! ## Waking -/

theorem isDone_unregister (s : Scheduler V E B) (id t : TaskId) : (s.unregister id).isDone t = s.isDone t := by
  rw [← isDone_view, ← isDone_view, view_unregister]
  split <;> rfl

theorem Tidy.wake (tidy : s.Tidy) (id : TaskId) : (s.wake id).Tidy := by
  unfold Scheduler.wake
  split
  · exact tidy
  · exact (tidy.unregister id).enqueue id

theorem view_wake (tidy : s.Tidy) (id t : TaskId) :
    (s.wake id).view t = if t = id ∧ (s.view t).isDone = false then (s.view t).wake else s.view t := by
  unfold Scheduler.wake
  by_cases same : t = id
  · subst same
    rw [isDone_view]
    split
    · rename_i done
      simp [done]
    · rename_i unfinished
      rw [Bool.not_eq_true] at unfinished
      rw [view_enqueue (tidy.unregister t).queue (by rw [isDone_unregister]; exact unfinished), view_unregister]
      simp [unfinished, TaskView.wake]
  · split
    · simp [same]
    · rename_i unfinished
      rw [Bool.not_eq_true] at unfinished
      rw [view_enqueue (tidy.unregister id).queue (by rw [isDone_unregister]; exact unfinished), view_unregister]
      simp [same]

/-- A task that is not known to wait is only enqueued. -/
theorem wake_unpark (unfinished : s.isDone id = false) : (s.unpark id).wake id = (s.unpark id).enqueue id := by
  have free : (s.unpark id).parked.get? id = none := by simp [unpark]
  have unfinished' : (s.unpark id).isDone id = false := unfinished
  unfold wake unregister
  rw [unfinished', free]
  rfl

/-- Tasks that are not finished are woken, one after another. -/
theorem wakeEach (ids : List TaskId) (s : Scheduler V E B) (queue : QueueTidy s.ready s.readySet)
    (distinct : ids.Nodup) (unfinished : ∀ id ∈ ids, s.isDone id = false) :
    ∃ ready readySet tasks parked,
      ids.foldl (fun s id => (s.unpark id).wake id) s = { s with ready, readySet, tasks, parked } ∧
      QueueTidy ready readySet ∧
      ∀ t, (ids.foldl (fun s id => (s.unpark id).wake id) s).view t = if t ∈ ids then (s.view t).wake else s.view t := by
  induction ids generalizing s with
  | nil => exact ⟨s.ready, s.readySet, s.tasks, s.parked, rfl, queue, fun t => by simp⟩
  | cons id ids ih =>
    obtain ⟨fresh, distinct⟩ := List.nodup_cons.mp distinct
    have first : s.isDone id = false := unfinished id List.mem_cons_self
    have seen : ∀ t, ((s.unpark id).enqueue id).view t = if t = id then (s.view t).wake else s.view t := by
      intro t
      have first' : (s.unpark id).isDone id = false := first
      rw [view_enqueue (s := s.unpark id) queue first', view_unpark]
      split <;> rfl
    obtain ⟨ready, readySet, tasks, parked, eq, queue', views⟩ := ih ((s.unpark id).enqueue id)
      (QueueTidy.enqueue (s := s.unpark id) queue id) distinct fun id' mem => by
        have other : id' ≠ id := fun same => fresh (same ▸ mem)
        rw [← isDone_view, seen, if_neg other, isDone_view]
        exact unfinished id' (List.mem_cons_of_mem id mem)
    obtain ⟨ready', readySet', tasks', eq'⟩ := enqueue_eq (s.unpark id) id
    rw [List.foldl_cons, wake_unpark first]
    refine ⟨ready, readySet, tasks, parked, ?_, queue', fun t => ?_⟩
    · rw [eq, eq']
      rfl
    · rw [views, seen]
      by_cases same : t = id
      · subst same
        simp [fresh]
      · simp [same]

/-- All tasks that wait under a key become ready, if none of them is finished. -/
theorem Tidy.wakeAll (tidy : s.Tidy) (key : WaitKey) (unfinished : ∀ id ∈ s.waitersOf key, s.isDone id = false) :
    (s.wakeAll key).Tidy ∧
      (∃ ready readySet tasks waiters parked, s.wakeAll key = { s with ready, readySet, tasks, waiters, parked }) ∧
      ∀ t, (s.wakeAll key).view t = if (s.view t).parked = some key then (s.view t).wake else s.view t := by
  have registered : ∀ t, (s.view t).parked = some key ↔ t ∈ s.waitersOf key := fun t => tidy.parked_iff t key
  have others := s.waitersOf_setWaiters key []
  obtain ⟨ready, readySet, tasks, parked, eq, queue, views⟩ := wakeEach (s.waitersOf key) (s.setWaiters key [])
    tidy.queue (tidy.waiters_nodup key) unfinished
  unfold Scheduler.wakeAll
  split
  · rename_i none
    refine ⟨tidy, ⟨s.ready, s.readySet, s.tasks, s.waiters, s.parked, rfl⟩, fun t => ?_⟩
    simp [registered, none]
  · refine ⟨?_, ⟨ready, readySet, tasks, _, parked, eq⟩, fun t => ?_⟩
    · have lookup : ∀ t, parked.get? t = if t ∈ s.waitersOf key then none else s.parked.get? t := by
        intro t
        have seen := congrArg TaskView.parked (views t)
        rw [eq] at seen
        change parked.get? t = _ at seen
        rw [seen, view_setWaiters]
        split <;> rfl
      rw [eq]
      refine ⟨queue, fun t key' => ?_, fun key' => ?_, setWaiters_ne_nil tidy.waiters_ne_nil key []⟩
      · show parked.get? t = some key' ↔ t ∈ (s.setWaiters key []).waitersOf key'
        have before := tidy.parked_iff t key'
        have mine := tidy.parked_iff t key
        rw [lookup, others]
        by_cases mem : t ∈ s.waitersOf key
        · by_cases same : key' = key
          · simp [mem, same]
          · have elsewhere : t ∉ s.waitersOf key' := fun mem' =>
              same (Option.some.inj ((before.mpr mem').symm.trans (mine.mpr mem)))
            simp [mem, same, elsewhere]
        · by_cases same : key' = key
          · simp [mem, same, mine]
          · simp [mem, same, before]
      · show ((s.setWaiters key []).waitersOf key').Nodup
        rw [others]
        split
        · exact List.nodup_nil
        · exact tidy.waiters_nodup key'
    · rw [views, view_setWaiters]
      simp only [registered]

/-- The first of the tasks that wait under a key, if it is not finished, no longer waits. -/
theorem popWaiter_eq (unfinished : ∀ id ∈ s.waitersOf key, s.isDone id = false) (tidy : s.Tidy) :
    s.popWaiter key = match s.waitersOf key with
      | [] => (none, s)
      | id :: _ => (some id, s.unregister id) := by
  unfold popWaiter
  cases here : s.waitersOf key with
  | nil => rfl
  | cons id rest =>
    have parked : s.parked.get? id = some key := (tidy.parked_iff id key).mpr (here ▸ List.mem_cons_self)
    have first : s.isDone id = false := unfinished id (here ▸ List.mem_cons_self)
    have left : s.removeWaiter key id = s.setWaiters key rest := by
      rw [removeWaiter, here, List.erase_cons_head]
    have first' : ((s.setWaiters key rest).unpark id).isDone id = false := by
      rw [← left, ← isDone_view, view_unpark, removeWaiter, view_setWaiters, if_pos rfl]
      exact (isDone_view s id).trans first
    simp only [popUnfinished, first', unregister, parked, left]
    rfl

end Scheduler

end LedgerScript
