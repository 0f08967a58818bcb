import LedgerScript.Proofs.Schedule.View
import Mathlib.Logic.Relation
import Mathlib.Data.List.Infix

/-!
# How tasks move

A task that is neither finished nor killed is in one place: it is in the hands of the processor, it is ready, it waits
under a key, or it waits in a queue of a channel.  A timer that will wake it is armed only while it waits under the key
of a timer.  A killed task is finished, unless it is just unwinding, and a finished task waits under no key.  A task
whose view says so *stands* well, and a scheduler is *regular* if it is tidy and all of its tasks stand well.

`Move` tells all that an operation can do to a task, whoever carries it out: it is woken from where it waits, it is
killed, it is spawned.  No move makes a task stand badly, so whatever is made of moves keeps a scheduler regular.
-/

namespace LedgerScript

variable {V E B : Type}

def WaitKey.isTimer : WaitKey → Bool
  | timer _ => true
  | _ => false

namespace TaskView

def Live (v : TaskView) : Prop :=
  v.isDone = false ∧ v.killed = false

def places (v : TaskView) : Nat :=
  v.ready.toNat + v.parked.isSome.toNat + v.queued

def naps (v : TaskView) : Nat :=
  (v.parked.any WaitKey.isTimer).toNat

/-- What the books have to say about a task, which may be in the hands of the processor. -/
structure Stands (inHand : Bool) (v : TaskView) : Prop where
  placed : v.Live → v.places = if inHand then 0 else 1
  state : v.Live → inHand = false → v.status = some (if v.ready then .ready else .suspended)
  timed : v.Live → v.alarms ≤ v.naps
  known : v.status = none → v = {}
  ended : v.ended = (v.status.any TaskState.isFinal || v.killed)
  clear : v.isDone = true → v.parked = none
  dead : v.killed = true → v.isDone = true ∨ inHand = true
  hand : inHand = true → v.isDone = true → v.killed = true
  reaped : v.unwinding = true → v.killed = true

/-- What can happen to a task while the one in the hands of the processor, or a timer, does something.  Only those who
wait under some of the keys are woken. -/
inductive Move (keys : WaitKey → Prop) (inHand : Bool) : TaskView → TaskView → Prop where
  /-- Timers of the task are disarmed. -/
  | calm {v : TaskView} {alarms : Nat} (fewer : alarms ≤ v.alarms) : Move keys inHand v { v with alarms }
  | wake {v : TaskView} {key : WaitKey} (here : v.parked = some key) (may : keys key) (noTimer : key.isTimer = false)
    (unfinished : v.isDone = false) : Move keys inHand v v.wake
  /-- It has waited in a queue of a channel, and is woken. -/
  | call {v : TaskView} {queued : Nat} (here : queued < v.queued) (unfinished : v.isDone = false) :
    Move keys inHand v { v with queued }.wake
  /-- A timer has woken it. -/
  | ring {v : TaskView} {alarms : Nat} (here : alarms < v.alarms) (unfinished : v.isDone = false) :
    Move keys inHand v { v with alarms }.wake
  /-- It is finished, and entries of it in queues are dropped. -/
  | drop {v : TaskView} {queued : Nat} (fewer : queued ≤ v.queued) (done : v.isDone = true) :
    Move keys inHand v { v with queued }
  | kill {v : TaskView} {alarms : Nat} (fewer : alarms ≤ v.alarms) (unwinding : Bool) (unfinished : v.isDone = false) :
    Move keys inHand v { v with
      status := some .failed, killed := true, ended := true, ready := false, parked := none, alarms, unwinding }
  | spawn (free : inHand = false) : Move keys inHand {} { status := some .ready, ready := true }

abbrev Moves (keys : WaitKey → Prop) (inHand : Bool) : TaskView → TaskView → Prop :=
  Relation.ReflTransGen (Move keys inHand)

variable {keys keys' : WaitKey → Prop} {inHand : Bool} {v v' : TaskView}

/-- A task that waits under a key is nowhere else. -/
theorem Stands.of_parked (stands : v.Stands inHand) (live : v.Live) {key : WaitKey} (here : v.parked = some key) :
    inHand = false ∧ v.ready = false ∧ v.queued = 0 := by
  have placed := stands.placed live
  simp only [places, here, Option.isSome_some, Bool.toNat_true] at placed
  cases ready : v.ready <;> simp only [ready, Bool.toNat_false, Bool.toNat_true] at placed
  · split at placed <;> simp_all
  · split at placed <;> omega

/-- A task that waits in a queue is nowhere else. -/
theorem Stands.of_queued (stands : v.Stands inHand) (live : v.Live) (here : 0 < v.queued) :
    inHand = false ∧ v.ready = false ∧ v.parked = none ∧ v.queued = 1 := by
  have placed := stands.placed live
  simp only [places] at placed
  cases ready : v.ready <;> cases parked : v.parked <;>
    simp only [ready, parked, Bool.toNat_false, Bool.toNat_true, Option.isSome_none, Option.isSome_some] at placed
  · split at placed
    · omega
    · simp_all
  all_goals split at placed <;> omega

/-- A task that a timer will wake waits for it, and for nothing else. -/
theorem Stands.of_alarms (stands : v.Stands inHand) (live : v.Live) (here : 0 < v.alarms) :
    v.alarms = 1 ∧ ∃ key, v.parked = some key ∧ key.isTimer = true := by
  have timed := stands.timed live
  unfold naps at timed
  cases parked : v.parked with
  | none =>
    simp [parked] at timed
    omega
  | some key =>
    cases timer : key.isTimer with
    | false =>
      simp [parked, timer] at timed
      omega
    | true =>
      simp [parked, timer] at timed
      exact ⟨by omega, key, rfl, timer⟩

theorem Move.mono (more : ∀ key, keys key → keys' key) (move : Move keys inHand v v') : Move keys' inHand v v' := by
  cases move with
  | calm fewer => exact .calm fewer
  | wake here may noTimer unfinished => exact .wake here (more _ may) noTimer unfinished
  | call here unfinished => exact .call here unfinished
  | ring here unfinished => exact .ring here unfinished
  | drop fewer done => exact .drop fewer done
  | kill fewer unwinding unfinished => exact .kill fewer unwinding unfinished
  | spawn free => exact .spawn free

theorem Moves.mono (more : ∀ key, keys key → keys' key) (moves : Moves keys inHand v v') : Moves keys' inHand v v' :=
  Relation.ReflTransGen.mono (fun _ _ => Move.mono more) _ _ moves

theorem status_wake (unfinished : v.isDone = false) : ∃ st, v.wake.status = some st ∧ st.isFinal = false := by
  unfold isDone at unfinished
  unfold wake
  cases status : v.status with
  | none => simp [status] at unfinished
  | some st =>
    cases ready : v.ready with
    | false => exact ⟨.ready, rfl, rfl⟩
    | true => exact ⟨st, rfl, by simpa [status] using unfinished⟩

theorem isDone_wake (unfinished : v.isDone = false) : v.wake.isDone = false := by
  obtain ⟨st, status, final⟩ := status_wake unfinished
  simp [isDone, status, final]

/-- A task that is in one place, and for which no other timer is armed, stands well when it is woken from there. -/
theorem Stands.wake (stands : v.Stands inHand) (unfinished : v.isDone = false) {queued alarms : Nat}
    (free : v.Live → inHand = false ∧ v.ready = false ∧ queued = 0 ∧ alarms = 0) :
    { v with queued, alarms }.wake.Stands inHand := by
  obtain ⟨st, woken, final⟩ := status_wake (v := { v with queued, alarms }) unfinished
  have running : v.status.any TaskState.isFinal = false := by
    unfold isDone at unfinished
    cases here : v.status <;> simp_all
  have live : { v with queued, alarms }.wake.Live → v.Live := fun live => ⟨unfinished, live.2⟩
  have unfinished' := isDone_wake (v := { v with queued, alarms }) unfinished
  refine ⟨fun h => ?_, fun h _ => ?_, fun h => ?_, fun none => ?_, ?_, fun done => ?_, fun dead => ?_, fun _ done => ?_,
    stands.reaped⟩
  · obtain ⟨out, -, queue, -⟩ := free (live h)
    simp [places, TaskView.wake, out, queue]
  · obtain ⟨-, ready, -, -⟩ := free (live h)
    simp [TaskView.wake, ready]
  · obtain ⟨-, -, -, none⟩ := free (live h)
    simp [TaskView.wake, none]
  · simp [woken] at none
  · simp only [woken, Option.any_some, final, Bool.false_or]
    exact stands.ended.trans (by rw [running, Bool.false_or]; rfl)
  · simp [unfinished'] at done
  · exact .inr ((stands.dead dead).resolve_left (by simp [unfinished]))
  · simp [unfinished'] at done

/-- No move makes a task stand badly. -/
theorem Stands.move (stands : v.Stands inHand) (move : Move keys inHand v v') : v'.Stands inHand := by
  cases move with
  | calm fewer =>
    refine ⟨stands.placed, stands.state, fun live => Nat.le_trans fewer (stands.timed live), fun none => ?_, stands.ended,
      stands.clear, stands.dead, stands.hand, stands.reaped⟩
    cases stands.known none
    rw [Nat.le_zero.mp fewer]
  | wake here may noTimer unfinished =>
    refine stands.wake unfinished fun live => ?_
    obtain ⟨out, ready, queue⟩ := stands.of_parked live here
    have timed := stands.timed live
    simp only [naps, here, Option.any_some, noTimer, Bool.toNat_false] at timed
    exact ⟨out, ready, queue, Nat.le_zero.mp timed⟩
  | call here unfinished =>
    refine stands.wake unfinished fun live => ?_
    obtain ⟨out, ready, parked, queue⟩ := stands.of_queued live (Nat.zero_lt_of_lt here)
    have timed := stands.timed live
    simp only [naps, parked, Option.any_none, Bool.toNat_false] at timed
    exact ⟨out, ready, by omega, Nat.le_zero.mp timed⟩
  | ring here unfinished =>
    refine stands.wake unfinished fun live => ?_
    obtain ⟨one, key, parked, -⟩ := stands.of_alarms live (Nat.zero_lt_of_lt here)
    obtain ⟨out, ready, queue⟩ := stands.of_parked live parked
    exact ⟨out, ready, queue, by omega⟩
  | drop fewer done =>
    refine ⟨fun live => ?_, fun live => ?_, fun live => ?_, fun none => ?_, stands.ended, stands.clear, stands.dead,
      stands.hand, stands.reaped⟩
    · exact (Bool.false_ne_true (live.1.symm.trans done)).elim
    · exact (Bool.false_ne_true (live.1.symm.trans done)).elim
    · exact (Bool.false_ne_true (live.1.symm.trans done)).elim
    · cases stands.known none
      rw [Nat.le_zero.mp fewer]
  | kill fewer unwinding unfinished =>
    refine ⟨nofun, nofun, nofun, nofun, ?_, fun _ => rfl, fun _ => .inl rfl, fun _ _ => rfl, fun _ => rfl⟩
    rfl
  | spawn free =>
    refine ⟨fun _ => ?_, fun _ _ => rfl, fun _ => Nat.le_refl 0, nofun, rfl, nofun, nofun, nofun, nofun⟩
    rw [free]
    rfl

/-- Whatever is made of moves makes no task stand badly. -/
theorem Stands.moves (stands : v.Stands inHand) (moves : Moves keys inHand v v') : v'.Stands inHand := by
  induction moves with
  | refl => exact stands
  | tail _ move ih => exact ih.move move

/-- A task stays known. -/
theorem known_wake (known : v.status ≠ none) : v.wake.status ≠ none := by
  unfold wake
  dsimp only
  split
  · exact known
  · exact nofun

theorem Move.known (move : Move keys inHand v v') (known : v.status ≠ none) : v'.status ≠ none := by
  cases move with
  | calm | drop => exact known
  | wake | call | ring => exact known_wake known
  | kill | spawn => exact nofun

theorem Moves.known (moves : Moves keys inHand v v') (known : v.status ≠ none) : v'.status ≠ none := by
  induction moves with
  | refl => exact known
  | tail _ move ih => exact move.known ih

end TaskView

/-- Nobody enters or leaves a block here. -/
def LockUse.Outside : LockUse → Prop
  | byHand _ | ended _ => True
  | _ => False

namespace Scheduler

/-! ## Regular schedulers -/

/-- The books are in order, while a task may be in the hands of the processor. -/
structure Regular (hand : Option TaskId) (s : Scheduler V E B) : Prop where
  tidy : s.Tidy
  stands : ∀ t, (s.view t).Stands (hand = some t)

/-- A lock is used outside blocks. -/
def ByHand (s : Scheduler V E B) (m : ObjectId) : Prop :=
  .byHand m ∈ s.lockUses

def IsLock (s : Scheduler V E B) (m : ObjectId) : Prop :=
  ∃ holder, s.object? m = some (.lock holder)

/-- Those who wait for a lock that is only used by blocks are not woken, unless it is exempt, and those who wait for the
end of a task are not woken before it has ended. -/
structure Wakes (exempt : Option ObjectId) (s : Scheduler V E B) (key : WaitKey) : Prop where
  lock : ∀ m, key = .lock m → exempt = some m ∨ s.ByHand m
  join : ∀ t, key = .join t → s.Ended t

/-- What does not concern the books: the history goes on without anybody entering or leaving a block, and all locks but
one keep their holders as long as they are only used by blocks. -/
structure Frame (exempt : Option ObjectId) (s s' : Scheduler V E B) : Prop where
  current : s'.current = s.current
  history : ∃ new, s'.lockUses = new ++ s.lockUses ∧ ∀ u ∈ new, u.Outside
  locks : ∀ m, s.IsLock m → s'.IsLock m
  holders : ∀ m, exempt ≠ some m → ¬ s'.ByHand m → s'.lockHolder m = s.lockHolder m

/-- What an operation does: tasks move. -/
structure Evolution (exempt : Option ObjectId) (hand : Option TaskId) (s s' : Scheduler V E B) : Prop
    extends Frame exempt s s' where
  tidy : s'.Tidy
  moves : ∀ t, TaskView.Moves (s'.Wakes exempt) (hand = some t) (s.view t) (s'.view t)

def Evolves (exempt : Option ObjectId) (hand : Option TaskId) (s s' : Scheduler V E B) : Prop :=
  s.Regular hand → Evolution exempt hand s s'

variable {s s' s'' : Scheduler V E B} {exempt : Option ObjectId} {hand : Option TaskId} {t id : TaskId} {m : ObjectId}
  {key : WaitKey}

theorem Regular.evolve (regular : s.Regular hand) (evolution : Evolution exempt hand s s') : s'.Regular hand :=
  ⟨evolution.tidy, fun t => (regular.stands t).moves (evolution.moves t)⟩

/-- A finished task has its end in the history. -/
theorem Regular.ended_of_isDone (regular : s.Regular hand) (done : s.isDone t = true) (known : (s.view t).status ≠ none) :
    s.Ended t := by
  have ended := (regular.stands t).ended
  have done := (isDone_view s t).trans done
  unfold TaskView.isDone at done
  cases status : (s.view t).status with
  | none => exact absurd status known
  | some st =>
    rw [status] at done ended
    have final : st.isFinal = true := done
    simp only [Option.any_some, final, Bool.true_or] at ended
    simpa [view] using ended

theorem Frame.suffix (frame : Frame exempt s s') : s.lockUses <:+ s'.lockUses := by
  obtain ⟨new, eq, -⟩ := frame.history
  exact ⟨new, eq.symm⟩

theorem Frame.ended (frame : Frame exempt s s') (ended : s.Ended t) : s'.Ended t :=
  frame.suffix.subset ended

theorem Frame.byHand (frame : Frame exempt s s') (byHand : s.ByHand m) : s'.ByHand m :=
  frame.suffix.subset byHand

/-- Who may be woken may be woken later. -/
theorem Wakes.later (wakes : s.Wakes exempt key) (history : s.lockUses <:+ s'.lockUses) : s'.Wakes exempt key :=
  ⟨fun m lock => (wakes.lock m lock).imp_right fun byHand => history.subset byHand,
    fun t join => history.subset (wakes.join t join)⟩

theorem Wakes.widen (wakes : s.Wakes none key) : s.Wakes exempt key :=
  ⟨fun m lock => .inr ((wakes.lock m lock).resolve_left nofun), wakes.join⟩

theorem Wakes.narrow (wakes : s.Wakes (some m) key) (byHand : s.ByHand m) : s.Wakes none key := by
  refine ⟨fun n lock => .inr ((wakes.lock n lock).elim (fun same => ?_) id), wakes.join⟩
  exact Option.some.inj same ▸ byHand

/-- A key that is neither of a lock nor of a task. -/
theorem Wakes.free (noLock : ∀ m, key ≠ .lock m) (noJoin : ∀ t, key ≠ .join t) : s.Wakes exempt key :=
  ⟨fun m lock => absurd lock (noLock m), fun t join => absurd join (noJoin t)⟩

theorem Frame.trans (first : Frame exempt s s') (second : Frame exempt s' s'') : Frame exempt s s'' := by
  obtain ⟨new, eq, outside⟩ := first.history
  obtain ⟨new', eq', outside'⟩ := second.history
  refine ⟨second.current.trans first.current, ⟨new' ++ new, ?_, ?_⟩,
    fun m lock => second.locks m (first.locks m lock), fun m other only => ?_⟩
  · rw [eq', eq, List.append_assoc]
  · intro u mem
    exact (List.mem_append.mp mem).elim (outside' u) (outside u)
  · have only' : ¬ s'.ByHand m := fun byHand => only (second.byHand byHand)
    exact (second.holders m other only).trans (first.holders m other only')

theorem Evolution.refl (exempt : Option ObjectId) (hand : Option TaskId) (tidy : s.Tidy) : Evolution exempt hand s s :=
  ⟨⟨rfl, ⟨[], rfl, nofun⟩, fun _ lock => lock, fun _ _ _ => rfl⟩, tidy, fun _ => .refl⟩

theorem Evolution.trans (first : Evolution exempt hand s s') (second : Evolution exempt hand s' s'') :
    Evolution exempt hand s s'' := by
  refine ⟨first.toFrame.trans second.toFrame, second.tidy, fun t => ?_⟩
  have before := (first.moves t).mono fun key wakes => wakes.later second.suffix
  exact before.trans (second.moves t)

theorem Evolves.refl (exempt : Option ObjectId) (hand : Option TaskId) (s : Scheduler V E B) : s.Evolves exempt hand s :=
  fun regular => .refl exempt hand regular.tidy

theorem Evolves.trans (first : s.Evolves exempt hand s') (second : s'.Evolves exempt hand s'') :
    s.Evolves exempt hand s'' := by
  intro regular
  have evolution := first regular
  exact evolution.trans (second (regular.evolve evolution))

/-- A lock that is used outside blocks needs no exemption. -/
theorem Evolves.narrow (evolves : s.Evolves (some m) hand s') (byHand : s.ByHand m) : s.Evolves none hand s' := by
  intro regular
  have evolution := evolves regular
  have used := evolution.byHand byHand
  refine { evolution with holders := fun n _ only => ?_, moves := fun t => ?_ }
  · exact evolution.holders n (fun same => only (Option.some.inj same ▸ used)) only
  · exact (evolution.moves t).mono fun key wakes => wakes.narrow used

/-! ## Changes that concern no object -/

/-- Who runs, the objects and the history are as before. -/
structure Steady (s s' : Scheduler V E B) : Prop where
  current : s'.current = s.current
  objects : s'.objects = s.objects
  history : s'.lockUses = s.lockUses

theorem Steady.trans (first : s.Steady s') (second : s'.Steady s'') : s.Steady s'' :=
  ⟨second.current.trans first.current, second.objects.trans first.objects, second.history.trans first.history⟩

theorem Steady.object? (steady : s.Steady s') (m : ObjectId) : s'.object? m = s.object? m := by
  simp only [Scheduler.object?, steady.objects]

theorem Frame.of_objects (objects : s'.objects = s.objects) (current : s'.current = s.current)
    (history : ∃ new, s'.lockUses = new ++ s.lockUses ∧ ∀ u ∈ new, u.Outside) : Frame exempt s s' := by
  have same : ∀ m, s'.object? m = s.object? m := fun m => by simp only [Scheduler.object?, objects]
  refine ⟨current, history, fun m => ?_, fun m _ _ => ?_⟩
  · simp only [IsLock, same, imp_self]
  · simp only [lockHolder, same]

theorem Steady.frame (steady : s.Steady s') : Frame exempt s s' :=
  .of_objects steady.objects steady.current ⟨[], steady.history, nofun⟩

/-- Tasks move, and nothing else happens. -/
theorem Steady.evolution (steady : s.Steady s') (tidy : s'.Tidy)
    (moves : ∀ t, TaskView.Moves (s'.Wakes exempt) (hand = some t) (s.view t) (s'.view t)) : Evolution exempt hand s s' :=
  ⟨steady.frame, tidy, moves⟩

/-- Nothing can be seen of a change. -/
theorem Steady.evolves (steady : s.Steady s') (tidy : s.Tidy → s'.Tidy) (same : ∀ t, s'.view t = s.view t) :
    s.Evolves exempt hand s' :=
  fun regular => steady.evolution (tidy regular.tidy) fun t => same t ▸ .refl

end Scheduler

end LedgerScript

/-!
## Histories of locks

A task is inside a block of a lock if it has entered such blocks more often than it has left them.  A lock is given
back whoever holds it, so a task that leaves a block may take the lock away from another one.  A history is *fair* to a
lock if at each of its moments two unfinished tasks are inside blocks of the lock only after one of them was robbed of it,
and if the blame for the first such robbery falls on a task that had already ended.
-/

namespace LedgerScript

/-- A task leaves a block of a lock here. -/
def LockUse.leaves (t : TaskId) (m : ObjectId) : LockUse → Bool
  | left t' m' _ => t' = t ∧ m' = m
  | _ => false

namespace LockHistory

variable {h h' old : List LockUse} {u : LockUse} {d t : TaskId} {m : ObjectId}

def Inside (h : List LockUse) (t : TaskId) (m : ObjectId) : Prop :=
  h.countP (·.leaves t m) < h.count (.entered t m)

/-- After the moments `old`, the task `d` left a block of a lock that was held by `t`, which had not ended. -/
structure Robbery (h : List LockUse) (d t : TaskId) (m : ObjectId) (old : List LockUse) : Prop where
  moment : .left d m (some t) :: old <:+ h
  other : d ≠ t
  unfinished : .ended t ∉ old

def Robbed (h : List LockUse) (t : TaskId) (m : ObjectId) : Prop :=
  ∃ d old, Robbery h d t m old

/-- Somebody was robbed of a lock by a task that had ended. -/
def RobbedByEnded (h : List LockUse) (m : ObjectId) : Prop :=
  ∃ d t old, Robbery h d t m old ∧ .ended d ∈ old

/-- Two unfinished tasks are inside blocks of a lock only if one of them was robbed of it. -/
def Exclusive (h : List LockUse) (m : ObjectId) : Prop :=
  ∀ t u, t ≠ u → .ended t ∉ h → .ended u ∉ h → Inside h t m → Inside h u m → Robbed h t m ∨ Robbed h u m

/-- At every moment only one task is inside, unless one was robbed, and then it began with a task that had ended. -/
def Fair (h : List LockUse) (m : ObjectId) : Prop :=
  ∀ h', h' <:+ h → Exclusive h' m ∧ ∀ t, Robbed h' t m → RobbedByEnded h' m

/-- Nothing has happened yet. -/
theorem fair_nil (m : ObjectId) : Fair [] m := by
  intro h suffix
  obtain rfl := List.suffix_nil.mp suffix
  refine ⟨fun t u _ _ _ inside => absurd inside (Nat.lt_irrefl 0), ?_⟩
  rintro t ⟨d, old, moment, -, -⟩
  cases List.suffix_nil.mp moment

theorem Robbery.mono (robbery : Robbery h d t m old) (suffix : h <:+ h') : Robbery h' d t m old :=
  ⟨robbery.moment.trans suffix, robbery.other, robbery.unfinished⟩

theorem Robbed.mono (robbed : Robbed h t m) (suffix : h <:+ h') : Robbed h' t m := by
  obtain ⟨d, old, robbery⟩ := robbed
  exact ⟨d, old, robbery.mono suffix⟩

theorem RobbedByEnded.mono (robbed : RobbedByEnded h m) (suffix : h <:+ h') : RobbedByEnded h' m := by
  obtain ⟨d, t, old, robbery, ended⟩ := robbed
  exact ⟨d, t, old, robbery.mono suffix, ended⟩

theorem Robbed.of_cons (robbed : Robbed (u :: h) t m) :
    Robbed h t m ∨ ∃ d, u = .left d m (some t) ∧ d ≠ t ∧ .ended t ∉ h := by
  obtain ⟨d, old, moment, other, unfinished⟩ := robbed
  rcases List.suffix_cons_iff.mp moment with same | before
  · obtain ⟨rfl, rfl⟩ := List.cons.inj same
    exact .inr ⟨d, rfl, other, unfinished⟩
  · exact .inl ⟨d, old, before, other, unfinished⟩

theorem Inside.of_cons (inside : Inside (u :: h) t m) (other : u ≠ .entered t m) : Inside h t m := by
  unfold Inside at *
  rw [List.countP_cons, List.count_cons_of_ne other] at inside
  omega

theorem Exclusive.cons (exclusive : Exclusive h m) (other : ∀ t, u ≠ .entered t m) : Exclusive (u :: h) m := by
  intro t v ne unfinished unfinished' inside inside'
  have suffix : h <:+ u :: h := List.suffix_cons u h
  have robbed := exclusive t v ne (fun ended => unfinished (suffix.subset ended))
    (fun ended => unfinished' (suffix.subset ended)) (inside.of_cons (other t)) (inside'.of_cons (other v))
  exact robbed.imp (·.mono suffix) (·.mono suffix)

theorem Fair.cons (fair : Fair h m) (exclusive : Exclusive (u :: h) m)
    (blame : ∀ d t, u = .left d m (some t) → d ≠ t → .ended t ∉ h → RobbedByEnded (u :: h) m) : Fair (u :: h) m := by
  intro h' suffix
  rcases List.suffix_cons_iff.mp suffix with rfl | before
  · refine ⟨exclusive, fun t robbed => ?_⟩
    rcases robbed.of_cons with before | ⟨d, now, other, unfinished⟩
    · exact ((fair h List.suffix_rfl).2 t before).mono (List.suffix_cons u h)
    · exact blame d t now other unfinished
  · exact fair h' before

/-- Nothing changes while nobody enters or leaves a block of the lock. -/
theorem Fair.elsewhere (fair : Fair h m) (entered : ∀ t, u ≠ .entered t m) (left : ∀ t holder, u ≠ .left t m holder) :
    Fair (u :: h) m :=
  fair.cons ((fair h List.suffix_rfl).1.cons entered) fun d t now => absurd now (left d (some t))

theorem Fair.append_outside (fair : Fair h m) (new : List LockUse) (outside : ∀ u ∈ new, u.Outside) :
    Fair (new ++ h) m := by
  induction new with
  | nil => exact fair
  | cons u new ih =>
    have here : u.Outside := outside u List.mem_cons_self
    refine (ih fun v mem => outside v (List.mem_cons_of_mem u mem)).elsewhere ?_ ?_
    · rintro t rfl
      exact here
    · rintro t holder rfl
      exact here

theorem count_append_outside (new : List LockUse) (outside : ∀ u ∈ new, u.Outside) :
    (new ++ h).count (.entered t m) = h.count (.entered t m) ∧
      (new ++ h).countP (·.leaves t m) = h.countP (·.leaves t m) := by
  have entered : new.count (.entered t m) = 0 :=
    List.count_eq_zero.mpr fun mem => outside _ mem
  have left : new.countP (·.leaves t m) = 0 := by
    refine List.countP_eq_zero.mpr fun u mem leaves => ?_
    have here := outside u mem
    cases u with
    | left => exact here
    | entered | byHand | ended => cases leaves
  rw [List.count_append, List.countP_append, entered, left]
  exact ⟨Nat.zero_add _, Nat.zero_add _⟩

end LockHistory

end LedgerScript
