import LedgerScript.Proofs.Schedule.Flowing
import LedgerScript.Proofs.Schedule.Handover
import LedgerScript.Proofs.Schedule.Line

/-!
# Locks and semaphores are served in turn

The tasks that wait for a lock or a permit stand in a line that is served fairly, whatever the tasks do and whenever they
are killed.  A lock goes on when it is given back, or when somebody wants it whose holder has died; in both cases the
first in the line gets it.
-/

namespace LedgerScript

variable {S V E B A α : Type}
variable {m : ObjectId} {s : Scheduler V E B}

theorem SyncObject.isService_of_key? {o : SyncObject V} {key : WaitKey} (serves : o.key? m = some key) :
    key.isService = true := by
  cases o <;> cases serves <;> rfl

namespace Scheduler

variable {s s' s'' : Scheduler V E B} {actor hand : Option TaskId} {m l : ObjectId} {key : WaitKey} {o : SyncObject V}
  {t id me : TaskId} {gone : TaskId → Prop}
variable {holder : Option TaskId}

/-- Tasks wait under a key for a lock or a semaphore, and nobody waits for it when it can be had. -/
structure Lined (s : Scheduler V E B) (m : ObjectId) (key : WaitKey) (o : SyncObject V) : Prop where
  here : s.object? m = some o
  takeable : o.isTakeable = true
  serves : o.key? m = some key
  idle : o.IsFree → s.waitersOf key = []

def Settled (s : Scheduler V E B) (m : ObjectId) : Prop :=
  s.waitersOf (.lock m) = [] ∨ ∃ t, s.object? m = some (.lock (some t))

/-- While a task, or nobody, has its turn, those who wait for an object are served as they stand in line. -/
structure KeepsLine (actor : Option TaskId) (m : ObjectId) (s s' : Scheduler V E B) : Prop where
  killed : ∀ t, s.Killed t → s'.Killed t
  line : ∀ key o, s.Lined m key o → ∃ o' served, s'.object? m = some o' ∧
    SyncObject.LineSteps actor s'.Killed (o, s.waitersOf key) served (o', s'.waitersOf key)
  settled : s.Settled m → s'.Settled m

theorem KeepsLine.lined (keeps : s.KeepsLine actor m s') (lined : s.Lined m key o) :
    ∃ o' served, s'.Lined m key o' ∧
      SyncObject.LineSteps actor s'.Killed (o, s.waitersOf key) served (o', s'.waitersOf key) := by
  obtain ⟨o', served, here, steps⟩ := keeps.line key o lined
  obtain ⟨takeable, same⟩ := steps.same
  exact ⟨o', served, ⟨here, takeable.trans lined.takeable, (same m).trans lined.serves, steps.idle lined.idle⟩, steps⟩

theorem KeepsLine.refl (actor : Option TaskId) (m : ObjectId) (s : Scheduler V E B) : s.KeepsLine actor m s :=
  ⟨fun _ dead => dead, fun _ o stands => ⟨o, [], stands.here, .refl _⟩, fun settled => settled⟩

theorem KeepsLine.trans (first : s.KeepsLine actor m s') (second : s'.KeepsLine actor m s'') : s.KeepsLine actor m s'' := by
  refine ⟨fun t => second.killed t ∘ first.killed t, fun key o lined => ?_, second.settled ∘ first.settled⟩
  obtain ⟨o', served, lined', steps⟩ := first.lined lined
  obtain ⟨o'', served', here, steps'⟩ := second.line key o' lined'
  exact ⟨o'', served ++ served', here, (steps.mono second.killed).trans steps'⟩

/-- A lock is in the books, and nobody waits for it or somebody has it. -/
theorem Settled.lined (settled : s.Settled m) (here : s.object? m = some (.lock holder)) :
    s.Lined m (.lock m) (.lock holder) := by
  refine ⟨here, rfl, rfl, ?_⟩
  rintro rfl
  refine settled.resolve_right ?_
  rintro ⟨t, held⟩
  cases here.symm.trans held

/-- A lock is what tasks wait for under the key of a lock. -/
theorem Lined.lock (lined : s.Lined m (.lock l) o) : m = l ∧ ∃ holder, o = .lock holder := by
  obtain ⟨-, -, serves, -⟩ := lined
  cases o with
  | lock holder =>
    cases serves
    exact ⟨rfl, holder, rfl⟩
  | semaphore | barrier | channel => cases serves

theorem Lined.semaphore (lined : s.Lined m (.permit l) o) : m = l ∧ ∃ n, o = .semaphore n := by
  obtain ⟨-, -, serves, -⟩ := lined
  cases o with
  | semaphore n =>
    cases serves
    exact ⟨rfl, n, rfl⟩
  | lock | barrier | channel => cases serves

theorem Flows.keepsLine {apart : WaitKey → Prop} (flows : s.Flows apart s')
    (line : ∀ key o, apart key → s.Lined m key o → ∃ o' served, s'.object? m = some o' ∧
      SyncObject.LineSteps actor s'.Killed (o, s.waitersOf key) served (o', s'.waitersOf key))
    (settled : apart (.lock m) → s.Settled m → s'.Settled m) : s.KeepsLine actor m s' := by
  refine ⟨flows.killed, fun key o lined => ?_, fun before => ?_⟩
  · by_cases mine : apart key
    · exact line key o mine lined
    · obtain ⟨fewer, dead⟩ := flows.lines key (SyncObject.isService_of_key? lined.serves) mine
      exact ⟨o, [], flows.objects m o key lined.here lined.serves mine, .single (.leave fewer dead)⟩
  · by_cases mine : apart (.lock m)
    · exact settled mine before
    · obtain nobody | ⟨t, held⟩ := before
      · exact .inl (List.sublist_nil.mp (nobody ▸ (flows.lines (.lock m) rfl mine).1))
      · exact .inr ⟨t, flows.objects m _ _ held rfl mine⟩

/-- What sets no line apart serves nobody. -/
theorem Flows.keeps (flows : s.Flows (fun _ => False) s') : s.KeepsLine actor m s' :=
  flows.keepsLine (fun _ _ mine => mine.elim) fun mine => mine.elim

/-! ## The first in the line -/

/-- A task that does not wait is only enqueued. -/
theorem wake_lines (s : Scheduler V E B) (free : s.parked.get? id = none) :
    (∀ key, (s.wake id).waitersOf key = s.waitersOf key) ∧ (s.wake id).objects = s.objects := by
  unfold wake unregister
  rw [free]
  split
  · exact ⟨fun _ => rfl, rfl⟩
  · obtain ⟨ready, readySet, tasks, eq⟩ := s.enqueue_eq id
    rw [eq]
    exact ⟨fun _ => rfl, rfl⟩

/-- The first of those who wait leaves the line. -/
theorem waitersOf_unregister (s : Scheduler V E B) {rest : List TaskId} (first : s.waitersOf key = id :: rest)
    (parked : s.parked.get? id = some key) : (s.unregister id).waitersOf key = rest := by
  unfold unregister
  rw [parked]
  show (s.removeWaiter key id).waitersOf key = rest
  rw [removeWaiter, waitersOf_setWaiters, if_pos rfl, first, List.erase_cons_head]

/-- Somebody is taken from those who wait: nobody does, or the first one leaves the line. -/
theorem Regular.pop (regular : s.Regular hand) (key : WaitKey) :
    s.popWaiter key = (none, s) ∧ s.waitersOf key = [] ∨
      ∃ t, s.popWaiter key = (some t, s.unregister t) ∧ s.waitersOf key = t :: (s.unregister t).waitersOf key ∧
        (s.unregister t).objects = s.objects ∧ (s.unregister t).parked.get? t = none := by
  rw [popWaiter_eq (regular.waiters_unfinished key) regular.tidy]
  cases first : s.waitersOf key with
  | nil => exact .inl ⟨rfl, rfl⟩
  | cons t rest =>
    have parked := (regular.tidy.parked_iff t key).mpr (first ▸ List.mem_cons_self)
    have free : ((s.unregister t).view t).parked = none := by rw [view_unregister, if_pos rfl]
    exact .inr ⟨t, rfl, by rw [s.waitersOf_unregister first parked], (s.steady_unregister t).objects, free⟩

/-! ## Locks -/

theorem object?_setHolder (s : Scheduler V E B) (here : s.object? l = some (.lock holder))
    (next : Option TaskId) : (s.setHolder l next).object? l = some (.lock next) := by
  rw [setHolder, object?_modifyObject, if_pos rfl, here]
  rfl

theorem waitersOf_setHolder (s : Scheduler V E B) (l : ObjectId) (next : Option TaskId) (key : WaitKey) :
    (s.setHolder l next).waitersOf key = s.waitersOf key := by
  rw [setHolder, modifyObject_eq]
  rfl

/-- A lock is passed on: to nobody if nobody waits for it, or to the first of those who do. -/
theorem passLock_spec (regular : s.Regular hand) (l : ObjectId) :
    (s.passLock l = (none, s.setHolder l none) ∧ s.waitersOf (.lock l) = []) ∨
      ∃ t s₁, s.passLock l = (some t, s₁) ∧ s.waitersOf (.lock l) = t :: s₁.waitersOf (.lock l) ∧
        s₁.objects = (s.setHolder l (some t)).objects := by
  unfold passLock
  obtain ⟨popped, nobody⟩ | ⟨t, popped, line, objects, free⟩ := regular.pop (.lock l)
  · rw [popped]
    exact .inl ⟨rfl, nobody⟩
  · rw [popped]
    have parked : ((s.unregister t).setHolder l (some t)).parked.get? t = none := by
      rwa [setHolder, modifyObject_eq]
    obtain ⟨waiters, objects'⟩ := wake_lines _ parked
    refine .inr ⟨t, _, rfl, ?_, ?_⟩
    · rw [line, waiters, waitersOf_setHolder]
    · rw [objects']
      unfold setHolder modifyObject
      split
      · exact objects
      · rw [objects]

/-- A lock that is passed on goes to the first in the line. -/
theorem keepsLine_passLock (regular : s.Regular hand) (l : ObjectId) : s.KeepsLine actor m (s.passLock l).2 := by
  have flows : s.Flows (.lock l = ·) (s.passLock l).2 := s.flows_passLock l rfl
  refine flows.keepsLine ?_ ?_
  · rintro _ o rfl lined
    obtain ⟨rfl, holder, rfl⟩ := lined.lock
    have next := s.object?_setHolder lined.here
    obtain ⟨passed, nobody⟩ | ⟨t, s₁, passed, line, objects⟩ := passLock_spec regular m
    · rw [passed, nobody]
      refine ⟨_, [], next none, ?_⟩
      rw [waitersOf_setHolder, nobody]
      exact .single .giveBack
    · rw [passed, line]
      refine ⟨.lock (some t), [t], ?_, .single .grant⟩
      rw [object?, objects]
      exact next (some t)
  · intro same settled
    cases same
    obtain ⟨passed, nobody⟩ | ⟨t, s₁, passed, line, objects⟩ := passLock_spec regular m
    · rw [passed]
      exact .inl ((s.waitersOf_setHolder m none _).trans nobody)
    · rw [passed]
      obtain nobody | ⟨u, held⟩ := settled
      · rw [nobody] at line
        cases line
      · refine .inr ⟨t, ?_⟩
        rw [object?, objects]
        exact s.object?_setHolder held (some t)

theorem keepsLine_lockIsFree (regular : s.Regular hand) (l : ObjectId) : s.KeepsLine actor m (s.lockIsFree l).2 := by
  unfold lockIsFree
  split
  · exact .refl actor m s
  · split
    · exact keepsLine_passLock regular l
    · exact .refl actor m s
  · exact .refl actor m s

/-- A lock can be taken if nobody has it, which is so if nobody waits for the lock of a finished task. -/
theorem lockIsFree_spec (regular : s.Regular hand) (here : s.object? l = some (.lock holder)) :
    ∃ holder', (s.lockIsFree l).2.object? l = some (.lock holder') ∧ ((s.lockIsFree l).1 = true ↔ holder' = none) := by
  unfold lockIsFree
  rw [here]
  cases holder with
  | none => exact ⟨none, here, by simp⟩
  | some t =>
    dsimp only
    split
    · obtain ⟨passed, -⟩ | ⟨t, s₁, passed, -, objects⟩ := passLock_spec regular l
      · rw [passed]
        exact ⟨none, s.object?_setHolder here none, by simp⟩
      · rw [passed]
        refine ⟨some t, ?_, by simp⟩
        show s₁.object? l = _
        rw [object?, objects]
        exact s.object?_setHolder here (some t)
    · exact ⟨some t, here, by simp⟩

/-- A lock is taken that nobody has. -/
theorem keepsLine_setHolder (free : s.object? l = some (.lock none)) (me : TaskId) :
    s.KeepsLine (some me) m (s.setHolder l (some me)) := by
  have taken := s.object?_setHolder free (some me)
  have flows : s.Flows (.lock l = ·) (s.setHolder l (some me)) := s.flows_setHolder l _ rfl
  refine flows.keepsLine ?_ ?_
  · rintro _ o rfl lined
    obtain ⟨rfl, holder, rfl⟩ := lined.lock
    cases free.symm.trans lined.here
    have nobody := lined.idle rfl
    refine ⟨_, [], taken, ?_⟩
    rw [waitersOf_setHolder, nobody]
    exact .single (.take rfl rfl)
  · intro same _
    cases same
    exact .inr ⟨me, taken⟩

/-! ## Waiting -/

/-- A task joins those who wait under a key at the end, unless it is among them. -/
theorem waitersOf_park (tidy : s.Tidy) (me : TaskId) (key : WaitKey) (reason : WaitReason) :
    (s.park me (some key) reason).waitersOf key =
      if me ∈ s.waitersOf key then s.waitersOf key else s.waitersOf key ++ [me] := by
  have same : (s.park me (some key) reason).waitersOf key = (s.register me key).waitersOf key := by
    show ((s.register me key).modifyTask me _).waitersOf key = _
    rw [modifyTask_eq]
    rfl
  rw [same, register_eq]
  by_cases here : s.parked.get? me = some key
  · rw [if_pos here, if_pos ((tidy.parked_iff me key).mp here)]
  · rw [if_neg here, if_neg (mt (tidy.parked_iff me key).mpr here)]
    have left : (s.unregister me).waitersOf key = s.waitersOf key := by
      unfold unregister
      split
      · rfl
      · rename_i before parked
        show (s.removeWaiter before me).waitersOf key = _
        rw [removeWaiter, waitersOf_setWaiters, if_neg]
        rintro rfl
        exact here parked
    rw [waitersOf, addWaiter, FinMap.get?_set, if_pos rfl, Option.getD_some, left]

theorem object?_park (s : Scheduler V E B) (me : TaskId) (key : WaitKey) (reason : WaitReason) (m : ObjectId) :
    (s.park me (some key) reason).object? m = s.object? m := by
  have objects : (s.park me (some key) reason).objects = s.objects := by
    show ((s.register me key).modifyTask me _).objects = _
    rw [modifyTask_eq, register_eq]
    split
    · rfl
    · exact (s.steady_unregister me).objects
  rw [object?, objects]
  rfl

/-- Who can not have what it wants joins the line at its end. -/
theorem lineSteps_park (tidy : s.Tidy) (wanted : ¬ o.IsFree) (key : WaitKey) (reason : WaitReason) :
    SyncObject.LineSteps (some me) gone (o, s.waitersOf key) [] (o, (s.park me (some key) reason).waitersOf key) := by
  rw [waitersOf_park tidy]
  split
  · exact .refl _
  · rename_i new
    exact .single (.join rfl wanted new)

/-- The task in turn waits for a lock that somebody has. -/
theorem keepsLine_park_lock (regular : s.Regular (some me)) {holder : TaskId}
    (held : s.object? l = some (.lock (some holder))) : s.KeepsLine (some me) m (s.park me (some (.lock l)) .lock) := by
  have same := (s.object?_park me (.lock l) .lock l).trans held
  have flows : s.Flows (.lock l = ·) (s.park me (some (.lock l)) .lock) :=
    s.flows_park regular.aside_hand (fun _ => rfl) _
  refine flows.keepsLine ?_ ?_
  · rintro _ o rfl lined
    obtain ⟨rfl, holder, rfl⟩ := lined.lock
    cases held.symm.trans lined.here
    have wanted : ¬ (SyncObject.lock (some holder) : SyncObject V).IsFree := Option.some_ne_none holder
    exact ⟨_, [], same, lineSteps_park regular.tidy wanted _ _⟩
  · intro here _
    cases here
    exact .inr ⟨holder, same⟩

/-- The task in turn waits for a permit when there is none. -/
theorem keepsLine_park_permit (regular : s.Regular (some me)) (none : ¬ 0 < s.permits l) :
    s.KeepsLine (some me) m (s.park me (some (.permit l)) .semaphore) := by
  have flows : s.Flows (.permit l = ·) (s.park me (some (.permit l)) .semaphore) :=
    s.flows_park regular.aside_hand (fun _ => rfl) _
  refine flows.keepsLine ?_ fun same => WaitKey.noConfusion same
  rintro _ o rfl lined
  obtain ⟨rfl, n, rfl⟩ := lined.semaphore
  have wanted : ¬ (SyncObject.semaphore n : SyncObject V).IsFree := by
    rw [permits, lined.here] at none
    exact none
  exact ⟨_, [], (s.object?_park me _ _ m).trans lined.here, lineSteps_park regular.tidy wanted _ _⟩

/-! ## What is done with locks and semaphores -/

/-- After it was found out whether a lock can be taken, it is taken or waited for. -/
theorem keepsLine_takeLock (regular : s.Regular (some me)) (runs : s.current = some me) (l : ObjectId) :
    s.KeepsLine (some me) m (s.takeLock l).2 := by
  have checked : s.KeepsLine (some me) m (s.lockIsFree l).2 := keepsLine_lockIsFree regular l
  have evolution : s.Evolution (some l) (some me) (s.lockIsFree l).2 := s.evolves_lockIsFree l regular
  have regular₁ := regular.evolve evolution
  unfold takeLock
  rw [runs]
  cases here : s.object? l with
  | none => exact .refl _ m s
  | some o =>
    cases o with
    | lock holder =>
      obtain ⟨holder', here', free⟩ := lockIsFree_spec regular here
      dsimp only
      split
      · rename_i s₁ eq
        rw [eq] at checked here' free
        rw [free.mp rfl] at here'
        exact checked.trans (keepsLine_setHolder here' me)
      · rename_i s₁ eq
        rw [eq] at checked here' free regular₁
        cases holder' with
        | none => exact absurd (free.mpr rfl) Bool.false_ne_true
        | some t => exact checked.trans (keepsLine_park_lock regular₁ here')
    | semaphore | barrier | channel => exact .refl _ m s

theorem keepsLine_acquireLock (regular : s.Regular (some me)) (runs : s.current = some me) (l : ObjectId) :
    s.KeepsLine (some me) m (s.acquireLock l).2 := by
  have noted : (s.use (.byHand l)).Regular (some me) := regular.use nofun
  exact (s.flows_use (.byHand l)).keeps.trans (keepsLine_takeLock noted runs l)

theorem lockIsFree_other (s : Scheduler V E B) (other : ∀ holder, s.object? l ≠ some (.lock holder)) :
    s.lockIsFree l = (false, s) := by
  unfold lockIsFree
  split
  · rename_i here
    exact absurd here (other _)
  · rename_i here
    exact absurd here (other _)
  · rfl

theorem keepsLine_tryLock (regular : s.Regular (some me)) (runs : s.current = some me) (l : ObjectId) :
    s.KeepsLine (some me) m (s.tryLock l).2 := by
  unfold tryLock
  rw [runs]
  refine (s.flows_use (.byHand l)).keeps.trans ?_
  have regular₁ : (s.use (.byHand l)).Regular (some me) := regular.use nofun
  have checked : (s.use (.byHand l)).KeepsLine (some me) m ((s.use (.byHand l)).lockIsFree l).2 :=
    keepsLine_lockIsFree regular₁ l
  dsimp only
  by_cases here : ∃ holder, (s.use (.byHand l)).object? l = some (.lock holder)
  · obtain ⟨holder, here⟩ := here
    obtain ⟨holder', here', free⟩ := lockIsFree_spec regular₁ here
    split
    · rename_i s₁ eq
      rw [eq] at checked here' free
      rw [free.mp rfl] at here'
      exact checked.trans (keepsLine_setHolder here' me)
    · rename_i s₁ eq
      rw [eq] at checked
      exact checked
  · rw [lockIsFree_other _ fun holder here' => here ⟨holder, here'⟩]
    exact .refl _ m _

theorem keepsLine_releaseLock (regular : s.Regular hand) (l : ObjectId) : s.KeepsLine actor m (s.releaseLock l) := by
  have noted : (s.use (.byHand l)).Regular hand := regular.use nofun
  exact (s.flows_use (.byHand l)).keeps.trans (keepsLine_passLock noted l)

theorem keepsLine_leaveBlock (regular : s.Regular hand) (l : ObjectId) : s.KeepsLine actor m (s.leaveBlock l) := by
  have noted : (s.use (.left (s.current.getD 0) l (s.lockHolder l))).Regular hand := regular.use nofun
  exact (s.flows_use _).keeps.trans (keepsLine_passLock noted l)

theorem object?_setPermits (s : Scheduler V E B) {n : Int} (here : s.object? l = some (.semaphore n)) (n' : Int) :
    (s.setPermits l n').object? l = some (.semaphore n') := by
  rw [setPermits, object?_modifyObject, if_pos rfl, here]
  rfl

theorem waitersOf_setPermits (s : Scheduler V E B) (l : ObjectId) (n : Int) (key : WaitKey) :
    (s.setPermits l n).waitersOf key = s.waitersOf key := by
  rw [setPermits, modifyObject_eq]
  rfl

/-- A permit is taken if there is one. -/
theorem keepsLine_tryAcquire (s : Scheduler V E B) (me : TaskId) (l : ObjectId) :
    s.KeepsLine (some me) m (s.tryAcquire l).2 := by
  unfold tryAcquire
  split
  · rename_i free
    have flows : s.Flows (.permit l = ·) (s.setPermits l (s.permits l - 1)) := s.flows_setPermits l _ rfl
    refine flows.keepsLine ?_ fun same => WaitKey.noConfusion same
    rintro _ o rfl lined
    obtain ⟨rfl, n, rfl⟩ := lined.semaphore
    have permits : s.permits m = n := by rw [permits, lined.here]
    rw [permits] at free ⊢
    refine ⟨_, [], s.object?_setPermits lined.here _, ?_⟩
    rw [waitersOf_setPermits, lined.idle free]
    exact .single (.take rfl free)
  · exact .refl _ m s

theorem keepsLine_acquirePermit (regular : s.Regular (some me)) (runs : s.current = some me) (l : ObjectId) :
    s.KeepsLine (some me) m (s.acquirePermit l).2 := by
  have tried : s.KeepsLine (some me) m (s.tryAcquire l).2 := s.keepsLine_tryAcquire me l
  unfold acquirePermit
  rw [runs]
  dsimp only
  split
  · rename_i s₁ eq
    rw [eq] at tried
    exact tried
  · rename_i s₁ eq
    unfold tryAcquire at eq
    split at eq
    · cases eq
    · rename_i none
      cases eq
      exact keepsLine_park_permit regular none

/-- A permit goes to the first in the line, or back to the semaphore. -/
theorem keepsLine_releasePermit (regular : s.Regular hand) (l : ObjectId) : s.KeepsLine actor m (s.releasePermit l) := by
  have flows : s.Flows (.permit l = ·) (s.releasePermit l) := s.flows_releasePermit l rfl
  refine flows.keepsLine ?_ fun same => WaitKey.noConfusion same
  rintro _ o rfl lined
  obtain ⟨rfl, n, rfl⟩ := lined.semaphore
  unfold releasePermit
  obtain ⟨popped, nobody⟩ | ⟨t, popped, line, objects, free⟩ := regular.pop (.permit m)
  · rw [popped]
    have permits : s.permits m = n := by rw [permits, lined.here]
    dsimp only
    rw [permits]
    refine ⟨_, [], s.object?_setPermits lined.here _, ?_⟩
    rw [waitersOf_setPermits, nobody]
    exact .single .giveBack
  · rw [popped]
    obtain ⟨waiters, objects'⟩ := wake_lines _ free
    dsimp only
    rw [waiters, line]
    refine ⟨.semaphore n, [t], ?_, .single .grant⟩
    rw [object?, objects', objects]
    exact lined.here

end Scheduler

/-- An operation that is over at once serves those who wait as they stand in line. -/
theorem TaskOp.keepsLine {me : TaskId} (op : TaskOp V E B α)
    (regular : s.Regular (some me)) (runs : s.current = some me) : s.KeepsLine (some me) m (op.run s).2 := by
  have flows : s.Flows op.about (op.run s).2 := op.flows regular
  cases op with
  | tryLock l k => exact Scheduler.keepsLine_tryLock regular runs l
  | unlock l => exact Scheduler.keepsLine_releaseLock regular l
  | tryAcquire l k => exact s.keepsLine_tryAcquire me l
  | release l => exact Scheduler.keepsLine_releasePermit regular l
  | read | note | interrupt | spawn | cancel | setDeadline | newLock | newSemaphore | newBarrier | newChannel | tryReceive
  | close => exact flows.keeps

/-- So does one that may suspend, whether it is done at once or not. -/
theorem WaitOp.keepsLine {me : TaskId} (op : WaitOp V) (regular : s.Regular (some me))
    (runs : s.current = some me) : s.KeepsLine (some me) m (op.start s).2 := by
  have flows : s.Flows op.about (op.start s).2 := op.flows (runs ▸ regular)
  cases op with
  | lock l => exact Scheduler.keepsLine_acquireLock regular runs l
  | permit l => exact Scheduler.keepsLine_acquirePermit regular runs l
  | barrier b =>
    refine flows.keepsLine ?_ fun same => WaitKey.noConfusion same
    rintro _ o rfl lined
    obtain ⟨-, takeable, serves, -⟩ := lined
    cases o with
    | barrier => cases takeable
    | lock | semaphore | channel => cases serves
  | await | yield | sleep | send | receive => exact flows.keeps

namespace Scheduler

variable {V E B : Type} {s s' : Scheduler V E B} {me : TaskId} {m : ObjectId}

/-- Operations one after another serve those who wait as they stand in line. -/
theorem Steps.keepsLine (steps : s.Steps s') (regular : s.Regular (some me)) (runs : s.current = some me) :
    s.KeepsLine (some me) m s' := by
  induction steps with
  | refl => exact .refl _ m s
  | tail first op ih =>
    have evolution := first.evolves regular
    exact ih.trans (op.keepsLine (regular.evolve evolution) (evolution.current.trans runs))

/-- What the task in turn does serves those who wait as they stand in line. -/
theorem Work.keepsLine (work : s.Work s') (regular : s.Regular (some me)) (runs : s.current = some me) :
    s.KeepsLine (some me) m s' := by
  cases work with
  | operate steps => exact steps.keepsLine regular runs
  | @attempt _ op r done =>
    have started : s.KeepsLine (some me) m (op.start s).2 := op.keepsLine regular runs
    rwa [done] at started
  | @stay _ op parked killed =>
    have started : s.KeepsLine (some me) m (op.start s).2 := op.keepsLine regular runs
    rwa [parked] at started
  | awake op => exact (op.flows_finish s).keeps
  | @refuse _ l f refused =>
    have taken : s.KeepsLine (some me) m (s.takeLock l).2 := keepsLine_takeLock regular runs l
    rwa [refused] at taken
  | @deny _ l parked killed =>
    have taken : s.KeepsLine (some me) m (s.takeLock l).2 := keepsLine_takeLock regular runs l
    rwa [parked] at taken

/-- Nobody is served when a ready task is picked. -/
theorem keepsLine_nextReady (s : Scheduler V E B) (actor : Option TaskId) (m : ObjectId) :
    s.KeepsLine actor m s.nextReady.2 := by
  obtain ⟨ready, readySet, picks, eq⟩ := pickReady_eq s.ready.length s
  rw [nextReady, eq]
  exact ⟨fun _ dead => dead, fun _ o lined => ⟨o, [], lined.here, .refl _⟩, fun settled => settled⟩

/-- What happens between two turns serves nobody. -/
theorem Interlude.keepsLine (interlude : s.Interlude s') (regular : s.Regular none) : s.KeepsLine none m s' := by
  cases interlude with
  | idle nobody =>
    have picked := s.keepsLine_nextReady none m
    rwa [nobody] at picked
  | fire n => exact (flows_fireDue n regular).keeps
  | advance later => exact (flows_advance? regular later).keeps
  | kill id cause => exact (s.flows_kill id cause).keeps
  | note e => exact (s.flows_note e).keeps

end Scheduler

namespace Scheduler

variable {V E B : Type} {s : Scheduler V E B} {hand : Option TaskId} {m : ObjectId} {key : WaitKey} {o : SyncObject V}

/-- An attempt to take something that tasks wait for would succeed at once. -/
inductive Takes (s : Scheduler V E B) (m : ObjectId) : Prop where
  | lock (done : (s.acquireLock m).1 = .done none)
  | block (done : (s.takeLock m).1 = .done none)
  | tryLock (done : (s.tryLock m).1 = true)
  | permit (done : (s.acquirePermit m).1 = .done none)
  | tryPermit (done : (s.tryAcquire m).1 = true)

theorem Lined.nobody_lock (lined : s.Lined m key o) (regular : s.Regular hand) (free : (s.lockIsFree m).1 = true) :
    s.waitersOf key = [] := by
  unfold lockIsFree at free
  split at free
  · rename_i here
    cases here.symm.trans lined.here
    exact lined.idle rfl
  · rename_i here
    split at free
    · cases here.symm.trans lined.here
      cases lined.serves
      obtain ⟨-, nobody⟩ | ⟨t, s₁, passed, -⟩ := passLock_spec regular m
      · exact nobody
      · rw [passed] at free
        cases free
    · cases free
  · cases free

theorem Lined.nobody_takeLock (lined : s.Lined m key o) (regular : s.Regular hand) (done : (s.takeLock m).1 = .done none) :
    s.waitersOf key = [] := by
  unfold takeLock at done
  split at done
  · split at done
    · rename_i eq
      exact lined.nobody_lock regular (congrArg Prod.fst eq)
    · cases done
  · cases done

theorem Lined.nobody_permit (lined : s.Lined m key o) (free : (s.tryAcquire m).1 = true) : s.waitersOf key = [] := by
  unfold tryAcquire at free
  split at free
  · rename_i some
    unfold permits at some
    split at some
    · rename_i here
      cases here.symm.trans lined.here
      exact lined.idle some
    · exact absurd some (Int.lt_irrefl 0)
  · cases free

/-- Nobody gets at once what others wait for. -/
theorem Lined.nobody (lined : s.Lined m key o) (regular : s.Regular hand) (takes : s.Takes m) : s.waitersOf key = [] := by
  have lined₁ : (s.use (.byHand m)).Lined m key o := ⟨lined.here, lined.takeable, lined.serves, lined.idle⟩
  have regular₁ : (s.use (.byHand m)).Regular hand := regular.use nofun
  cases takes with
  | lock done => exact lined₁.nobody_takeLock regular₁ done
  | block done => exact lined.nobody_takeLock regular done
  | tryLock done =>
    unfold tryLock at done
    split at done
    · cases done
    · split at done
      · rename_i eq
        exact lined₁.nobody_lock regular₁ (congrArg Prod.fst eq)
      · cases done
  | permit done =>
    unfold acquirePermit at done
    split at done
    · cases done
    · split at done
      · rename_i eq
        exact lined.nobody_permit (congrArg Prod.fst eq)
      · cases done
  | tryPermit done => exact lined.nobody_permit done

end Scheduler

namespace Scene

open Scheduler

variable {V E B : Type} {x y z : Scene V E B} {m : ObjectId} {key : WaitKey} {t : TaskId}

/-- Whatever happens, those who wait for an object are served as they stand in line. -/
theorem Orderly.keepsLine (orderly : x.Orderly) (step : x.Step y) : x.sched.KeepsLine x.hand m y.sched := by
  obtain ⟨regular, current⟩ := orderly
  have left {s : Scheduler V E B} (actor : Option TaskId) : s.KeepsLine actor m (s.notePark.setCurrent none) :=
    (s.flows_notePark.trans (flows_setCurrent _ none)).keeps
  cases step with
  | between free interlude =>
    rw [free] at regular ⊢
    exact interlude.keepsLine regular
  | unwind free first => exact Flows.keeps flows_of_eq
  | @dispatch me s free next =>
    have picked := x.sched.keepsLine_nextReady x.hand m
    rw [next] at picked
    exact picked.trans ((s.flows_setRunning me).trans (flows_setCurrent _ (some me))).keeps
  | work turn calm work =>
    rw [turn] at regular current ⊢
    exact work.keepsLine regular current
  | @park me s op turn calm parked alive =>
    rw [turn] at regular current ⊢
    have started : x.sched.KeepsLine (some me) m (op.start x.sched).2 := op.keepsLine regular current
    rw [parked] at started
    exact started.trans (left _)
  | @enter me s l turn calm taken =>
    rw [turn] at regular current ⊢
    have took : x.sched.KeepsLine (some me) m (x.sched.takeLock l).2 := keepsLine_takeLock regular current l
    rw [taken] at took
    exact took.trans (s.flows_use _).keeps
  | @queue me s l turn calm parked alive =>
    rw [turn] at regular current ⊢
    have took : x.sched.KeepsLine (some me) m (x.sched.takeLock l).2 := keepsLine_takeLock regular current l
    rw [parked] at took
    exact took.trans (left _)
  | @enterAfter me l turn waited alive => exact (x.sched.flows_use _).keeps
  | giveUp turn => exact .refl _ m x.sched
  | @leave me l ms turn calm inside => exact keepsLine_leaveBlock regular l
  | rest turn done => exact (x.sched.flows_setCurrent none).keeps
  | @finish me turn errorText result fault =>
    rw [turn] at regular
    exact ((x.sched.flows_finish errorText me result fault regular.free_hand).trans (flows_setCurrent _ none)).keeps

theorem Orderly.lined {o : SyncObject V} (orderly : x.Orderly) (lined : x.sched.Lined m key o) (steps : x.Steps y) :
    y.Orderly ∧ ∃ o, y.sched.Lined m key o := by
  induction steps with
  | refl => exact ⟨orderly, o, lined⟩
  | tail _ step ih =>
    obtain ⟨orderly, o, lined⟩ := ih
    obtain ⟨o', -, lined', -⟩ := (orderly.keepsLine step).lined lined
    exact ⟨orderly.step step, o', lined'⟩

theorem Orderly.settled (orderly : x.Orderly) (settled : x.sched.Settled m) (steps : x.Steps y) : y.sched.Settled m := by
  induction steps with
  | refl => exact settled
  | tail before step ih => exact ((orderly.steps before).keepsLine step).settled ih

/-- One step after another while a task does not get its turn, and those who are served on the way. -/
inductive Serves (m : ObjectId) (key : WaitKey) (t : TaskId) (x : Scene V E B) : List TaskId → Scene V E B → Prop where
  | refl : Serves m key t x [] x
  | tail {y z : Scene V E B} {served served' : List TaskId} {o o' : SyncObject V} (first : Serves m key t x served y)
    (step : y.Step z) (other : y.hand ≠ some t) (before : y.sched.object? m = some o) (after : z.sched.object? m = some o')
    (line : SyncObject.LineSteps y.hand z.sched.Killed (o, y.sched.waitersOf key) served' (o', z.sched.waitersOf key)) :
    Serves m key t x (served ++ served') z

theorem Serves.steps {served : List TaskId} (serves : Serves m key t x served y) : x.Steps y := by
  induction serves with
  | refl => exact .refl
  | tail _ step _ _ _ _ ih => exact ih.tail step

/-- From a scene on, an object is there, and those who wait for it under a key stand in a line that is served fairly. -/
structure FairTo (x : Scene V E B) (m : ObjectId) (key : WaitKey) : Prop where
  /-- Nobody waits for it when it can be had. -/
  idle : ∀ y, x.Steps y → ∃ o, y.sched.Lined m key o
  /-- Every step serves the first ones in the line, and lets others only join it at its end. -/
  line : ∀ y z, x.Steps y → y.Step z → ∃ o o' served, y.sched.object? m = some o ∧ z.sched.object? m = some o' ∧
    SyncObject.LineSteps y.hand z.sched.Killed (o, y.sched.waitersOf key) served (o', z.sched.waitersOf key)
  /-- Nobody gets it at once while others wait. -/
  takes : ∀ y, x.Steps y → y.sched.Takes m → y.sched.waitersOf key = []
  /-- While somebody waits it does not get its turn, unless it has been killed. -/
  turn : ∀ y t, x.Steps y → t ∈ y.sched.waitersOf key → y.hand = some t → y.sched.Killed t
  /-- Nobody is served before those who stood in front of it, unless they have been killed. -/
  order : ∀ y z t served, x.Steps y → t ∈ y.sched.waitersOf key → Serves m key t y served z →
    SyncObject.ServedAfter z.sched.Killed t (ahead t (y.sched.waitersOf key)) served (z.sched.waitersOf key)

/-- Whoever waits in an orderly line is served after those in front. -/
theorem Orderly.servedAfter {served : List TaskId} (orderly : x.Orderly) (waits : t ∈ x.sched.waitersOf key)
    (serves : Serves m key t x served y) :
    SyncObject.ServedAfter y.sched.Killed t (ahead t (x.sched.waitersOf key)) served (y.sched.waitersOf key) := by
  induction serves with
  | refl => exact .waits waits (.refl _) fun u mem => .inl mem
  | @tail y z served served' o o' first step other before after line ih =>
    have order := orderly.steps first.steps
    exact (ih.mono (order.keepsLine (m := m) step).killed).steps line other (order.regular.tidy.waiters_nodup key)

/-- What tasks wait for is served fairly from the moment on at which it is there and nobody waits for it in vain. -/
theorem Orderly.fairTo {o : SyncObject V} (orderly : x.Orderly) (lined : x.sched.Lined m key o) : x.FairTo m key where
  idle y steps := (orderly.lined lined steps).2
  line y z steps step := by
    obtain ⟨order, o, lined⟩ := orderly.lined lined steps
    obtain ⟨o', served, here, line⟩ := (order.keepsLine step).line key o lined
    exact ⟨o, o', served, lined.here, here, line⟩
  takes y steps takes := by
    obtain ⟨order, o, lined⟩ := orderly.lined lined steps
    exact lined.nobody order.regular takes
  turn y t steps waits here := by
    obtain ⟨order, o, lined⟩ := orderly.lined lined steps
    have regular := order.regular
    rw [here] at regular
    have parked := (regular.tidy.parked_iff t key).mpr waits
    exact regular.aside_hand key parked (SyncObject.isService_of_key? lined.serves)
  order y z t served steps waits serves := (orderly.steps steps).servedAfter waits serves

end Scene

/-- Before a run nobody waits. -/
theorem Scheduler.Prepared.settled (prepared : s.Prepared) (m : ObjectId) : s.Settled m := by
  refine .inl (List.eq_nil_iff_forall_not_mem.mpr fun t waits => ?_)
  have parked := (prepared.regular.1.tidy.parked_iff t (.lock m)).mpr waits
  cases (prepared.nobody_waits t).symm.trans parked

/-- Whatever the tasks do and whenever they are killed, every lock is served fairly, and so is every semaphore from the
moment on at which it is there and nobody waits for it. -/
theorem locks_and_permits_in_turn {m : Machine S V E B A} (host : Host S V E B A) (fresh : m.Fresh)
    {stage : Stage S V E B A} (run : Stage.Reaches host (.between m) stage) {x : Scene V E B}
    (scenes : stage.scene.Steps x) :
    (∀ l holder, x.sched.object? l = some (.lock holder) → x.FairTo l (.lock l)) ∧
      ∀ l n, x.sched.object? l = some (.semaphore n) → x.sched.waitersOf (.permit l) = [] → x.FairTo l (.permit l) := by
  obtain ⟨start, steps⟩ := fresh.reaches run
  have orderly := start.steps (steps.trans scenes)
  refine ⟨fun l holder here => ?_, fun l n here nobody => ?_⟩
  · have settled := start.settled (fresh.prepared.settled l) (steps.trans scenes)
    exact orderly.fairTo (settled.lined here)
  · exact orderly.fairTo ⟨here, rfl, rfl, fun _ => nobody⟩

/-- Tasks that take a lock, and then a permit, and yield. -/
def queueing : Host Unit Unit Unit Unit Unit where
  start _ := do
    let _ ← Act.wait (.lock 1)
    let _ ← Act.wait (.permit 2)
    let _ ← Act.wait .yield
    return .answer ()
  conclude _ _ := (none, none)
  errorText _ _ := []

/-- Three such tasks. -/
def queuers : Machine Unit Unit Unit Unit Unit where
  world := {
    sched := (((({} : Scheduler Unit Unit Unit).newLock.2.newSemaphore 1).2.spawn "a" ()).2.spawn "b" ()).2.spawn "c" ()
      |>.2
    own := () }

/-- Two tasks wait for the lock of the first one, which has taken the only permit. -/
theorem locks_and_permits_in_turn_queuers :
    queuers.Fresh ∧ ∃ m, queuers.Turns queueing m ∧ m.world.sched.waitersOf (.lock 1) = [2, 3] ∧
      (Stage.between m).scene.FairTo 1 (.lock 1) ∧ (Stage.between m).scene.FairTo 2 (.permit 2) := by
  have made := (Scheduler.Prepared.new (V := Unit) (E := Unit) (B := Unit) 0 [] []).operate (.newLock id)
  have both := made.operate (.newSemaphore 1 id)
  have first := both.operate (.spawn "a" () id)
  have fresh : queuers.Fresh := ⟨(first.operate (.spawn "b" () id)).operate (.spawn "c" () id), rfl⟩
  have seen : (queuers.after queueing 3).any fun m =>
      (m.world.sched.object? 1).any (·.key? 1 = some (.lock 1)) ∧ m.world.sched.waitersOf (.lock 1) = [2, 3] ∧
        (m.world.sched.object? 2).any (·.key? 2 = some (.permit 2)) ∧ m.world.sched.waitersOf (.permit 2) = [] := by
    decide +kernel
  obtain ⟨m, later, facts⟩ := (Option.any_eq_true _ _).mp seen
  rw [decide_eq_true_eq] at facts
  obtain ⟨isLock, line, isSemaphore, nobody⟩ := facts
  obtain ⟨o, lock, serves⟩ := (Option.any_eq_true _ _).mp isLock
  obtain ⟨o', semaphore, serves'⟩ := (Option.any_eq_true _ _).mp isSemaphore
  have turns := Machine.turns_of_after 3 queuers later
  obtain ⟨locks, semaphores⟩ := locks_and_permits_in_turn queueing fresh turns.reaches .refl
  refine ⟨fresh, m, turns, line, ?_, ?_⟩
  · cases o with
    | lock holder => exact locks 1 holder lock
    | semaphore | barrier | channel => cases of_decide_eq_true serves
  · cases o' with
    | semaphore n => exact semaphores 2 n semaphore nobody
    | lock | barrier | channel => cases of_decide_eq_true serves'

end LedgerScript
