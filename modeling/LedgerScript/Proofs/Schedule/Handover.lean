import LedgerScript.Proofs.Schedule.Guarded
import LedgerScript.Proofs.Schedule.Play

/-!
# How a lock comes to a task

A lock has another holder only when a task takes it, or when it is given back: then it goes to a task that has waited for
it and no longer does, or to nobody.  All other operations, of tasks and of the machine, leave it with whom it is.

`Intact` says that an operation leaves a lock alone, and it is shown once for every operation that is not about that very
lock.  `Handover` is what remains to be said about the locks in general, and about the tasks that wait for them.
-/

namespace LedgerScript

variable {V E B α : Type}

namespace Scheduler

/-! ## Operations that concern no object -/

section

variable (s : Scheduler V E B)
variable (id : TaskId) (key : WaitKey)

@[simp] theorem objects_modifyTask (f : Task V E B → Task V E B) : (s.modifyTask id f).objects = s.objects :=
  (s.steady_modifyTask id f).objects

@[simp] theorem objects_enqueue : (s.enqueue id).objects = s.objects := by
  obtain ⟨ready, readySet, tasks, eq⟩ := s.enqueue_eq id
  rw [eq]

@[simp] theorem objects_unready : (s.unready id).objects = s.objects :=
  (s.steady_unready id).objects

@[simp] theorem objects_setWaiters (ids : List TaskId) : (s.setWaiters key ids).objects = s.objects := by
  rw [setWaiters_eq]

@[simp] theorem objects_unregister : (s.unregister id).objects = s.objects :=
  (s.steady_unregister id).objects

@[simp] theorem objects_register (key : WaitKey) : (s.register id key).objects = s.objects :=
  (s.steady_register id key).1.objects

@[simp] theorem objects_wake : (s.wake id).objects = s.objects :=
  (s.steady_wake id).objects

theorem objects_foldl {β : Type} {f : Scheduler V E B → β → Scheduler V E B}
    (each : ∀ s b, (f s b).objects = s.objects) (bs : List β) (s : Scheduler V E B) : (bs.foldl f s).objects = s.objects := by
  induction bs generalizing s with
  | nil => rfl
  | cons b bs ih => exact (ih (f s b)).trans (each s b)

@[simp] theorem objects_wakeAll : (s.wakeAll key).objects = s.objects := by
  unfold wakeAll
  split
  · rfl
  · rw [objects_foldl fun s id => by rw [objects_wake, unpark], objects_setWaiters]

@[simp] theorem objects_popUnfinished (ids : List TaskId) : (s.popUnfinished key ids).2.objects = s.objects := by
  induction ids generalizing s with
  | nil => rfl
  | cons id rest ih =>
    unfold popUnfinished
    dsimp only
    split
    · rw [ih, unpark, objects_setWaiters]
    · rw [unpark, objects_setWaiters]

@[simp] theorem objects_popWaiter : (s.popWaiter key).2.objects = s.objects :=
  s.objects_popUnfinished key _

@[simp] theorem objects_disarm (timer : Option TimerId) : (s.disarm timer).objects = s.objects := by
  obtain ⟨timers, eq, -⟩ := s.disarm_eq timer
  rw [eq]

@[simp] theorem objects_setDeadline (after : Int) : (s.setDeadline id after).objects = s.objects := by
  unfold setDeadline
  split
  · rfl
  · split
    · rfl
    · dsimp only
      rw [objects_modifyTask, armTimer, objects_disarm]

@[simp] theorem objects_spawn (name : String) (body : B) : (s.spawn name body).2.objects = s.objects := by
  unfold spawn
  dsimp only [noteTask, note]
  split
  · rw [objects_setDeadline, objects_enqueue]
  · rw [objects_enqueue]

@[simp] theorem objects_finish (errorText : E → Bytes) (id : TaskId) (result : Option V) (fault : Option (TaskFault E)) :
    (s.finish errorText id result fault).objects = s.objects := by
  unfold finish
  split
  · rfl
  · dsimp only
    rw [objects_wakeAll, noteTask, note, objects_unready, objects_unregister, objects_modifyTask, noteEnd, useChannel, use,
      objects_disarm, objects_disarm]

@[simp] theorem objects_kill (cause : ScheduleFault) : (s.kill id cause).objects = s.objects := by
  unfold kill
  split
  · rfl
  · split
    · rfl
    · dsimp only
      split
      · rw [objects_finish, objects_modifyTask]
      · rw [objects_finish, objects_modifyTask]

@[simp] theorem objects_fireDue (n : Nat) : (s.fireDue n).objects = s.objects := by
  induction n generalizing s with
  | zero => rfl
  | succ n ih =>
    unfold fireDue
    split
    · split
      · rw [ih]
        unfold ring fire
        split <;> simp
      · rfl
    · rfl

@[simp] theorem objects_deliver (receiver : TaskId) (v : Option V) (ok : Bool) :
    (s.deliver receiver v ok).objects = s.objects := by
  rw [deliver, objects_wake, objects_modifyTask]

theorem objects_refuseReceiver (s : Scheduler V E B) (receiver : TaskId) :
    (s.refuseReceiver receiver).objects = s.objects := by
  unfold refuseReceiver
  split
  · rfl
  · exact s.objects_deliver ..

theorem objects_refuseSender (s : Scheduler V E B) (sender : TaskId × V) : (s.refuseSender sender).objects = s.objects := by
  unfold refuseSender
  split
  · rfl
  · rw [objects_wake, objects_modifyTask]

@[simp] theorem objects_park (key : Option WaitKey) (reason : WaitReason) : (s.park id key reason).objects = s.objects := by
  cases key <;> simp [park]

@[simp] theorem objects_nextReady : s.nextReady.2.objects = s.objects := by
  obtain ⟨ready, readySet, picks, eq⟩ := pickReady_eq s.ready.length s
  rw [nextReady, eq]

end

/-! ## Operations that leave a lock alone -/

def Intact (m : ObjectId) (s s' : Scheduler V E B) : Prop :=
  ∀ holder, s.object? m = some (.lock holder) → s'.object? m = some (.lock holder)

namespace Intact

variable {m id : ObjectId} {s s' s'' : Scheduler V E B}

theorem refl (m : ObjectId) (s : Scheduler V E B) : Intact m s s :=
  fun _ here => here

theorem trans (first : Intact m s s') (second : Intact m s' s'') : Intact m s s'' :=
  fun holder here => second holder (first holder here)

theorem of_objects (objects : s'.objects = s.objects) : Intact m s s' := by
  intro holder here
  rw [object?, objects]
  exact here

/-- Nothing happens to objects. -/
theorem steady (intact : Intact m s s') (objects : s''.objects = s'.objects) : Intact m s s'' :=
  intact.trans (of_objects objects)

theorem lockHolder (intact : Intact m s s') (lock : s.IsLock m) : s'.lockHolder m = s.lockHolder m := by
  obtain ⟨holder, here⟩ := lock
  simp only [Scheduler.lockHolder, here, intact holder here]

/-- Another object changes, or one that is no lock. -/
theorem modifyObject (intact : Intact m s s') (id : ObjectId) {f : SyncObject V → SyncObject V}
    (keeps : m ≠ id ∨ ∀ holder, f (.lock holder) = .lock holder) : Intact m s (s'.modifyObject id f) := by
  refine intact.trans fun holder here => ?_
  rw [object?_modifyObject]
  split
  · rename_i same
    rw [here, Option.map_some, keeps.resolve_left (fun other => other same)]
  · exact here

theorem newObject (intact : Intact m s s') (o : SyncObject V) : Intact m s (s'.newObject o).2 := by
  refine intact.trans fun holder here => ?_
  rw [object?_newObject, if_neg, here]
  rintro rfl
  simp [object?] at here

theorem setHolder (intact : Intact m s s') (other : m ≠ id) (holder : Option TaskId) :
    Intact m s (s'.setHolder id holder) :=
  intact.modifyObject id (.inl other)

theorem setPermits (intact : Intact m s s') (id : ObjectId) (n : Int) : Intact m s (s'.setPermits id n) :=
  intact.modifyObject id (.inr fun _ => rfl)

theorem nextGeneration (intact : Intact m s s') (id : ObjectId) : Intact m s (s'.nextGeneration id) :=
  intact.modifyObject id (.inr fun _ => rfl)

theorem useChannel (intact : Intact m s s') (u : ChannelUse V) : Intact m s (s'.useChannel u) :=
  intact

theorem setChannel (intact : Intact m s s') (id : ObjectId) (c : ChannelState V) : Intact m s (s'.setChannel id c) :=
  intact.modifyObject id (.inr fun _ => rfl)

/-! ### Other locks -/

section

variable (other : m ≠ id)
include other

theorem passLock (intact : Intact m s s') : Intact m s (s'.passLock id).2 := by
  have popped := intact.steady (s'.objects_popWaiter (.lock id))
  unfold Scheduler.passLock
  split
  · rename_i next s₁ eq
    rw [eq] at popped
    exact (popped.setHolder other _).steady (objects_wake _ next)
  · rename_i s₁ eq
    rw [eq] at popped
    exact popped.setHolder other none

theorem lockIsFree (intact : Intact m s s') : Intact m s (s'.lockIsFree id).2 := by
  unfold Scheduler.lockIsFree
  split
  · exact intact
  · split
    · exact intact.passLock other
    · exact intact
  · exact intact

theorem takeLock (intact : Intact m s s') : Intact m s (s'.takeLock id).2 := by
  have free := intact.lockIsFree other
  unfold Scheduler.takeLock
  split
  · split
    · rename_i s₁ eq
      rw [eq] at free
      exact free.setHolder other _
    · rename_i s₁ eq
      rw [eq] at free
      exact free.steady (objects_park s₁ _ _ _)
  · exact intact

theorem tryLock (intact : Intact m s s') : Intact m s (s'.tryLock id).2 := by
  have used : Intact m s (s'.use (.byHand id)) := intact
  have free := used.lockIsFree other
  unfold Scheduler.tryLock
  split
  · exact intact
  · split
    · rename_i s₁ eq
      rw [eq] at free
      exact free.setHolder other _
    · rename_i s₁ eq
      rw [eq] at free
      exact free

theorem releaseLock (intact : Intact m s s') : Intact m s (s'.releaseLock id) := by
  have used : Intact m s (s'.use (.byHand id)) := intact
  exact used.passLock other

end

/-! ### Semaphores, barriers and channels -/

theorem tryAcquire (intact : Intact m s s') (id : ObjectId) : Intact m s (s'.tryAcquire id).2 := by
  unfold Scheduler.tryAcquire
  split
  · exact intact.setPermits id _
  · exact intact

theorem releasePermit (intact : Intact m s s') (id : ObjectId) : Intact m s (s'.releasePermit id) := by
  have popped := intact.steady (s'.objects_popWaiter (.permit id))
  unfold Scheduler.releasePermit
  split
  · rename_i next s₁ eq
    rw [eq] at popped
    exact popped.steady (objects_wake s₁ next)
  · rename_i s₁ eq
    rw [eq] at popped
    exact popped.setPermits id _

theorem popReceiver (intact : Intact m s s') (id : ObjectId) : Intact m s (s'.popReceiver id).2 := by
  unfold Scheduler.popReceiver
  dsimp only
  split <;> exact intact.setChannel id _

theorem popSender (intact : Intact m s s') (id : ObjectId) : Intact m s (s'.popSender id).2 := by
  unfold Scheduler.popSender
  dsimp only
  split <;> exact intact.setChannel id _

theorem deposit (intact : Intact m s s') (id : ObjectId) (v : V) : Intact m s (s'.deposit id v).2 := by
  unfold Scheduler.deposit
  dsimp only
  split
  · exact (intact.useChannel _).setChannel id _
  · split
    · exact intact
    · rename_i me runs
      have noted : Intact m s ((s'.useChannel (.offered id me v)).modifyTask me fun t => { t with sendRefused := false }) :=
        intact.steady (objects_modifyTask _ me _)
      exact (noted.setChannel id _).steady (objects_park _ me _ _)

theorem deliver (intact : Intact m s s') (receiver : TaskId) (v : Option V) (ok : Bool) :
    Intact m s (s'.deliver receiver v ok) :=
  intact.steady (objects_deliver s' ..)

theorem send (intact : Intact m s s') (id : ObjectId) (v : V) : Intact m s (s'.send id v).2 := by
  have popped := intact.popReceiver id
  unfold Scheduler.send
  split
  · exact intact
  · split
    · rename_i receiver s₁ eq
      rw [eq] at popped
      exact ((popped.useChannel _).useChannel _).deliver receiver _ _
    · rename_i s₁ eq
      rw [eq] at popped
      exact popped.deposit id v

theorem takeReady (intact : Intact m s s') (id : ObjectId) : Intact m s (s'.takeReady id).2 := by
  unfold Scheduler.takeReady
  dsimp only
  split
  · rename_i v rest _
    have taken := (intact.useChannel (.handed id none v)).setChannel id { s'.channel id with buffer := rest }
    have popped := taken.popSender id
    split
    · rename_i sender w s₁ eq
      rw [eq] at popped
      exact ((popped.useChannel (.admitted id sender)).setChannel id _).steady (objects_wake _ sender)
    · rename_i s₁ eq
      rw [eq] at popped
      exact popped
  · have popped := intact.popSender id
    split
    · rename_i sender w s₁ eq
      rw [eq] at popped
      exact popped.steady (objects_wake _ sender)
    · rename_i s₁ eq
      rw [eq] at popped
      exact popped

theorem noteReceived (intact : Intact m s s') (id : ObjectId) (receiver : TaskId) (r : Received V) :
    Intact m s (s'.noteReceived id receiver r) := by
  unfold Scheduler.noteReceived
  split
  · exact intact
  · split <;> exact intact

theorem awaitValue (intact : Intact m s s') (id : ObjectId) : Intact m s (s'.awaitValue id).2 := by
  unfold Scheduler.awaitValue
  dsimp only
  split
  · exact intact.noteReceived id _ _
  · split
    · exact intact
    · rename_i me runs
      have noted : Intact m s (s'.modifyTask me fun t => { t with received := (none, false) }) :=
        intact.steady (objects_modifyTask s' me _)
      exact (noted.setChannel id _).steady (objects_park _ me _ _)

theorem receive (intact : Intact m s s') (id : ObjectId) : Intact m s (s'.receive id).2 := by
  have taken := intact.takeReady id
  unfold Scheduler.receive
  split
  · rename_i v s₁ eq
    rw [eq] at taken
    exact taken
  · rename_i s₁ eq
    rw [eq] at taken
    exact taken.awaitValue id

theorem turnAway (intact : Intact m s s') (id : ObjectId) : Intact m s (s'.turnAway id) := by
  have emptied := intact.setChannel id { s'.channel id with receivers := [], senders := [] }
  exact emptied.steady ((objects_foldl objects_refuseSender _ _).trans (objects_foldl objects_refuseReceiver _ _))

theorem closeChannel (intact : Intact m s s') (id : ObjectId) : Intact m s (s'.closeChannel id) := by
  unfold Scheduler.closeChannel
  dsimp only
  split
  · exact intact
  · have closed := (intact.useChannel (.closed id)).setChannel id { s'.channel id with isClosed := true }
    exact closed.turnAway id

end Intact

end Scheduler

def TaskOp.Names (m : ObjectId) : TaskOp V E B α → Prop
  | .tryLock id _ | .unlock id _ => m = id
  | _ => False

/-- What may suspend the task is about this very lock. -/
def Pause.Names (m : ObjectId) : Pause V → Prop
  | .amid (.lock id) | .door id => m = id
  | _ => False

/-- Whoever waits for a lock has started something that is about it. -/
theorem Pause.names_of_key {p : Pause V} {lastTimer : TimerId} {m : ObjectId} (key : p.key lastTimer = some (.lock m)) :
    p.Names m := by
  cases p with
  | door id => exact (WaitKey.lock.inj (Option.some.inj key)).symm
  | amid op =>
    cases op with
    | lock id => exact (WaitKey.lock.inj (Option.some.inj key)).symm
    | await | yield | sleep | permit | barrier | send | receive => cases key

namespace Scheduler

variable {m : ObjectId} {s s' s'' : Scheduler V E B}

/-- An operation on something else. -/
theorem Intact.run (op : TaskOp V E B α) (other : ¬ op.Names m) (s : Scheduler V E B) : Intact m s (op.run s).2 := by
  have still := Intact.refl m s
  cases op with
  | read | note | interrupt => exact still
  | spawn name body k => exact still.steady (s.objects_spawn name body)
  | cancel id => exact still.steady (s.objects_kill id _)
  | setDeadline id after => exact still.steady (s.objects_setDeadline id after)
  | newLock | newSemaphore | newBarrier | newChannel => exact still.newObject _
  | tryLock id => exact still.tryLock other
  | unlock id => exact still.releaseLock other
  | tryAcquire id => exact still.tryAcquire id
  | release id => exact still.releasePermit id
  | tryReceive id => exact still.takeReady id
  | close id => exact still.closeChannel id

/-- The task that runs starts something else. -/
theorem Intact.start (p : Pause V) (other : ¬ p.Names m) (s : Scheduler V E B) : Intact m s (p.start s).2 := by
  have still := Intact.refl m s
  cases p with
  | door id => exact still.takeLock other
  | amid op =>
    cases op with
    | await target =>
      show Intact m s (s.await target).2
      unfold await
      split
      · exact still
      · split
        · exact still
        · split
          · exact still
          · exact still.steady (s.objects_park ..)
    | yield =>
      show Intact m s s.yield.2
      unfold yield
      split
      · exact still
      · exact still.steady (by simp)
    | sleep ns =>
      show Intact m s (s.sleep ns).2
      unfold sleep
      split
      · exact still
      · exact still.steady (by simp [armTimer])
    | lock id =>
      have used : Intact m s (s.use (.byHand id)) := still
      exact used.takeLock other
    | permit id =>
      have tried := still.tryAcquire id
      show Intact m s (s.acquirePermit id).2
      unfold acquirePermit
      split
      · exact still
      · split
        · rename_i s₁ eq
          rw [eq] at tried
          exact tried
        · rename_i s₁ eq
          rw [eq] at tried
          exact tried.steady (objects_park s₁ ..)
    | barrier id =>
      show Intact m s (s.arrive id).2
      unfold arrive
      split
      · exact still
      · split
        · exact (still.nextGeneration id).steady (objects_wakeAll _ _)
        · exact still.steady (s.objects_park ..)
    | send id v => exact still.send id v
    | receive id => exact still.receive id

/-- The task that runs has waited for something, and goes on. -/
theorem Intact.finish (p : Pause V) (m : ObjectId) (s : Scheduler V E B) : Intact m s (p.finish s) := by
  have still := Intact.refl m s
  cases p with
  | door id => exact still
  | amid op =>
    cases op with
    | sleep ns =>
      show Intact m s s.awoken
      unfold awoken
      split
      · exact still
      · exact still.steady (s.objects_modifyTask ..)
    | send id v =>
      show Intact m s s.sendResult.2
      unfold sendResult
      split
      · exact still
      · exact still.steady (s.objects_modifyTask ..)
    | receive id =>
      show Intact m s (s.receiveResult id).2
      unfold receiveResult
      split
      · exact still
      · exact (still.noteReceived id _ _).steady (objects_modifyTask _ _ _)
    | await | yield | lock | permit | barrier => exact still

/-- Between two turns nothing happens to objects. -/
theorem Interlude.objects (interlude : s.Interlude s') : s'.objects = s.objects := by
  cases interlude with
  | idle nobody =>
    have same := s.objects_nextReady
    rwa [nobody] at same
  | fire n => exact s.objects_fireDue n
  | advance later =>
    unfold advance? at later
    split at later
    · cases later
    · cases later
      exact objects_fireDue _ _
  | kill id cause => exact s.objects_kill id cause
  | note e => rfl

end Scheduler

/-! ## Locks that change hands -/

namespace TaskView

variable {keys : WaitKey → Prop} {inHand : Bool} {v v' : TaskView}

/-- Whoever has been killed stays so. -/
theorem Moves.killed (moves : Moves keys inHand v v') (killed : v.killed = true) : v'.killed = true := by
  induction moves with
  | refl => exact killed
  | tail _ move ih =>
    cases move with
    | calm | wake | call | ring | drop => exact ih
    | kill => rfl
    | spawn => cases ih

/-- Nobody begins to wait by a move. -/
theorem Moves.parked (moves : Moves keys inHand v v') {key : WaitKey} (waits : v'.parked = some key) :
    v.parked = some key := by
  induction moves with
  | refl => exact waits
  | tail _ move ih =>
    cases move with
    | calm | drop => exact ih waits
    | wake | call | ring | kill | spawn => cases waits

end TaskView

namespace Scheduler

variable {m : ObjectId} {s s' s'' : Scheduler V E B} {me : TaskId} {hand : Option TaskId} {exempt : Option ObjectId}
  {locks : ObjectId → Prop}
variable {t : TaskId}

/-- Each of the locks is with whom it was, or with a task that has waited for it and no longer does.  Nobody begins to
wait for one, or for what is no lock.  Killed tasks do not count. -/
structure Handover (locks : ObjectId → Prop) (s s' : Scheduler V E B) : Prop where
  isLock : ∀ m, s.IsLock m → s'.IsLock m
  known : ∀ t, s.Known t → s'.Known t
  killed : ∀ t, (s.view t).killed = true → (s'.view t).killed = true
  waits : ∀ t m, locks m → s'.parked.get? t = some (.lock m) →
    (s'.view t).killed = true ∨ s.parked.get? t = some (.lock m)
  place : ∀ t m, s'.parked.get? t = some (.lock m) →
    (s'.view t).killed = true ∨ s'.IsLock m ∨ s.parked.get? t = some (.lock m)
  holder : ∀ t m, locks m → s'.lockHolder m = some t →
    (s'.view t).killed = true ∨ s.lockHolder m = some t ∨
      s.parked.get? t = some (.lock m) ∧ s'.parked.get? t ≠ some (.lock m)

namespace Handover

theorem refl (locks : ObjectId → Prop) (s : Scheduler V E B) : Handover locks s s :=
  ⟨fun _ lock => lock, fun _ known => known, fun _ killed => killed, fun _ _ _ waits => .inr waits,
    fun _ _ waits => .inr (.inr waits), fun _ _ _ holds => .inr (.inl holds)⟩

theorem trans (first : Handover locks s s') (second : Handover locks s' s'') : Handover locks s s'' := by
  refine ⟨fun m lock => second.isLock m (first.isLock m lock), fun t known => second.known t (first.known t known),
    fun t killed => second.killed t (first.killed t killed), fun t m mine waits => ?_, fun t m waits => ?_,
    fun t m mine holds => ?_⟩
  · obtain killed | before := second.waits t m mine waits
    · exact .inl killed
    · exact (first.waits t m mine before).imp_left (second.killed t)
  · obtain killed | lock | before := second.place t m waits
    · exact .inl killed
    · exact .inr (.inl lock)
    · exact (first.place t m before).imp (second.killed t) (Or.imp_left (second.isLock m))
  · obtain killed | before | ⟨waited, woken⟩ := second.holder t m mine holds
    · exact .inl killed
    · obtain killed | before | ⟨waited, woken⟩ := first.holder t m mine before
      · exact .inl (second.killed t killed)
      · exact .inr (.inl before)
      · by_cases again : s''.parked.get? t = some (.lock m)
        · exact .inl ((second.waits t m mine again).resolve_right woken)
        · exact .inr (.inr ⟨waited, again⟩)
    · obtain killed | before := first.waits t m mine waited
      · exact .inl (second.killed t killed)
      · exact .inr (.inr ⟨before, woken⟩)

/-- Tasks move, and no lock changes hands. -/
theorem of_evolution (evolution : s.Evolution exempt hand s') (isLock : ∀ m, locks m → s.IsLock m)
    (intact : ∀ m, locks m → Intact m s s') : Handover locks s s' := by
  refine ⟨evolution.locks, fun t => (evolution.moves t).known, fun t => (evolution.moves t).killed,
    fun t m _ waits => .inr ((evolution.moves t).parked waits),
    fun t m waits => .inr (.inr ((evolution.moves t).parked waits)), fun t m mine holds => .inr (.inl ?_)⟩
  rwa [(intact m mine).lockHolder (isLock m mine)] at holds

/-- What the books say about the tasks is the same, and so are the objects. -/
theorem of_views (objects : s'.objects = s.objects) (views : ∀ t, (s'.view t).parked = (s.view t).parked ∧
    (s'.view t).killed = (s.view t).killed ∧ ((s.view t).status ≠ none → (s'.view t).status ≠ none)) :
    Handover locks s s' := by
  have intact (m : ObjectId) : Intact m s s' := .of_objects objects
  refine ⟨fun m ⟨holder, here⟩ => ⟨holder, intact m holder here⟩, fun t => (views t).2.2,
    fun t killed => (views t).2.1.trans killed, fun t m _ waits => .inr ((views t).1.symm.trans waits),
    fun t m waits => .inr (.inr ((views t).1.symm.trans waits)), fun t m _ holds => .inr (.inl ?_)⟩
  simpa only [lockHolder, object?, objects] using holds

end Handover

theorem lockHolder_congr (objects : s'.objects = s.objects) (m : ObjectId) : s'.lockHolder m = s.lockHolder m := by
  simp only [lockHolder, object?, objects]

/-- Nobody else holds a lock that got another holder. -/
theorem eq_of_lockHolder_setHolder {holder : Option TaskId}
    (holds : (s.setHolder m holder).lockHolder m = some t) : holder = some t := by
  rw [lockHolder_eq, setHolder, object?_modifyObject, if_pos rfl] at holds
  cases here : s.object? m with
  | none => simp [here] at holds
  | some o => cases o <;> simp_all [SyncObject.withHolder, SyncObject.holder]

/-- Who holds a lock after one of them, or another one, got another holder. -/
theorem of_lockHolder_setHolder {id : ObjectId} {holder : Option TaskId}
    (holds : (s.setHolder id holder).lockHolder m = some t) : m = id ∧ holder = some t ∨ s.lockHolder m = some t := by
  by_cases same : m = id
  · exact .inl ⟨same, eq_of_lockHolder_setHolder (same ▸ holds)⟩
  · rw [lockHolder_eq, setHolder, object?_modifyObject, if_neg same] at holds
    exact .inr ((s.lockHolder_eq m).trans holds)

/-- A lock goes to the task that has waited longest, or to nobody. -/
theorem Regular.handover_passLock (regular : s.Regular hand) (id : ObjectId) : Handover locks s (s.passLock id).2 := by
  have evolution : Evolution (some id) hand s (s.passLock id).2 := s.evolves_passLock id regular
  refine ⟨evolution.locks, fun t => (evolution.moves t).known, fun t => (evolution.moves t).killed,
    fun t m _ waits => .inr ((evolution.moves t).parked waits),
    fun t m waits => .inr (.inr ((evolution.moves t).parked waits)), fun t m _ holds => .inr ?_⟩
  obtain ⟨eq, -⟩ | ⟨next, eq, waits⟩ := regular.passLock id
  · rw [eq] at holds
    exact .inl ((of_lockHolder_setHolder holds).resolve_left fun taken => by cases taken.2)
  · rw [eq, lockHolder_congr (objects_wake _ next)] at holds
    obtain ⟨rfl, same⟩ | before := of_lockHolder_setHolder holds
    · cases same
      refine .inr ⟨waits, ?_⟩
      -- whoever is woken waits no longer
      have tidy := (regular.tidy.unregister t).modifyObject m (·.withHolder (some t))
      have woken := view_wake tidy t t
      rw [setHolder] at eq
      rw [eq]
      have parked : (((s.unregister t).setHolder m (some t)).view t).parked = none := by
        rw [setHolder, view_modifyObject_same _ m (queued_withHolder _), view_unregister, if_pos rfl]
      have after := congrArg TaskView.parked woken
      split at after
      · exact fun still => by cases still.symm.trans after
      · exact fun still => by cases (still.symm.trans after).trans parked
    · rw [lockHolder_congr (objects_unregister s next)] at before
      exact .inl before

/-- Nobody has a lock that was passed on but whoever has waited for it. -/
theorem Regular.waited_of_passLock (regular : s.Regular hand)
    (holds : (s.passLock m).2.lockHolder m = some t) : s.parked.get? t = some (.lock m) := by
  obtain ⟨eq, -⟩ | ⟨next, eq, waits⟩ := regular.passLock m
  · rw [eq] at holds
    cases eq_of_lockHolder_setHolder holds
  · rw [eq, lockHolder_congr (objects_wake _ next)] at holds
    cases eq_of_lockHolder_setHolder holds
    exact waits

theorem handover_use (s : Scheduler V E B) {u : LockUse} (other : ∀ t, u ≠ .ended t) : Handover locks s (s.use u) := by
  refine .of_views rfl fun t => ?_
  rw [view_use s other]
  exact ⟨rfl, rfl, id⟩

theorem handover_byHand (s : Scheduler V E B) (id : ObjectId) : Handover locks s (s.use (.byHand id)) :=
  s.handover_use nofun

theorem Regular.handover_releaseLock (regular : s.Regular hand) (id : ObjectId) : Handover locks s (s.releaseLock id) := by
  have used : (s.use (.byHand id)).Regular hand := regular.use nofun
  exact (s.handover_byHand id).trans (used.handover_passLock id)

theorem Regular.handover_leaveBlock (regular : s.Regular hand) (id : ObjectId) : Handover locks s (s.leaveBlock id) := by
  have left : (s.use (.left (s.current.getD 0) id (s.lockHolder id))).Regular hand := regular.use nofun
  have noted : Handover locks s (s.use (.left (s.current.getD 0) id (s.lockHolder id))) := s.handover_use nofun
  exact noted.trans (left.handover_passLock id)

theorem Regular.handover_lockIsFree (regular : s.Regular hand) (id : ObjectId) : Handover locks s (s.lockIsFree id).2 := by
  unfold lockIsFree
  split
  · exact .refl locks s
  · split
    · exact regular.handover_passLock id
    · exact .refl locks s
  · exact .refl locks s

/-- The task that runs takes a lock if it can be taken. -/
theorem Regular.handover_tryLock (regular : s.Regular (some me)) (runs : s.current = some me) (id : ObjectId) :
    ∃ s₁, Handover locks s s₁ ∧ s₁.Regular (some me) ∧ s₁.current = some me ∧
      (s.tryLock id = (true, s₁.setHolder id (some me)) ∨ s.tryLock id = (false, s₁)) := by
  have used : (s.use (.byHand id)).Regular (some me) := regular.use nofun
  have checked : Evolution (some id) (some me) _ _ := (s.use (.byHand id)).evolves_lockIsFree id used
  refine ⟨_, (s.handover_byHand id).trans (used.handover_lockIsFree id), used.evolve checked, checked.current.trans runs, ?_⟩
  unfold tryLock
  rw [runs]
  dsimp only
  split
  · rename_i s₁ eq
    rw [eq]
    exact .inl rfl
  · rename_i s₁ eq
    rw [eq]
    exact .inr rfl

/-- The task that runs takes a lock or waits for it. -/
theorem Regular.handover_acquireLock (regular : s.Regular (some me)) (runs : s.current = some me) {id : ObjectId}
    (lock : s.IsLock id) :
    ∃ s₁, Handover locks s s₁ ∧ s₁.Regular (some me) ∧ s₁.current = some me ∧
      (s.acquireLock id = (.done none, s₁.setHolder id (some me)) ∨
        s.acquireLock id = (.parked, s₁.park me (some (.lock id)) .lock)) := by
  have used : (s.use (.byHand id)).Regular (some me) := regular.use nofun
  have checked : Evolution (some id) (some me) _ _ := (s.use (.byHand id)).evolves_lockIsFree id used
  refine ⟨_, (s.handover_byHand id).trans (used.handover_lockIsFree id), used.evolve checked, checked.current.trans runs, ?_⟩
  obtain ⟨holder, here⟩ := lock
  have here' : (s.use (.byHand id)).object? id = some (.lock holder) := here
  have runs' : (s.use (.byHand id)).current = some me := runs
  unfold acquireLock takeLock
  rw [runs', here']
  dsimp only
  split
  · rename_i s₁ eq
    rw [eq]
    exact .inl rfl
  · rename_i s₁ eq
    rw [eq]
    exact .inr rfl

/-! ## What goes on elsewhere -/

/-- Nobody waits for what is no lock. -/
theorem isLock_of_parked {p : Pause V} (parked : p.start s = (.parked, s')) (names : p.Names m) : s.IsLock m := by
  have taken {s : Scheduler V E B}
      (waits : (s.takeLock m).map Attempt.woken id = ((.parked, s') : Attempt (Woken V) × Scheduler V E B)) : s.IsLock m := by
    unfold takeLock at waits
    split at waits
    · rename_i holder _ here
      exact ⟨holder, here⟩
    · cases waits
  cases p with
  | door id =>
    obtain rfl : m = id := names
    exact taken parked
  | amid op =>
    cases op with
    | lock id =>
      obtain rfl : m = id := names
      exact taken (s := s.use (.byHand m)) parked
    | await | yield | sleep | permit | barrier | send | receive => exact names.elim

section

variable (isLock : ∀ m, locks m → s.IsLock m)
include isLock

theorem Regular.handover_run (regular : s.Regular hand) (op : TaskOp V E B α) (other : ∀ m, locks m → ¬ op.Names m) :
    Handover locks s (op.run s).2 :=
  .of_evolution (op.evolves s regular) isLock fun m mine => .run op (other m mine) s

/-- The task that runs starts something, and need not wait. -/
theorem Regular.handover_done (regular : s.Regular (some me)) (runs : s.current = some me) {p : Pause V} {r : Woken V}
    (done : p.start s = (.done r, s')) (other : ∀ m, locks m → ¬ p.Names m) : Handover locks s s' := by
  obtain ⟨exempt, tries⟩ := p.tries s
  refine .of_evolution (tries.done regular runs done) isLock fun m mine => ?_
  have intact := Intact.start p (other m mine) s
  rwa [done] at intact

/-- The task that runs starts something, and has to wait. -/
theorem Regular.handover_parked (regular : s.Regular (some me)) (runs : s.current = some me) {p : Pause V}
    (parked : p.start s = (.parked, s')) (other : ∀ m, locks m → ¬ p.Names m) : Handover locks s s' := by
  obtain ⟨exempt, tries⟩ := p.tries s
  have parking := tries.parked regular runs parked
  have intact (m : ObjectId) (mine : locks m) : Intact m s s' := by
    have intact := Intact.start p (other m mine) s
    rwa [parked] at intact
  obtain ⟨k, here⟩ := regular.task?_hand
  have here' : s.life.tasks me = some k.lasting := congrArg (Option.map Task.lasting) here
  obtain ⟨-, current, killed⟩ := Play.parked_spec regular runs here' parked
  have killed : (s'.view me).killed = (s.view me).killed := by
    rw [← currentKilled_eq current, killed, killed_of_tasks here']
  have place : s.parked.get? me = none → s'.parked.get? me = p.key s.lastTimer := by
    have attempted := attempted runs here' p
    rw [parked] at attempted
    exact attempted.2
  -- it waits for what it has started
  have starts (m : ObjectId) (waits : s'.parked.get? me = some (.lock m)) : (s'.view me).killed = true ∨ p.Names m := by
    cases alive : (s.view me).killed with
    | true => exact .inl (killed.trans alive)
    | false =>
      have free : s.parked.get? me = none := (regular.running alive).2.2.1
      rw [place free] at waits
      exact .inr (Pause.names_of_key waits)
  refine ⟨parking.locks, fun t known => ?_, fun t dead => ?_, fun t m mine waits => ?_, fun t m waits => ?_,
    fun t m mine holds => ?_⟩
  · by_cases same : t = me
    · exact same ▸ parking.known
    · exact (parking.others t same).known known
  · by_cases same : t = me
    · rw [same, killed, ← same, dead]
    · exact (parking.others t same).killed dead
  · by_cases same : t = me
    · subst same
      exact .inl ((starts m waits).resolve_right (other m mine))
    · exact .inr ((parking.others t same).parked waits)
  · by_cases same : t = me
    · subst same
      exact (starts m waits).imp_right fun names => .inl (parking.locks m (isLock_of_parked parked names))
    · exact .inr (.inr ((parking.others t same).parked waits))
  · rw [(intact m mine).lockHolder (isLock m mine)] at holds
    exact .inr (.inl holds)

end

/-- What is left to do after a wait. -/
theorem Regular.handover_finish (isLock : ∀ m, locks m → s.IsLock m) (regular : s.Regular hand) (p : Pause V) :
    Handover locks s (p.finish s) := by
  cases p with
  | door m => exact s.handover_use nofun
  | amid op =>
    have evolution : Evolution none hand s (op.finish s).2 := op.evolves_finish s regular
    exact .of_evolution evolution isLock fun m _ => .finish (.amid op) m s

/-- What happens between two turns. -/
theorem Regular.handover_interlude (isLock : ∀ m, locks m → s.IsLock m) (regular : s.Regular none)
    (interlude : s.Interlude s') : Handover locks s s' := by
  have intact (m : ObjectId) : Intact m s s' := .of_objects interlude.objects
  have evolved (evolves : s.Evolves none none s') : Handover locks s s' :=
    .of_evolution (evolves regular) isLock fun m _ => intact m
  cases interlude with
  | idle nobody =>
    obtain ⟨ready, readySet, picks, eq⟩ := pickReady_eq s.ready.length s
    rw [← nextReady, nobody] at eq
    obtain rfl : s' = { s with ready, readySet, picks } := eq
    exact .of_views rfl fun t => ⟨rfl, rfl, id⟩
  | fire n => exact evolved (s.evolves_fireDue n)
  | advance later => exact evolved (evolves_advance? s later)
  | kill id cause => exact evolved (s.evolves_kill id cause)
  | note e => exact evolved (s.evolves_note e)

/-- A ready task is taken in hand. -/
theorem handover_dispatch (next : s.nextReady = (some me, s')) :
    Handover locks s ((s'.setRunning me).setCurrent (some me)) := by
  obtain ⟨ready, readySet, picks, eq⟩ := pickReady_eq s.ready.length s
  rw [← nextReady, next] at eq
  obtain rfl : s' = { s with ready, readySet, picks } := eq
  obtain ⟨k, known, -⟩ := task?_of_isDone (pickReady_unfinished _ next)
  have known' : task? { s with ready, readySet, picks } me = some k := known
  have seen := view_modifyTask known' fun k => { k with state := .running, reason := .none, started := true }
  refine .of_views (objects_modifyTask _ me _) fun t => ?_
  show ((setRunning _ me).view t).parked = _ ∧ ((setRunning _ me).view t).killed = _ ∧ (_ → ((setRunning _ me).view t).status ≠ none)
  rw [setRunning, seen]
  split
  · rename_i same
    subst same
    refine ⟨rfl, ?_, fun _ => by simp⟩
    simp [view, known]
  · exact ⟨rfl, rfl, id⟩

/-- A change that only concerns who runs, who has to unwind and what is in the journal. -/
theorem handover_queues (s : Scheduler V E B) {current : Option TaskId} {unwinding : List TaskId} {journal : List RunEvent} :
    Handover locks s { s with current, unwinding, journal } :=
  .of_views rfl fun _ => ⟨rfl, rfl, id⟩

theorem Regular.handover_end (regular : s.Regular (some me)) (errorText : E → Bytes) (result : Option V)
    (fault : Option (TaskFault E)) : Handover locks s (s.finish errorText me result fault) := by
  have finished := regular.finished errorText result fault
  obtain ⟨alarms, -, seen⟩ := finished.here
  have moves := fun t other => finished.others t other (fun _ => True) false trivial
  have waited (t : TaskId) (m : ObjectId) (waits : (s.finish errorText me result fault).parked.get? t = some (.lock m)) :
      s.parked.get? t = some (.lock m) := by
    by_cases same : t = me
    · subst same
      have gone : (view _ t).parked = some (.lock m) := waits
      rw [seen] at gone
      cases gone
    · exact (moves t same).parked waits
  refine ⟨fun m ⟨holder, here⟩ => ⟨holder, Intact.of_objects finished.objects holder here⟩, fun t known => ?_,
    fun t killed => ?_, fun t m _ waits => .inr (waited t m waits), fun t m waits => .inr (.inr (waited t m waits)),
    fun t m _ holds => .inr (.inl ?_)⟩
  · by_cases same : t = me
    · rw [same, Known, seen]
      simp
    · exact (moves t same).known known
  · by_cases same : t = me
    · subst same
      rw [seen]
      exact killed
    · exact (moves t same).killed killed
  · rwa [lockHolder_congr finished.objects] at holds

/-- What the task in turn can do without losing its turn that is not about these locks.  It may leave any block. -/
inductive Elsewhere (locks : ObjectId → Prop) (s : Scheduler V E B) : Scheduler V E B → Prop where
  | operate {α : Type} (op : TaskOp V E B α) (other : ∀ m, locks m → ¬ op.Names m) : Elsewhere locks s (op.run s).2
  | attempt {s' : Scheduler V E B} {p : Pause V} {r : Woken V} (other : ∀ m, locks m → ¬ p.Names m)
    (done : p.start s = (.done r, s')) : Elsewhere locks s s'
  /-- A killed task does not wait. -/
  | stay {s' : Scheduler V E B} {p : Pause V} (other : ∀ m, locks m → ¬ p.Names m) (parked : p.start s = (.parked, s'))
    (killed : s'.currentKilled = true) : Elsewhere locks s s'
  /-- A task has waited, and goes on. -/
  | awake (p : Pause V) : Elsewhere locks s (p.finish s)
  | leave (m : ObjectId) : Elsewhere locks s (s.leaveBlock m)

/-- What is not about these locks hands over some of them at most, and the books stay in order. -/
theorem Elsewhere.spec (elsewhere : s.Elsewhere locks s') (isLock : ∀ m, locks m → s.IsLock m)
    (regular : s.Regular (some me)) (runs : s.current = some me) :
    Handover locks s s' ∧ s'.Regular (some me) ∧ s'.current = some me := by
  have evolve {exempt : Option ObjectId} {s' : Scheduler V E B} (evolution : s.Evolution exempt (some me) s') :
      s'.Regular (some me) ∧ s'.current = some me :=
    ⟨regular.evolve evolution, evolution.current.trans runs⟩
  cases elsewhere with
  | operate op other => exact ⟨regular.handover_run isLock op other, evolve (op.evolves _ regular)⟩
  | @attempt _ p _ other done =>
    obtain ⟨exempt, tries⟩ := p.tries s
    exact ⟨regular.handover_done isLock runs done other, evolve (tries.done regular runs done)⟩
  | @stay _ p other parked killed =>
    obtain ⟨exempt, tries⟩ := p.tries s
    have parking := tries.parked regular runs parked
    have current := parking.current.trans runs
    rw [currentKilled_eq current] at killed
    exact ⟨regular.handover_parked isLock runs parked other, parking.stays regular killed, current⟩
  | awake p =>
    refine ⟨regular.handover_finish isLock p, ?_⟩
    cases p with
    | amid op =>
      have evolution : Evolution none (some me) s (op.finish s).2 := op.evolves_finish s regular
      exact evolve evolution
    | door m => exact ⟨regular.enterBlock m, runs⟩
  | leave m =>
    obtain ⟨left, same⟩ := regular.leaveBlock m
    exact ⟨regular.handover_leaveBlock m, left, same.trans runs⟩

theorem Prepared.nobody_waits (prepared : s.Prepared) (t : TaskId) : s.parked.get? t = none := by
  have none {exempt : Option ObjectId} {hand : Option TaskId} {s s' : Scheduler V E B}
      (evolution : s.Evolution exempt hand s') (before : s.parked.get? t = none) : s'.parked.get? t = none := by
    cases waits : s'.parked.get? t with
    | none => rfl
    | some key => cases before.symm.trans ((evolution.moves t).parked waits)
  induction prepared with
  | new => rfl
  | operate before op ih => exact none (op.evolves _ before.regular.1) ih
  | attempt before op ih => exact none (before.regular.1.outside before.regular.2 op) ih

end Scheduler

end LedgerScript
