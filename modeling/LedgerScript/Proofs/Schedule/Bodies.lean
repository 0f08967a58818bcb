import LedgerScript.Proofs.Schedule.Lives
import LedgerScript.Proofs.Schedule.Operations
import LedgerScript.Proofs.Schedule.Traffic

/-!
# What tasks have to do

The body of a task is given when the task is spawned.  No other operation adds a task or changes a body, and none but the
machine itself hands the processor to another task.  Only operations on channels, and the end of a task, make traffic.
The lives of tasks only change when one ends or is suspended, and by what has to do with timers.
-/

namespace LedgerScript

variable {V E B α : Type}

namespace Scheduler

def bodies (s : Scheduler V E B) : Array B :=
  s.tasks.map (·.body)

theorem bodies_modifyTask (s : Scheduler V E B) (id : TaskId) {f : Task V E B → Task V E B}
    (keeps : ∀ t, (f t).body = t.body) : (s.modifyTask id f).bodies = s.bodies := by
  unfold modifyTask
  split
  · rfl
  · unfold bodies
    ext i h h'
    · simp
    · simp only [Array.getElem_map, Array.getElem_modify]
      split
      · rw [keeps]
      · rfl

theorem traffic_modifyTask (s : Scheduler V E B) (id : TaskId) {f : Task V E B → Task V E B}
    (mail : ∀ t, (f t).received = t.received) : (s.modifyTask id f).traffic = s.traffic := by
  have eq := s.modifyTask_eq id f
  rw [Traffic.ext_iff]
  refine ⟨by rw [eq]; rfl, funext fun t => ?_, by rw [eq]; rfl, by rw [eq]; rfl⟩
  simp only [traffic, task?_modifyTask]
  split
  · cases s.task? t <;> simp [mail]
  · rfl

theorem traffic_modifyObject (s : Scheduler V E B) (id : ObjectId) {f : SyncObject V → SyncObject V}
    (keeps : ∀ o, (f o).channel? = o.channel?) : (s.modifyObject id f).traffic = s.traffic := by
  have eq := s.modifyObject_eq id f
  rw [Traffic.ext_iff]
  refine ⟨funext fun c => ?_, by rw [eq]; rfl, by rw [eq]; rfl, by rw [eq]; rfl⟩
  simp only [traffic, object?_modifyObject]
  split
  · cases s.object? c <;> simp [keeps]
  · rfl

/-- What may change. -/
structure May where
  /-- There may be traffic. -/
  deals : Prop
  /-- The lives of tasks may change. -/
  lives : Prop

/-- There is no traffic. -/
def May.silent : May :=
  ⟨False, True⟩

/-- The lives of tasks go on. -/
def May.still : May :=
  ⟨True, False⟩

/-- The same task runs, and the tasks have to do the same.  There is no traffic and no change to lives, unless it is
allowed. -/
structure Same (may : May) (s s' : Scheduler V E B) : Prop where
  current : s'.current = s.current
  bodies : s'.bodies = s.bodies
  calm : may.deals ∨ s'.traffic = s.traffic
  steady : may.lives ∨ s'.life = s.life

namespace Same

variable {may : May} {s s' s'' : Scheduler V E B}

theorem refl (s : Scheduler V E B) : s.Same may s :=
  ⟨rfl, rfl, .inr rfl, .inr rfl⟩

theorem trans (first : s.Same may s') (second : s'.Same may s'') : s.Same may s'' := by
  refine ⟨second.current.trans first.current, second.bodies.trans first.bodies, ?_, ?_⟩
  · rcases first.calm with deals | same
    · exact .inl deals
    · exact second.calm.imp_right (·.trans same)
  · rcases first.steady with lives | same
    · exact .inl lives
    · exact second.steady.imp_right (·.trans same)

theorem traffic (same : s.Same .silent s') : s'.traffic = s.traffic :=
  same.calm.resolve_left id

/-- What changes no lives. -/
theorem life (same : s.Same .still s') : s'.life = s.life :=
  same.steady.resolve_left id

/-- A change to something else. -/
theorem of_eq (same : s.Same may s') (tasks : s''.tasks = s'.tasks) (current : s''.current = s'.current)
    (calm : may.deals ∨ s''.traffic = s'.traffic) (steady : may.lives ∨ s''.life = s'.life) : s.Same may s'' :=
  same.trans ⟨current, by rw [Scheduler.bodies, tasks]; rfl, calm, steady⟩

section

variable (same : s.Same may s')
include same

theorem change (id : TaskId) {f : Task V E B → Task V E B} (keeps : ∀ t, (f t).body = t.body)
    (mail : may.deals ∨ ∀ t, (f t).received = t.received) (lasts : may.lives ∨ ∀ t, (f t).lasting = t.lasting) :
    s.Same may (s'.modifyTask id f) :=
  same.trans ⟨by rw [modifyTask_eq], bodies_modifyTask s' id keeps, mail.imp_right (traffic_modifyTask s' id),
    lasts.imp_right (life_modifyTask s' id)⟩

omit same in
/-- A change to the life of a task. -/
theorem modifyTask (lives : may.lives) (same : s.Same may s') (id : TaskId) {f : Task V E B → Task V E B}
    (keeps : ∀ t, (f t).body = t.body) (mail : ∀ t, (f t).received = t.received) : s.Same may (s'.modifyTask id f) :=
  same.change id keeps (.inr mail) (.inl lives)

theorem modifyObject (id : ObjectId) {f : SyncObject V → SyncObject V}
    (keeps : ∀ o, (f o).channel? = o.channel?) : s.Same may (s'.modifyObject id f) := by
  have eq := s'.modifyObject_eq id f
  exact same.of_eq (by rw [eq]) (by rw [eq]) (.inr (traffic_modifyObject s' id keeps)) (.inr (by rw [eq]; rfl))

theorem note (e : RunEvent) : s.Same may (s'.note e) :=
  same.of_eq rfl rfl (.inr rfl) (.inr rfl)

theorem noteTask (name : String) (id : TaskId) (detail : Bytes) : s.Same may (s'.noteTask name id detail) :=
  same.note _

theorem use {u : LockUse} (other : ∀ t, u ≠ .ended t) : s.Same may (s'.use u) := by
  refine same.of_eq rfl rfl (.inr ?_) (.inr rfl)
  rw [Traffic.ext_iff]
  refine ⟨rfl, rfl, funext fun t => ?_, rfl⟩
  have iff : (s'.use u).Ended t ↔ s'.Ended t := by simp [Ended, Scheduler.use, (other t).symm]
  simp only [Scheduler.traffic, iff]

/-! ## Readiness -/

theorem enqueue (id : TaskId) : s.Same may (s'.enqueue id) := by
  unfold Scheduler.enqueue
  split
  · exact same
  · have queued : s.Same may { s' with ready := s'.ready ++ [id], readySet := s'.readySet.set id () } := same.of_eq rfl rfl (.inr rfl) (.inr rfl)
    refine queued.change id (fun t => ?_) (.inr fun t => ?_) (.inr fun t => ?_)
    · split <;> rfl
    · split <;> rfl
    · split
      · rfl
      · rename_i unfinished
        exact Task.lasting_ready unfinished

theorem unready (id : TaskId) : s.Same may (s'.unready id) := by
  unfold Scheduler.unready
  split
  · exact same.of_eq rfl rfl (.inr rfl) (.inr rfl)
  · exact same

theorem setWaiters (key : WaitKey) (ids : List TaskId) : s.Same may (s'.setWaiters key ids) := by
  unfold Scheduler.setWaiters
  split <;> exact same.of_eq rfl rfl (.inr rfl) (.inr rfl)

theorem unpark (id : TaskId) : s.Same may (s'.unpark id) :=
  same.of_eq rfl rfl (.inr rfl) (.inr rfl)

theorem addWaiter (key : WaitKey) (id : TaskId) : s.Same may (s'.addWaiter key id) :=
  same.of_eq rfl rfl (.inr rfl) (.inr rfl)

theorem unregister (id : TaskId) : s.Same may (s'.unregister id) := by
  unfold Scheduler.unregister
  split
  · exact same
  · exact (same.setWaiters _ _).unpark id

theorem register (id : TaskId) (key : WaitKey) : s.Same may (s'.register id key) := by
  unfold Scheduler.register
  split
  · exact same.addWaiter key id
  · split
    · exact same
    · exact (same.setWaiters _ _).addWaiter key id

theorem wake (id : TaskId) : s.Same may (s'.wake id) := by
  unfold Scheduler.wake
  split
  · exact same
  · exact (same.unregister id).enqueue id

omit same in
/-- One change after another. -/
theorem foldl {β : Type} {f : Scheduler V E B → β → Scheduler V E B}
    (each : ∀ {s'}, s.Same may s' → ∀ b, s.Same may (f s' b)) (same : s.Same may s') (bs : List β) :
    s.Same may (bs.foldl f s') := by
  induction bs generalizing s' with
  | nil => exact same
  | cons b bs ih => exact ih (each same b)

theorem wakeAll (key : WaitKey) : s.Same may (s'.wakeAll key) := by
  unfold Scheduler.wakeAll
  split
  · exact same
  · exact (same.setWaiters key []).foldl (fun same id => (same.unpark id).wake id) _

theorem popUnfinished (key : WaitKey) (ids : List TaskId) : s.Same may (s'.popUnfinished key ids).2 := by
  induction ids generalizing s' with
  | nil => exact same
  | cons id rest ih =>
    unfold Scheduler.popUnfinished
    dsimp only
    split
    · exact ih ((same.setWaiters key rest).unpark id)
    · exact (same.setWaiters key rest).unpark id

theorem popWaiter (key : WaitKey) : s.Same may (s'.popWaiter key).2 :=
  same.popUnfinished key _

/-! ## Timers -/

end

section

variable (lives : may.lives) (same : s.Same may s')
include lives same

theorem disarm (id : Option TimerId) : s.Same may (s'.disarm id) := by
  unfold Scheduler.disarm
  split
  · exact same
  · exact same.of_eq rfl rfl (.inr rfl) (.inl lives)

theorem armTimer (delay : Nat) (action : TimerAction) : s.Same may (s'.armTimer delay action).2 :=
  same.of_eq rfl rfl (.inr rfl) (.inl lives)

theorem setDeadline (id : TaskId) (after : Int) : s.Same may (s'.setDeadline id after) := by
  unfold Scheduler.setDeadline
  split
  · exact same
  · split
    · exact same
    · exact modifyTask lives (armTimer lives (disarm lives same _) _ _) id (fun _ => by rfl) fun _ => by rfl

theorem park (id : TaskId) (key : Option WaitKey) (reason : WaitReason) : s.Same may (s'.park id key reason) := by
  unfold Scheduler.park
  dsimp only
  split
  · exact modifyTask lives (same.register id _) id (fun _ => by rfl) fun _ => by rfl
  · exact modifyTask lives same id (fun _ => by rfl) fun _ => by rfl

end

section

variable (same : s.Same may s')
include same

theorem pickReady (n : Nat) : s.Same may (s'.pickReady n).2 := by
  induction n generalizing s' with
  | zero => exact same
  | succ n ih =>
    unfold Scheduler.pickReady
    dsimp only
    split
    · exact same
    · split
      · exact ih (same.of_eq rfl rfl (.inr rfl) (.inr rfl))
      · exact same.of_eq rfl rfl (.inr rfl) (.inr rfl)

/-! ## Locks, semaphores and barriers -/

theorem setHolder (id : ObjectId) (holder : Option TaskId) : s.Same may (s'.setHolder id holder) :=
  same.modifyObject id fun o => by cases o <;> rfl

theorem setPermits (id : ObjectId) (n : Int) : s.Same may (s'.setPermits id n) :=
  same.modifyObject id fun o => by cases o <;> rfl

theorem nextGeneration (id : ObjectId) : s.Same may (s'.nextGeneration id) :=
  same.modifyObject id fun o => by cases o <;> rfl

theorem passLock (id : ObjectId) : s.Same may (s'.passLock id).2 := by
  have popped := same.popWaiter (.lock id)
  unfold Scheduler.passLock
  split
  · rename_i next t eq
    rw [eq] at popped
    exact (popped.setHolder id _).wake next
  · rename_i t eq
    rw [eq] at popped
    exact popped.setHolder id none

theorem lockIsFree (id : ObjectId) : s.Same may (s'.lockIsFree id).2 := by
  unfold Scheduler.lockIsFree
  split
  · exact same
  · split
    · exact same.passLock id
    · exact same
  · exact same

omit same in
theorem takeLock (lives : ∀ me, s.current = some me → may.lives) (same : s.Same may s') (id : ObjectId) : s.Same may (s'.takeLock id).2 := by
  have free := same.lockIsFree id
  unfold Scheduler.takeLock
  split
  · rename_i me _ runs _
    split
    · rename_i t eq
      rw [eq] at free
      exact free.setHolder id _
    · rename_i t eq
      rw [eq] at free
      dsimp only at free ⊢
      exact park (lives me (same.current ▸ runs)) free _ _ _
  · exact same

theorem byHand (id : ObjectId) : s.Same may (s'.use (.byHand id)) :=
  same.use fun _ => LockUse.noConfusion

theorem tryLock (id : ObjectId) : s.Same may (s'.tryLock id).2 := by
  unfold Scheduler.tryLock
  split
  · exact same
  · have free := (same.byHand id).lockIsFree id
    split
    · rename_i t eq
      rw [eq] at free
      exact free.setHolder id _
    · rename_i t eq
      rw [eq] at free
      exact free

theorem releaseLock (id : ObjectId) : s.Same may (s'.releaseLock id) :=
  (same.byHand id).passLock id

theorem enterBlock (id : ObjectId) : s.Same may (s'.enterBlock id) :=
  same.use fun _ => LockUse.noConfusion

theorem leaveBlock (id : ObjectId) : s.Same may (s'.leaveBlock id) := by
  have left : s.Same may (s'.use (.left (s'.current.getD 0) id (s'.lockHolder id))) :=
    same.use fun _ => LockUse.noConfusion
  exact left.passLock id

theorem tryAcquire (id : ObjectId) : s.Same may (s'.tryAcquire id).2 := by
  unfold Scheduler.tryAcquire
  split
  · exact same.setPermits id _
  · exact same

theorem releasePermit (id : ObjectId) : s.Same may (s'.releasePermit id) := by
  have popped := same.popWaiter (.permit id)
  unfold Scheduler.releasePermit
  split
  · rename_i next t eq
    rw [eq] at popped
    exact popped.wake next
  · rename_i t eq
    rw [eq] at popped
    exact popped.setPermits id _

/-! ## The end of a task -/

end

section

variable (deals : may.deals) (same : s.Same may s')
include deals same

theorem noteEnd (id : TaskId) : s.Same may (s'.noteEnd id) :=
  same.of_eq rfl rfl (.inl deals) (.inr rfl)

omit same in
theorem finish (lives : may.lives) (same : s.Same may s') (errorText : E → Bytes) (id : TaskId) (result : Option V)
    (fault : Option (TaskFault E)) : s.Same may (s'.finish errorText id result fault) := by
  unfold Scheduler.finish
  split
  · exact same
  · rename_i t found
    have ended := noteEnd deals (disarm lives (disarm lives same t.deadline) t.sleep) id
    have done := modifyTask lives ended id (f := fun t => { t with
      result, fault, deadline := none, sleep := none
      state := if fault.isSome then .failed else .completed }) (fun _ => by rfl) fun _ => by rfl
    exact (((done.unregister id).unready id).noteTask _ id _).wakeAll _

omit same in
theorem kill (lives : may.lives) (same : s.Same may s') (id : TaskId) (cause : ScheduleFault) : s.Same may (s'.kill id cause) := by
  unfold Scheduler.kill
  split
  · exact same
  · split
    · exact same
    · have killed : s.Same may (s'.modifyTask id fun t => { t with killed := true }) :=
        modifyTask lives same id (fun _ => by rfl) fun _ => by rfl
      have ended := finish deals lives killed (fun _ => []) id none (some (.schedule cause))
      dsimp only
      split
      · exact ended
      · exact ended.of_eq rfl rfl (.inr rfl) (.inl lives)

/-! ## Channels -/

theorem useChannel (u : ChannelUse V) : s.Same may (s'.useChannel u) :=
  same.of_eq rfl rfl (.inl deals) (.inr rfl)

theorem modifyMail (id : TaskId) {f : Task V E B → Task V E B}
    (keeps : ∀ t, (f t).body = t.body) (lasts : ∀ t, (f t).lasting = t.lasting) : s.Same may (s'.modifyTask id f) :=
  same.change id keeps (.inl deals) (.inr lasts)

theorem setChannel (id : ObjectId) (c : ChannelState V) : s.Same may (s'.setChannel id c) := by
  have eq := s'.modifyObject_eq id (·.withChannel c)
  exact same.of_eq (by rw [Scheduler.setChannel, eq]) (by rw [Scheduler.setChannel, eq]) (.inl deals)
    (.inr (by rw [Scheduler.setChannel, eq]; rfl))

theorem popReceiver (id : ObjectId) : s.Same may (s'.popReceiver id).2 := by
  unfold Scheduler.popReceiver
  dsimp only
  split <;> exact setChannel deals same id _

theorem popSender (id : ObjectId) : s.Same may (s'.popSender id).2 := by
  unfold Scheduler.popSender
  dsimp only
  split <;> exact setChannel deals same id _

theorem deliver (receiver : TaskId) (v : Option V) (ok : Bool) : s.Same may (s'.deliver receiver v ok) :=
  (modifyMail deals same receiver (fun _ => by rfl) fun _ => by rfl).wake receiver

omit same in
theorem deposit (lives : ∀ me, s.current = some me → may.lives) (same : s.Same may s') (id : ObjectId) (v : V) : s.Same may (s'.deposit id v).2 := by
  unfold Scheduler.deposit
  dsimp only
  split
  · exact setChannel deals (useChannel deals same _) id _
  · split
    · exact same
    · rename_i me runs
      have noted := modifyMail deals (useChannel deals same (.offered id me v)) me
        (f := fun t => { t with sendRefused := false }) (fun _ => by rfl) fun _ => by rfl
      dsimp only
      exact park (lives me (same.current ▸ runs)) (setChannel deals noted id _) _ _ _

omit same in
theorem send (lives : ∀ me, s.current = some me → may.lives) (same : s.Same may s') (id : ObjectId) (v : V) : s.Same may (s'.send id v).2 := by
  have popped := popReceiver deals same id
  unfold Scheduler.send
  split
  · exact same
  · split
    · rename_i receiver t eq
      rw [eq] at popped
      exact deliver deals (useChannel deals (useChannel deals popped _) _) receiver _ _
    · rename_i t eq
      rw [eq] at popped
      exact deposit deals lives popped id v

theorem takeReady (id : ObjectId) : s.Same may (s'.takeReady id).2 := by
  unfold Scheduler.takeReady
  dsimp only
  split
  · rename_i v rest full
    have left := setChannel deals (useChannel deals same (.handed id none v)) id { s'.channel id with buffer := rest }
    have taken := popSender deals left id
    split
    · rename_i sender w t eq
      rw [eq] at taken
      exact (setChannel deals (useChannel deals taken _) id _).wake sender
    · rename_i t eq
      rw [eq] at taken
      exact taken
  · have taken := popSender deals same id
    split
    · rename_i sender w t eq
      rw [eq] at taken
      exact (useChannel deals (useChannel deals taken _) _).wake sender
    · rename_i t eq
      rw [eq] at taken
      exact taken

theorem noteReceived (id : ObjectId) (receiver : TaskId) (r : Received V) : s.Same may (s'.noteReceived id receiver r) := by
  unfold Scheduler.noteReceived
  split
  · exact useChannel deals same _
  · split
    · exact useChannel deals same _
    · exact same

omit same in
theorem awaitValue (lives : ∀ me, s.current = some me → may.lives) (same : s.Same may s') (id : ObjectId) : s.Same may (s'.awaitValue id).2 := by
  unfold Scheduler.awaitValue
  dsimp only
  split
  · dsimp only
    exact noteReceived deals same id _ _
  · split
    · exact same
    · rename_i me runs
      have noted := modifyMail deals same me (f := fun t => { t with received := (none, false) }) (fun _ => by rfl) fun _ => by rfl
      dsimp only
      exact park (lives me (same.current ▸ runs)) (setChannel deals noted id _) _ _ _

omit same in
theorem receive (lives : ∀ me, s.current = some me → may.lives) (same : s.Same may s') (id : ObjectId) : s.Same may (s'.receive id).2 := by
  have taken := takeReady deals same id
  unfold Scheduler.receive
  split
  · rename_i v t eq
    rw [eq] at taken
    exact taken
  · rename_i t eq
    rw [eq] at taken
    exact awaitValue deals lives taken id

theorem refuseReceiver (receiver : TaskId) : s.Same may (s'.refuseReceiver receiver) := by
  unfold Scheduler.refuseReceiver
  split
  · exact same
  · exact deliver deals same receiver none false

theorem refuseSender (sender : TaskId × V) : s.Same may (s'.refuseSender sender) := by
  unfold Scheduler.refuseSender
  split
  · exact same
  · exact (modifyMail deals same _ (fun _ => by rfl) fun _ => by rfl).wake _

theorem turnAway (id : ObjectId) : s.Same may (s'.turnAway id) := by
  have emptied := setChannel deals same id { s'.channel id with receivers := [], senders := [] }
  exact (emptied.foldl (fun same => refuseReceiver deals same) _).foldl (fun same => refuseSender deals same) _

theorem closeChannel (id : ObjectId) : s.Same may (s'.closeChannel id) := by
  unfold Scheduler.closeChannel
  dsimp only
  split
  · exact same
  · exact turnAway deals (setChannel deals (useChannel deals same _) id _) id

end

end Same

/-! ## Operations -/

variable {may : May} {s s' : Scheduler V E B}

/-- A new task has its body, and nothing is there for it to receive. -/
theorem spawn_spec (s : Scheduler V E B) (name : String) (body : B) :
    (s.spawn name body).2.current = s.current ∧ (s.spawn name body).2.bodies = s.bodies.push body ∧
      (s.spawn name body).2.traffic = s.traffic := by
  let task : Task V E B := { id := s.tasks.size + 1, name, body }
  let pushed : Scheduler V E B := { s with tasks := s.tasks.push task }
  have later : pushed.Same .silent (s.spawn name body).2 := by
    unfold spawn
    dsimp only
    split
    · exact (Same.setDeadline trivial ((Same.refl pushed).enqueue _) _ _).noteTask _ _ _
    · exact ((Same.refl pushed).enqueue _).noteTask _ _ _
  refine ⟨later.current, later.bodies.trans Array.map_push, later.traffic.trans ?_⟩
  rw [Traffic.ext_iff]
  refine ⟨rfl, funext fun t => ?_, rfl, rfl⟩
  have found := task?_push s task t
  simp only [traffic, pushed, found]
  split
  · rename_i new
    simp [new, task?, task]
  · rfl

end Scheduler

/-- The operation has to do with channels, or ends a task. -/
def TaskOp.Deals : TaskOp V E B α → Prop
  | .cancel .. | .newChannel .. | .tryReceive .. | .close .. => True
  | _ => False

/-- The operation ends a task, or has to do with timers. -/
def TaskOp.Lives : TaskOp V E B α → Prop
  | .cancel .. | .setDeadline .. => True
  | _ => False

/-- The operation has to do with channels. -/
def WaitOp.Deals : WaitOp V → Prop
  | .send .. | .receive _ => True
  | _ => False

namespace Scheduler

variable {may : May} {s s' : Scheduler V E B}

theorem traffic_newObject (s : Scheduler V E B) {o : SyncObject V} (other : o.channel? = none) :
    (s.newObject o).2.traffic = s.traffic := by
  rw [Traffic.ext_iff]
  refine ⟨funext fun c => ?_, rfl, rfl, rfl⟩
  simp only [traffic, object?_newObject]
  split
  · rename_i new
    simp [new, other, object?]
  · rfl

theorem Same.run (op : TaskOp V E B α) (deals : op.Deals → may.deals) (lives : op.Lives → may.lives)
    (noSpawn : ∀ name body k, op ≠ .spawn name body k) (same : s.Same may s') : s.Same may (op.run s').2 := by
  cases op with
  | read => exact same
  | note e => exact same.note e
  | interrupt => exact same.of_eq rfl rfl (.inr rfl) (.inr rfl)
  | newLock | newSemaphore | newBarrier => exact same.of_eq rfl rfl (.inr (s'.traffic_newObject rfl)) (.inr rfl)
  | newChannel => exact same.of_eq rfl rfl (.inl (deals trivial)) (.inr rfl)
  | spawn name body k => exact absurd rfl (noSpawn name body k)
  | cancel id => exact Same.kill (deals trivial) (lives trivial) same id _
  | setDeadline id after => exact Same.setDeadline (lives trivial) same id after
  | tryLock id => exact same.tryLock id
  | unlock id => exact same.releaseLock id
  | tryAcquire id => exact same.tryAcquire id
  | release id => exact same.releasePermit id
  | tryReceive id => exact Same.takeReady (deals trivial) same id
  | close id => exact Same.closeChannel (deals trivial) same id

theorem Same.start (op : WaitOp V) (deals : op.Deals → may.deals) (lives : ∀ me, s.current = some me → may.lives)
    (same : s.Same may s') : s.Same may (op.start s').2 := by
  cases op with
  | await target =>
    show s.Same may (s'.await target).2
    unfold await
    split
    · exact same
    · rename_i me runs
      split
      · exact same
      · split
        · exact same
        · dsimp only
          exact Same.park (lives me (same.current ▸ runs)) same _ _ _
  | yield =>
    show s.Same may s'.yield.2
    unfold yield
    split
    · exact same
    · rename_i me runs
      exact Same.modifyTask (lives me (same.current ▸ runs)) (same.enqueue _) _ (fun _ => by rfl) fun _ => by rfl
  | sleep ns =>
    show s.Same may (s'.sleep ns).2
    unfold sleep
    split
    · exact same
    · rename_i me runs
      have lives := lives me (same.current ▸ runs)
      exact Same.modifyTask lives (Same.armTimer lives (Same.park lives same _ _ _) _ _) _ (fun _ => by rfl)
        fun _ => by rfl
  | lock id => exact Same.takeLock lives (same.byHand id) id
  | permit id =>
    have taken := same.tryAcquire id
    show s.Same may (s'.acquirePermit id).2
    unfold acquirePermit
    split
    · exact same
    · rename_i me runs
      split
      · rename_i t eq
        rw [eq] at taken
        exact taken
      · rename_i t eq
        rw [eq] at taken
        dsimp only at taken ⊢
        exact Same.park (lives me (same.current ▸ runs)) taken _ _ _
  | barrier id =>
    show s.Same may (s'.arrive id).2
    unfold arrive
    split
    · exact same
    · rename_i me runs
      split
      · exact (same.nextGeneration id).wakeAll _
      · dsimp only
        exact Same.park (lives me (same.current ▸ runs)) same _ _ _
  | send id v => exact Same.send (deals trivial) lives same id v
  | receive id => exact Same.receive (deals trivial) lives same id

theorem Same.goOn (op : WaitOp V) (deals : ∀ c, op = .receive c → may.deals) (lives : ∀ ns, op = .sleep ns → may.lives)
    (same : s.Same may s') : s.Same may (op.finish s').2 := by
  cases op with
  | sleep ns =>
    show s.Same may s'.awoken
    unfold awoken
    split
    · exact same
    · exact Same.modifyTask (lives ns rfl) same _ (fun _ => by rfl) fun _ => by rfl
  | send id v =>
    show s.Same may s'.sendResult.2
    unfold sendResult
    split
    · exact same
    · exact same.change _ (fun _ => by rfl) (.inr fun _ => by rfl) (.inr fun _ => by rfl)
  | receive id =>
    show s.Same may (s'.receiveResult id).2
    unfold receiveResult
    split
    · exact same
    · exact Same.modifyMail (deals id rfl) (Same.noteReceived (deals id rfl) same id _ _) _ (fun _ => by rfl)
        fun _ => by rfl
  | await | yield | lock | permit | barrier => exact same

end Scheduler

end LedgerScript
