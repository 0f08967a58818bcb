import LedgerScript.Proofs.Schedule.Bodies
import LedgerScript.Proofs.Schedule.Waits

/-!
# How lives change

Lives change when a task is spawned, gets a deadline, ends, or is suspended, and when a timer fires.  Each of these says
how, in terms of the life before.
-/

open Function (update)

namespace LedgerScript

variable {V E B : Type}

namespace Scheduler

variable {s s' : Scheduler V E B} {t id me : TaskId} {k : Task V E B}

/-! ## Timers -/

theorem timers_disarm (s : Scheduler V E B) (timer : Option TimerId) :
    (s.disarm timer).timers = s.timers.filter fun x => timer ≠ some x.id := by
  cases timer with
  | none => simp [disarm]
  | some i =>
    refine List.filter_congr fun x _ => ?_
    simp [eq_comm]

theorem life_disarm (s : Scheduler V E B) (timer : Option TimerId) :
    (s.disarm timer).life = { s.life with timers := s.timers.filter fun x => timer ≠ some x.id } := by
  rw [← timers_disarm]
  cases timer <;> rfl

theorem life_disarm_disarm (s : Scheduler V E B) (k : Task V E B) :
    ((s.disarm k.deadline).disarm k.sleep).life = s.life.clear k := by
  have timers : (s.timers.filter fun x => k.deadline ≠ some x.id).filter (fun x => k.sleep ≠ some x.id) =
      s.timers.filter fun x => k.deadline ≠ some x.id ∧ k.sleep ≠ some x.id := by
    rw [List.filter_filter]
    refine List.filter_congr fun x _ => ?_
    rw [Bool.decide_and, Bool.and_comm]
  rw [life_disarm, life_disarm, timers_disarm, timers]
  rfl

/-! ## The end of a task -/

theorem life_finish (here : s.life.tasks id = some k) (errorText : E → Bytes) (result : Option V)
    (fault : Option (TaskFault E)) :
    (s.finish errorText id result fault).life = (s.life.clear k).put id (k.ended result fault) := by
  obtain ⟨k₀, known, rfl⟩ := task?_of_tasks here
  unfold finish
  rw [known]
  dsimp only
  have cleared := s.life_disarm_disarm k₀
  generalize (s.disarm k₀.deadline).disarm k₀.sleep = s₁ at cleared
  have same : (s₁.noteEnd id).life = s.life.clear k₀ := cleared
  have here₁ : (s₁.noteEnd id).life.tasks id = some k₀.lasting := by
    rw [same]
    exact here
  have ended := life_put here₁ (f := (·.ended result fault)) (Task.lasting_ended result fault)
  rw [same] at ended
  refine Eq.trans ?_ ended
  exact (((((Same.refl _).unregister id).unready id).noteTask "task.finish" id
    (finishDetail errorText fault)).wakeAll (.join id)).life

theorem current_finish (s : Scheduler V E B) (errorText : E → Bytes) (id : TaskId) (result : Option V)
    (fault : Option (TaskFault E)) : (s.finish errorText id result fault).current = s.current := by
  have same : s.Same ⟨True, True⟩ (s.finish errorText id result fault) := Same.finish trivial trivial (.refl s) ..
  exact same.current

theorem life_kill (here : s.life.tasks id = some k) (unfinished : k.isDone = false) (cause : ScheduleFault) :
    (s.kill id cause).life = s.life.kill s.current id k cause := by
  let mark (t : Task V E B) : Task V E B := { t with killed := true }
  have marked : (s.modifyTask id mark).life = s.life.put id (mark k) := life_put here fun _ => rfl
  have here₁ : (s.modifyTask id mark).life.tasks id = some (mark k) := by
    rw [marked]
    exact Function.update_self ..
  have current : ((s.modifyTask id mark).finish (fun _ => []) id none (some (.schedule cause))).current = s.current := by
    rw [current_finish, modifyTask_eq]
  have ended : ((s.modifyTask id mark).finish (fun _ => []) id none (some (.schedule cause))).life =
      (s.life.clear k).put id (k.slain cause) := by
    rw [life_finish here₁, marked]
    simp only [Life.put, Life.clear, Function.update_idem]
    rfl
  obtain ⟨k₀, known, rfl⟩ := task?_of_tasks here
  rw [Task.isDone_lasting] at unfinished
  have unwinding := congrArg Life.unwinding ended
  unfold kill
  rw [known]
  dsimp only
  rw [if_neg (by simp [unfinished])]
  change (if decide (((s.modifyTask id mark).finish (fun _ => []) id none (some (.schedule cause))).current = some id)
    || !k₀.started then _ else _ : Scheduler V E B).life = _
  rw [current]
  generalize (s.modifyTask id mark).finish (fun _ => []) id none (some (.schedule cause)) = s₁ at ended unwinding
  have same : s₁.unwinding = s.unwinding := unwinding
  have started : k₀.lasting.started = k₀.started := rfl
  unfold Life.kill
  rw [← ended, show s.life.unwinding = s₁.unwinding from same.symm, started]
  by_cases stays : s.current = some id ∨ k₀.started = false
  · rw [if_pos stays, if_pos (by simpa using stays)]
    rfl
  · rw [if_neg stays, if_neg (by simpa using stays)]
    rfl

theorem kill_done (done : s.isDone id = true) (cause : ScheduleFault) : s.kill id cause = s := by
  unfold kill
  split
  · rfl
  · rename_i k here
    rw [if_pos (by simpa [isDone, here] using done)]

/-! ## Deadlines -/

theorem life_setDeadline (here : s.life.tasks id = some k) (unfinished : k.isDone = false) (after : Int) :
    (s.setDeadline id after).life = s.life.setDeadline id k after := by
  obtain ⟨k₀, known, rfl⟩ := task?_of_tasks here
  rw [Task.isDone_lasting] at unfinished
  unfold setDeadline
  rw [known]
  dsimp only
  rw [if_neg (by simp [unfinished])]
  have disarmed := s.life_disarm k₀.deadline
  generalize s.disarm k₀.deadline = s₁ at disarmed
  have last : s₁.lastTimer = s.lastTimer := congrArg Life.lastTimer disarmed
  have now : s₁.now = s.now := congrArg Life.now disarmed
  have timers : s₁.timers = s.timers.filter fun x => k₀.deadline ≠ some x.id := congrArg Life.timers disarmed
  have armed : (s₁.armTimer (wholeMillis after) (.expire id after)).2.life =
      { s₁.life with
        lastTimer := s₁.lastTimer + 1
        timers := insertTimer { id := s₁.lastTimer + 1, due := s₁.now + wholeMillis after, action := .expire id after }
          s₁.timers } := rfl
  have here₁ : (s₁.armTimer (wholeMillis after) (.expire id after)).2.life.tasks id = some k₀.lasting := by
    rw [armed, disarmed]
    exact here
  have name : (s₁.armTimer (wholeMillis after) (.expire id after)).1 = s₁.lastTimer + 1 := rfl
  rw [life_put here₁ (g := fun t => { t with deadline := some (s₁.lastTimer + 1) }) fun _ => rfl, armed, disarmed, timers,
    now, last]
  rfl

theorem setDeadline_done (done : s.isDone id = true) (after : Int) : s.setDeadline id after = s := by
  unfold setDeadline
  split
  · rfl
  · rename_i k here
    rw [if_pos (by simpa [isDone, here] using done)]

/-- A task is spawned, and may get a deadline at once. -/
theorem life_spawn (s : Scheduler V E B) (name : String) (body : B) :
    ∃ s₁ : Scheduler V E B,
      s₁.life = s.life.spawn name body ∧
      (s.spawn name body).2.life =
        (if s.defaultDeadline > 0 then s₁.setDeadline (s.tasks.size + 1) s.defaultDeadline else s₁).life := by
  let task : Task V E B := { id := s.tasks.size + 1, name, body }
  let pushed : Scheduler V E B := { s with tasks := s.tasks.push task }
  have enqueued : pushed.Same .still (pushed.enqueue (s.tasks.size + 1)) := (Same.refl pushed).enqueue _
  have deadline : (pushed.enqueue (s.tasks.size + 1)).defaultDeadline = s.defaultDeadline := by
    obtain ⟨ready, readySet, tasks, eq⟩ := pushed.enqueue_eq (s.tasks.size + 1)
    rw [eq]
  refine ⟨pushed.enqueue (s.tasks.size + 1), ?_, ?_⟩
  · rw [enqueued.life, Life.ext_iff]
    refine ⟨rfl, funext fun t => ?_, Array.size_push .., rfl, rfl, rfl, rfl⟩
    show (pushed.task? t).map Task.lasting = update s.life.tasks (s.tasks.size + 1) (some task) t
    rw [task?_push]
    by_cases new : t = s.tasks.size + 1
    · rw [if_pos new, new, Function.update_self]
      rfl
    · rw [if_neg new, Function.update_of_ne new]
      rfl
  · rw [← deadline]
    exact ((Same.refl _).noteTask _ _ _).life

/-! ## Timers fire -/

theorem life_ring_wake (s : Scheduler V E B) {x : Timer} (rest : List Timer) (wakes : x.action = .wake t) :
    (s.ring x rest).life = s.life.ring x rest := by
  unfold ring fire
  rw [wakes]
  exact ((Same.refl _).wake t).life

theorem life_ring_expire {x : Timer} (rest : List Timer) {after : Int} (expires : x.action = .expire t after)
    (here : s.life.tasks t = some k) (unfinished : k.isDone = false) :
    (s.ring x rest).life = (s.life.ring x rest).kill s.current t { k with deadline := none } (.deadline t after) := by
  unfold ring fire
  rw [expires]
  dsimp only
  let s₁ : Scheduler V E B := { s with timers := rest, timerUses := (s.now, x) :: s.timerUses }
  let forget (k : Task V E B) : Task V E B := { k with deadline := none }
  have here₁ : s₁.life.tasks t = some k := here
  have forgot : (s₁.modifyTask t forget).life = s₁.life.put t (forget k) := life_put here₁ fun _ => rfl
  have here₂ : (s₁.modifyTask t forget).life.tasks t = some (forget k) := by
    rw [forgot]
    exact Function.update_self ..
  have killed := life_kill here₂ unfinished (.deadline t after)
  rw [forgot, show (s₁.modifyTask t forget).current = s.current by rw [modifyTask_eq]] at killed
  refine killed.trans ?_
  simp only [Life.kill, Life.put, Life.clear, Function.update_idem]
  rfl

end Scheduler

/-! ## Suspension -/

/-- What a task is in the middle of when it is suspended: an operation, or the door of a block that a lock guards. -/
inductive Pause (V : Type) where
  | amid (op : WaitOp V)
  | door (lock : ObjectId)

namespace Pause

/-- It is done at once, or the current task is registered as waiting. -/
def start : Pause V → Scheduler V E B → Attempt (Woken V) × Scheduler V E B
  | amid op, s => op.start s
  | door m, s => (s.takeLock m).map Attempt.woken id

/-- What is left to do when the task goes on. -/
def finish : Pause V → Scheduler V E B → Scheduler V E B
  | amid op, s => (op.finish s).2
  | door m, s => s.enterBlock m

/-- What the task is suspended for. -/
def reason : Pause V → WaitReason
  | amid (.await _) => .await
  | amid .yield => .yield
  | amid (.sleep _) => .sleep
  | amid (.lock _) | door _ => .lock
  | amid (.permit _) => .semaphore
  | amid (.barrier _) => .barrier
  | amid (.send ..) => .channelSend
  | amid (.receive _) => .channelReceive

def key (lastTimer : TimerId) : Pause V → Option WaitKey
  | amid (.await target) => some (.join target)
  | amid (.sleep _) => some (.timer (lastTimer + 1))
  | amid (.lock m) | door m => some (.lock m)
  | amid (.permit id) => some (.permit id)
  | amid (.barrier id) => some (.barrier id)
  | amid .yield | amid (.send ..) | amid (.receive _) => none

/-- The lives of tasks after the task that runs has been suspended. -/
def suspend (p : Pause V) (me : TaskId) (k : Task V E B) (l : Life V E B) : Life V E B :=
  match p with
  | amid (.sleep ns) =>
    { l.put me { k with state := .ready, reason := .sleep, sleep := some (l.lastTimer + 1) } with
      lastTimer := l.lastTimer + 1
      timers := Scheduler.insertTimer { id := l.lastTimer + 1, due := l.now + wholeMillis ns, action := .wake me } l.timers }
  | amid .yield => l.put me { k with reason := .yield }
  | p => l.put me { k with state := .ready, reason := p.reason }

def resume (p : Pause V) (me : TaskId) (k : Task V E B) (l : Life V E B) : Life V E B :=
  match p with
  | amid (.sleep _) => l.put me { k with sleep := none }
  | _ => l

/-- It is done, or registers the running task. -/
theorem tries (p : Pause V) (s : Scheduler V E B) : ∃ exempt, s.Tries exempt (p.start s) := by
  cases p with
  | amid op => exact ⟨none, op.tries s⟩
  | door m => exact ⟨some m, (s.tries_takeLock m).map (fun _ => ⟨_, rfl⟩) rfl⟩

end Pause

namespace Scheduler

variable {s s' : Scheduler V E B} {me : TaskId} {k : Task V E B} {α : Type}
variable {p : Pause V}

/-- What comes of an attempt of the task that runs: nothing happens to lives, or it is suspended. -/
def Attempted (p : Pause V) (me : TaskId) (k : Task V E B) (s : Scheduler V E B) : Attempt α × Scheduler V E B → Prop
  | (.done _, s') => s'.life = s.life
  | (.parked, s') =>
    s'.life = p.suspend me k s.life ∧ (s.parked.get? me = none → s'.parked.get? me = p.key s.lastTimer)

theorem life_park (here : s.life.tasks me = some k) (key : Option WaitKey) (reason : WaitReason) :
    (s.park me key reason).life = s.life.put me { k with state := .ready, reason } := by
  cases key with
  | none => exact life_put here (g := fun k => { k with state := .ready, reason }) fun _ => rfl
  | some key =>
    have same : (s.register me key).life = s.life := ((Same.refl s).register me key).life
    have parked := life_put (same.symm ▸ here) (f := fun k => { k with state := .suspended, reason })
      (g := fun k => { k with state := .ready, reason }) fun _ => rfl
    rw [same] at parked
    exact parked

theorem parked_register (s : Scheduler V E B) (id : TaskId) (key : WaitKey) :
    (s.register id key).parked.get? id = some key := by
  unfold register
  split
  · simp [addWaiter]
  · rename_i before here
    split
    · rename_i same
      rw [here, same]
    · simp [addWaiter]

theorem parked_modifyTask (s : Scheduler V E B) (id : TaskId) (f : Task V E B → Task V E B) :
    (s.modifyTask id f).parked = s.parked := by
  rw [modifyTask_eq]

theorem parked_modifyObject (s : Scheduler V E B) (id : ObjectId) (f : SyncObject V → SyncObject V) :
    (s.modifyObject id f).parked = s.parked := by
  rw [modifyObject_eq]

theorem parked_park (s : Scheduler V E B) (id : TaskId) (key : WaitKey) (reason : WaitReason) :
    (s.park id (some key) reason).parked.get? id = some key := by
  rw [park, parked_modifyTask]
  exact s.parked_register id key

/-- The task that runs waits under a key, after something that does not concern lives. -/
theorem attempted_park (here : s.life.tasks me = some k) (same : s'.life = s.life) {key : WaitKey}
    (keyed : p.key s.lastTimer = some key)
    (plain : p.suspend me k s.life = s.life.put me { k with state := .ready, reason := p.reason }) :
    s.Attempted p me k ((.parked, s'.park me (some key) p.reason) : Attempt α × Scheduler V E B) := by
  refine ⟨?_, fun _ => keyed ▸ s'.parked_park me key p.reason⟩
  rw [plain, life_park (same.symm ▸ here), same]

/-- The task that runs waits in a queue of a channel, after something that does not concern lives. -/
theorem attempted_queue (here : s.life.tasks me = some k) (same : s'.life = s.life)
    (parked : s'.parked = s.parked) (unkeyed : p.key s.lastTimer = none)
    (plain : p.suspend me k s.life = s.life.put me { k with state := .ready, reason := p.reason }) :
    s.Attempted p me k ((.parked, s'.park me none p.reason) : Attempt α × Scheduler V E B) := by
  refine ⟨?_, fun none => ?_⟩
  · rw [plain, life_park (same.symm ▸ here), same]
  · rw [unkeyed, park, parked_modifyTask, parked, none]

/-- Something comes before an attempt that does not concern lives. -/
theorem Attempted.before (same : s'.life = s.life) (parked : s'.parked.get? me = s.parked.get? me)
    {r : Attempt α × Scheduler V E B} (attempted : s'.Attempted p me k r) : s.Attempted p me k r := by
  have last : s'.lastTimer = s.lastTimer := congrArg Life.lastTimer same
  obtain ⟨a | _, s''⟩ := r
  · exact Eq.trans attempted same
  · obtain ⟨lives, place⟩ := attempted
    rw [same] at lives
    rw [last, parked] at place
    exact ⟨lives, place⟩

theorem Attempted.map {β : Type} {r : Attempt α × Scheduler V E B} (attempted : s.Attempted p me k r)
    {g : Attempt α → Attempt β} (done : ∀ a, ∃ b, g (.done a) = .done b) (parked : g .parked = .parked) :
    s.Attempted p me k (r.map g id) := by
  obtain ⟨a | _, s'⟩ := r
  · obtain ⟨b, eq⟩ := done a
    rw [Prod.map, eq]
    exact attempted
  · rw [Prod.map, parked]
    exact attempted

/-- Nobody is woken when there is nothing to receive. -/
theorem parked_takeReady {c : ObjectId} (nothing : s.takeReady c = (none, s')) : s'.parked = s.parked := by
  unfold takeReady at nothing
  dsimp only at nothing
  split at nothing
  · split at nothing <;> cases nothing
  · split at nothing
    · cases nothing
    · rename_i s₁ eq
      cases nothing
      unfold popSender at eq
      dsimp only at eq
      split at eq
      · cases eq
      · cases eq
        exact parked_modifyObject ..

variable (runs : s.current = some me) (here : s.life.tasks me = some k)
include runs here

theorem attempted_await (target : TaskId) : s.Attempted (.amid (.await target)) me k (s.await target) := by
  unfold await
  rw [runs]
  dsimp only
  split
  · rfl
  · split
    · rfl
    · exact attempted_park here rfl rfl rfl

theorem attempted_yield : s.Attempted (.amid .yield) me k s.yield := by
  unfold yield
  rw [runs]
  dsimp only
  have same : (s.enqueue me).life = s.life := ((Same.refl s).enqueue me).life
  refine ⟨?_, fun none => ?_⟩
  · rw [life_put (same.symm ▸ here) (g := fun k => { k with reason := .yield }) fun _ => rfl, same]
    rfl
  · obtain ⟨ready, readySet, tasks, eq⟩ := s.enqueue_eq me
    rw [parked_modifyTask, eq]
    exact none

theorem attempted_sleep (ns : Int) : s.Attempted (.amid (.sleep ns)) me k (s.sleep ns) := by
  unfold sleep
  rw [runs]
  dsimp only
  have suspended := life_park here (some (.timer (s.lastTimer + 1))) .sleep
  have waits := s.parked_park me (.timer (s.lastTimer + 1)) .sleep
  generalize s.park me (some (.timer (s.lastTimer + 1))) .sleep = s₁ at suspended waits
  have last : s₁.lastTimer = s.lastTimer := congrArg Life.lastTimer suspended
  have now : s₁.now = s.now := congrArg Life.now suspended
  have timers : s₁.timers = s.timers := congrArg Life.timers suspended
  have armed : (s₁.armTimer (wholeMillis ns) (.wake me)).2.life =
      { s₁.life with
        lastTimer := s₁.lastTimer + 1
        timers := insertTimer { id := s₁.lastTimer + 1, due := s₁.now + wholeMillis ns, action := .wake me } s₁.timers } :=
    rfl
  have here₁ : (s₁.armTimer (wholeMillis ns) (.wake me)).2.life.tasks me =
      some { k with state := .ready, reason := .sleep } := by
    rw [armed, suspended]
    exact Function.update_self ..
  refine ⟨?_, fun _ => ?_⟩
  · rw [life_put here₁ (g := fun k => { k with sleep := some (s.lastTimer + 1) }) fun _ => rfl, armed, suspended, last,
      now, timers]
    simp only [Life.put, Function.update_idem]
    rfl
  · rw [parked_modifyTask]
    exact waits

theorem attempted_takeLock (m : ObjectId) (keyed : p.key s.lastTimer = some (.lock m))
    (reason : p.reason = .lock) (plain : p.suspend me k s.life = s.life.put me { k with state := .ready, reason := p.reason }) :
    s.Attempted p me k (s.takeLock m) := by
  unfold takeLock
  rw [runs]
  split
  · rename_i me' _ same held
    cases same
    have free : (s.lockIsFree m).2.life = s.life := ((Same.refl s).lockIsFree m).life
    split
    · rename_i s₁ eq
      rw [eq] at free
      exact ((Same.refl s₁).setHolder m (some me)).life.trans free
    · rename_i s₁ eq
      rw [eq] at free
      rw [← reason]
      exact attempted_park here free keyed plain
  · rfl

theorem attempted_acquirePermit (i : ObjectId) : s.Attempted (.amid (.permit i)) me k (s.acquirePermit i) := by
  have tried : (s.tryAcquire i).2.life = s.life := ((Same.refl s).tryAcquire i).life
  unfold acquirePermit
  rw [runs]
  dsimp only
  split
  · rename_i s₁ eq
    rw [eq] at tried
    exact tried
  · rename_i s₁ eq
    rw [eq] at tried
    exact attempted_park here tried rfl rfl

theorem attempted_arrive (i : ObjectId) : s.Attempted (.amid (.barrier i)) me k (s.arrive i) := by
  unfold arrive
  rw [runs]
  dsimp only
  split
  · exact (((Same.refl s).nextGeneration i).wakeAll (.barrier i)).life
  · exact attempted_park here rfl rfl rfl

theorem attempted_send (c : ObjectId) (v : V) : s.Attempted (.amid (.send c v)) me k (s.send c v) := by
  have popped : (s.popReceiver c).2.life = s.life := (Same.popReceiver trivial (Same.refl s) c).life
  have parked : (s.popReceiver c).2.parked = s.parked := by
    unfold popReceiver
    dsimp only
    split <;> exact parked_modifyObject ..
  unfold send
  split
  · rfl
  · split
    · rename_i receiver s₁ eq
      rw [eq] at popped
      have same : s₁.Same .still _ := Same.deliver trivial (Same.useChannel trivial
        (Same.useChannel trivial (Same.refl s₁) (.sent c v)) (.handed c (some receiver) v)) receiver (some v) true
      exact same.life.trans popped
    · rename_i s₁ eq
      have current : s₁.current = s.current := by
        have same : s.Same .still (s.popReceiver c).2 := Same.popReceiver trivial (Same.refl s) c
        rw [eq] at same
        exact same.current
      rw [eq] at popped parked
      refine Attempted.before popped (by rw [parked]) ?_
      have here₁ : s₁.life.tasks me = some k := popped.symm ▸ here
      have noted : s₁.Same .still ((s₁.useChannel (.offered c me v)).modifyTask me fun t => { t with sendRefused := false }) :=
        Same.modifyMail trivial (Same.useChannel trivial (Same.refl s₁) _) me (fun _ => by rfl) fun _ => by rfl
      have joined := Same.setChannel trivial noted c
        { s₁.channel c with senders := (s₁.channel c).senders ++ [(me, v)] }
      unfold deposit
      rw [current, runs]
      dsimp only
      split
      · have kept : s₁.Same .still _ := Same.setChannel trivial (Same.useChannel trivial (Same.refl s₁) (.sent c v)) c
          { s₁.channel c with buffer := (s₁.channel c).buffer ++ [v] }
        exact kept.life
      · refine attempted_queue here₁ joined.life ?_ rfl rfl
        rw [setChannel, parked_modifyObject, parked_modifyTask]
        rfl

theorem attempted_receive (c : ObjectId) : s.Attempted (.amid (.receive c)) me k (s.receive c) := by
  have taken : s.Same .still (s.takeReady c).2 := Same.takeReady trivial (Same.refl s) c
  unfold receive
  split
  · rename_i v s₁ eq
    rw [eq] at taken
    exact taken.life
  · rename_i s₁ eq
    have parked := parked_takeReady eq
    rw [eq] at taken
    refine Attempted.before taken.life (by rw [parked]) ?_
    have here₁ : s₁.life.tasks me = some k := taken.life.symm ▸ here
    have noted : s₁.Same .still (s₁.modifyTask me fun t => { t with received := (none, false) }) :=
      Same.modifyMail trivial (Same.refl s₁) me (fun _ => by rfl) fun _ => by rfl
    have joined := Same.setChannel trivial noted c
      { s₁.channel c with receivers := (s₁.channel c).receivers ++ [me] }
    unfold awaitValue
    rw [taken.current, runs]
    dsimp only
    split
    · have drained : s₁.Same .still (s₁.noteReceived c me (none, false)) :=
        Same.noteReceived trivial (Same.refl s₁) c me _
      exact drained.life
    · refine attempted_queue here₁ joined.life ?_ rfl rfl
      rw [setChannel, parked_modifyObject, parked_modifyTask]

/-- The task that runs starts something, and either nothing happens to lives or it is suspended. -/
theorem attempted (p : Pause V) : s.Attempted p me k (p.start s) := by
  cases p with
  | door m => exact (attempted_takeLock runs here m rfl rfl rfl).map (fun _ => ⟨_, rfl⟩) rfl
  | amid op =>
    cases op with
    | await target => exact (attempted_await runs here target).map (fun _ => ⟨_, rfl⟩) rfl
    | yield => exact (attempted_yield runs here).map (fun _ => ⟨_, rfl⟩) rfl
    | sleep ns => exact (attempted_sleep runs here ns).map (fun _ => ⟨_, rfl⟩) rfl
    | lock m =>
      have runs' : (s.use (.byHand m)).current = some me := runs
      have used : (s.use (.byHand m)).Attempted (.amid (.lock m)) me k ((s.use (.byHand m)).takeLock m) :=
        attempted_takeLock runs' here m rfl rfl rfl
      exact (used.before rfl rfl).map (fun _ => ⟨_, rfl⟩) rfl
    | permit i => exact (attempted_acquirePermit runs here i).map (fun _ => ⟨_, rfl⟩) rfl
    | barrier i => exact (attempted_arrive runs here i).map (fun _ => ⟨_, rfl⟩) rfl
    | send c v => exact (attempted_send runs here c v).map (fun _ => ⟨_, rfl⟩) rfl
    | receive c => exact (attempted_receive runs here c).map (fun _ => ⟨_, rfl⟩) rfl

/-- A task that has slept has no timer any more. -/
theorem life_goOn (p : Pause V) : (p.finish s).life = p.resume me k s.life := by
  have calm : ∀ op : WaitOp V, (∀ ns, op ≠ .sleep ns) → (op.finish s).2.life = s.life := fun op other =>
    (Same.goOn op (fun _ _ => trivial) (fun ns same => absurd same (other ns)) (.refl s)).life
  cases p with
  | door m => exact ((Same.refl s).enterBlock m).life
  | amid op =>
    cases op with
    | sleep ns =>
      show s.awoken.life = _
      unfold awoken
      rw [runs]
      exact life_put here (g := fun k => { k with sleep := none }) fun _ => rfl
    | await | yield | lock | permit | barrier | send | receive => exact calm _ (by simp)

end Scheduler

/-! ## Turns -/

namespace Scheduler

variable {s s' : Scheduler V E B} {me : TaskId} {k : Task V E B}

theorem life_nextReady {r : Option TaskId} (picked : s.nextReady = (r, s')) : s'.life = s.life := by
  have same : s.Same .still s.nextReady.2 := (Same.refl s).pickReady _
  rw [picked] at same
  exact same.life

theorem life_setRunning (here : s.life.tasks me = some k) :
    (s.setRunning me).life = s.life.put me { k with state := .ready, reason := .none, started := true } :=
  life_put here (g := fun k => { k with state := .ready, reason := .none, started := true }) fun _ => rfl

end Scheduler

end LedgerScript
