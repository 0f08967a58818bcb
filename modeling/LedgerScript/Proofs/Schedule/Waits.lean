import LedgerScript.Proofs.Schedule.Operations

/-!
# Waiting

An operation that may suspend either is done at once, or registers the running task in a place of its own.  The task
then leaves the hands of the processor, and stands well where it is registered.  A killed task does not leave, however
many places it is registered in.
-/

namespace LedgerScript

namespace TaskView

variable {v : TaskView}

/-- The running task has nothing in the books, unless it has been killed. -/
theorem Stands.running (stands : v.Stands true) (alive : v.killed = false) :
    v.Live ∧ v.ready = false ∧ v.parked = none ∧ v.queued = 0 ∧ v.alarms = 0 := by
  have unfinished : v.isDone = false := by
    by_contra done
    rw [Bool.not_eq_false] at done
    exact Bool.false_ne_true (alive.symm.trans (stands.hand rfl done))
  have live : v.Live := ⟨unfinished, alive⟩
  have placed := stands.placed live
  have timed := stands.timed live
  unfold places at placed
  cases ready : v.ready <;> cases parked : v.parked <;> simp [ready, parked] at placed
  simp only [naps, parked, Option.any_none, Bool.toNat_false] at timed
  exact ⟨live, rfl, rfl, placed, Nat.le_zero.mp timed⟩

/-- A running task that is registered in one more place stands well, whether it leaves or has been killed. -/
theorem Stands.register (stands : v.Stands true) {st : TaskState} {ready : Bool} {parked : Option WaitKey}
    {queued alarms : Nat} (unfinished : st.isFinal = false)
    (placed : v.killed = false → (st = if ready then .ready else .suspended) ∧
      ready.toNat + parked.isSome.toNat + queued = 1 ∧ alarms ≤ (parked.any WaitKey.isTimer).toNat) :
    Stands v.killed { v with status := some st, ready, parked, queued, alarms } := by
  have ended : v.ended = v.killed := by
    cases alive : v.killed with
    | true => simp [stands.ended, alive]
    | false =>
      have unfinished := (stands.running alive).1.1
      unfold isDone at unfinished
      cases status : v.status <;> simp_all [stands.ended]
  refine ⟨fun live => ?_, fun live _ => ?_, fun live => ?_, nofun, ?_, fun done => ?_, .inr, fun _ done => ?_, stands.reaped⟩
  · have alive : v.killed = false := live.2
    rw [alive]
    exact (placed alive).2.1
  · exact congrArg some (placed live.2).1
  · exact (placed live.2).2.2
  · simp [ended, unfinished]
  · simp [isDone, unfinished] at done
  · simp [isDone, unfinished] at done

/-- A killed task that runs stands well wherever it is registered. -/
theorem Stands.registered (stands : v.Stands true) (killed : v.killed = true) {ready : Bool} :
    Stands true { v with ready } := by
  have dead : ∀ {P : Prop}, v.Live → P := fun live => (Bool.false_ne_true (live.2.symm.trans killed)).elim
  refine ⟨dead, dead, dead, fun none => ?_, stands.ended, stands.clear, stands.dead, stands.hand, stands.reaped⟩
  have absent := stands.known none
  rw [absent] at killed
  cases killed

end TaskView

namespace Scheduler

variable {V E B : Type} {s s' s'' : Scheduler V E B} {exempt : Option ObjectId} {t me : TaskId} {m : ObjectId}
variable {c : ObjectId}

/-- What an operation does that registers the running task. -/
structure Parking (exempt : Option ObjectId) (me : TaskId) (s s' : Scheduler V E B) : Prop extends Frame exempt s s' where
  tidy : s'.Tidy
  others : ∀ t, t ≠ me → TaskView.Moves (s'.Wakes exempt) false (s.view t) (s'.view t)
  here : (s'.view me).Stands (s'.view me).killed
  known : (s'.view me).status ≠ none

def Parks (exempt : Option ObjectId) (me : TaskId) (s s' : Scheduler V E B) : Prop :=
  s.Regular (some me) → Parking exempt me s s'

theorem Parking.leaves (parking : Parking exempt me s s') (regular : s.Regular (some me))
    (alive : (s'.view me).killed = false) : s'.Regular none := by
  refine ⟨parking.tidy, fun t => ?_⟩
  by_cases same : t = me
  · subst same
    have here := parking.here
    rw [alive] at here
    exact here
  · have before := regular.stands t
    rw [decide_eq_false (fun held => same (Option.some.inj held).symm)] at before
    exact before.moves (parking.others t same)

theorem Parking.stays (parking : Parking exempt me s s') (regular : s.Regular (some me))
    (killed : (s'.view me).killed = true) : s'.Regular (some me) := by
  refine ⟨parking.tidy, fun t => ?_⟩
  by_cases same : t = me
  · subst same
    have here := parking.here
    rw [killed] at here
    rw [decide_eq_true rfl]
    exact here
  · have before := regular.stands t
    rw [decide_eq_false (fun held => same (Option.some.inj held).symm)] at before ⊢
    exact before.moves (parking.others t same)

theorem Evolves.parks (first : s.Evolves exempt (some me) s') (second : s'.Parks exempt me s'') :
    s.Parks exempt me s'' := by
  intro regular
  have evolution := first regular
  have parking := second (regular.evolve evolution)
  refine ⟨evolution.toFrame.trans parking.toFrame, parking.tidy, fun t other => ?_, parking.here, parking.known⟩
  have before := (evolution.moves t).mono fun key wakes => wakes.later parking.suffix
  rw [decide_eq_false (fun held => other (Option.some.inj held).symm)] at before
  exact before.trans (parking.others t other)

theorem Parks.widen (parks : s.Parks none me s') : s.Parks exempt me s' := by
  intro regular
  have parking := parks regular
  refine { parking with holders := fun m _ => parking.holders m nofun, others := fun t other => ?_ }
  exact (parking.others t other).mono fun key wakes => wakes.widen

theorem Parks.narrow (parks : s.Parks (some m) me s') (byHand : s.ByHand m) : s.Parks none me s' := by
  intro regular
  have parking := parks regular
  have used := parking.byHand byHand
  refine { parking with holders := fun n _ only => ?_, others := fun t other => ?_ }
  · exact parking.holders n (fun same => only (Option.some.inj same ▸ used)) only
  · exact (parking.others t other).mono fun key wakes => wakes.narrow used

/-- A change to a task that leaves its state alone. -/
theorem Parks.modifyTask (parks : s.Parks exempt me s') {id : TaskId} {f : Task V E B → Task V E B}
    (state : ∀ k, (f k).state = k.state) (killed : ∀ k, (f k).killed = k.killed) :
    s.Parks exempt me (s'.modifyTask id f) := by
  intro regular
  have parking := parks regular
  have same : ∀ t, (s'.modifyTask id f).view t = s'.view t := fun t => s'.view_modifyTask_same id t state killed
  have steady := s'.steady_modifyTask id f
  refine ⟨parking.toFrame.trans steady.frame, parking.tidy.modifyTask id f, fun t other => ?_, ?_, ?_⟩
  · rw [same]
    exact (parking.others t other).mono fun key wakes => wakes.later (steady.history ▸ List.suffix_refl _)
  · rw [same]
    exact parking.here
  · rw [same]
    exact parking.known

/-! ## Registration -/

/-- Only the running task is concerned, and it is registered in one place. -/
theorem Regular.parking (regular : s.Regular (some me)) (frame : Frame exempt s s') (tidy : s'.Tidy)
    (others : ∀ t, t ≠ me → s'.view t = s.view t) {st : TaskState} {ready : Bool} {parked : Option WaitKey}
    {queued alarms : Nat} (here : s'.view me = { s.view me with status := some st, ready, parked, queued, alarms })
    (unfinished : st.isFinal = false)
    (placed : (s.view me).killed = false → (st = if ready then .ready else .suspended) ∧
      ready.toNat + parked.isSome.toNat + queued = 1 ∧ alarms ≤ (parked.any WaitKey.isTimer).toNat) :
    Parking exempt me s s' := by
  refine ⟨frame, tidy, fun t other => others t other ▸ .refl, ?_, by simp [here]⟩
  have stands := regular.stands me
  rw [decide_eq_true rfl] at stands
  rw [here]
  exact stands.register unfinished placed

theorem Regular.running (regular : s.Regular (some me)) (alive : (s.view me).killed = false) :
    (s.view me).Live ∧ (s.view me).ready = false ∧ (s.view me).parked = none ∧ (s.view me).queued = 0 ∧
      (s.view me).alarms = 0 := by
  have stands := regular.stands me
  rw [decide_eq_true rfl] at stands
  exact stands.running alive

theorem Regular.task?_hand (regular : s.Regular (some me)) : ∃ k, s.task? me = some k := by
  cases here : s.task? me with
  | none => exact absurd rfl (regular.unknown here).2
  | some k => exact ⟨k, rfl⟩

theorem steady_register (s : Scheduler V E B) (id : TaskId) (key : WaitKey) :
    s.Steady (s.register id key) ∧ (s.register id key).tasks = s.tasks ∧ (s.register id key).timers = s.timers := by
  unfold register
  split
  · exact ⟨⟨rfl, rfl, rfl⟩, rfl, rfl⟩
  · split
    · exact ⟨⟨rfl, rfl, rfl⟩, rfl, rfl⟩
    · rw [addWaiter, removeWaiter, setWaiters_eq]
      exact ⟨⟨rfl, rfl, rfl⟩, rfl, rfl⟩

/-- What the state is when the running task is suspended. -/
theorem Regular.suspend (regular : s.Regular (some me)) (tidy : s'.Tidy) (tasks : s'.tasks = s.tasks)
    (reason : WaitReason) : (s'.park me none reason).Tidy ∧
      ∀ t, (s'.park me none reason).view t =
        if t = me then { s'.view t with status := some .suspended } else s'.view t := by
  obtain ⟨k, here⟩ := regular.task?_hand
  have here' : s'.task? me = some k := by
    rw [task?, tasks]
    exact here
  refine ⟨tidy.modifyTask me _, fun t => ?_⟩
  rw [Scheduler.park, view_modifyTask here']
  split
  · rename_i same
    subst same
    simp [view, here']
  · rfl

/-- What the state is when the running task waits under a key. -/
theorem Regular.park (regular : s.Regular (some me)) (key : WaitKey) (reason : WaitReason) :
    s.Steady (s.park me (some key) reason) ∧ (s.park me (some key) reason).Tidy ∧
      (s.park me (some key) reason).timers = s.timers ∧
      ∀ t, (s.park me (some key) reason).view t =
        if t = me then { s.view t with parked := some key, status := some .suspended } else s.view t := by
  obtain ⟨steady, tasks, timers⟩ := s.steady_register me key
  obtain ⟨tidy, views⟩ := regular.suspend (regular.tidy.register me key) tasks reason
  refine ⟨steady.trans (steady_modifyTask _ me _), tidy, ?_, fun t => ?_⟩
  · simp only [Scheduler.park, modifyTask_eq, timers]
  · show ((s.register me key).park me none reason).view t = _
    rw [views, view_register]
    split <;> rfl

theorem parks_park (s : Scheduler V E B) (me : TaskId) (key : WaitKey) (reason : WaitReason) :
    s.Parks none me (s.park me (some key) reason) := by
  intro regular
  obtain ⟨steady, tidy, -, views⟩ := regular.park key reason
  refine regular.parking steady.frame tidy (fun t other => ?_) (by rw [views, if_pos rfl]) rfl fun alive => ?_
  · rw [views, if_neg other]
  · obtain ⟨-, ready, -, queued, alarms⟩ := regular.running alive
    simp [ready, queued, alarms]

theorem parks_sleep (s : Scheduler V E B) (me : TaskId) (delay : Nat) :
    s.Parks none me (((s.park me (some (.timer (s.lastTimer + 1))) .sleep).armTimer delay (.wake me)).2.modifyTask me
      fun t => { t with sleep := some (s.lastTimer + 1) }) := by
  intro regular
  obtain ⟨steady, tidy, timers, views⟩ := regular.park (.timer (s.lastTimer + 1)) .sleep
  generalize s.park me (some (.timer (s.lastTimer + 1))) .sleep = parked at steady tidy timers views
  have armed : ∀ t, (parked.armTimer delay (.wake me)).2.view t =
      { parked.view t with alarms := s.alarms t + if t = me then 1 else 0 } := by
    intro t
    have same : (parked.armTimer delay (.wake me)).2.view t =
        { parked.view t with alarms := (parked.armTimer delay (.wake me)).2.alarms t } := rfl
    rw [same, TaskView.ext_iff]
    simp [alarms, armTimer, countP_insertTimer, List.countP_cons, timers, eq_comm]
  have tidy' : (parked.armTimer delay (.wake me)).2.Tidy := tidy.of_same rfl
  have arming : parked.Steady (parked.armTimer delay (.wake me)).2 := ⟨rfl, rfl, rfl⟩
  have steady' : s.Steady ((parked.armTimer delay (.wake me)).2.modifyTask me
      fun t => { t with sleep := some (s.lastTimer + 1) }) :=
    (steady.trans arming).trans (steady_modifyTask _ me _)
  have views' := fun t => ((parked.armTimer delay (.wake me)).2.view_modifyTask_same me t
    (f := fun t => { t with sleep := some (s.lastTimer + 1) }) (fun _ => rfl) fun _ => rfl).trans (armed t)
  refine regular.parking steady'.frame (tidy'.modifyTask me _) (fun t other => ?_)
    (by rw [views', views, if_pos rfl]) rfl fun alive => ?_
  · rw [views', views, if_neg other, if_neg other]
    rfl
  · obtain ⟨-, ready, -, queued, none⟩ := regular.running alive
    have none : s.alarms me = 0 := none
    simp [ready, queued, none, WaitKey.isTimer]

/-! ## The queues of channels -/

theorem object?_of_open (isOpen : (s.channel c).isClosed = false) :
    ∃ capacity buffer senders receivers, s.object? c = some (.channel capacity buffer false senders receivers) := by
  unfold channel at isOpen
  split at isOpen
  · rename_i capacity buffer isClosed senders receivers here
    exact ⟨capacity, buffer, senders, receivers, isOpen ▸ here⟩
  · cases isOpen

theorem channel_setChannel (isOpen : (s.channel c).isClosed = false) (st : ChannelState V) :
    (s.setChannel c st).channel c = st := by
  obtain ⟨capacity, buffer, senders, receivers, here⟩ := object?_of_open isOpen
  simp [channel, setChannel, object?_modifyObject, here, SyncObject.withChannel]

theorem count_queued_setChannel (isOpen : (s.channel c).isClosed = false) (st : ChannelState V) (t : TaskId) :
    (s.setChannel c st).queued.count t + (s.channel c).queued.count t = s.queued.count t + st.queued.count t := by
  obtain ⟨capacity, buffer, senders, receivers, here⟩ := object?_of_open isOpen
  have moved := count_queued_modifyObject (f := (·.withChannel st)) here t
  simp only [channel, here]
  exact moved

/-- The running task waits in a queue of a channel. -/
theorem parks_queue (s : Scheduler V E B) (isOpen : (s.channel c).isClosed = false)
    {st : ChannelState V} (reason : WaitReason)
    (joined : ∀ t, st.queued.count t = (s.channel c).queued.count t + if me = t then 1 else 0) :
    s.Parks none me ((s.setChannel c st).park me none reason) := by
  intro regular
  have tasks : (s.setChannel c st).tasks = s.tasks := by rw [setChannel, modifyObject_eq]
  obtain ⟨tidy, views⟩ := regular.suspend (regular.tidy.setChannel c st) tasks reason
  have counts : ∀ t, (s.setChannel c st).queued.count t = s.queued.count t + if me = t then 1 else 0 := by
    intro t
    have moved := count_queued_setChannel isOpen st t
    rw [joined] at moved
    omega
  have frame : Frame none s ((s.setChannel c st).park me none reason) :=
    (s.frame_setChannel c st).trans (steady_modifyTask _ me _).frame
  refine regular.parking frame tidy (fun t other => ?_) (by rw [views, if_pos rfl, view_setChannel]) rfl fun alive => ?_
  · rw [views, if_neg other, view_setChannel, counts, if_neg (Ne.symm other)]
    rfl
  · obtain ⟨-, ready, parked, queued, alarms⟩ := regular.running alive
    have queued : s.queued.count me = 0 := queued
    simp [ready, parked, alarms, counts, queued]

/-! ## Yielding -/

theorem view_enqueue_done {k : Task V E B} (here : s.task? me = some k) (done : k.isDone = true)
    (tidy : QueueTidy s.ready s.readySet) (t : TaskId) :
    (s.enqueue me).view t = if t = me then { s.view t with ready := true } else s.view t := by
  unfold enqueue
  rw [tidy.has_readySet]
  split
  · rename_i ready
    split
    · rename_i same
      rw [same, ← ready]
    · rfl
  · have joined : view { s with ready := s.ready ++ [me], readySet := s.readySet.set me () } t =
        { s.view t with ready := decide (t ∈ s.ready ++ [me]) } := rfl
    rw [view_modifyTask (by exact here), joined, done]
    split
    · rename_i same
      subst same
      simp [view, here]
    · rename_i other
      simp [view, other]

/-- The running task joins the ready queue. -/
theorem parks_enqueue (s : Scheduler V E B) (me : TaskId) : s.Parks none me (s.enqueue me) := by
  intro regular
  obtain ⟨ready, readySet, tasks, eq⟩ := s.enqueue_eq me
  have steady : s.Steady (s.enqueue me) := by
    rw [eq]
    exact ⟨rfl, rfl, rfl⟩
  have tidy := regular.tidy.enqueue me
  cases done : s.isDone me with
  | false =>
    have views := view_enqueue regular.tidy.queue done
    obtain ⟨st, status, unfinished⟩ := TaskView.status_wake ((isDone_view s me).trans done)
    have status : (if (s.view me).ready then (s.view me).status else some .ready) = some st := status
    refine regular.parking steady.frame tidy (fun t other => ?_) (by rw [views, if_pos rfl, status]) unfinished
      fun alive => ?_
    · rw [views, if_neg other]
    · obtain ⟨-, ready, parked, queued, alarms⟩ := regular.running alive
      rw [ready] at status
      cases status
      simp [parked, queued, alarms]
  | true =>
    obtain ⟨k, here⟩ := regular.task?_hand
    have finished : k.isDone = true := by simpa [isDone, here] using done
    have views := view_enqueue_done here finished regular.tidy.queue
    refine ⟨steady.frame, tidy, fun t other => ?_, ?_, ?_⟩
    · rw [views, if_neg other]
    · -- a killed task does not mind where it is registered
      have stands := regular.stands me
      rw [decide_eq_true rfl] at stands
      have killed := stands.hand rfl ((isDone_view s me).trans done)
      rw [views, if_pos rfl]
      show TaskView.Stands (s.view me).killed _
      rw [killed]
      exact stands.registered killed
    · rw [views, if_pos rfl]
      simp [view, here]

/-! ## All that may suspend -/

/-- What comes of an attempt: the operation is done, or the running task is registered. -/
def Tried (exempt : Option ObjectId) (s : Scheduler V E B) {α : Type} : Attempt α × Scheduler V E B → Prop
  | (.done _, s') => Evolution exempt s.current s s'
  | (.parked, s') => ∃ me, s.current = some me ∧ Parking exempt me s s'

def Tries (exempt : Option ObjectId) (s : Scheduler V E B) {α : Type} (r : Attempt α × Scheduler V E B) : Prop :=
  s.Regular s.current → s.Tried exempt r

variable {α : Type}
variable {r : Attempt α × Scheduler V E B}

theorem Parks.tries (parks : s.Parks exempt me s') (runs : s.current = some me) :
    s.Tries exempt ((.parked, s') : Attempt α × Scheduler V E B) :=
  fun regular => ⟨me, runs, parks (runs ▸ regular)⟩

theorem Evolves.tries (evolves : s.Evolves exempt s.current s') (a : α) : s.Tries exempt (.done a, s') :=
  evolves

/-- What is done before an attempt. -/
theorem Evolves.tries_trans (first : s.Evolves exempt s.current s') (second : s'.Tries exempt r) : s.Tries exempt r := by
  intro regular
  have evolution := first regular
  have current := evolution.current
  have tried := second (current ▸ regular.evolve evolution)
  match r, tried with
  | (.done a, s''), rest =>
    have rest : Evolution exempt s'.current s' s'' := rest
    rw [current] at rest
    exact evolution.trans rest
  | (.parked, s''), ⟨me, runs, parking⟩ =>
    have runs := current.symm.trans runs
    rw [runs] at first regular
    exact ⟨me, runs, first.parks (fun _ => parking) regular⟩

/-- A lock that is used outside blocks needs no exemption. -/
theorem Tries.narrow (tries : s.Tries (some m) r) (byHand : s.ByHand m) : s.Tries none r := by
  intro regular
  have tried := tries regular
  match r, tried with
  | (.done a, s'), evolution => exact Evolves.narrow (fun _ => evolution) byHand regular
  | (.parked, s'), ⟨me, runs, parking⟩ =>
    rw [runs] at regular
    exact ⟨me, runs, Parks.narrow (fun _ => parking) byHand regular⟩

/-- What is made of the result does not matter. -/
theorem Tries.map {β : Type} (tries : s.Tries exempt r) {g : Attempt α → Attempt β}
    (done : ∀ a, ∃ b, g (.done a) = .done b) (parked : g .parked = .parked) : s.Tries exempt (r.map g id) := by
  obtain ⟨a | _, s'⟩ := r
  · obtain ⟨b, eq⟩ := done a
    rw [Prod.map, eq]
    exact tries
  · rw [Prod.map, parked]
    exact tries

/-- An attempt of the running task is done. -/
theorem Tries.done (tries : s.Tries exempt r) (regular : s.Regular (some me))
    (runs : s.current = some me) {a : α} (eq : r = (.done a, s')) : Evolution exempt (some me) s s' := by
  have tried := tries (runs ▸ regular)
  rw [eq, Tried, runs] at tried
  exact tried

/-- An attempt of the running task makes it wait. -/
theorem Tries.parked (tries : s.Tries exempt r) (regular : s.Regular (some me))
    (runs : s.current = some me) (eq : r = (.parked, s')) : Parking exempt me s s' := by
  have tried := tries (runs ▸ regular)
  rw [eq] at tried
  obtain ⟨me', runs', parking⟩ := tried
  cases runs.symm.trans runs'
  exact parking

theorem tries_await (s : Scheduler V E B) (target : TaskId) : s.Tries exempt (s.await target) := by
  unfold await
  split
  · exact Evolves.tries (.refl exempt _ s) _
  · rename_i me runs
    split
    · exact Evolves.tries (.refl exempt _ s) _
    · split
      · exact Evolves.tries (.refl exempt _ s) _
      · exact (s.parks_park me _ _).widen.tries runs

theorem tries_yield (s : Scheduler V E B) : s.Tries exempt s.yield := by
  unfold yield
  split
  · exact Evolves.tries (.refl exempt _ s) _
  · rename_i me runs
    refine Parks.tries (Parks.modifyTask ?_ (fun _ => rfl) fun _ => rfl) runs
    exact (s.parks_enqueue me).widen

theorem tries_sleep (s : Scheduler V E B) (ns : Int) : s.Tries exempt (s.sleep ns) := by
  unfold sleep
  split
  · exact Evolves.tries (.refl exempt _ s) _
  · rename_i me runs
    exact (s.parks_sleep me _).widen.tries runs

theorem tries_takeLock (s : Scheduler V E B) (m : ObjectId) : s.Tries (some m) (s.takeLock m) := by
  have checked : s.Evolves (some m) s.current (s.lockIsFree m).2 := s.evolves_lockIsFree m
  unfold takeLock
  split
  · rename_i me holder runs here
    split
    · rename_i s' eq
      rw [eq] at checked
      exact (checked.trans (evolves_setHolder s' m (some me))).tries _
    · rename_i s' eq
      rw [eq, runs] at checked
      exact (checked.parks (parks_park s' me _ _).widen).tries runs
  · exact Evolves.tries (.refl _ _ s) _

theorem tries_acquireLock (s : Scheduler V E B) (m : ObjectId) : s.Tries none (s.acquireLock m) :=
  (s.evolves_use_byHand m).tries_trans ((tries_takeLock _ m).narrow List.mem_cons_self)

theorem tries_acquirePermit (s : Scheduler V E B) (id : ObjectId) : s.Tries exempt (s.acquirePermit id) := by
  have tried : s.Evolves exempt s.current (s.tryAcquire id).2 := s.evolves_tryAcquire id
  unfold acquirePermit
  split
  · exact Evolves.tries (.refl exempt _ s) _
  · rename_i me runs
    split
    · rename_i s' eq
      rw [eq] at tried
      exact tried.tries _
    · rename_i s' eq
      rw [eq, runs] at tried
      exact (tried.parks (parks_park s' me _ _).widen).tries runs

theorem tries_arrive (s : Scheduler V E B) (id : ObjectId) : s.Tries exempt (s.arrive id) := by
  unfold arrive
  split
  · exact Evolves.tries (.refl exempt _ s) _
  · rename_i me runs
    split
    · exact (s.evolves_letGo id).tries _
    · exact (s.parks_park me _ _).widen.tries runs

/-- A channel stays open when receivers leave it. -/
theorem isClosed_popReceiver (isOpen : (s.channel c).isClosed = false) :
    ((s.popReceiver c).2.channel c).isClosed = false := by
  unfold popReceiver
  dsimp only
  split
  · rw [channel_setChannel isOpen]
    exact isOpen
  · rw [channel_setChannel isOpen]
    exact isOpen

/-- The running task has something changed that cannot be seen, and waits in a queue of a channel. -/
theorem tries_queue (s : Scheduler V E B) (runs : s.current = some me)
    (isOpen : (s.channel c).isClosed = false) {f : Task V E B → Task V E B} (state : ∀ k, (f k).state = k.state)
    (killed : ∀ k, (f k).killed = k.killed) {st : ChannelState V} (reason : WaitReason)
    (joined : ∀ t, st.queued.count t = (s.channel c).queued.count t + if me = t then 1 else 0) :
    s.Tries none ((.parked, ((s.modifyTask me f).setChannel c st).park me none reason) :
      Attempt α × Scheduler V E B) := by
  have steady := s.steady_modifyTask me f
  have same : (s.modifyTask me f).channel c = s.channel c := by simp only [channel, steady.object?]
  refine (s.evolves_modifyTask me state killed).tries_trans (Parks.tries ?_ (steady.current.trans runs))
  exact parks_queue _ (same ▸ isOpen) reason (same ▸ joined)

theorem tries_deposit (s : Scheduler V E B) (c : ObjectId) (v : V) (isOpen : (s.channel c).isClosed = false) :
    s.Tries none (s.deposit c v) := by
  have offered : ∀ u, s.Evolves none s.current (s.useChannel u) := fun u => s.evolves_useChannel u
  unfold deposit
  dsimp only
  split
  · refine Evolves.tries ((offered (.sent c v)).trans ?_) _
    exact evolves_setChannel _ c rfl
  · split
    · exact Evolves.tries (.refl none _ s) _
    · rename_i me runs
      refine (offered (.offered c me v)).tries_trans (tries_queue (s.useChannel _) runs isOpen ?_ ?_ _ fun t => ?_)
      · exact fun _ => rfl
      · exact fun _ => rfl
      · simp [ChannelState.queued, List.count_cons]
        omega

theorem tries_send (s : Scheduler V E B) (c : ObjectId) (v : V) : s.Tries none (s.send c v) := by
  unfold send
  split
  · exact Evolves.tries (.refl none _ s) _
  · rename_i isOpen
    rw [Bool.not_eq_true] at isOpen
    have stillOpen := isClosed_popReceiver isOpen
    have unqueued := fun tidy : s.Tidy => unqueued_popReceiver tidy c
    split
    · rename_i receiver s' eq
      rw [eq] at unqueued
      intro regular
      have unqueued := unqueued regular.tidy
      have noted := (s'.steady_useChannel (.sent c v)).trans (steady_useChannel _ (.handed c (some receiver) v))
      have tidy := (unqueued.tidy.useChannel (.sent c v)).useChannel (.handed c (some receiver) v)
      refine unqueued.wake (noted.trans (steady_modifyTask _ receiver _)).frame (tidy.modifyTask receiver _) fun t => ?_
      exact view_modifyTask_same _ receiver t (fun _ => rfl) fun _ => rfl
    · rename_i s' eq
      rw [eq] at stillOpen unqueued
      have dropped : s.Evolves none s.current s' := fun regular => (unqueued regular.tidy).evolution
      exact dropped.tries_trans (s'.tries_deposit c v stillOpen)

theorem evolves_noteReceived (s : Scheduler V E B) (c : ObjectId) (receiver : TaskId) (r : Received V)
    {hand : Option TaskId} : s.Evolves exempt hand (s.noteReceived c receiver r) := by
  unfold noteReceived
  split
  · exact s.evolves_useChannel _
  · split
    · exact s.evolves_useChannel _
    · exact .refl exempt hand s

theorem tries_awaitValue (s : Scheduler V E B) (c : ObjectId) : s.Tries none (s.awaitValue c) := by
  unfold awaitValue
  dsimp only
  split
  · exact Evolves.tries (s.evolves_noteReceived c _ _) _
  · rename_i isOpen
    rw [Bool.not_eq_true] at isOpen
    split
    · exact Evolves.tries (.refl none _ s) _
    · rename_i me runs
      refine tries_queue s runs isOpen ?_ ?_ _ fun t => ?_
      · exact fun _ => rfl
      · exact fun _ => rfl
      · simp [ChannelState.queued, List.count_cons]
        omega

theorem tries_receive (s : Scheduler V E B) (c : ObjectId) : s.Tries none (s.receive c) := by
  have taken : s.Evolves none s.current (s.takeReady c).2 := s.evolves_takeReady c
  unfold receive
  split
  · rename_i v s' eq
    rw [eq] at taken
    exact taken.tries _
  · rename_i s' eq
    rw [eq] at taken
    exact taken.tries_trans (s'.tries_awaitValue c)

end Scheduler

/-- An operation that may suspend is done, or registers the running task. -/
theorem WaitOp.tries {V E B : Type} (op : WaitOp V) (s : Scheduler V E B) : s.Tries none (op.start s) := by
  cases op with
  | await target => exact (s.tries_await target).map (fun _ => ⟨_, rfl⟩) rfl
  | yield => exact s.tries_yield.map (fun _ => ⟨_, rfl⟩) rfl
  | sleep ns => exact (s.tries_sleep ns).map (fun _ => ⟨_, rfl⟩) rfl
  | lock m => exact (s.tries_acquireLock m).map (fun _ => ⟨_, rfl⟩) rfl
  | permit id => exact (s.tries_acquirePermit id).map (fun _ => ⟨_, rfl⟩) rfl
  | barrier id => exact (s.tries_arrive id).map (fun _ => ⟨_, rfl⟩) rfl
  | send c v => exact (s.tries_send c v).map (fun _ => ⟨_, rfl⟩) rfl
  | receive c => exact (s.tries_receive c).map (fun _ => ⟨_, rfl⟩) rfl

/-- What is left to do after a wait cannot be seen. -/
theorem WaitOp.evolves_finish {V E B : Type} {exempt : Option ObjectId} {hand : Option TaskId} (op : WaitOp V)
    (s : Scheduler V E B) : s.Evolves exempt hand (op.finish s).2 := by
  cases op with
  | sleep ns =>
    show s.Evolves exempt hand s.awoken
    unfold Scheduler.awoken
    split
    · exact .refl exempt hand s
    · exact s.evolves_modifyTask _ (fun _ => rfl) fun _ => rfl
  | send c v =>
    show s.Evolves exempt hand s.sendResult.2
    unfold Scheduler.sendResult
    split
    · exact .refl exempt hand s
    · exact s.evolves_modifyTask _ (fun _ => rfl) fun _ => rfl
  | receive c =>
    show s.Evolves exempt hand (s.receiveResult c).2
    unfold Scheduler.receiveResult
    split
    · exact .refl exempt hand s
    · exact (s.evolves_noteReceived c _ _).trans (Scheduler.evolves_modifyTask _ _ (fun _ => rfl) fun _ => rfl)
  | await | yield | lock | permit | barrier => exact .refl exempt hand s

end LedgerScript
