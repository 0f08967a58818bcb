import LedgerScript.Proofs.Schedule.Moves

/-!
# Operations move tasks

Every operation of tasks, and everything that timers do, is made of moves, and keeps the lists and maps of a regular
scheduler in agreement.  So it keeps the scheduler regular.
-/

namespace LedgerScript

def SyncObject.holder {V : Type} : SyncObject V → Option TaskId
  | .lock holder => holder
  | _ => none

def ChannelState.queued {V : Type} (c : ChannelState V) : List TaskId :=
  c.senders.map (·.1) ++ c.receivers

namespace Scheduler

variable {V E B : Type} {s s' : Scheduler V E B} {exempt : Option ObjectId} {hand : Option TaskId} {t id : TaskId}
  {m : ObjectId} {key : WaitKey}
variable {α : Type} {f : SyncObject V → SyncObject V} {k : Task V E B}

/-! ## Nobody moves -/

theorem evolves_note (s : Scheduler V E B) (e : RunEvent) : s.Evolves exempt hand (s.note e) :=
  Steady.evolves ⟨rfl, rfl, rfl⟩
    (fun tidy => tidy.of_same rfl) fun _ => rfl

theorem steady_useChannel (s : Scheduler V E B) (u : ChannelUse V) : s.Steady (s.useChannel u) :=
  ⟨rfl, rfl, rfl⟩

theorem Tidy.useChannel (tidy : s.Tidy) (u : ChannelUse V) : (s.useChannel u).Tidy := tidy.of_same rfl

theorem evolves_useChannel (s : Scheduler V E B) (u : ChannelUse V) : s.Evolves exempt hand (s.useChannel u) :=
  (s.steady_useChannel u).evolves (·.useChannel u) fun _ => rfl

theorem evolves_noteTask (s : Scheduler V E B) (name : String) (id : TaskId) (detail : Bytes) :
    s.Evolves exempt hand (s.noteTask name id detail) :=
  s.evolves_note _

theorem steady_modifyTask (s : Scheduler V E B) (id : TaskId) (f : Task V E B → Task V E B) :
    s.Steady (s.modifyTask id f) := by
  rw [modifyTask_eq]
  exact ⟨rfl, rfl, rfl⟩

/-- A change to a task that leaves its state alone. -/
theorem evolves_modifyTask (s : Scheduler V E B) (id : TaskId) {f : Task V E B → Task V E B}
    (state : ∀ k, (f k).state = k.state) (killed : ∀ k, (f k).killed = k.killed) :
    s.Evolves exempt hand (s.modifyTask id f) :=
  (s.steady_modifyTask id f).evolves (fun tidy => tidy.modifyTask id f) fun t => s.view_modifyTask_same id t state killed

theorem evolution_timers (tidy : s.Tidy) {timers : List Timer} {lastTimer : TimerId} {timerUses : List (Nat × Timer)}
    (fewer : ∀ t, timers.countP (·.action = .wake t) ≤ s.alarms t) :
    Evolution exempt hand s { s with timers, lastTimer, timerUses } := by
  refine Steady.evolution ⟨rfl, rfl, rfl⟩ (tidy.of_same rfl) ?_
  exact fun t => .single (.calm (fewer t))

theorem evolves_disarm (s : Scheduler V E B) (timer : Option TimerId) : s.Evolves exempt hand (s.disarm timer) := by
  cases timer with
  | none => exact .refl exempt hand s
  | some id => exact fun regular => evolution_timers regular.tidy fun t => List.filter_sublist.countP_le

theorem countP_insertTimer (p : Timer → Bool) (t : Timer) (timers : List Timer) :
    (insertTimer t timers).countP p = (t :: timers).countP p := by
  induction timers with
  | nil => rfl
  | cons u rest ih =>
    unfold insertTimer
    split
    · rw [List.countP_cons, ih]
      simp only [List.countP_cons]
      omega
    · rfl

theorem evolves_setDeadline (s : Scheduler V E B) (id : TaskId) (after : Int) :
    s.Evolves exempt hand (s.setDeadline id after) := by
  unfold setDeadline
  split
  · exact .refl exempt hand s
  · rename_i k here
    split
    · exact .refl exempt hand s
    · refine (s.evolves_disarm k.deadline).trans (.trans ?_ (evolves_modifyTask _ id (fun _ => rfl) fun _ => rfl))
      -- a timer that expires wakes nobody
      refine fun regular => evolution_timers regular.tidy fun t => ?_
      simp [alarms, countP_insertTimer]

/-! ## Waking -/

theorem Regular.unfinished (regular : s.Regular hand) (waits : s.parked.get? t = some key) : s.isDone t = false := by
  rw [← isDone_view]
  by_contra done
  rw [Bool.not_eq_false] at done
  have clear : s.parked.get? t = none := (regular.stands t).clear done
  simp [clear] at waits

theorem Regular.waiters_unfinished (regular : s.Regular hand) (key : WaitKey) :
    ∀ id ∈ s.waitersOf key, s.isDone id = false :=
  fun id mem => regular.unfinished ((regular.tidy.parked_iff id key).mpr mem)

theorem evolves_wakeAll (s : Scheduler V E B) (noTimer : key.isTimer = false) (noLock : ∀ m, key ≠ .lock m)
    (noJoin : ∀ t, key ≠ .join t) : s.Evolves exempt hand (s.wakeAll key) := by
  intro regular
  obtain ⟨tidy, ⟨ready, readySet, tasks, waiters, parked, eq⟩, views⟩ :=
    regular.tidy.wakeAll key (regular.waiters_unfinished key)
  refine Steady.evolution ?_ tidy fun t => ?_
  · rw [eq]
    exact ⟨rfl, rfl, rfl⟩
  · rw [views]
    split
    · rename_i waits
      have unfinished := (isDone_view s t).trans (regular.unfinished waits)
      exact .single (.wake waits (.free noLock noJoin) noTimer unfinished)
    · exact .refl

theorem steady_unregister (s : Scheduler V E B) (id : TaskId) : s.Steady (s.unregister id) := by
  unfold unregister
  split
  · exact ⟨rfl, rfl, rfl⟩
  · rw [unpark, removeWaiter, setWaiters_eq]
    exact ⟨rfl, rfl, rfl⟩

theorem steady_wake (s : Scheduler V E B) (id : TaskId) : s.Steady (s.wake id) := by
  unfold wake
  split
  · exact ⟨rfl, rfl, rfl⟩
  · obtain ⟨ready, readySet, tasks, eq⟩ := (s.unregister id).enqueue_eq id
    refine (s.steady_unregister id).trans ?_
    rw [eq]
    exact ⟨rfl, rfl, rfl⟩

/-- Someone who has waited under a key is woken, after some change that cannot be seen. -/
theorem Regular.moves_wake (regular : s.Regular hand) {keys : WaitKey → Prop} (waits : s.parked.get? id = some key)
    (may : keys key) (noTimer : key.isTimer = false) (tidy : s'.Tidy)
    (views : ∀ t, s'.view t = if t = id then { s.view t with parked := none } else s.view t) (t : TaskId) :
    TaskView.Moves keys (hand = some t) (s.view t) ((s'.wake id).view t) := by
  have unfinished := (isDone_view s id).trans (regular.unfinished waits)
  rw [view_wake tidy, views]
  by_cases same : t = id
  · subst same
    have seen : TaskView.isDone { s.view t with parked := none } = false := unfinished
    rw [if_pos rfl, if_pos ⟨rfl, seen⟩]
    exact .single (.wake waits may noTimer unfinished)
  · simp only [same, if_false, false_and]
    exact .refl

/-- Who is first of those who wait under a key. -/
theorem Regular.popWaiter (regular : s.Regular hand) (key : WaitKey) :
    s.popWaiter key = (none, s) ∧ s.waitersOf key = [] ∨
      ∃ id, s.popWaiter key = (some id, s.unregister id) ∧ s.parked.get? id = some key := by
  rw [popWaiter_eq (regular.waiters_unfinished key) regular.tidy]
  split
  · rename_i none
    exact .inl ⟨rfl, none⟩
  · rename_i id rest here
    exact .inr ⟨id, rfl, (regular.tidy.parked_iff id key).mpr (here ▸ List.mem_cons_self)⟩

/-! ## Objects -/

theorem modifyObject_eq (s : Scheduler V E B) (id : ObjectId) (f : SyncObject V → SyncObject V) :
    s.modifyObject id f = { s with objects := if id = 0 then s.objects else s.objects.modify (id - 1) f } := by
  unfold modifyObject
  split <;> rfl

theorem object?_modifyObject (s : Scheduler V E B) (id m : ObjectId) (f : SyncObject V → SyncObject V) :
    (s.modifyObject id f).object? m = if m = id then (s.object? m).map f else s.object? m := by
  rw [modifyObject_eq]
  unfold object?
  split
  · simp
  · rename_i known
    by_cases same : m = id
    · simp [same ▸ known, same, Array.getElem?_modify]
    · by_cases zero : id = 0
      · simp [zero, known]
      · have other : id - 1 ≠ m - 1 := fun eq => same (by simp only [ObjectId] at *; omega)
        simp [zero, same, Array.getElem?_modify, other]

/-- Who is in the queues of the other objects stays there. -/
theorem count_flatMap_modify {β : Type} [BEq β] (f : α → α) (g : α → List β) (b : β) {a : α} (l : List α) (i : Nat)
    (here : l[i]? = some a) :
    ((l.modify i f).flatMap g).count b + (g a).count b = (l.flatMap g).count b + (g (f a)).count b := by
  induction l generalizing i with
  | nil => simp at here
  | cons x l ih =>
    cases i with
    | zero =>
      simp only [List.getElem?_cons_zero, Option.some.injEq] at here
      subst here
      simp only [List.modify_zero_cons, List.flatMap_cons, List.count_append]
      omega
    | succ i =>
      have rest := ih i (by simpa using here)
      simp only [List.modify_succ_cons, List.flatMap_cons, List.count_append]
      omega

theorem count_queued_modifyObject {o : SyncObject V} (here : s.object? m = some o) (t : TaskId) :
    (s.modifyObject m f).queued.count t + o.queued.count t = s.queued.count t + (f o).queued.count t := by
  unfold object? at here
  split at here
  · cases here
  · rename_i known
    simp only [modifyObject, known, if_false, queued, Array.toList_modify]
    exact count_flatMap_modify f SyncObject.queued t _ _ (by simpa using here)

theorem modifyObject_unknown (none : s.object? m = none) : s.modifyObject m f = s := by
  unfold object? at none
  unfold modifyObject
  split
  · rfl
  · rename_i known
    have large : s.objects.size ≤ m - 1 := by simpa [known] using none
    have same : s.objects.modify (m - 1) f = s.objects := by
      apply Array.ext'
      rw [Array.toList_modify]
      exact List.modify_eq_self (by simpa using large)
    rw [same]

theorem Tidy.modifyObject (tidy : s.Tidy) (m : ObjectId) (f : SyncObject V → SyncObject V) : (s.modifyObject m f).Tidy := by
  rw [modifyObject_eq]
  exact tidy.of_same rfl

theorem view_modifyObject (s : Scheduler V E B) (m : ObjectId) (f : SyncObject V → SyncObject V) (t : TaskId) :
    (s.modifyObject m f).view t = { s.view t with queued := (s.modifyObject m f).queued.count t } := by
  rw [modifyObject_eq]
  rfl

/-- A change to an object that leaves its queues alone cannot be seen. -/
theorem view_modifyObject_same (s : Scheduler V E B) (m : ObjectId)
    (queue : ∀ o, (f o).queued = o.queued) (t : TaskId) : (s.modifyObject m f).view t = s.view t := by
  cases here : s.object? m with
  | none => rw [modifyObject_unknown here]
  | some o =>
    have moved := count_queued_modifyObject (f := f) here t
    rw [queue] at moved
    rw [view_modifyObject, Nat.add_right_cancel moved]
    rfl

theorem lockHolder_eq (s : Scheduler V E B) (m : ObjectId) : s.lockHolder m = (s.object? m).bind SyncObject.holder := by
  unfold lockHolder
  cases s.object? m with
  | none => rfl
  | some o => cases o <;> rfl

theorem frame_modifyObject (s : Scheduler V E B) (id : ObjectId)
    (lock : ∀ holder, ∃ holder', f (.lock holder) = .lock holder')
    (holder : exempt = some id ∨ ∀ o, (f o).holder = o.holder) : Frame exempt s (s.modifyObject id f) := by
  have eq := s.modifyObject_eq id f
  refine ⟨by rw [eq], ⟨[], by rw [eq]; rfl, nofun⟩, ?_, fun m other _ => ?_⟩
  · rintro m ⟨before, here⟩
    obtain ⟨after, made⟩ := lock before
    by_cases same : m = id
    · exact ⟨after, by simp [object?_modifyObject, same ▸ here, made, same]⟩
    · exact ⟨before, by simp [object?_modifyObject, same, here]⟩
  · rw [lockHolder_eq, lockHolder_eq, object?_modifyObject]
    split
    · rename_i same
      have holder := holder.resolve_left fun exempt => other (same ▸ exempt)
      cases s.object? m with
      | none => rfl
      | some o => exact holder o
    · rfl

theorem evolves_modifyObject (s : Scheduler V E B) (id : ObjectId)
    (queue : ∀ o, (f o).queued = o.queued) (lock : ∀ holder, ∃ holder', f (.lock holder) = .lock holder')
    (holder : exempt = some id ∨ ∀ o, (f o).holder = o.holder) : s.Evolves exempt hand (s.modifyObject id f) :=
  fun regular => ⟨s.frame_modifyObject id lock holder, regular.tidy.modifyObject id f, fun t =>
    s.view_modifyObject_same id queue t ▸ .refl⟩

theorem queued_withHolder (holder : Option TaskId) (o : SyncObject V) : (o.withHolder holder).queued = o.queued := by
  cases o <;> rfl

theorem evolves_setHolder (s : Scheduler V E B) (m : ObjectId) (holder : Option TaskId) :
    s.Evolves (some m) hand (s.setHolder m holder) :=
  s.evolves_modifyObject m (queued_withHolder holder) (fun _ => ⟨holder, rfl⟩) (.inl rfl)

theorem evolves_setPermits (s : Scheduler V E B) (id : ObjectId) (n : Int) : s.Evolves exempt hand (s.setPermits id n) :=
  s.evolves_modifyObject id (fun o => by cases o <;> rfl) (fun holder => ⟨holder, rfl⟩)
    (.inr fun o => by cases o <;> rfl)

theorem evolves_nextGeneration (s : Scheduler V E B) (id : ObjectId) : s.Evolves exempt hand (s.nextGeneration id) :=
  s.evolves_modifyObject id (fun o => by cases o <;> rfl) (fun holder => ⟨holder, rfl⟩)
    (.inr fun o => by cases o <;> rfl)

theorem object?_newObject (s : Scheduler V E B) (o : SyncObject V) (m : ObjectId) :
    (s.newObject o).2.object? m = if m = s.objects.size + 1 then some o else s.object? m := by
  unfold newObject object?
  split
  · rename_i zero
    simp [zero]
  · rename_i known
    by_cases new : m = s.objects.size + 1
    · simp [new]
    · have old : m - 1 ≠ s.objects.size := fun eq => new (by simp only [ObjectId] at *; omega)
      simp [new, Array.getElem?_push, old]

theorem evolves_newObject (s : Scheduler V E B) {o : SyncObject V} (queue : o.queued = []) (holder : o.holder = none) :
    s.Evolves exempt hand (s.newObject o).2 := by
  intro regular
  have tidy := regular.tidy
  have objects := s.object?_newObject o
  have unknown : s.object? (s.objects.size + 1) = none := by simp [object?]
  have queued : (s.newObject o).2.queued = s.queued := by simp [Scheduler.queued, newObject, queue]
  refine ⟨⟨rfl, ⟨[], rfl, by simp⟩, ?_, fun m _ _ => ?_⟩,
    tidy.of_same rfl, fun t => ?_⟩
  · rintro m ⟨holder, here⟩
    refine ⟨holder, ?_⟩
    rw [objects, if_neg (fun new => by simp [new ▸ unknown] at here), here]
  · rw [lockHolder_eq, lockHolder_eq, objects]
    split
    · rename_i new
      rw [new, unknown]
      exact holder
    · rfl
  · have same : (s.newObject o).2.view t = { s.view t with queued := (s.newObject o).2.queued.count t } := rfl
    rw [same, queued]
    exact .refl

/-! ## Locks, semaphores and barriers -/

/-- A moment outside blocks, other than the end of a task, enters the history. -/
theorem evolves_use_byHand (s : Scheduler V E B) (m : ObjectId) : s.Evolves exempt hand (s.use (.byHand m)) := by
  intro regular
  have tidy := regular.tidy
  refine ⟨⟨rfl, ⟨[.byHand m], rfl, by simp [LockUse.Outside]⟩, fun _ lock => lock, fun _ _ _ => rfl⟩,
    tidy.of_same rfl, fun t => ?_⟩
  have same : (s.use (.byHand m)).view t = s.view t := by
    have ended : (s.use (.byHand m)).Ended t ↔ s.Ended t := by simp [Ended, use]
    show TaskView.mk _ _ (decide ((s.use (.byHand m)).Ended t)) _ _ _ _ _ = _
    simp only [ended]
    rfl
  rw [same]

/-- A lock goes to somebody who has waited for it, or to nobody. -/
theorem Regular.passLock (regular : s.Regular hand) (m : ObjectId) :
    s.passLock m = (none, s.setHolder m none) ∧ s.waitersOf (.lock m) = [] ∨
      ∃ id, s.passLock m = (some id, ((s.unregister id).setHolder m (some id)).wake id) ∧
        s.parked.get? id = some (.lock m) := by
  unfold Scheduler.passLock
  obtain ⟨popped, none⟩ | ⟨id, popped, waits⟩ := regular.popWaiter (.lock m)
  · rw [popped]
    exact .inl ⟨rfl, none⟩
  · rw [popped]
    exact .inr ⟨id, rfl, waits⟩

theorem evolves_passLock (s : Scheduler V E B) (m : ObjectId) : s.Evolves (some m) hand (s.passLock m).2 := by
  intro regular
  obtain ⟨eq, -⟩ | ⟨id, eq, waits⟩ := regular.passLock m
  · rw [eq]
    exact s.evolves_setHolder m none regular
  · rw [eq]
    have tidy := regular.tidy.unregister id
    have views : ∀ t, ((s.unregister id).setHolder m (some id)).view t =
        if t = id then { s.view t with parked := none } else s.view t := by
      intro t
      rw [setHolder, view_modifyObject_same _ m (queued_withHolder _), view_unregister]
    have wakes : ∀ s' : Scheduler V E B, s'.Wakes (some m) (.lock m) :=
      fun s' => ⟨fun n same => .inl (congrArg some (WaitKey.lock.inj same)), nofun⟩
    have passed : Frame (some m) (s.unregister id) ((s.unregister id).setHolder m (some id)) :=
      frame_modifyObject _ m (fun _ => ⟨some id, rfl⟩) (.inl rfl)
    refine ⟨(s.steady_unregister id).frame.trans (passed.trans (steady_wake _ id).frame),
      (tidy.modifyObject m _).wake id, regular.moves_wake waits (wakes _) rfl (tidy.modifyObject m _) views⟩

theorem evolves_lockIsFree (s : Scheduler V E B) (m : ObjectId) : s.Evolves (some m) hand (s.lockIsFree m).2 := by
  unfold lockIsFree
  split
  · exact .refl _ hand s
  · split
    · exact s.evolves_passLock m
    · exact .refl _ hand s
  · exact .refl _ hand s

theorem evolves_tryLock (s : Scheduler V E B) (m : ObjectId) : s.Evolves none hand (s.tryLock m).2 := by
  have used : s.Evolves none hand (s.use (.byHand m)) := s.evolves_use_byHand m
  have free : (s.use (.byHand m)).Evolves (some m) hand _ := (s.use (.byHand m)).evolves_lockIsFree m
  unfold tryLock
  split
  · exact .refl none hand s
  · rename_i me runs
    split
    · rename_i s' eq
      rw [eq] at free
      exact used.trans ((free.trans (evolves_setHolder s' m (some me))).narrow List.mem_cons_self)
    · rename_i s' eq
      rw [eq] at free
      exact used.trans (free.narrow List.mem_cons_self)

theorem evolves_releaseLock (s : Scheduler V E B) (m : ObjectId) : s.Evolves none hand (s.releaseLock m) :=
  (s.evolves_use_byHand m).trans ((evolves_passLock _ m).narrow List.mem_cons_self)

theorem evolves_tryAcquire (s : Scheduler V E B) (id : ObjectId) : s.Evolves exempt hand (s.tryAcquire id).2 := by
  unfold tryAcquire
  split
  · exact s.evolves_setPermits id _
  · exact .refl exempt hand s

theorem evolves_releasePermit (s : Scheduler V E B) (id : ObjectId) : s.Evolves exempt hand (s.releasePermit id) := by
  intro regular
  unfold releasePermit
  obtain ⟨popped, -⟩ | ⟨next, popped, waits⟩ := regular.popWaiter (.permit id)
  · rw [popped]
    exact s.evolves_setPermits id _ regular
  · rw [popped]
    have tidy := regular.tidy.unregister next
    refine Steady.evolution ((s.steady_unregister next).trans (steady_wake _ next)) (tidy.wake next) ?_
    exact regular.moves_wake waits (.free nofun nofun) rfl tidy (s.view_unregister next)

theorem evolves_letGo (s : Scheduler V E B) (id : ObjectId) :
    s.Evolves exempt hand ((s.nextGeneration id).wakeAll (.barrier id)) :=
  (s.evolves_nextGeneration id).trans (evolves_wakeAll _ rfl nofun nofun)

/-! ## The end of a task -/

theorem disarm_eq (s : Scheduler V E B) (timer : Option TimerId) :
    ∃ timers, s.disarm timer = { s with timers } ∧ timers.Sublist s.timers := by
  cases timer with
  | none => exact ⟨s.timers, rfl, .refl _⟩
  | some id => exact ⟨_, rfl, List.filter_sublist⟩

theorem steady_unready (s : Scheduler V E B) (id : TaskId) : s.Steady (s.unready id) := by
  unfold unready
  split <;> exact ⟨rfl, rfl, rfl⟩

/-- What is done to a task that ends before those who await it are woken. -/
theorem finish_eq (here : s.task? id = some k) (tidy : s.Tidy) (errorText : E → Bytes)
    (result : Option V) (fault : Option (TaskFault E)) :
    ∃ (s' : Scheduler V E B) (alarms : TaskId → Nat), s.finish errorText id result fault = s'.wakeAll (.join id) ∧
      s'.Tidy ∧ s'.current = s.current ∧ s'.objects = s.objects ∧ s'.lockUses = .ended id :: s.lockUses ∧
      (∀ t, alarms t ≤ s.alarms t) ∧
      ∀ t, s'.view t = if t = id then { s.view t with
          status := some (if fault.isSome then .failed else .completed), ended := true, ready := false, parked := none
          alarms := alarms t }
        else { s.view t with alarms := alarms t } := by
  obtain ⟨timers, disarmed, fewer⟩ := s.disarm_eq k.deadline
  obtain ⟨timers', disarmed', fewer'⟩ := disarm_eq { s with timers } k.sleep
  have fewer'' := fewer'.trans fewer
  unfold finish
  rw [here]
  dsimp only
  rw [disarmed, disarmed']
  generalize update : (fun t : Task V E B => { t with
    state := if fault.isSome then .failed else .completed, result, fault, deadline := none, sleep := none }) = f
  have state : (f k).state = if fault.isSome then .failed else .completed := by rw [← update]
  have killed : (f k).killed = k.killed := by rw [← update]
  have here' : task? (noteEnd { s with timers := timers' } id) id = some k := here
  have tidy₁ : Tidy (noteEnd { s with timers := timers' } id) := tidy.of_same rfl
  have tidy₂ := (tidy₁.modifyTask id f).unregister id
  have steady := ((steady_modifyTask (noteEnd { s with timers := timers' } id) id f).trans
    (steady_unregister _ id)).trans (steady_unready _ id)
  refine ⟨_, fun t => timers'.countP (·.action = .wake t), rfl, ?_, steady.current, steady.objects, steady.history,
    fun t => fewer''.countP_le, fun t => ?_⟩
  · have tidy₃ := tidy₂.unready id
    exact ⟨tidy₃.queue, tidy₃.parked_iff, tidy₃.waiters_nodup, tidy₃.waiters_ne_nil⟩
  · have noted : ∀ (u : Scheduler V E B) name detail, (u.noteTask name id detail).view t = u.view t := fun _ _ _ => rfl
    have used : (noteEnd { s with timers := timers' } id).view t =
        { s.view t with ended := decide (.ended t ∈ LockUse.ended id :: s.lockUses)
                        alarms := timers'.countP (·.action = .wake t) } := rfl
    rw [noted, view_unready tidy₂, view_unregister, view_modifyTask here', used, state, killed]
    by_cases same : t = id
    · subst same
      have alive : (s.view t).killed = k.killed := by simp [view, here]
      simp [alive]
    · have ended : (.ended t ∈ LockUse.ended id :: s.lockUses) ↔ s.Ended t := by
        simp [Ended, same]
      simp only [if_neg same, ended]
      rfl

structure Finished (id : TaskId) (state : TaskState) (s s' : Scheduler V E B) : Prop where
  tidy : s'.Tidy
  current : s'.current = s.current
  objects : s'.objects = s.objects
  history : s'.lockUses = .ended id :: s.lockUses
  here : ∃ alarms ≤ s.alarms id, s'.view id = { s.view id with
    status := some state, ended := true, ready := false, parked := none, alarms }
  others : ∀ t, t ≠ id → ∀ (keys : WaitKey → Prop) (inHand : Bool), keys (.join id) →
    TaskView.Moves keys inHand (s.view t) (s'.view t)

/-- Those who await a task that has ended may be woken. -/
theorem Finished.wakes {state : TaskState} (finished : Finished id state s s') : s'.Wakes exempt (.join id) := by
  refine ⟨nofun, fun t join => ?_⟩
  obtain rfl := WaitKey.join.inj join
  rw [Ended, finished.history]
  exact List.mem_cons_self

theorem finished_finish (here : s.task? id = some k) (tidy : s.Tidy)
    (clear : ∀ t, t ≠ id → s.parked.get? t ≠ none → s.isDone t = false) (errorText : E → Bytes) (result : Option V)
    (fault : Option (TaskFault E)) :
    Finished id (if fault.isSome then .failed else .completed) s (s.finish errorText id result fault) := by
  obtain ⟨s', alarms, eq, tidy', current, objects, history, fewer, views⟩ := finish_eq here tidy errorText result fault
  have unfinished : ∀ t ∈ s'.waitersOf (.join id), s'.isDone t = false := by
    intro t mem
    have waits : (s'.view t).parked = some (.join id) := (tidy'.parked_iff t _).mpr mem
    have other : t ≠ id := fun same => by simp [views, same] at waits
    rw [views, if_neg other] at waits
    have waits : s.parked.get? t = some (.join id) := waits
    rw [← isDone_view, views, if_neg other]
    exact (isDone_view s t).trans (clear t other (by simp [waits]))
  obtain ⟨tidy'', ⟨ready, readySet, tasks, waiters, parked, woken⟩, views'⟩ := tidy'.wakeAll (.join id) unfinished
  rw [eq]
  refine ⟨tidy'', ?_, ?_, ?_, ⟨alarms id, fewer id, ?_⟩, fun t other keys inHand may => ?_⟩
  · rw [woken]
    exact current
  · rw [woken]
    exact objects
  · rw [woken]
    exact history
  · rw [views', views, if_pos rfl, if_neg (by simp)]
  · rw [views', views, if_neg other]
    refine .head (.calm (fewer t)) ?_
    split
    · rename_i waits
      have waits' : s.parked.get? t = some (.join id) := waits
      have unfinished := (isDone_view s t).trans (clear t other (by simp [waits']))
      exact .single (.wake waits may rfl unfinished)
    · exact .refl

/-- A task that is killed has ended, and has to unwind if it has started and does not run. -/
theorem kill_eq (here : s.task? id = some k) (unfinished : k.isDone = false) (cause : ScheduleFault) :
    ∃ unwinding, s.kill id cause = { (s.modifyTask id fun t => { t with killed := true }).finish (fun _ => []) id none
        (some (.schedule cause)) with unwinding } ∧
      ∀ t, t ≠ id → (t ∈ unwinding ↔ t ∈ ((s.modifyTask id fun t => { t with killed := true }).finish (fun _ => []) id none
        (some (.schedule cause))).unwinding) := by
  unfold kill
  rw [here]
  simp only [unfinished, Bool.false_eq_true, if_false]
  split
  · exact ⟨_, rfl, fun t _ => Iff.rfl⟩
  · exact ⟨_, rfl, fun t other => by simp [other]⟩

theorem evolves_kill (s : Scheduler V E B) (id : TaskId) (cause : ScheduleFault) :
    s.Evolves exempt hand (s.kill id cause) := by
  intro regular
  cases here : s.task? id with
  | none =>
    unfold kill
    rw [here]
    exact .refl exempt hand regular.tidy
  | some k =>
    by_cases unfinished : k.isDone = false
    · obtain ⟨unwinding, eq, others⟩ := kill_eq here unfinished cause
      have steady := s.steady_modifyTask id fun t => { t with killed := true }
      have marked := view_modifyTask here fun t => { t with killed := true }
      have here' : (s.modifyTask id fun t => { t with killed := true }).task? id = some { k with killed := true } := by
        rw [task?_modifyTask, if_pos rfl, here]
        rfl
      have clear : ∀ t, t ≠ id → (s.modifyTask id fun t => { t with killed := true }).parked.get? t ≠ none →
          (s.modifyTask id fun t => { t with killed := true }).isDone t = false := by
        intro t other waits
        obtain ⟨key, waits⟩ := Option.ne_none_iff_exists'.mp waits
        change ((s.modifyTask id fun t => { t with killed := true }).view t).parked = some key at waits
        rw [← isDone_view, marked, if_neg other, isDone_view]
        rw [marked, if_neg other] at waits
        exact regular.unfinished waits
      have finished := finished_finish here' (regular.tidy.modifyTask id _) clear (fun _ => []) none
        (some (.schedule cause))
      have tidy := finished.tidy
      rw [eq]
      refine ⟨.of_objects (finished.objects.trans steady.objects) (finished.current.trans steady.current)
          ⟨[.ended id], finished.history.trans (congrArg _ steady.history), by simp [LockUse.Outside]⟩,
        tidy.of_same rfl, fun t => ?_⟩
      · have seen : ∀ u : Scheduler V E B, view { u with unwinding } t =
            { u.view t with unwinding := decide (t ∈ unwinding) } := fun _ => rfl
        rw [seen]
        by_cases same : t = id
        · subst same
          obtain ⟨alarms, fewer, ended⟩ := finished.here
          rw [ended, marked, if_pos rfl]
          have alive : (s.view t).isDone = false := by
            rw [isDone_view, isDone, here]
            exact unfinished
          rw [modifyTask_eq] at fewer
          exact .single (TaskView.Move.kill fewer _ alive)
        · have wakes : Wakes exempt _ (.join id) := finished.wakes
          have moves := finished.others t same _ (hand = some t) wakes
          rw [marked, if_neg same] at moves
          simp only [others t same]
          exact moves.mono fun key wakes => wakes.later (List.suffix_refl _)
    · unfold kill
      rw [here]
      simp only [Bool.not_eq_false] at unfinished
      simp only [unfinished, if_true]
      exact .refl exempt hand regular.tidy

/-! ## Time -/

theorem evolves_ring (s : Scheduler V E B) {timer : Timer} {rest : List Timer} (first : s.timers = timer :: rest) :
    s.Evolves exempt hand (s.ring timer rest) := by
  intro regular
  have tidy := regular.tidy
  unfold ring
  generalize (s.now, timer) :: s.timerUses = timerUses
  have tidy' : Tidy { s with timers := rest, timerUses } := tidy.of_same rfl
  have alarms : ∀ t, s.alarms t = rest.countP (·.action = .wake t) + if timer.action = .wake t then 1 else 0 := by
    intro t
    simp [Scheduler.alarms, first, List.countP_cons]
  unfold fire
  split
  · rename_i id wakes
    have steady := steady_wake { s with timers := rest, timerUses } id
    refine Steady.evolution ⟨steady.current, steady.objects, steady.history⟩ (tidy'.wake id) fun t => ?_
    have left : view { s with timers := rest, timerUses } t = { s.view t with alarms := rest.countP (·.action = .wake t) } := rfl
    have fewer : rest.countP (·.action = .wake t) ≤ (s.view t).alarms := by
      show _ ≤ s.alarms t
      rw [alarms]
      omega
    rw [view_wake tidy', left]
    split
    · rename_i here
      obtain ⟨rfl, unfinished⟩ := here
      refine .single (.ring ?_ unfinished)
      show _ < s.alarms t
      rw [alarms, if_pos wakes]
      omega
    · exact .single (.calm fewer)
  · rename_i id after expires
    have disarmed : Evolution exempt hand s { s with timers := rest, timerUses } := evolution_timers tidy fun t => by
      rw [alarms]
      omega
    refine disarmed.trans (Evolves.trans ?_ (evolves_kill _ _ _) (regular.evolve disarmed))
    exact evolves_modifyTask _ id (fun _ => rfl) fun _ => rfl

theorem evolves_fireDue (n : Nat) (s : Scheduler V E B) : s.Evolves exempt hand (s.fireDue n) := by
  induction n generalizing s with
  | zero => exact .refl exempt hand s
  | succ n ih =>
    unfold fireDue
    split
    · rename_i timer rest first
      split
      · exact (s.evolves_ring first).trans (ih _)
      · exact .refl exempt hand s
    · exact .refl exempt hand s

theorem evolves_advance? (s : Scheduler V E B) (advanced : s.advance? = some s') : s.Evolves exempt hand s' := by
  unfold advance? at advanced
  split at advanced
  · cases advanced
  · cases advanced
    refine Evolves.trans ?_ (evolves_fireDue _ _)
    exact Steady.evolves ⟨rfl, rfl, rfl⟩
      (fun tidy => tidy.of_same rfl) fun _ => rfl

/-! ## New tasks -/

theorem task?_push (s : Scheduler V E B) (k : Task V E B) (t : TaskId) :
    task? { s with tasks := s.tasks.push k } t = if t = s.tasks.size + 1 then some k else s.task? t := by
  unfold task?
  split
  · rename_i zero
    simp [zero]
  · by_cases new : t = s.tasks.size + 1
    · simp [new]
    · have old : t - 1 ≠ s.tasks.size := fun eq => new (by simp only [TaskId] at *; omega)
      simp [new, Array.getElem?_push, old]

/-- There is nothing about an unknown task in the books, and nobody has it in hand. -/
theorem Regular.unknown (regular : s.Regular hand) (none : s.task? t = none) : s.view t = {} ∧ hand ≠ some t := by
  have absent : s.view t = {} := (regular.stands t).known (by simp [view, none])
  refine ⟨absent, fun held => ?_⟩
  have killed := (regular.stands t).hand (by simp [held]) (by rw [absent]; rfl)
  rw [absent] at killed
  cases killed

theorem evolves_spawn (s : Scheduler V E B) (name : String) (body : B) : s.Evolves exempt hand (s.spawn name body).2 := by
  have joined : s.Evolves exempt hand
      ({ s with tasks := s.tasks.push { id := s.tasks.size + 1, name, body } }.enqueue (s.tasks.size + 1)) := by
    intro regular
    have tidy := regular.tidy
    obtain ⟨absent, free⟩ := regular.unknown (t := s.tasks.size + 1) (by simp [task?])
    generalize task : ({ id := s.tasks.size + 1, name, body } : Task V E B) = k
    have tidy' : Tidy { s with tasks := s.tasks.push k } := tidy.of_same rfl
    have unfinished : isDone { s with tasks := s.tasks.push k } (s.tasks.size + 1) = false := by
      rw [isDone, task?_push, if_pos rfl, ← task]
      rfl
    obtain ⟨ready, readySet, tasks, eq⟩ := enqueue_eq { s with tasks := s.tasks.push k } (s.tasks.size + 1)
    refine Steady.evolution (by rw [eq]; exact ⟨rfl, rfl, rfl⟩) (tidy'.enqueue _) fun t => ?_
    have pushed : view { s with tasks := s.tasks.push k } t =
        { s.view t with status := (task? { s with tasks := s.tasks.push k } t).map (·.state)
                        killed := (task? { s with tasks := s.tasks.push k } t).any (·.killed) } := rfl
    rw [view_enqueue tidy'.queue unfinished, pushed, task?_push]
    by_cases new : t = s.tasks.size + 1
    · subst new
      rw [absent, if_pos rfl, if_pos rfl, ← task]
      exact .single (.spawn (by simp [free]))
    · simp only [if_neg new]
      exact .refl
  unfold spawn
  dsimp only
  refine Evolves.trans ?_ (evolves_noteTask _ _ _ _)
  split
  · exact joined.trans (evolves_setDeadline _ _ _)
  · exact joined

/-! ## Channels -/

@[simp] theorem channel_useChannel (s : Scheduler V E B) (u : ChannelUse V) (id : ObjectId) :
    (s.useChannel u).channel id = s.channel id :=
  rfl

theorem queued_channel (s : Scheduler V E B) (id : ObjectId) (c : ChannelState V) (t : TaskId)
    (isChannel : (s.channel id).queued = [] → c.queued = []) :
    (s.setChannel id c).queued.count t + (s.channel id).queued.count t = s.queued.count t + c.queued.count t := by
  unfold setChannel channel at *
  cases here : s.object? id with
  | none =>
    have empty : c.queued = [] := isChannel (by simp [here, ChannelState.queued])
    rw [modifyObject_unknown here, empty]
    rfl
  | some o =>
    have moved := count_queued_modifyObject (f := (·.withChannel c)) here t
    cases o with
    | channel capacity buffer isClosed senders receivers => exact moved
    | lock | semaphore | barrier =>
      have empty : c.queued = [] := isChannel (by simp [here, ChannelState.queued])
      rw [empty]
      exact moved

theorem holder_withChannel (c : ChannelState V) (o : SyncObject V) : (o.withChannel c).holder = o.holder := by
  cases o <;> rfl

theorem frame_setChannel (s : Scheduler V E B) (id : ObjectId) (c : ChannelState V) : Frame exempt s (s.setChannel id c) :=
  s.frame_modifyObject id (fun holder => ⟨holder, rfl⟩) (.inr (holder_withChannel c))

theorem Tidy.setChannel (tidy : s.Tidy) (id : ObjectId) (c : ChannelState V) : (s.setChannel id c).Tidy :=
  tidy.modifyObject id _

theorem view_setChannel (s : Scheduler V E B) (id : ObjectId) (c : ChannelState V) (t : TaskId) :
    (s.setChannel id c).view t = { s.view t with queued := (s.setChannel id c).queued.count t } :=
  s.view_modifyObject id _ t

/-- What is in the buffer of a channel cannot be seen. -/
theorem view_setChannel_same (s : Scheduler V E B) (id : ObjectId) {c : ChannelState V}
    (queue : c.queued = (s.channel id).queued) (t : TaskId) : (s.setChannel id c).view t = s.view t := by
  have moved := s.queued_channel id c t fun none => queue.trans none
  rw [queue] at moved
  rw [view_setChannel, Nat.add_right_cancel moved]
  rfl

theorem evolves_setChannel (s : Scheduler V E B) (id : ObjectId) {c : ChannelState V}
    (queue : c.queued = (s.channel id).queued) : s.Evolves exempt hand (s.setChannel id c) :=
  fun regular => ⟨s.frame_setChannel id c, regular.tidy.setChannel id c, fun t =>
    s.view_setChannel_same id queue t ▸ .refl⟩

/-- An unfinished task, if there is one, has left a queue of a channel, and so have perhaps some that are finished. -/
structure Unqueued (who : Option TaskId) (s s' : Scheduler V E B) : Prop where
  frame : ∀ exempt, Frame exempt s s'
  tidy : s'.Tidy
  unfinished : ∀ t, who = some t → s.isDone t = false
  views : ∀ t, ∃ queued, s'.view t = { s.view t with queued } ∧
    queued + (if who = some t then 1 else 0) ≤ (s.view t).queued ∧
    (s.isDone t = false → queued + (if who = some t then 1 else 0) = (s.view t).queued)

/-- Nobody is called who is not finished. -/
theorem Unqueued.evolution (unqueued : Unqueued none s s') : Evolution exempt hand s s' := by
  refine ⟨unqueued.frame exempt, unqueued.tidy, fun t => ?_⟩
  obtain ⟨queued, seen, fewer, same⟩ := unqueued.views t
  rw [seen]
  cases done : s.isDone t with
  | true => exact .single (.drop fewer ((isDone_view s t).trans done))
  | false =>
    have same : queued = (s.view t).queued := same done
    rw [same]

/-- The one who has left the queue is woken, after a change that cannot be seen. -/
theorem Unqueued.wake (unqueued : Unqueued (some id) s s') {s₂ : Scheduler V E B} (frame : Frame exempt s' s₂)
    (tidy : s₂.Tidy) (same : ∀ t, s₂.view t = s'.view t) : Evolution exempt hand s (s₂.wake id) := by
  refine ⟨(unqueued.frame exempt).trans (frame.trans (steady_wake s₂ id).frame), tidy.wake id, fun t => ?_⟩
  obtain ⟨queued, seen, fewer, equal⟩ := unqueued.views t
  rw [view_wake tidy, same, seen]
  by_cases here : t = id
  · subst here
    have unfinished := (isDone_view s t).trans (unqueued.unfinished t rfl)
    have unfinished' : TaskView.isDone { s.view t with queued } = false := unfinished
    rw [if_pos ⟨rfl, unfinished'⟩]
    simp only [if_true] at fewer
    exact .single (.call fewer unfinished)
  · have other : some id ≠ some t := fun same => here (Option.some.inj same).symm
    simp only [other, if_false, Nat.add_zero] at fewer equal
    simp only [here, false_and, if_false]
    cases done : s.isDone t with
    | true => exact .single (.drop fewer ((isDone_view s t).trans done))
    | false => rw [equal done]

/-- Some who are finished leave a list, and nobody else does. -/
theorem count_dropWhile (f : α → TaskId) (done : TaskId → Bool) (l : List α) (t : TaskId) :
    ((l.dropWhile fun a => done (f a)).map f).count t ≤ (l.map f).count t ∧
      (done t = false → ((l.dropWhile fun a => done (f a)).map f).count t = (l.map f).count t) := by
  induction l with
  | nil => simp
  | cons a l ih =>
    rw [List.dropWhile_cons]
    split
    · rename_i finished
      rw [List.map_cons, List.count_cons]
      refine ⟨by omega, fun unfinished => ?_⟩
      have other : f a ≠ t := fun same => by simp [same, unfinished] at finished
      simp [ih.2 unfinished, other]
    · exact ⟨Nat.le_refl _, fun _ => rfl⟩

theorem dropWhile_head {p : α → Bool} {l rest : List α} {a : α} (eq : l.dropWhile p = a :: rest) : p a = false := by
  have here := List.head?_dropWhile_not p l
  rw [eq] at here
  simpa using here

/-- Another state of a channel, where fewer tasks wait. -/
theorem unqueued_setChannel (tidy : s.Tidy) (id : ObjectId) (c : ChannelState V) {who : Option TaskId}
    (unfinished : ∀ t, who = some t → s.isDone t = false)
    (counts : ∀ t, c.queued.count t + (if who = some t then 1 else 0) ≤ (s.channel id).queued.count t ∧
      (s.isDone t = false → c.queued.count t + (if who = some t then 1 else 0) = (s.channel id).queued.count t)) :
    Unqueued who s (s.setChannel id c) := by
  refine ⟨fun exempt => s.frame_setChannel id c, tidy.setChannel id c, unfinished, fun t => ?_⟩
  have moved := s.queued_channel id c t fun none => List.eq_nil_iff_forall_not_mem.mpr fun x mem => by
    have fewer := (counts x).1
    have here := List.count_pos_iff.mpr mem
    simp only [none, List.count_nil] at fewer
    omega
  obtain ⟨fewer, equal⟩ := counts t
  refine ⟨_, s.view_setChannel id c t, ?_, fun alive => ?_⟩
  · show _ ≤ s.queued.count t
    omega
  · show _ = s.queued.count t
    have equal := equal alive
    omega

theorem unqueued_popReceiver (tidy : s.Tidy) (id : ObjectId) : Unqueued (s.popReceiver id).1 s (s.popReceiver id).2 := by
  have dropped := count_dropWhile (fun t => t) s.isDone (s.channel id).receivers
  simp only [List.map_id'] at dropped
  unfold popReceiver
  dsimp only
  split
  · rename_i t rest eq
    have first : s.isDone t = false := dropWhile_head eq
    refine unqueued_setChannel tidy id _ (fun t' same => Option.some.inj same ▸ first) fun x => ?_
    have dropped := dropped x
    rw [eq] at dropped
    simp only [ChannelState.queued, List.count_append, List.count_cons, beq_iff_eq, Option.some.injEq] at dropped ⊢
    exact ⟨by omega, fun alive => by have := dropped.2 alive; omega⟩
  · rename_i eq
    refine unqueued_setChannel tidy id _ nofun fun x => ?_
    have dropped := dropped x
    rw [eq] at dropped
    simp only [ChannelState.queued, List.count_append, List.count_nil, reduceCtorEq, if_false] at dropped ⊢
    exact ⟨by omega, fun alive => by have := dropped.2 alive; omega⟩

theorem unqueued_popSender (tidy : s.Tidy) (id : ObjectId) :
    Unqueued ((s.popSender id).1.map (·.1)) s (s.popSender id).2 := by
  have dropped := count_dropWhile (fun p : TaskId × V => p.1) s.isDone (s.channel id).senders
  unfold popSender
  dsimp only
  split
  · rename_i p rest eq
    have first : s.isDone p.1 = false := dropWhile_head (p := fun p : TaskId × V => s.isDone p.1) eq
    refine unqueued_setChannel tidy id _ (fun t' same => Option.some.inj same ▸ first) fun x => ?_
    have dropped := dropped x
    rw [eq] at dropped
    simp only [ChannelState.queued, List.count_append, List.map_cons, List.count_cons, beq_iff_eq, Option.map_some,
      Option.some.injEq] at dropped ⊢
    exact ⟨by omega, fun alive => by have := dropped.2 alive; omega⟩
  · rename_i eq
    refine unqueued_setChannel tidy id _ nofun fun x => ?_
    have dropped := dropped x
    rw [eq] at dropped
    simp only [ChannelState.queued, List.count_append, List.map_nil, List.count_nil, Option.map_none, reduceCtorEq,
      if_false] at dropped ⊢
    exact ⟨by omega, fun alive => by have := dropped.2 alive; omega⟩

theorem evolves_takeReady (s : Scheduler V E B) (id : ObjectId) : s.Evolves exempt hand (s.takeReady id).2 := by
  unfold takeReady
  dsimp only
  split
  · rename_i v rest eq
    refine (s.evolves_useChannel (.handed id none v)).trans ?_
    refine Evolves.trans (evolves_setChannel _ (c := { s.channel id with buffer := rest }) id rfl) fun regular => ?_
    have unqueued := unqueued_popSender regular.tidy id
    split
    · rename_i sender w s' eq
      rw [eq] at unqueued
      have admitted := s'.steady_useChannel (.admitted id sender)
      refine unqueued.wake (admitted.frame.trans (frame_setChannel _ id _))
        ((unqueued.tidy.useChannel (.admitted id sender)).setChannel id _) ?_
      exact view_setChannel_same (s'.useChannel (.admitted id sender)) id rfl
    · rename_i s' eq
      rw [eq] at unqueued
      exact unqueued.evolution
  · intro regular
    have unqueued := unqueued_popSender regular.tidy id
    split
    · rename_i sender w s' eq
      rw [eq] at unqueued
      have noted := (s'.steady_useChannel (.admitted id sender)).trans (steady_useChannel _ (.handed id none w))
      exact unqueued.wake noted.frame ((unqueued.tidy.useChannel _).useChannel _) fun _ => rfl
    · rename_i s' eq
      rw [eq] at unqueued
      exact unqueued.evolution

/-- Something is changed of tasks that cannot be seen, and if they are not finished they are woken, one after another. -/
theorem foldl_wake (task : α → TaskId) {step : Scheduler V E B → α → Scheduler V E B}
    (one : ∀ (s : Scheduler V E B) a, s.Tidy → s.Steady (step s a) ∧ (step s a).Tidy ∧
      ∀ t, (step s a).view t = if t = task a ∧ (s.view t).isDone = false then (s.view t).wake else s.view t)
    (as : List α) (s : Scheduler V E B) (tidy : s.Tidy) :
    s.Steady (as.foldl step s) ∧ (as.foldl step s).Tidy ∧
      ∀ t, (as.foldl step s).view t =
        if t ∈ as.map task ∧ (s.view t).isDone = false then (s.view t).wake else s.view t := by
  induction as generalizing s with
  | nil => exact ⟨⟨rfl, rfl, rfl⟩, tidy, fun t => by simp⟩
  | cons a as ih =>
    obtain ⟨steady, tidy', seen⟩ := one s a tidy
    obtain ⟨steady', tidy'', seen'⟩ := ih (step s a) tidy'
    refine ⟨steady.trans steady', tidy'', fun t => ?_⟩
    rw [List.foldl_cons, seen', seen]
    by_cases done : (s.view t).isDone = false
    · have woken : (s.view t).wake.isDone = false := TaskView.isDone_wake done
      have twice : (s.view t).wake.wake = (s.view t).wake := rfl
      by_cases here : t = task a
      · simp [here ▸ done, here, here ▸ woken, here ▸ twice]
      · simp [here, done]
    · simp [done]

theorem wake_after_modifyTask (tidy : s.Tidy) (id : TaskId) {f : Task V E B → Task V E B}
    (state : ∀ k, (f k).state = k.state) (killed : ∀ k, (f k).killed = k.killed) :
    s.Steady ((s.modifyTask id f).wake id) ∧ ((s.modifyTask id f).wake id).Tidy ∧
      ∀ t, ((s.modifyTask id f).wake id).view t =
        if t = id ∧ (s.view t).isDone = false then (s.view t).wake else s.view t := by
  refine ⟨(s.steady_modifyTask id f).trans (steady_wake _ id), (tidy.modifyTask id f).wake id, fun t => ?_⟩
  rw [view_wake (tidy.modifyTask id f), s.view_modifyTask_same id t state killed]

theorem refuseReceiver_spec (s : Scheduler V E B) (t : TaskId) (tidy : s.Tidy) :
    s.Steady (s.refuseReceiver t) ∧ (s.refuseReceiver t).Tidy ∧ ∀ t', (s.refuseReceiver t).view t' =
      if t' = t ∧ (s.view t').isDone = false then (s.view t').wake else s.view t' := by
  unfold refuseReceiver
  split
  · rename_i done
    refine ⟨⟨rfl, rfl, rfl⟩, tidy, fun t' => ?_⟩
    rw [if_neg]
    rintro ⟨rfl, unfinished⟩
    simp [isDone_view, done] at unfinished
  · exact wake_after_modifyTask tidy t (fun _ => rfl) fun _ => rfl

theorem refuseSender_spec (s : Scheduler V E B) (p : TaskId × V) (tidy : s.Tidy) :
    s.Steady (s.refuseSender p) ∧ (s.refuseSender p).Tidy ∧ ∀ t, (s.refuseSender p).view t =
      if t = p.1 ∧ (s.view t).isDone = false then (s.view t).wake else s.view t := by
  unfold refuseSender
  split
  · rename_i done
    refine ⟨⟨rfl, rfl, rfl⟩, tidy, fun t => ?_⟩
    rw [if_neg]
    rintro ⟨rfl, unfinished⟩
    simp [isDone_view, done] at unfinished
  · exact wake_after_modifyTask tidy p.1 (fun _ => rfl) fun _ => rfl

theorem evolves_turnAway (s : Scheduler V E B) (id : ObjectId) : s.Evolves exempt hand (s.turnAway id) := by
  intro regular
  have emptied := regular.tidy.setChannel id { s.channel id with receivers := [], senders := [] }
  obtain ⟨steady, tidy, seen⟩ := foldl_wake (fun t => t) refuseReceiver_spec (s.channel id).receivers _ emptied
  obtain ⟨steady', tidy', seen'⟩ := foldl_wake (fun p => p.1) refuseSender_spec (s.channel id).senders _ tidy
  refine ⟨(s.frame_setChannel id _).trans (steady.trans steady').frame, tidy', fun t => ?_⟩
  have moved : (s.setChannel id { s.channel id with receivers := [], senders := [] }).queued.count t +
      (s.channel id).queued.count t = (s.view t).queued := s.queued_channel id _ t fun _ => rfl
  rw [turnAway, seen', seen, view_setChannel]
  generalize (s.setChannel id { s.channel id with receivers := [], senders := [] }).queued.count t = queued at moved
  have same : TaskView.isDone { s.view t with queued } = (s.view t).isDone := rfl
  cases done : (s.view t).isDone with
  | true =>
    simp only [same, done, Bool.true_eq_false, and_false, if_false]
    exact .single (.drop (by omega) done)
  | false =>
    have woken : TaskView.isDone (TaskView.wake { s.view t with queued }) = false := TaskView.isDone_wake done
    have twice : TaskView.wake (TaskView.wake { s.view t with queued }) = TaskView.wake { s.view t with queued } := rfl
    by_cases waits : t ∈ (s.channel id).queued
    · have here := List.count_pos_iff.mpr waits
      have fewer : queued < (s.view t).queued := by omega
      by_cases receives : t ∈ (s.channel id).receivers
      · simp only [List.map_id', receives, same, done, woken, twice, and_self, and_true, if_true, ite_self]
        exact .single (.call fewer done)
      · have sends : t ∈ (s.channel id).senders.map (·.1) := (List.mem_append.mp waits).resolve_right receives
        simp only [List.map_id', receives, sends, same, done, false_and, if_false, and_self, if_true]
        exact .single (.call fewer done)
    · have none := List.count_eq_zero.mpr waits
      simp only [ChannelState.queued, List.mem_append, not_or] at waits
      simp only [List.map_id', waits.1, waits.2, false_and, if_false]
      rw [show queued = (s.view t).queued by omega]

theorem evolves_closeChannel (s : Scheduler V E B) (id : ObjectId) : s.Evolves exempt hand (s.closeChannel id) := by
  unfold closeChannel
  dsimp only
  split
  · exact .refl exempt hand s
  · refine (s.evolves_useChannel (.closed id)).trans (Evolves.trans ?_ (evolves_turnAway _ id))
    exact evolves_setChannel _ id rfl

end Scheduler

/-! ## All operations -/

/-- An operation of a task is made of moves. -/
theorem TaskOp.evolves {V E B α : Type} {hand : Option TaskId} (op : TaskOp V E B α)
    (s : Scheduler V E B) : s.Evolves none hand (op.run s).2 := by
  cases op with
  | read f => exact .refl none hand s
  | note e a => exact s.evolves_note e
  | interrupt a =>
    exact Scheduler.Steady.evolves ⟨rfl, rfl, rfl⟩
      (fun tidy => tidy.of_same rfl) fun _ => rfl
  | spawn name body k => exact s.evolves_spawn name body
  | cancel id a => exact s.evolves_kill id .cancelled
  | setDeadline id after a => exact s.evolves_setDeadline id after
  | newLock k => exact s.evolves_newObject rfl rfl
  | newSemaphore permits k => exact s.evolves_newObject rfl rfl
  | newBarrier parties k => exact s.evolves_newObject rfl rfl
  | newChannel capacity k => exact s.evolves_newObject rfl rfl
  | tryLock id k => exact s.evolves_tryLock id
  | unlock id a => exact s.evolves_releaseLock id
  | tryAcquire id k => exact s.evolves_tryAcquire id
  | release id a => exact s.evolves_releasePermit id
  | tryReceive id k => exact s.evolves_takeReady id
  | close id a => exact s.evolves_closeChannel id

/-- Operations of tasks, one after another, are made of moves. -/
theorem Scheduler.Steps.evolves {V E B : Type} {hand : Option TaskId} {s s' : Scheduler V E B} (steps : s.Steps s') :
    s.Evolves none hand s' := by
  induction steps with
  | refl => exact .refl none hand s
  | tail _ op ih => exact ih.trans (op.evolves _)

end LedgerScript
