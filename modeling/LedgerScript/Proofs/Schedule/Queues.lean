import LedgerScript.Proofs.Schedule.Bookkeeping

/-!
# How queues move

Whatever happens to a scheduler, its queues move like queues: newcomers join them at the end, and whoever stays keeps its
place.  `Scheduler.Flows` says so of the ready queue, which only a killed task leaves before its turn, and of those who
wait for a lock, a permit or a barrier.  Nobody leaves one of these lines alive unless it is the line of the object that
an operation is about, and such lines are set apart.
-/

namespace LedgerScript

variable {V E B : Type}

/-- Who keeps its place in a list keeps it between those in front of it and those behind it. -/
theorem sublist_around {α : Type} {t : α} {front back kept : List α} (fewer : kept.Sublist (front ++ t :: back))
    (distinct : (front ++ t :: back).Nodup) (stays : t ∈ kept) :
    ∃ front' back', kept = front' ++ t :: back' ∧ front'.Sublist front ∧ back'.Sublist back := by
  obtain ⟨-, inner, apart⟩ := List.nodup_append.mp distinct
  obtain ⟨front', rest, rfl, before, after⟩ := List.sublist_append_iff.mp fewer
  have here : t ∈ rest := (List.mem_append.mp stays).resolve_left fun mem =>
    apart t (before.subset mem) t List.mem_cons_self rfl
  cases after with
  | cons _ after => exact absurd (after.subset here) (List.nodup_cons.mp inner).1
  | cons_cons _ after => exact ⟨front', _, rfl, before, after⟩

def WaitKey.isService : WaitKey → Bool
  | lock _ | permit _ | barrier _ => true
  | join _ | timer _ => false

/-- The key under which tasks wait for an object; a channel has queues of its own. -/
def SyncObject.key? (id : ObjectId) : SyncObject V → Option WaitKey
  | .lock _ => some (.lock id)
  | .semaphore _ => some (.permit id)
  | .barrier .. => some (.barrier id)
  | .channel .. => none

/-- A barrier waits for at least one task. -/
def SyncObject.Sized : SyncObject V → Prop
  | .barrier parties _ => 0 < parties
  | .lock _ | .semaphore _ | .channel .. => True

namespace Scheduler

/-- All barriers wait for at least one task. -/
def Sized (s : Scheduler V E B) : Prop :=
  ∀ m o, s.object? m = some o → o.Sized

def Killed (s : Scheduler V E B) (t : TaskId) : Prop :=
  (s.view t).killed = true

def Pending (s : Scheduler V E B) (t : TaskId) : Prop :=
  s.isDone t = false ∨ s.Killed t

/-- A task does not wait for a lock, a permit or a barrier, or it has been killed. -/
def Aside (s : Scheduler V E B) (t : TaskId) : Prop :=
  ∀ key, s.parked.get? t = some key → key.isService = true → s.Killed t

/-- The queues move in order, but for the lines that are set apart. -/
structure Flows (apart : WaitKey → Prop) (s s' : Scheduler V E B) : Prop where
  picks : s'.picks = s.picks
  killed : ∀ t, s.Killed t → s'.Killed t
  queue : QueueTidy s.ready s.readySet → QueueTidy s'.ready s'.readySet
  pending : (∀ t ∈ s.ready, s.Pending t) → ∀ t ∈ s'.ready, s'.Pending t
  ready : QueueTidy s.ready s.readySet →
    ∃ kept new, s'.ready = kept ++ new ∧ kept.Sublist s.ready ∧ ∀ t ∈ s.ready, t ∉ kept → s'.Killed t
  parked : ∀ t key, key.isService = true → ¬ apart key → s'.parked.get? t = some key → s.parked.get? t = some key
  lines : ∀ key, key.isService = true → ¬ apart key → (s'.waitersOf key).Sublist (s.waitersOf key) ∧
    ∀ t ∈ s.waitersOf key, t ∉ s'.waitersOf key → s'.Killed t
  objects : ∀ m o key, s.object? m = some o → o.key? m = some key → ¬ apart key → s'.object? m = some o
  sized : s.Sized → s'.Sized

variable {s s' s'' : Scheduler V E B} {apart : WaitKey → Prop} {hand : Option TaskId} {t id me : TaskId} {m : ObjectId}
  {key : WaitKey}

theorem killed_iff : s.Killed t ↔ (s.task? t).any (·.killed) = true :=
  Iff.rfl

/-- Who waits for no service does not come to do so if no line is set apart. -/
theorem Flows.aside (flows : s.Flows (fun _ => False) s') (aside : s.Aside t) : s'.Aside t :=
  fun key parked service => flows.killed t (aside key (flows.parked t key service (fun mine => mine) parked) service)

theorem Flows.refl (apart : WaitKey → Prop) (s : Scheduler V E B) : s.Flows apart s where
  picks := rfl
  killed _ := id
  queue := id
  pending := id
  ready _ := ⟨s.ready, [], (List.append_nil _).symm, .refl _, fun _ here gone => absurd here gone⟩
  parked _ _ _ _ := id
  lines _ _ _ := ⟨.refl _, fun _ here gone => absurd here gone⟩
  objects _ _ _ here _ _ := here
  sized := id

theorem Flows.trans (first : s.Flows apart s') (second : s'.Flows apart s'') : s.Flows apart s'' where
  picks := second.picks.trans first.picks
  killed t := second.killed t ∘ first.killed t
  queue := second.queue ∘ first.queue
  pending := second.pending ∘ first.pending
  parked t key service mine := first.parked t key service mine ∘ second.parked t key service mine
  objects m o key here serves mine := second.objects m o key (first.objects m o key here serves mine) serves mine
  sized := second.sized ∘ first.sized
  lines key service mine := by
    obtain ⟨fewer, gone⟩ := first.lines key service mine
    obtain ⟨fewer', gone'⟩ := second.lines key service mine
    refine ⟨fewer'.trans fewer, fun t here left => ?_⟩
    by_cases stays : t ∈ s'.waitersOf key
    · exact gone' t stays left
    · exact second.killed t (gone t here stays)
  ready tidy := by
    obtain ⟨kept, new, eq, fewer, gone⟩ := first.ready tidy
    obtain ⟨kept', new', eq', fewer', gone'⟩ := second.ready (first.queue tidy)
    have distinct := (first.queue tidy).nodup
    rw [eq] at fewer' gone' distinct
    obtain ⟨stay, join, rfl, stays, joins⟩ := List.sublist_append_iff.mp fewer'
    refine ⟨stay, join ++ new', by rw [eq', List.append_assoc], stays.trans fewer, fun t here left => ?_⟩
    by_cases mem : t ∈ kept
    · refine gone' t (List.mem_append_left _ mem) fun mem' => ?_
      -- whoever has kept its place is not among the newcomers
      rcases List.mem_append.mp mem' with mem' | mem'
      · exact left mem'
      · exact (List.nodup_append.mp distinct).2.2 t mem t (joins.subset mem') rfl
    · exact second.killed t (gone t here mem)

/-- More lines are set apart. -/
theorem Flows.mono {apart' : WaitKey → Prop} (more : ∀ key, apart key → apart' key) (flows : s.Flows apart s') :
    s.Flows apart' s' :=
  { flows with
    parked := fun t key service mine => flows.parked t key service (mt (more key) mine)
    lines := fun key service mine => flows.lines key service (mt (more key) mine)
    objects := fun m o key here serves mine => flows.objects m o key here serves (mt (more key) mine) }

/-! ## What concerns no queue -/

/-- Neither the queues nor the objects have changed, and tasks only get killed. -/
theorem flows_of_same (picks : s'.picks = s.picks) (ready : s'.ready = s.ready) (readySet : s'.readySet = s.readySet)
    (waiters : s'.waiters = s.waiters) (parked : s'.parked = s.parked) (objects : s'.objects = s.objects)
    (killed : ∀ t, s.Killed t → s'.Killed t) (pending : ∀ t ∈ s.ready, s.Pending t → s'.Pending t) : s.Flows apart s' where
  picks := picks
  killed := killed
  queue := by rw [ready, readySet]; exact id
  pending all := by rw [ready]; exact fun t here => pending t here (all t here)
  ready _ := by rw [ready]; exact ⟨s.ready, [], (List.append_nil _).symm, .refl _, fun _ here gone => absurd here gone⟩
  parked t key _ _ := by rw [parked]; exact id
  lines key _ _ := by
    have same : s'.waitersOf key = s.waitersOf key := by rw [waitersOf, waiters]; rfl
    rw [same]
    exact ⟨.refl _, fun _ here gone => absurd here gone⟩
  objects m o key here _ _ := by
    rw [object?, objects]
    exact here
  sized all m o here := by
    rw [object?, objects] at here
    exact all m o here

/-- Nothing that concerns the queues has changed. -/
theorem flows_of_eq {journal : List RunEvent} {lockUses : List LockUse} {channelUses : List (ChannelUse V)} {now : Nat}
    {timers : List Timer} {lastTimer : TimerId} {timerUses : List (Nat × Timer)} {current : Option TaskId}
    {unwinding : List TaskId} {interrupted : Bool} :
    s.Flows apart { s with
      journal, lockUses, channelUses, now, timers, lastTimer, timerUses, current, unwinding, interrupted } :=
  flows_of_same rfl rfl rfl rfl rfl rfl (fun _ => id) fun _ _ => id

theorem flows_note (s : Scheduler V E B) (e : RunEvent) : s.Flows apart (s.note e) :=
  flows_of_eq

theorem flows_noteTask (s : Scheduler V E B) (name : String) (id : TaskId) (detail : Bytes) :
    s.Flows apart (s.noteTask name id detail) :=
  s.flows_note _

theorem flows_use (s : Scheduler V E B) (u : LockUse) : s.Flows apart (s.use u) :=
  flows_of_eq

theorem flows_useChannel (s : Scheduler V E B) (u : ChannelUse V) : s.Flows apart (s.useChannel u) :=
  flows_of_eq

theorem flows_setCurrent (s : Scheduler V E B) (id : Option TaskId) : s.Flows apart (s.setCurrent id) :=
  flows_of_eq

theorem flows_disarm (s : Scheduler V E B) (timer : Option TimerId) : s.Flows apart (s.disarm timer) := by
  cases timer with
  | none => exact .refl apart s
  | some id => exact flows_of_eq

theorem flows_modifyTask (s : Scheduler V E B) (id : TaskId) {f : Task V E B → Task V E B}
    (killed : ∀ k, k.killed = true → (f k).killed = true)
    (pending : id ∈ s.ready → ∀ k, s.task? id = some k → k.isDone = false ∨ k.killed = true →
      (f k).isDone = false ∨ (f k).killed = true) : s.Flows apart (s.modifyTask id f) := by
  have tasks := s.task?_modifyTask id (f := f)
  have marked : ∀ t, s.Killed t → (s.modifyTask id f).Killed t := by
    intro t
    rw [killed_iff, killed_iff, tasks]
    split
    · cases s.task? t with
      | none => exact fun dead => dead
      | some k => exact killed k
    · exact fun dead => dead
  have waits : ∀ t ∈ s.ready, s.Pending t → (s.modifyTask id f).Pending t := by
    intro t here
    unfold Pending isDone
    rw [killed_iff, killed_iff, tasks]
    by_cases same : t = id
    · subst same
      rw [if_pos rfl]
      cases known : s.task? t with
      | none => exact fun waits => waits
      | some k => exact pending here k known
    · rw [if_neg same]
      exact fun waits => waits
  rw [modifyTask_eq] at marked waits ⊢
  exact flows_of_same rfl rfl rfl rfl rfl rfl marked waits

/-- A change to one task that can not be seen. -/
theorem flows_modifyTask_same (s : Scheduler V E B) (id : TaskId) {f : Task V E B → Task V E B}
    (state : ∀ k, (f k).state = k.state) (killed : ∀ k, (f k).killed = k.killed) : s.Flows apart (s.modifyTask id f) := by
  refine s.flows_modifyTask id (fun k dead => (killed k).trans dead) fun _ k _ => ?_
  rw [killed, Task.isDone, Task.isDone, state]
  exact fun waits => waits

theorem flows_setDeadline (s : Scheduler V E B) (id : TaskId) (after : Int) : s.Flows apart (s.setDeadline id after) := by
  unfold setDeadline
  split
  · exact .refl apart s
  · rename_i k here
    split
    · exact .refl apart s
    · refine (s.flows_disarm k.deadline).trans (Flows.trans ?_ (flows_modifyTask_same _ id (fun _ => rfl) fun _ => rfl))
      exact flows_of_eq

/-! ## Objects -/

theorem flows_modifyObject (s : Scheduler V E B) (id : ObjectId) {f : SyncObject V → SyncObject V}
    (own : ∀ o key, o.key? id = some key → ¬ apart key → f o = o) (sized : ∀ o, o.Sized → (f o).Sized) :
    s.Flows apart (s.modifyObject id f) := by
  have objects := s.object?_modifyObject id (f := f)
  have same : s.Flows apart { s.modifyObject id f with objects := s.objects } := by
    rw [modifyObject_eq]
    exact .refl apart s
  refine { same with lines := same.lines, objects := fun m o key here serves mine => ?_, sized := fun all m o here => ?_ }
  · rw [objects]
    split
    · rename_i here'
      subst here'
      rw [here, Option.map_some, own o key serves mine]
    · exact here
  · rw [objects] at here
    split at here
    · obtain ⟨o', here', rfl⟩ := Option.map_eq_some_iff.mp here
      exact sized o' (all m o' here')
    · exact all m o here

theorem flows_setHolder (s : Scheduler V E B) (m : ObjectId) (holder : Option TaskId) (mine : apart (.lock m)) :
    s.Flows apart (s.setHolder m holder) := by
  refine s.flows_modifyObject m (fun o key serves other => ?_) fun o => ?_
  · cases o with
    | lock =>
      cases serves
      exact absurd mine other
    | semaphore | barrier | channel => rfl
  · cases o <;> exact fun sized => sized

theorem flows_setPermits (s : Scheduler V E B) (id : ObjectId) (n : Int) (mine : apart (.permit id)) :
    s.Flows apart (s.setPermits id n) := by
  refine s.flows_modifyObject id (fun o key serves other => ?_) fun o => ?_
  · cases o with
    | semaphore =>
      cases serves
      exact absurd mine other
    | lock | barrier | channel => rfl
  · cases o <;> exact fun sized => sized

theorem flows_nextGeneration (s : Scheduler V E B) (id : ObjectId) (mine : apart (.barrier id)) :
    s.Flows apart (s.nextGeneration id) := by
  refine s.flows_modifyObject id (fun o key serves other => ?_) fun o => ?_
  · cases o with
    | barrier =>
      cases serves
      exact absurd mine other
    | lock | semaphore | channel => rfl
  · cases o <;> exact fun sized => sized

theorem flows_setChannel (s : Scheduler V E B) (id : ObjectId) (c : ChannelState V) :
    s.Flows apart (s.setChannel id c) := by
  refine s.flows_modifyObject id (fun o key serves _ => ?_) fun o => ?_
  · cases o with
    | channel => cases serves
    | lock | semaphore | barrier => rfl
  · cases o <;> exact fun sized => sized

theorem flows_newObject (s : Scheduler V E B) {o : SyncObject V} (sized : o.Sized) : s.Flows apart (s.newObject o).2 := by
  have same : s.Flows apart { (s.newObject o).2 with objects := s.objects } := .refl apart s
  refine { same with lines := same.lines, objects := fun m o' key here _ _ => ?_, sized := fun all m o' here => ?_ }
  · rw [object?_newObject, if_neg]
    · exact here
    · rintro rfl
      simp [object?] at here
  · rw [object?_newObject] at here
    split at here
    · cases here
      exact sized
    · exact all m o' here

/-! ## Joining and leaving the ready queue -/

/-- A task joins the end of the ready queue. -/
theorem flows_enqueue (s : Scheduler V E B) (pending : s.Pending id) : s.Flows apart (s.enqueue id) := by
  unfold enqueue
  split
  · exact .refl apart s
  · let s₁ : Scheduler V E B := { s with ready := s.ready ++ [id], readySet := s.readySet.set id () }
    have marked : s₁.Flows apart (s₁.modifyTask id fun t => if t.isDone then t else { t with state := .ready }) := by
      refine s₁.flows_modifyTask id (fun k dead => ?_) fun _ k _ waits => ?_
      · split <;> exact dead
      · split
        · exact waits
        · exact .inl rfl
    rename_i fresh
    have joined : s.Flows apart s₁ := by
      refine { Flows.refl apart s with
        queue := fun tidy => ?_, pending := fun all t here => ?_, ready := fun _ => ?_, lines := (Flows.refl apart s).lines }
      · refine ⟨List.nodup_append.mpr ⟨tidy.nodup, by simp, fun t mem id' mem' same => ?_⟩, fun t => ?_⟩
        · rw [List.mem_singleton.mp mem'] at same
          exact fresh ((tidy.has_iff id).mpr (same ▸ mem))
        · simp [s₁, tidy.has_iff, or_comm]
      · rcases List.mem_append.mp here with here | here
        · exact all t here
        · obtain rfl := List.mem_singleton.mp here
          exact pending
      · exact ⟨s.ready, [id], rfl, .refl _, fun _ here gone => absurd here gone⟩
    exact joined.trans marked

/-- A killed task leaves the ready queue. -/
theorem flows_unready (s : Scheduler V E B) (killed : id ∈ s.ready → s.Killed id) : s.Flows apart (s.unready id) := by
  unfold unready
  split
  · refine { Flows.refl apart s with
      queue := fun tidy => ?_, pending := fun all t here => all t (List.mem_of_mem_erase here), ready := fun tidy => ?_
      lines := (Flows.refl apart s).lines }
    · refine ⟨tidy.nodup.erase id, fun t => ?_⟩
      simp [tidy.has_iff, tidy.nodup.mem_erase_iff]
    · refine ⟨s.ready.erase id, [], (List.append_nil _).symm, List.erase_sublist, fun t here left => ?_⟩
      by_cases same : t = id
      · subst same
        exact killed here
      · exact absurd ((List.mem_erase_of_ne same).mpr here) left
  · exact .refl apart s

/-! ## Waiting under a key -/

theorem flows_setWaiters (s : Scheduler V E B) (key : WaitKey) (ids : List TaskId)
    (free : key.isService = true → apart key) : s.Flows apart (s.setWaiters key ids) := by
  have others := s.waitersOf_setWaiters key ids
  rw [setWaiters_eq] at others ⊢
  refine { Flows.refl apart s with lines := fun key' service mine => ?_ }
  rw [others, if_neg (by rintro rfl; exact mine (free service))]
  exact ⟨.refl _, fun _ here gone => absurd here gone⟩

theorem flows_unpark (s : Scheduler V E B) (id : TaskId) : s.Flows apart (s.unpark id) := by
  refine { Flows.refl apart s with parked := fun t key _ _ here => ?_, lines := (Flows.refl apart s).lines }
  change (s.parked.erase id).get? t = some key at here
  rw [FinMap.get?_erase] at here
  split at here
  · cases here
  · exact here

/-- A task stops waiting that does not wait for a service, or that has been killed. -/
theorem flows_unregister (s : Scheduler V E B) (aside : s.Aside id) : s.Flows apart (s.unregister id) := by
  unfold unregister
  split
  · exact .refl apart s
  · rename_i key here
    refine Flows.trans ?_ (flows_unpark _ id)
    have others := s.waitersOf_setWaiters key ((s.waitersOf key).erase id)
    rw [removeWaiter]
    rw [setWaiters_eq] at others ⊢
    refine { Flows.refl apart s with lines := fun key' service _ => ?_ }
    rw [others]
    split
    · rename_i same
      subst same
      refine ⟨List.erase_sublist, fun t here' left => ?_⟩
      by_cases same : t = id
      · subst same
        exact aside key' here service
      · exact absurd ((List.mem_erase_of_ne same).mpr here') left
    · exact ⟨.refl _, fun _ here gone => absurd here gone⟩

theorem flows_wake (s : Scheduler V E B) (aside : s.Aside id) : s.Flows apart (s.wake id) := by
  unfold wake
  split
  · exact .refl apart s
  · rename_i unfinished
    rw [Bool.not_eq_true] at unfinished
    refine (s.flows_unregister aside).trans (flows_enqueue _ (.inl ?_))
    rw [isDone_unregister]
    exact unfinished

theorem aside_unpark (s : Scheduler V E B) (id : TaskId) : (s.unpark id).Aside id := by
  intro key here
  change (s.parked.erase id).get? id = some key at here
  simp at here

/-- Tasks that have been taken from those who wait are woken, one after another. -/
theorem flows_wakeEach (ids : List TaskId) (s : Scheduler V E B) :
    s.Flows apart (ids.foldl (fun s id => (s.unpark id).wake id) s) := by
  induction ids generalizing s with
  | nil => exact .refl apart s
  | cons id ids ih => exact ((s.flows_unpark id).trans (flows_wake _ (s.aside_unpark id))).trans (ih _)

theorem flows_wakeAll (s : Scheduler V E B) (key : WaitKey) (free : key.isService = true → apart key) :
    s.Flows apart (s.wakeAll key) := by
  unfold wakeAll
  split
  · exact .refl apart s
  · exact (s.flows_setWaiters key [] free).trans (flows_wakeEach _ _)

/-- Whoever is taken from those who wait no longer does. -/
theorem flows_popUnfinished (s : Scheduler V E B) (key : WaitKey) (ids : List TaskId) (free : key.isService = true → apart key) :
    s.Flows apart (s.popUnfinished key ids).2 ∧
      ∀ id, (s.popUnfinished key ids).1 = some id → (s.popUnfinished key ids).2.Aside id := by
  induction ids generalizing s with
  | nil => exact ⟨.refl apart s, nofun⟩
  | cons first rest ih =>
    have popped := (s.flows_setWaiters key rest free).trans (flows_unpark _ first)
    unfold popUnfinished
    dsimp only
    split
    · obtain ⟨flows, aside⟩ := ih ((s.setWaiters key rest).unpark first)
      exact ⟨popped.trans flows, aside⟩
    · refine ⟨popped, fun id same => ?_⟩
      cases same
      exact aside_unpark _ first

theorem flows_popWaiter (s : Scheduler V E B) (key : WaitKey) (free : key.isService = true → apart key) :
    s.Flows apart (s.popWaiter key).2 ∧ ∀ id, (s.popWaiter key).1 = some id → (s.popWaiter key).2.Aside id :=
  s.flows_popUnfinished key _ free

/-! ## The end of a task -/

/-- A task ends.  If it is ready, or waits for a service, it has been killed. -/
theorem flows_finish (s : Scheduler V E B) (errorText : E → Bytes) (id : TaskId) (result : Option V)
    (fault : Option (TaskFault E)) (free : s.Killed id ∨ id ∉ s.ready ∧ s.parked.get? id = none) :
    s.Flows apart (s.finish errorText id result fault) := by
  unfold finish
  split
  · exact .refl apart s
  · rename_i k _
    dsimp only
    let s₁ := (((s.disarm k.deadline).disarm k.sleep).use (.ended id)).useChannel (.ended id)
    have quiet : s.Flows apart s₁ :=
      (((s.flows_disarm k.deadline).trans (flows_disarm _ k.sleep)).trans (flows_use _ _)).trans (flows_useChannel _ _)
    have same : ∀ timer (s : Scheduler V E B), (s.disarm timer).ready = s.ready ∧ (s.disarm timer).parked = s.parked ∧
        (s.disarm timer).tasks = s.tasks := fun timer s => by cases timer <;> exact ⟨rfl, rfl, rfl⟩
    have ready : s₁.ready = s.ready := (same k.sleep _).1.trans (same k.deadline _).1
    have parked : s₁.parked = s.parked := (same k.sleep _).2.1.trans (same k.deadline _).2.1
    have free₁ : s₁.Killed id ∨ id ∉ s₁.ready ∧ s₁.parked.get? id = none :=
      free.imp (quiet.killed id) fun free => ⟨ready ▸ free.1, parked ▸ free.2⟩
    let f : Task V E B → Task V E B := fun t =>
      { t with result, fault, deadline := none, sleep := none, state := if fault.isSome then .failed else .completed }
    have ended : s₁.Flows apart (s₁.modifyTask id f) := by
      refine s₁.flows_modifyTask id (fun _ killed => killed) fun here k known _ => .inr ?_
      have killed := free₁.resolve_right fun free => free.1 here
      rwa [killed_iff, known] at killed
    let s₂ := s₁.modifyTask id f
    have ready₂ : s₂.ready = s₁.ready := by rw [show s₂ = _ from modifyTask_eq _ _ _]
    have parked₂ : s₂.parked = s₁.parked := by rw [show s₂ = _ from modifyTask_eq _ _ _]
    have aside : s₂.Aside id := fun key here _ =>
      ended.killed id (free₁.resolve_right fun free => by rw [parked₂, free.2] at here; cases here)
    have left : s₂.Flows apart (s₂.unregister id) := s₂.flows_unregister aside
    have ready₃ : (s₂.unregister id).ready = s₂.ready := by
      unfold unregister
      split
      · rfl
      · rw [unpark, removeWaiter, setWaiters_eq]
    have unready : (s₂.unregister id).Flows apart ((s₂.unregister id).unready id) := by
      refine flows_unready _ fun here => ?_
      rw [ready₃, ready₂] at here
      exact left.killed id (ended.killed id (free₁.resolve_right fun free => free.1 here))
    exact ((((quiet.trans ended).trans left).trans unready).trans (flows_noteTask _ _ _ _)).trans
      (flows_wakeAll _ (.join id) fun none => by cases none)

theorem flows_kill (s : Scheduler V E B) (id : TaskId) (cause : ScheduleFault) : s.Flows apart (s.kill id cause) := by
  unfold kill
  split
  · exact .refl apart s
  · rename_i k here
    split
    · exact .refl apart s
    · let s₁ := s.modifyTask id fun t => { t with killed := true }
      have marked : s.Flows apart s₁ := s.flows_modifyTask id (fun _ _ => rfl) fun _ _ _ _ => .inr rfl
      have killed : s₁.Killed id := by
        rw [killed_iff, task?_modifyTask, if_pos rfl, here]
        rfl
      have ended := marked.trans (s₁.flows_finish (fun _ => []) id none (some (.schedule cause)) (.inl killed))
      dsimp only
      split
      · exact ended
      · exact ended.trans flows_of_eq

end Scheduler

end LedgerScript
