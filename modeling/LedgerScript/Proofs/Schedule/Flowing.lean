import LedgerScript.Proofs.Schedule.Queues

/-!
# What tasks do to the queues

Every operation lets the queues move in order, and sets at most one line apart: that of the lock, the semaphore or the
barrier which it is about.  A task is woken from a queue of a channel, or by a timer, only if it waits for no service.
-/

namespace LedgerScript

variable {V E B α : Type}

namespace Scheduler

variable {s s' : Scheduler V E B} {apart : WaitKey → Prop} {hand : Option TaskId} {t id me : TaskId} {m : ObjectId}
  {key : WaitKey}

/-! ## Who waits for no service -/

/-- A task that waits somewhere else waits for no service. -/
theorem Regular.aside (regular : s.Regular hand) (elsewhere : (s.view t).Live → s.parked.get? t = some key →
    key.isService = true → False) (here : s.parked.get? t = some key) (service : key.isService = true) : s.Killed t := by
  by_contra alive
  rw [Killed, Bool.not_eq_true] at alive
  exact elsewhere ⟨(isDone_view s t).trans (regular.unfinished here), alive⟩ here service

theorem Regular.aside_queued (regular : s.Regular hand) (queued : 0 < s.queued.count t) : s.Aside t := by
  refine fun key => regular.aside fun live here _ => ?_
  obtain ⟨-, -, parked, -⟩ := (regular.stands t).of_queued live queued
  exact absurd (parked.symm.trans here) nofun

theorem Regular.aside_alarm (regular : s.Regular hand) (armed : 0 < s.alarms t) : s.Aside t := by
  refine fun key => regular.aside fun live here service => ?_
  obtain ⟨-, key', parked, timer⟩ := (regular.stands t).of_alarms live armed
  have same : some key' = some key := parked.symm.trans here
  cases same
  cases key <;> simp_all [WaitKey.isTimer, WaitKey.isService]

/-- The task in turn waits for nothing. -/
theorem Regular.aside_hand (regular : s.Regular (some me)) : s.Aside me := by
  refine fun key => regular.aside fun live here _ => ?_
  obtain ⟨-, -, parked, -⟩ := regular.stands_hand.running live.2
  exact absurd (parked.symm.trans here) nofun

theorem Regular.pending_hand (regular : s.Regular (some me)) : s.Pending me := by
  cases done : s.isDone me with
  | false => exact .inl done
  | true => exact .inr (regular.stands_hand.hand rfl ((isDone_view s me).trans done))

/-- The task in turn is nowhere in the queues, unless it has been killed. -/
theorem Regular.free_hand (regular : s.Regular (some me)) : s.Killed me ∨ me ∉ s.ready ∧ s.parked.get? me = none := by
  by_cases killed : s.Killed me
  · exact .inl killed
  · rw [Killed, Bool.not_eq_true] at killed
    obtain ⟨-, ready, parked, -⟩ := regular.stands_hand.running killed
    exact .inr ⟨of_decide_eq_false ready, parked⟩

/-! ## Timers -/

theorem flows_ring (regular : s.Regular hand) {timer : Timer} {rest : List Timer} (first : s.timers = timer :: rest) :
    s.Flows apart (s.ring timer rest) := by
  unfold ring
  let s₁ : Scheduler V E B := { s with timers := rest, timerUses := (s.now, timer) :: s.timerUses }
  have quiet : s.Flows apart s₁ := flows_of_eq
  refine quiet.trans ?_
  cases action : timer.action with
  | wake t =>
    have aside : s.Aside t := regular.aside_alarm (by simp [alarms, first, action])
    exact s₁.flows_wake aside
  | expire t after =>
    have noted : s₁.Flows apart (s₁.modifyTask t fun t => { t with deadline := none }) :=
      s₁.flows_modifyTask_same t (fun _ => rfl) fun _ => rfl
    exact noted.trans (flows_kill _ t _)

theorem flows_fireDue (n : Nat) (regular : s.Regular hand) : s.Flows apart (s.fireDue n) := by
  induction n generalizing s with
  | zero => exact .refl apart s
  | succ n ih =>
    unfold fireDue
    split
    · rename_i timer rest first
      split
      · have evolution : s.Evolution none hand (s.ring timer rest) := s.evolves_ring first regular
        exact (flows_ring regular first).trans (ih (regular.evolve evolution))
      · exact .refl apart s
    · exact .refl apart s

theorem flows_advance? (regular : s.Regular hand) (later : s.advance? = some s') : s.Flows apart s' := by
  unfold advance? at later
  split at later
  · cases later
  · rename_i timer _ _
    cases later
    let s₁ : Scheduler V E B := { s with now := max s.now timer.due }
    have quiet : s.Flows apart s₁ := flows_of_eq
    have regular₁ : s₁.Regular hand :=
      ⟨⟨regular.tidy.queue, regular.tidy.parked_iff, regular.tidy.waiters_nodup, regular.tidy.waiters_ne_nil⟩, regular.stands⟩
    exact quiet.trans (flows_fireDue _ regular₁)

/-! ## New tasks -/

theorem flows_spawn (s : Scheduler V E B) (name : String) (body : B) : s.Flows apart (s.spawn name body).2 := by
  let k : Task V E B := { id := s.tasks.size + 1, name, body }
  let s₁ : Scheduler V E B := { s with tasks := s.tasks.push k }
  have tasks : ∀ t, s₁.task? t = if t = s.tasks.size + 1 then some k else s.task? t := s.task?_push k
  have unknown : s.task? (s.tasks.size + 1) = none := by simp [task?]
  have others : ∀ t, s.task? t ≠ none → s₁.task? t = s.task? t := by
    intro t known
    rw [tasks, if_neg]
    rintro rfl
    exact known unknown
  have pushed : s.Flows apart s₁ := by
    refine flows_of_same rfl rfl rfl rfl rfl rfl (fun t => ?_) fun t _ => ?_
    · rw [killed_iff, killed_iff]
      cases known : s.task? t with
      | none => exact fun dead => by cases dead
      | some k => rw [others t (by simp [known]), known]; exact fun dead => dead
    · unfold Pending isDone
      rw [killed_iff, killed_iff]
      cases known : s.task? t with
      | none => simp
      | some k => rw [others t (by simp [known]), known]; exact fun waits => waits
  have fresh : s₁.isDone (s.tasks.size + 1) = false := by
    rw [isDone, tasks, if_pos rfl]
    rfl
  have joined := pushed.trans (s₁.flows_enqueue (.inl fresh))
  unfold spawn
  dsimp only
  refine Flows.trans (joined.trans ?_) (flows_noteTask _ _ _ _)
  split
  · exact flows_setDeadline _ _ _
  · exact .refl apart _

/-! ## Locks and semaphores -/

/-- A task is woken that waits for no service. -/
theorem flows_passLock (s : Scheduler V E B) (m : ObjectId) (mine : apart (.lock m)) : s.Flows apart (s.passLock m).2 := by
  obtain ⟨popped, aside⟩ := s.flows_popWaiter (.lock m) fun _ => mine
  unfold passLock
  split
  · rename_i next s₁ eq
    rw [eq] at popped aside
    have aside₁ : (s₁.setHolder m (some next)).Aside next := by
      have aside := aside next rfl
      unfold Aside Killed view at aside ⊢
      rw [setHolder, modifyObject_eq]
      exact aside
    exact (popped.trans (flows_setHolder _ m _ mine)).trans (flows_wake _ aside₁)
  · rename_i s₁ eq
    rw [eq] at popped
    exact popped.trans (flows_setHolder _ m _ mine)

theorem flows_lockIsFree (s : Scheduler V E B) (m : ObjectId) (mine : apart (.lock m)) :
    s.Flows apart (s.lockIsFree m).2 := by
  unfold lockIsFree
  split
  · exact .refl _ s
  · split
    · exact s.flows_passLock m mine
    · exact .refl _ s
  · exact .refl _ s

theorem flows_tryLock (s : Scheduler V E B) (m : ObjectId) (mine : apart (.lock m)) : s.Flows apart (s.tryLock m).2 := by
  have checked := (s.flows_use (.byHand m)).trans (flows_lockIsFree _ m mine)
  unfold tryLock
  split
  · exact .refl _ s
  · split
    · rename_i s₁ eq
      rw [eq] at checked
      exact checked.trans (flows_setHolder _ m _ mine)
    · rename_i s₁ eq
      rw [eq] at checked
      exact checked

theorem flows_releaseLock (s : Scheduler V E B) (m : ObjectId) (mine : apart (.lock m)) : s.Flows apart (s.releaseLock m) :=
  (s.flows_use _).trans (flows_passLock _ m mine)

theorem flows_leaveBlock (s : Scheduler V E B) (m : ObjectId) (mine : apart (.lock m)) : s.Flows apart (s.leaveBlock m) :=
  (s.flows_use _).trans (flows_passLock _ m mine)

theorem flows_tryAcquire (s : Scheduler V E B) (id : ObjectId) (mine : apart (.permit id)) :
    s.Flows apart (s.tryAcquire id).2 := by
  unfold tryAcquire
  split
  · exact s.flows_setPermits id _ mine
  · exact .refl _ s

theorem flows_releasePermit (s : Scheduler V E B) (id : ObjectId) (mine : apart (.permit id)) :
    s.Flows apart (s.releasePermit id) := by
  obtain ⟨popped, aside⟩ := s.flows_popWaiter (.permit id) fun _ => mine
  unfold releasePermit
  split
  · rename_i next s₁ eq
    rw [eq] at popped aside
    exact popped.trans (flows_wake _ (aside next rfl))
  · rename_i s₁ eq
    rw [eq] at popped
    exact popped.trans (flows_setPermits _ id _ mine)

/-! ## Channels -/

theorem queued_of_channel (s : Scheduler V E B) {c : ObjectId} (here : t ∈ (s.channel c).queued) : 0 < s.queued.count t := by
  have moved := s.queued_channel c ⟨0, [], true, [], []⟩ t fun _ => rfl
  have counted := List.count_pos_iff.mpr here
  simp only [ChannelState.queued, List.map_nil, List.append_nil, List.count_nil] at moved counted
  omega

theorem Regular.aside_channel (regular : s.Regular hand) {c : ObjectId} (here : t ∈ (s.channel c).queued) : s.Aside t :=
  regular.aside_queued (s.queued_of_channel here)

theorem flows_popReceiver (regular : s.Regular hand) (c : ObjectId) :
    s.Flows (fun _ => False) (s.popReceiver c).2 ∧ ∀ t, (s.popReceiver c).1 = some t → (s.popReceiver c).2.Aside t := by
  unfold popReceiver
  dsimp only
  split
  · rename_i t rest eq
    have flows : s.Flows (fun _ => False) (s.setChannel c { s.channel c with receivers := rest }) := s.flows_setChannel c _
    refine ⟨flows, fun t' same => ?_⟩
    cases same
    refine flows.aside (regular.aside_channel (c := c) (List.mem_append_right _ ?_))
    exact (List.dropWhile_sublist _).subset (eq ▸ List.mem_cons_self)
  · exact ⟨s.flows_setChannel c _, nofun⟩

theorem flows_popSender (regular : s.Regular hand) (c : ObjectId) :
    s.Flows (fun _ => False) (s.popSender c).2 ∧ ∀ p, (s.popSender c).1 = some p → (s.popSender c).2.Aside p.1 := by
  unfold popSender
  dsimp only
  split
  · rename_i p rest eq
    have flows : s.Flows (fun _ => False) (s.setChannel c { s.channel c with senders := rest }) := s.flows_setChannel c _
    refine ⟨flows, fun p' same => ?_⟩
    cases same
    refine flows.aside (regular.aside_channel (c := c) (List.mem_append_left _ (List.mem_map_of_mem ?_)))
    exact (List.dropWhile_sublist _).subset (eq ▸ List.mem_cons_self)
  · exact ⟨s.flows_setChannel c _, nofun⟩

theorem flows_deliver (s : Scheduler V E B) (aside : s.Aside t) (v : Option V) (ok : Bool) :
    s.Flows (fun _ => False) (s.deliver t v ok) := by
  have noted : s.Flows (fun _ => False) (s.modifyTask t fun t => { t with received := (v, ok) }) :=
    s.flows_modifyTask_same t (fun _ => rfl) fun _ => rfl
  exact noted.trans (flows_wake _ (noted.aside aside))

theorem flows_takeReady (regular : s.Regular hand) (c : ObjectId) : s.Flows (fun _ => False) (s.takeReady c).2 := by
  unfold takeReady
  dsimp only
  split
  · rename_i v rest _
    have used : s.Evolution none hand (s.useChannel (.handed c none v)) := s.evolves_useChannel _ regular
    have regular₁ := regular.evolve used
    have taken : (s.useChannel (.handed c none v)).Evolution none hand
        ((s.useChannel (.handed c none v)).setChannel c { s.channel c with buffer := rest }) :=
      evolves_setChannel _ c rfl regular₁
    have first : s.Flows (fun _ => False)
        ((s.useChannel (.handed c none v)).setChannel c { s.channel c with buffer := rest }) :=
      (s.flows_useChannel _).trans (flows_setChannel _ c _)
    obtain ⟨popped, aside⟩ := flows_popSender (regular₁.evolve taken) c
    split
    · rename_i sender w s₁ eq
      rw [eq] at popped aside
      have kept : s₁.Flows (fun _ => False) ((s₁.useChannel (.admitted c sender)).setChannel c
          { (s₁.useChannel (.admitted c sender)).channel c with
            buffer := ((s₁.useChannel (.admitted c sender)).channel c).buffer ++ [w] }) :=
        (s₁.flows_useChannel _).trans (flows_setChannel _ c _)
      exact ((first.trans popped).trans kept).trans (flows_wake _ (kept.aside (aside _ rfl)))
    · rename_i s₁ eq
      rw [eq] at popped
      exact first.trans popped
  · obtain ⟨popped, aside⟩ := flows_popSender regular c
    split
    · rename_i sender w s₁ eq
      rw [eq] at popped aside
      have noted : s₁.Flows (fun _ => False) ((s₁.useChannel (.admitted c sender)).useChannel (.handed c none w)) :=
        (s₁.flows_useChannel _).trans (flows_useChannel _ _)
      exact (popped.trans noted).trans (flows_wake _ (noted.aside (aside _ rfl)))
    · rename_i s₁ eq
      rw [eq] at popped
      exact popped

/-- Tasks that wait for no service are dealt with one after another. -/
theorem flows_foldl {step : Scheduler V E B → α → Scheduler V E B} {who : α → TaskId}
    (one : ∀ (s : Scheduler V E B) a, s.Aside (who a) → s.Flows (fun _ => False) (step s a)) (as : List α) (s : Scheduler V E B)
    (aside : ∀ a ∈ as, s.Aside (who a)) : s.Flows (fun _ => False) (as.foldl step s) := by
  induction as generalizing s with
  | nil => exact .refl _ s
  | cons a as ih =>
    obtain ⟨here, rest⟩ := List.forall_mem_cons.mp aside
    have first := one s a here
    exact first.trans (ih _ fun a' mem => first.aside (rest a' mem))

theorem flows_refuseReceiver (s : Scheduler V E B) (t : TaskId) (aside : s.Aside t) :
    s.Flows (fun _ => False) (s.refuseReceiver t) := by
  unfold refuseReceiver
  split
  · exact .refl _ s
  · exact s.flows_deliver aside none false

theorem flows_refuseSender (s : Scheduler V E B) (p : TaskId × V) (aside : s.Aside p.1) :
    s.Flows (fun _ => False) (s.refuseSender p) := by
  have noted : s.Flows (fun _ => False) (s.modifyTask p.1 fun t => { t with sendRefused := true }) :=
    s.flows_modifyTask_same p.1 (fun _ => rfl) fun _ => rfl
  unfold refuseSender
  split
  · exact .refl _ s
  · exact noted.trans (flows_wake _ (noted.aside aside))

theorem flows_closeChannel (regular : s.Regular hand) (c : ObjectId) : s.Flows (fun _ => False) (s.closeChannel c) := by
  unfold closeChannel
  dsimp only
  split
  · exact .refl _ s
  · have closed : s.Evolution none hand ((s.useChannel (.closed c)).setChannel c { s.channel c with isClosed := true }) :=
      ((s.evolves_useChannel (.closed c)).trans
        (evolves_setChannel _ (c := { s.channel c with isClosed := true }) c rfl)) regular
    have first : s.Flows (fun _ => False) ((s.useChannel (.closed c)).setChannel c { s.channel c with isClosed := true }) :=
      (s.flows_useChannel _).trans (flows_setChannel _ c _)
    refine first.trans ?_
    have regular := regular.evolve closed
    generalize (s.useChannel (.closed c)).setChannel c { s.channel c with isClosed := true } = s₁ at regular
    unfold turnAway
    dsimp only
    have emptied : s₁.Flows (fun _ => False) (s₁.setChannel c { s₁.channel c with receivers := [], senders := [] }) :=
      s₁.flows_setChannel c _
    have receivers : ∀ t ∈ (s₁.channel c).receivers, s₁.Aside t := fun t mem =>
      regular.aside_channel (c := c) (List.mem_append_right _ mem)
    have senders : ∀ p ∈ (s₁.channel c).senders, s₁.Aside p.1 := fun p mem =>
      regular.aside_channel (c := c) (List.mem_append_left _ (List.mem_map_of_mem mem))
    have received := emptied.trans
      (flows_foldl flows_refuseReceiver (s₁.channel c).receivers _ fun t mem => emptied.aside (receivers t mem))
    exact received.trans
      (flows_foldl flows_refuseSender (s₁.channel c).senders _ fun p mem => received.aside (senders p mem))

end Scheduler

/-- The line of what an operation is about. -/
def TaskOp.about : TaskOp V E B α → WaitKey → Prop
  | tryLock m _ | unlock m _ => (· = .lock m)
  | tryAcquire m _ | release m _ => (· = .permit m)
  | _ => fun _ => False

/-- An operation that is over at once lets the queues move in order. -/
theorem TaskOp.flows {s : Scheduler V E B} {hand : Option TaskId} (op : TaskOp V E B α) (regular : s.Regular hand) :
    s.Flows op.about (op.run s).2 := by
  cases op with
  | read f => exact .refl _ s
  | note e => exact s.flows_note e
  | interrupt => exact Scheduler.flows_of_eq
  | spawn name body k => exact s.flows_spawn name body
  | cancel id => exact s.flows_kill id _
  | setDeadline id after => exact s.flows_setDeadline id after
  | newLock | newSemaphore | newChannel => exact s.flows_newObject trivial
  | newBarrier parties k => exact s.flows_newObject (show 0 < (max 1 parties).toNat by omega)
  | tryLock m k => exact s.flows_tryLock m rfl
  | unlock m => exact s.flows_releaseLock m rfl
  | tryAcquire m k => exact s.flows_tryAcquire m rfl
  | release m => exact s.flows_releasePermit m rfl
  | tryReceive c k => exact Scheduler.flows_takeReady regular c
  | close c => exact Scheduler.flows_closeChannel regular c

namespace Scheduler

variable {s s' : Scheduler V E B} {apart : WaitKey → Prop} {hand : Option TaskId} {t id me : TaskId} {m : ObjectId}
  {key : WaitKey}

/-! ## Waiting -/

theorem flows_addWaiter (s : Scheduler V E B) (id : TaskId) (free : key.isService = true → apart key) :
    s.Flows apart (s.addWaiter key id) := by
  refine { Flows.refl apart s with parked := fun t key' service mine here => ?_, lines := fun key' service mine => ?_ }
  · change (s.parked.set id key).get? t = some key' at here
    rw [FinMap.get?_set] at here
    split at here
    · cases here
      exact absurd (free service) mine
    · exact here
  · have same : (s.addWaiter key id).waitersOf key' = s.waitersOf key' := by
      rw [waitersOf, addWaiter, FinMap.get?_set, if_neg]
      · rfl
      · rintro rfl
        exact mine (free service)
    rw [same]
    exact ⟨.refl _, fun _ here gone => absurd here gone⟩

theorem flows_park (s : Scheduler V E B) (aside : s.Aside me) (free : key.isService = true → apart key)
    (reason : WaitReason) : s.Flows apart (s.park me (some key) reason) := by
  have registered : s.Flows apart (s.register me key) := by
    rw [register_eq]
    split
    · exact .refl apart s
    · exact (s.flows_unregister aside).trans (flows_addWaiter _ me free)
  exact registered.trans (flows_modifyTask _ me (fun _ dead => dead) fun _ _ _ _ => .inl rfl)

theorem flows_suspend (s : Scheduler V E B) (reason : WaitReason) : s.Flows apart (s.park me none reason) :=
  s.flows_modifyTask me (fun _ dead => dead) fun _ _ _ _ => .inl rfl

theorem flows_await (regular : s.Regular s.current) (target : TaskId) : s.Flows apart (s.await target).2 := by
  unfold await
  split
  · exact .refl apart s
  · rename_i me runs
    rw [runs] at regular
    split
    · exact .refl apart s
    · split
      · exact .refl apart s
      · exact s.flows_park regular.aside_hand nofun _

theorem flows_yield (regular : s.Regular s.current) : s.Flows apart s.yield.2 := by
  unfold yield
  split
  · exact .refl apart s
  · rename_i me runs
    rw [runs] at regular
    exact (s.flows_enqueue regular.pending_hand).trans (flows_modifyTask_same _ me (fun _ => rfl) fun _ => rfl)

theorem flows_sleep (regular : s.Regular s.current) (ns : Int) : s.Flows apart (s.sleep ns).2 := by
  unfold sleep
  split
  · exact .refl apart s
  · rename_i me runs
    rw [runs] at regular
    have parked : s.Flows apart (s.park me (some (.timer (s.lastTimer + 1))) .sleep) :=
      s.flows_park regular.aside_hand nofun _
    have armed : s.Flows apart ((s.park me (some (.timer (s.lastTimer + 1))) .sleep).armTimer (wholeMillis ns) (.wake me)).2 :=
      parked.trans flows_of_eq
    exact armed.trans (flows_modifyTask_same _ me (fun _ => rfl) fun _ => rfl)

theorem flows_takeLock (regular : s.Regular s.current) (m : ObjectId) (mine : apart (.lock m)) :
    s.Flows apart (s.takeLock m).2 := by
  have checked : s.Flows apart (s.lockIsFree m).2 := s.flows_lockIsFree m mine
  unfold takeLock
  split
  · rename_i me _ runs _
    rw [runs] at regular
    have evolution : s.Evolution (some m) (some me) (s.lockIsFree m).2 := s.evolves_lockIsFree m regular
    have regular₁ := regular.evolve evolution
    split
    · rename_i s₁ eq
      rw [eq] at checked
      exact checked.trans (flows_setHolder _ m _ mine)
    · rename_i s₁ eq
      rw [eq] at checked regular₁
      exact checked.trans (flows_park s₁ regular₁.aside_hand (fun _ => mine) _)
  · exact .refl _ s

theorem flows_acquireLock (regular : s.Regular s.current) (m : ObjectId) (mine : apart (.lock m)) :
    s.Flows apart (s.acquireLock m).2 := by
  have noted : (s.use (.byHand m)).Regular s.current := regular.use nofun
  exact (s.flows_use _).trans (flows_takeLock noted m mine)

theorem flows_acquirePermit (regular : s.Regular s.current) (id : ObjectId) (mine : apart (.permit id)) :
    s.Flows apart (s.acquirePermit id).2 := by
  have tried : s.Flows apart (s.tryAcquire id).2 := s.flows_tryAcquire id mine
  unfold acquirePermit
  split
  · exact .refl _ s
  · rename_i me runs
    rw [runs] at regular
    have evolution : s.Evolution none (some me) (s.tryAcquire id).2 := s.evolves_tryAcquire id regular
    have regular₁ := regular.evolve evolution
    split
    · rename_i s₁ eq
      rw [eq] at tried
      exact tried
    · rename_i s₁ eq
      rw [eq] at tried regular₁
      exact tried.trans (flows_park s₁ regular₁.aside_hand (fun _ => mine) _)

theorem flows_arrive (regular : s.Regular s.current) (id : ObjectId) (mine : apart (.barrier id)) :
    s.Flows apart (s.arrive id).2 := by
  unfold arrive
  split
  · exact .refl _ s
  · rename_i me runs
    rw [runs] at regular
    split
    · exact (s.flows_nextGeneration id mine).trans (flows_wakeAll _ _ fun _ => mine)
    · exact s.flows_park regular.aside_hand (fun _ => mine) _

theorem flows_deposit (s : Scheduler V E B) (c : ObjectId) (v : V) : s.Flows apart (s.deposit c v).2 := by
  unfold deposit
  dsimp only
  split
  · exact (s.flows_useChannel _).trans (flows_setChannel _ c _)
  · split
    · exact .refl apart s
    · rename_i me _
      have noted : s.Flows apart ((s.useChannel (.offered c me v)).modifyTask me fun t => { t with sendRefused := false }) :=
        (s.flows_useChannel _).trans (flows_modifyTask_same _ me (fun _ => rfl) fun _ => rfl)
      exact (noted.trans (flows_setChannel _ c _)).trans (flows_suspend _ _)

theorem flows_send (regular : s.Regular hand) (c : ObjectId) (v : V) : s.Flows (fun _ => False) (s.send c v).2 := by
  obtain ⟨popped, aside⟩ := flows_popReceiver regular c
  unfold send
  split
  · exact .refl _ s
  · split
    · rename_i receiver s₁ eq
      rw [eq] at popped aside
      have noted : s₁.Flows (fun _ => False) ((s₁.useChannel (.sent c v)).useChannel (.handed c (some receiver) v)) :=
        (s₁.flows_useChannel _).trans (flows_useChannel _ _)
      exact (popped.trans noted).trans (flows_deliver _ (noted.aside (aside _ rfl)) (some v) true)
    · rename_i s₁ eq
      rw [eq] at popped
      exact popped.trans (s₁.flows_deposit c v)

theorem flows_noteReceived (s : Scheduler V E B) (c : ObjectId) (receiver : TaskId) (r : Received V) :
    s.Flows apart (s.noteReceived c receiver r) := by
  unfold noteReceived
  split
  · exact s.flows_useChannel _
  · split
    · exact s.flows_useChannel _
    · exact .refl apart s

theorem flows_awaitValue (s : Scheduler V E B) (c : ObjectId) : s.Flows apart (s.awaitValue c).2 := by
  unfold awaitValue
  dsimp only
  split
  · exact s.flows_noteReceived c (s.current.getD 0) (none, false)
  · split
    · exact .refl apart s
    · rename_i me _
      have noted : s.Flows apart (s.modifyTask me fun t => { t with received := (none, false) }) :=
        s.flows_modifyTask_same me (fun _ => rfl) fun _ => rfl
      exact (noted.trans (flows_setChannel _ c _)).trans (flows_suspend _ _)

theorem flows_receive (regular : s.Regular hand) (c : ObjectId) : s.Flows (fun _ => False) (s.receive c).2 := by
  have taken := flows_takeReady regular c
  unfold receive
  split
  · rename_i v s₁ eq
    rw [eq] at taken
    exact taken
  · rename_i s₁ eq
    rw [eq] at taken
    exact taken.trans (s₁.flows_awaitValue c)

theorem flows_notePark (s : Scheduler V E B) : s.Flows apart s.notePark :=
  s.flows_noteTask _ _ _

theorem flows_setRunning (s : Scheduler V E B) (id : TaskId) : s.Flows apart (s.setRunning id) :=
  s.flows_modifyTask id (fun _ dead => dead) fun _ _ _ _ => .inl rfl

end Scheduler

/-- The line of what an operation is about that may suspend. -/
def WaitOp.about : WaitOp V → WaitKey → Prop
  | lock m => (· = .lock m)
  | permit m => (· = .permit m)
  | barrier b => (· = .barrier b)
  | _ => fun _ => False

/-- An operation that may suspend lets the queues move in order, whether it is done at once or not. -/
theorem WaitOp.flows {s : Scheduler V E B} (op : WaitOp V) (regular : s.Regular s.current) :
    s.Flows op.about (op.start s).2 := by
  cases op with
  | await target => exact Scheduler.flows_await regular target
  | yield => exact Scheduler.flows_yield regular
  | sleep ns => exact Scheduler.flows_sleep regular ns
  | lock m => exact Scheduler.flows_acquireLock regular m rfl
  | permit m => exact Scheduler.flows_acquirePermit regular m rfl
  | barrier b => exact Scheduler.flows_arrive regular b rfl
  | send c v => exact Scheduler.flows_send regular c v
  | receive c => exact Scheduler.flows_receive regular c

theorem WaitOp.flows_finish (op : WaitOp V) (s : Scheduler V E B) : s.Flows (fun _ => False) (op.finish s).2 := by
  cases op with
  | sleep ns =>
    show s.Flows _ s.awoken
    unfold Scheduler.awoken
    split
    · exact .refl _ s
    · exact s.flows_modifyTask_same _ (fun _ => rfl) fun _ => rfl
  | send c v =>
    show s.Flows _ s.sendResult.2
    unfold Scheduler.sendResult
    split
    · exact .refl _ s
    · exact s.flows_modifyTask_same _ (fun _ => rfl) fun _ => rfl
  | receive c =>
    show s.Flows _ (s.receiveResult c).2
    unfold Scheduler.receiveResult
    split
    · exact .refl _ s
    · exact (s.flows_noteReceived c _ _).trans (Scheduler.flows_modifyTask_same _ _ (fun _ => rfl) fun _ => rfl)
  | await | yield | lock | permit | barrier => exact .refl _ s

end LedgerScript
