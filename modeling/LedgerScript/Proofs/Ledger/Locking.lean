import LedgerScript.Proofs.Ledger.LockOrder

/-!
# Transactions take locks in order

What the task in turn does with its working set keeps the order of locks: it begins a transaction, asks for a lock and
waits for it, holds an address, tries to hold another one, and at the end gives everything back.  For each operation of the
ledger it is said how far the task comes by it.

Locks go by what the scheduler says and addresses by what the ledger says, and the two need not agree.  A task may get a
lock whose address a killed task still holds; then it gives the lock back, to somebody who has waited.  And a task may give
back a lock that it has lost.  In either case the lock is not its own afterwards, and that is what the order asks for.
-/

open Function (update)

namespace LedgerScript

open Address (Before)

variable {V E B α : Type}

/-! ## The task in turn -/

/-- A task that has come so far is in turn, and locks are in order. -/
structure AtWork (me : TaskId) (s : Scheduler V E B) (l : Ledger) (progress : TaskId → Progress) (p : Progress) : Prop where
  regular : s.Regular (some me)
  current : s.current = some me
  order : LockOrder s l (update progress me p)

namespace AtWork

variable {s s' : Scheduler V E B} {l l' : Ledger} {progress : TaskId → Progress} {me : TaskId} {p q : Progress}
  {w : WorkingId} {m : ObjectId} {a : Address} {todo : Option (List Address)} {rest : List Address}

/-- The task in turn waits for nothing, unless it has been killed. -/
theorem killed (work : AtWork me s l progress p) {key : WaitKey} (waits : s.parked.get? me = some key) :
    (s.view me).killed = true := by
  by_contra alive
  have free : s.parked.get? me = none := (work.regular.running (Bool.not_eq_true _ ▸ alive)).2.2.1
  cases free.symm.trans waits

theorem known (work : AtWork me s l progress p) : s.Known me := by
  obtain ⟨k, here⟩ := work.regular.task?_hand
  simp [Scheduler.Known, Scheduler.view, here]

theorem handover (work : AtWork me s l progress p) {exempt : Option ObjectId}
    (evolution : s.Evolution exempt (some me) s') (handover : s.Handover l.IsLocking s') : AtWork me s' l progress p :=
  ⟨work.regular.evolve evolution, evolution.current.trans work.current, work.order.handover handover⟩

theorem ledger (work : AtWork me s l progress p) (same : l.SameLocks l') : AtWork me s l' progress p :=
  { work with order := work.order.ledger same }

theorem note (work : AtWork me s l progress p) (e : RunEvent) : AtWork me (s.note e) l progress p := by
  have evolution : Scheduler.Evolution none (some me) s (s.note e) := s.evolves_note e work.regular
  exact work.handover evolution (.of_views rfl fun _ => ⟨rfl, rfl, id⟩)

/-- The task in turn comes further, and its working set may change. -/
theorem advance (work : AtWork me s l progress p) (locks : l'.locks = l.locks) (size : l.workings.size ≤ l'.workings.size)
    (held : ∀ w, p.working? ≠ some w → (l'.working w).held = (l.working w).held)
    (holders : ∀ a w, p.working? ≠ some w → (a, w) ∈ l'.holders → (a, w) ∈ l.holders)
    (oneHolder : Ledger.OneHolder l'.holders)
    (mine : ∀ a w, p.working? = some w → (a, w) ∈ l'.holders → a ∈ (l'.working w).held.map (·.1)) (fits : q.Fits l')
    (works : ∀ w, q.working? = some w → p.working? = some w ∨ l.workings.size ≤ w)
    (claimed : ∀ a m, (a, m) ∈ l.locks → s.lockHolder m = some me →
      (s.view me).killed = true ∨ q.Claims l' (s.parked.get? me) a m) :
    AtWork me s l' progress q := by
  obtain ⟨regular, current, order⟩ := id work
  have others {t : TaskId} (other : t ≠ me) : update progress me p t = progress t := Function.update_of_ne other ..
  -- the working sets of other tasks are other ones
  have apart {t : TaskId} {w : WorkingId} (other : t ≠ me) (its : (progress t).working? = some w) :
      p.working? ≠ some w := by
    intro mine
    refine other (order.apart t me w (others other ▸ its) ?_)
    rwa [Function.update_self]
  have bound {t : TaskId} {w : WorkingId} (other : t ≠ me) (its : (progress t).working? = some w) :
      w < l.workings.size :=
    (order.fits t).bound w (others other ▸ its)
  have busy {t : TaskId} {w : WorkingId} (other : t ≠ me) (its : (progress t).working? = some w) :
      q.working? ≠ some w := by
    intro mine
    rcases works w mine with before | new
    · exact apart other its before
    · exact Nat.not_lt.mpr new (bound other its)
  refine ⟨regular, current, fun n locking => order.isLock n ?_, ?_, ?_, oneHolder, fun b v mem => ?_, fun t => ?_,
    fun t active => ?_, fun t u v its its' => ?_, order.place, fun t b n locking holds => ?_, fun t b n locking waits => ?_⟩
  · rwa [Ledger.IsLocking, locks] at locking
  · rw [locks]
    exact order.oneLock
  · rw [locks]
    exact order.oneAddress
  · by_cases its : p.working? = some v
    · exact mine b v its mem
    · rw [held v its]
      exact order.holders b v (holders b v its mem)
  · by_cases same : t = me
    · rw [same, Function.update_self]
      exact fits
    · have before := order.fits t
      rw [others same] at before
      rw [Function.update_of_ne same]
      refine ⟨fun v its => Nat.lt_of_lt_of_le (before.bound v its) size, fun rest ahead => ?_, fun v n b rest here => ?_⟩
      · rw [Progress.held_congr fun v its => held v (apart same its)]
        exact before.ascends rest ahead
      · obtain ⟨locking, free⟩ := before.asked v n b rest here
        have its : (progress t).working? = some v := by
          rw [here]
          rfl
        exact ⟨locks ▸ locking, fun mem => free (holders b v (apart same its) mem)⟩
  · by_cases same : t = me
    · exact same ▸ work.known
    · rw [Function.update_of_ne same] at active
      exact order.known t (others same ▸ active)
  · by_cases same : t = me <;> by_cases same' : u = me
    · exact same.trans same'.symm
    · rw [same, Function.update_self] at its
      rw [Function.update_of_ne same'] at its'
      exact absurd its (busy same' its')
    · rw [same', Function.update_self] at its'
      rw [Function.update_of_ne same] at its
      exact absurd its' (busy same its)
    · rw [Function.update_of_ne same] at its
      rw [Function.update_of_ne same'] at its'
      exact order.apart t u v (others same ▸ its) (others same' ▸ its')
  · rw [locks] at locking
    by_cases same : t = me
    · subst same
      rw [Function.update_self]
      exact claimed b n locking holds
    · have before := order.claimed t b n locking holds
      rw [others same] at before
      rw [Function.update_of_ne same]
      exact before.imp_right fun claims => claims.same fun v its => held v (apart same its)
  · by_cases same : t = me
    · exact .inl (same ▸ work.killed (same ▸ waits))
    · rw [locks] at locking
      rw [Function.update_of_ne same, ← others same]
      exact order.queued t b n locking waits

/-- The task in turn comes further, and nothing else happens. -/
theorem turn (work : AtWork me s l progress p) (fits : q.Fits l) (works : ∀ w, q.working? = some w → p.working? = some w)
    (claimed : ∀ a m, (a, m) ∈ l.locks → s.lockHolder m = some me →
      (s.view me).killed = true ∨ q.Claims l (s.parked.get? me) a m) :
    AtWork me s l progress q :=
  work.advance rfl (Nat.le_refl _) (fun _ _ => rfl) (fun _ _ _ => id) work.order.oneHolder
    (fun a w _ => work.order.holders a w) fits (fun w its => .inl (works w its)) claimed

/-- What the task in turn knows about the ledger. -/
theorem fits (work : AtWork me s l progress p) : p.Fits l := by
  have fits := work.order.fits me
  rwa [Function.update_self] at fits

theorem claimed (work : AtWork me s l progress p) {a : Address} {m : ObjectId} (locking : (a, m) ∈ l.locks)
    (holds : s.lockHolder m = some me) : (s.view me).killed = true ∨ p.Claims l (s.parked.get? me) a m := by
  have claimed := work.order.claimed me a m locking holds
  rwa [Function.update_self] at claimed

/-- The task in turn waits for no further lock. -/
theorem settle (work : AtWork me s l progress (.holding w todo)) : AtWork me s l progress (.holding w none) := by
  refine work.turn ⟨work.fits.bound, nofun, nofun⟩ (fun _ => id) fun a m locking holds => ?_
  refine (work.claimed locking holds).imp_right fun claims => ?_
  cases claims with
  | held mine => exact .held mine

/-- The task in turn has been killed, and waits for no further lock. -/
theorem giveUp (work : AtWork me s l progress (.reaching w m a todo)) (killed : (s.view me).killed = true) :
    AtWork me s l progress (.holding w none) :=
  work.turn ⟨work.fits.bound, nofun, nofun⟩ (fun _ => id) fun _ _ _ _ => .inl killed

/-- A transaction gets a working set. -/
theorem begin (work : AtWork me s l progress .idle) (tx : Transaction) (isView : Bool) :
    AtWork me s { l with workings := l.workings.push { tx, isView } }
      progress (.holding l.workings.size (some (LedgerM.lockOrder tx))) := by
  have workings (w : WorkingId) : ((Ledger.working { l with workings := l.workings.push { tx, isView } } w)).held =
      (l.working w).held := by
    unfold Ledger.working
    rw [Array.getElem?_push]
    split
    · rename_i new
      simp [new, default, instInhabitedWorking.default]
    · rfl
  have empty : (l.working l.workings.size).held = [] := by simp [Ledger.working]; rfl
  refine work.advance rfl (by simp) (fun w _ => workings w) (fun _ _ _ => id) work.order.oneHolder (fun a w works => ?_) ?_ ?_
    ?_
  · cases works
  · refine ⟨fun w works => ?_, fun todo ahead => ?_, fun w m a todo here => ?_⟩
    · cases works
      simp
    · cases ahead
      rw [Progress.held, workings, empty]
      exact LedgerM.ascends_lockOrder tx
    · cases here
  · intro w works
    cases works
    exact .inr (Nat.le_refl _)
  · intro a m locking holds
    refine (work.claimed locking holds).imp_right fun claims => ?_
    cases claims with
    | held mine => cases mine

/-- The task in turn asks for the lock of an address. -/
theorem ask (work : AtWork me s l progress (.holding w todo)) {todo' : Option (List Address)}
    (next : ∀ rest, todo' = some rest → todo = some (a :: rest)) (locking : (a, m) ∈ l.locks) (free : (a, w) ∉ l.holders) :
    AtWork me s l progress (.reaching w m a todo') := by
  refine work.turn ⟨work.fits.bound, fun rest ahead => ?_, fun v n b rest here => ?_⟩ (fun _ => id)
    fun b n locking holds => ?_
  · obtain ⟨rest, here, rfl⟩ := Option.map_eq_some_iff.mp ahead
    exact work.fits.ascends _ (next rest here)
  · cases here
    exact ⟨locking, free⟩
  · refine (work.claimed locking holds).imp_right fun claims => ?_
    cases claims with
    | held mine => exact .held mine

/-- The task in turn gives a lock back, and does not have it then. -/
theorem release (work : AtWork me s l progress p) (m : ObjectId) : AtWork me (s.releaseLock m) l progress p ∧
    ((s.releaseLock m).lockHolder m = some me → ((s.releaseLock m).view me).killed = true) := by
  have evolution : Scheduler.Evolution none (some me) s (s.releaseLock m) := s.evolves_releaseLock m work.regular
  have handover : s.Handover l.IsLocking (s.releaseLock m) := work.regular.handover_releaseLock m
  refine ⟨work.handover evolution handover, fun holds => ?_⟩
  have used : (s.use (.byHand m)).Regular (some me) := work.regular.use nofun
  have waited : s.parked.get? me = some (.lock m) := used.waited_of_passLock holds
  exact handover.killed me (work.killed waited)

/-- The task in turn takes a lock if it can be taken. -/
theorem tryLock (work : AtWork me s l progress (.holding w none)) (locking : (a, m) ∈ l.locks) (free : (a, w) ∉ l.holders) :
    AtWork me (s.tryLock m).2 l progress (if (s.tryLock m).1 then .reaching w m a none else .holding w none) := by
  have evolution := (TaskOp.tryLock (V := V) (E := E) (B := B) m id).evolves s work.regular
  obtain ⟨s₁, handover, regular, current, taken | refused⟩ := work.regular.handover_tryLock work.current m
  · have ready : AtWork me s₁ l progress (.holding w none) := ⟨regular, current, work.order.handover handover⟩
    have asked : AtWork me s₁ l progress (.reaching w m a none) := ready.ask nofun locking free
    refine ⟨work.regular.evolve evolution, evolution.current.trans work.current, ?_⟩
    rw [taken]
    exact asked.order.setHolder asked.killed
  · rw [refused]
    exact ⟨regular, current, work.order.handover handover⟩

/-- The task in turn takes the next lock or waits for it. -/
theorem acquireLock (work : AtWork me s l progress (.holding w (some (a :: rest)))) (locking : (a, m) ∈ l.locks)
    (free : (a, w) ∉ l.holders) : ((s.acquireLock m).1 = .done none ∨ (s.acquireLock m).1 = .parked) ∧
      LockOrder (s.acquireLock m).2 l (update progress me (.reaching w m a (some rest))) := by
  obtain ⟨s₁, handover, regular, current, attempted⟩ :=
    work.regular.handover_acquireLock work.current (work.order.isLock m ⟨a, locking⟩)
  have ready : AtWork me s₁ l progress (.holding w (some (a :: rest))) := ⟨regular, current, work.order.handover handover⟩
  have asked : AtWork me s₁ l progress (.reaching w m a (some rest)) := ready.ask (fun rest same => by cases same; rfl) locking free
  obtain taken | parked := attempted
  · rw [taken]
    exact ⟨.inl rfl, asked.order.setHolder asked.killed⟩
  · rw [parked]
    refine ⟨.inr rfl, asked.order.park regular fun holds => ?_⟩
    -- what the task holds comes before the address
    obtain killed | claims := ready.claimed locking holds
    · exact killed
    · cases claims with
      | held mine => exact absurd ((ready.fits.ascends _ rfl).above _ mine a List.mem_cons_self) (Before.irrefl a)

/-- The task in turn takes the next lock at once. -/
theorem attempt (work : AtWork me s l progress (.holding w (some (a :: rest)))) (locking : (a, m) ∈ l.locks)
    (free : (a, w) ∉ l.holders) {r : Woken V} (done : (WaitOp.lock m).start s = (.done r, s')) :
    r.fault = none ∧ AtWork me s' l progress (.reaching w m a (some rest)) := by
  obtain ⟨either, order⟩ := work.acquireLock locking free
  obtain ⟨exempt, tries⟩ := (Pause.amid (.lock m)).tries s
  have evolution := tries.done work.regular work.current done
  rcases attempted : s.acquireLock m with ⟨a', u⟩
  have started : (WaitOp.lock m).start s = (a'.woken, u) := congrArg (Prod.map Attempt.woken id) attempted
  rw [attempted] at either order
  obtain rfl | rfl := either
  · cases started.symm.trans done
    exact ⟨rfl, work.regular.evolve evolution, evolution.current.trans work.current, order⟩
  · cases started.symm.trans done

/-- The task in turn does not get the next lock, and waits for it unless it has been killed. -/
theorem parked (work : AtWork me s l progress (.holding w (some (a :: rest)))) (locking : (a, m) ∈ l.locks)
    (free : (a, w) ∉ l.holders) (parked : (WaitOp.lock m).start s = (.parked, s')) :
    LockOrder s' l (update progress me (.reaching w m a (some rest))) ∧
      (s'.currentKilled = true → AtWork me s' l progress (.holding w none)) := by
  obtain ⟨-, order⟩ := work.acquireLock locking free
  obtain ⟨exempt, tries⟩ := (Pause.amid (.lock m)).tries s
  have parking := tries.parked work.regular work.current parked
  have same : (s.acquireLock m).2 = s' := congrArg Prod.snd parked
  rw [same] at order
  refine ⟨order, fun killed => ?_⟩
  have current := parking.current.trans work.current
  rw [Scheduler.currentKilled_eq current] at killed
  exact AtWork.giveUp ⟨parking.stays work.regular killed, current, order⟩ killed

/-- The task in turn holds an address that nobody holds and that it has asked for. -/
theorem hold (work : AtWork me s l progress (.reaching w m a todo)) (free : a ∉ l.holders.map (·.1)) :
    AtWork me s (Ledger.modifyWorking { l with holders := (a, w) :: l.holders } w
      fun k => { k with held := (a, true) :: k.held }) progress (.holding w todo) := by
  have bound : w < l.workings.size := work.fits.bound w rfl
  have held : (Ledger.working (Ledger.modifyWorking { l with holders := (a, w) :: l.holders } w
      fun k => { k with held := (a, true) :: k.held }) w).held = (a, true) :: (l.working w).held := by
    rw [Ledger.working_modifyWorking (l := { l with holders := (a, w) :: l.holders }) bound]
    rfl
  refine work.advance rfl (Nat.le_of_eq (Ledger.size_modifyWorking ..).symm) (fun v other => ?_) (fun b v other mem => ?_) ?_
    (fun b v its mem => ?_) ⟨fun v its => ?_, fun rest ahead => ?_, nofun⟩ (fun v => .inl) fun b n locking holds => ?_
  · rw [Ledger.working_modifyWorking_ne fun same => other (congrArg some same)]
    rfl
  · refine (List.mem_cons.mp mem).resolve_left fun same => other ?_
    cases same
    rfl
  · exact List.nodup_cons.mpr ⟨free, work.order.oneHolder⟩
  · cases its
    rw [held]
    rcases List.mem_cons.mp mem with same | mem
    · cases same
      exact List.mem_cons_self
    · exact List.mem_cons_of_mem _ (work.order.holders b w mem)
  · cases its
    exact Nat.lt_of_lt_of_eq bound (Ledger.size_modifyWorking ..).symm
  · cases ahead
    have before := work.fits.ascends (a :: rest) rfl
    obtain ⟨first, sorted⟩ := List.pairwise_cons.mp before.sorted
    refine ⟨sorted, fun h mem b later => ?_⟩
    rw [Progress.held, held] at mem
    rcases List.mem_cons.mp mem with rfl | mem
    · exact first b later
    · exact before.above h mem b (List.mem_cons_of_mem _ later)
  · refine (work.claimed locking holds).imp_right fun claims => .held ?_
    rw [Progress.held, held]
    cases claims with
    | held mine => exact List.mem_cons_of_mem _ mine
    | asked woken => exact List.mem_cons_self

/-- An address that a working set holds is found to be its own. -/
theorem holder?_eq (work : AtWork me s l progress p) (mine : (a, w) ∈ l.holders) : l.holder? a = some w := by
  rw [Ledger.holder?, work.order.oneHolder.find mine]
  rfl

/-- The task in turn has asked for a lock and does not hold the address. -/
theorem forgo (work : AtWork me s l progress (.reaching w m a todo))
    (without : s.lockHolder m = some me → (s.view me).killed = true) : AtWork me s l progress (.holding w todo) := by
  have locking := (work.fits.asked w m a todo rfl).1
  refine work.turn ⟨work.fits.bound, fun rest ahead => ?_, nofun⟩ (fun _ => id) fun b n locking' holds => ?_
  · cases ahead
    have before := work.fits.ascends (a :: rest) rfl
    exact ⟨before.sorted.of_cons, fun h mem b later => before.above h mem b (List.mem_cons_of_mem _ later)⟩
  · rcases work.claimed locking' holds with killed | claims
    · exact .inl killed
    · cases claims with
      | held mine => exact .inr (.held mine)
      | asked woken =>
        -- it has not been handed over to this task after all
        exact .inl (without holds)

theorem letGo (work : AtWork me s l progress p) (fewer : Address × WorkingId → Bool) :
    AtWork me s { l with holders := l.holders.filter fewer } progress p :=
  work.advance rfl (Nat.le_refl _) (fun _ _ => rfl) (fun _ _ _ mem => (List.mem_filter.mp mem).1)
    (work.order.oneHolder.filter _) (fun a w _ mem => work.order.holders a w (List.mem_filter.mp mem).1)
    ⟨work.fits.bound, work.fits.ascends, fun w m a todo here =>
      (work.fits.asked w m a todo here).imp_right fun free mem => free (List.mem_filter.mp mem).1⟩
    (fun _ => .inl) fun _ _ locking holds => (work.claimed locking holds).imp_right fun claims => claims.same fun _ _ => rfl

end AtWork

/-! ## Operations of the ledger -/

namespace LedgerM

variable {s t : LedgerState V E B} {progress : TaskId → Progress} {me : TaskId} {w : WorkingId} {a : Address}
  {m : ObjectId} {todo : Option (List Address)}
variable {r : Except LedgerFault Unit}

/-- The lock of an address is made when it is first asked for. -/
theorem lockOf_order (work : AtWork me s.sched s.ledger progress p) {r : Except LedgerFault ObjectId}
    (h : exec (lockOf a) s = (r, t)) :
    AtWork me t.sched t.ledger progress p ∧ ∃ m, r = .ok m ∧ (a, m) ∈ t.ledger.locks := by
  unfold lockOf at h
  simp only [exec_bind, exec_ledger] at h
  split at h
  · rename_i b m found
    cases h
    have here : b = a := by simpa using List.find?_some found
    exact ⟨work, m, rfl, here ▸ List.mem_of_find?_eq_some found⟩
  · rename_i missing
    simp only [exec_bind, exec_get, exec_set, exec_pure] at h
    cases h
    have new (m : ObjectId) : (a, m) ∉ s.ledger.locks := fun mem =>
      absurd (beq_self_eq_true a) (List.find?_eq_none.mp missing (a, m) mem)
    have evolution : Scheduler.Evolution none (some me) s.sched s.sched.newLock.2 :=
      s.sched.evolves_newObject rfl rfl work.regular
    exact ⟨⟨work.regular.evolve evolution, evolution.current.trans work.current, work.order.newLock work.regular new⟩,
      s.sched.newLock.1, rfl, List.mem_cons_self⟩

/-- The lock that has to be taken before an address can be held. -/
theorem lockNeeded_order (work : AtWork me s.sched s.ledger progress p) {r : Except LedgerFault (Option ObjectId)}
    (h : exec (lockNeeded w a) s = (r, t)) :
    AtWork me t.sched t.ledger progress p ∧
      (r = .ok none ∧ t.ledger.holder? a = some w ∨
        ∃ m, r = .ok (some m) ∧ (a, m) ∈ t.ledger.locks ∧ t.ledger.holder? a ≠ some w) := by
  unfold lockNeeded at h
  simp only [exec_bind, exec_holder?] at h
  split at h
  · rename_i mine
    cases h
    exact ⟨work, .inl ⟨rfl, eq_of_beq mine⟩⟩
  · rename_i other
    simp only [exec_bind, exec_inTask, work.current, Option.isSome_some, if_true] at h
    rcases made : exec (lockOf a) s with ⟨r', u⟩
    obtain ⟨work', m, rfl, locking⟩ := lockOf_order work made
    obtain ⟨-, locks, same, -⟩ := exec_lockOf made
    rw [made] at h
    cases h
    refine ⟨work', .inr ⟨m, rfl, locking, fun mine => other (beq_iff_eq.mpr ?_)⟩⟩
    rwa [same] at mine

/-- An address is held once its lock has come, unless somebody else holds it. -/
theorem hold_order (work : AtWork me s.sched s.ledger progress (.reaching w m a todo)) (h : exec (hold w a (some m)) s = (r, t)) :
    AtWork me t.sched t.ledger progress (.holding w todo) := by
  have free : s.ledger.holder? a ≠ some w := fun mine =>
    (work.fits.asked w m a todo rfl).2 (Ledger.mem_holders_of_holder? mine)
  unfold hold at h
  simp only [exec_bind, exec_holder?] at h
  split at h
  · rename_i other held
    have other : ¬ (other == w) = true := fun same => free (held.trans (congrArg some (eq_of_beq same)))
    rw [if_neg other] at h
    cases h
    obtain ⟨released, without⟩ := work.release m
    exact released.forgo without
  · rename_i nobody
    cases h
    exact work.hold (Ledger.not_mem_of_holder?_eq_none nobody)

/-- An address that is already held is left as it is. -/
theorem hold_held {lock? : Option ObjectId} (mine : s.ledger.holder? a = some w) : exec (hold w a lock?) s = (.ok (), s) := by
  unfold hold
  rw [exec_bind, exec_holder?]
  simp [mine]

/-- An address is held if nobody else is at it. -/
theorem tryHold_order (work : AtWork me s.sched s.ledger progress (.holding w none)) (h : exec (tryHold w a) s = (r, t)) :
    AtWork me t.sched t.ledger progress (.holding w none) := by
  unfold tryHold at h
  rcases needed : exec (lockNeeded w a) s with ⟨r', u⟩
  rw [exec_bind, needed] at h
  obtain ⟨work, ⟨rfl, mine⟩ | ⟨m, rfl, locking, free⟩⟩ := lockNeeded_order work needed
  · simp only [hold_held mine] at h
    cases h
    exact work
  · have tried := work.tryLock locking fun mine => free (work.holder?_eq mine)
    simp only [exec_bind, exec_get, exec_set] at h
    cases taken : (u.sched.tryLock m).1 with
    | true =>
      rw [taken] at h tried
      exact hold_order (s := { u with sched := (u.sched.tryLock m).2 }) tried h
    | false =>
      rw [taken] at h tried
      cases h
      exact tried

/-- An address that a working set holds becomes free, and so does its lock if it was taken. -/
theorem letGo_order {flag : Bool} {left : List (Address × Bool)}
    (work : AtWork me s.sched s.ledger progress (.leaving w ((a, flag) :: left))) (h : exec (letGo w (a, flag)) s = (r, t)) :
    AtWork me t.sched t.ledger progress (.leaving w left) := by
  -- the address goes before its lock
  have giveBack {s : LedgerState V E B}
      (work : AtWork me s.sched s.ledger progress (.leaving w ((a, flag) :: left)))
      (h : exec (do
        if flag then
          let lock ← lockOf a
          modifySched (·.releaseLock lock) : LedgerM V E B Unit) s = (r, t)) :
      AtWork me t.sched t.ledger progress (.leaving w left) := by
    cases flag with
    | false =>
      cases h
      refine work.turn ⟨work.fits.bound, nofun, nofun⟩ (fun _ => id) fun b n locking holds => ?_
      refine (work.claimed locking holds).imp_right fun claims => ?_
      cases claims with
      | held mine => exact .held ((List.mem_cons.mp mine).resolve_left fun same => by cases same)
    | true =>
      rcases made : exec (lockOf a) s with ⟨r', u⟩
      obtain ⟨work, m, rfl, locking⟩ := lockOf_order work made
      simp only [if_true, exec_bind, made] at h
      cases h
      obtain ⟨released, without⟩ := work.release m
      refine released.turn ⟨released.fits.bound, nofun, nofun⟩ (fun _ => id) fun b n locking' holds => ?_
      rcases released.claimed locking' holds with killed | claims
      · exact .inl killed
      · cases claims with
        | held mine =>
          rcases List.mem_cons.mp mine with same | mine
          · cases same
            exact .inl (without (released.order.oneLock a n m locking' locking ▸ holds))
          · exact .inr (.held mine)
  unfold letGo at h
  rw [exec_bind, exec_holder?] at h
  simp only at h
  split at h
  · rw [exec_bind, exec_modifyLedger] at h
    exact giveBack (work.letGo _) h
  · exact giveBack work h

theorem forM_letGo_order (left : List (Address × Bool)) {s : LedgerState V E B}
    (work : AtWork me s.sched s.ledger progress (.leaving w left)) (h : exec (left.forM (letGo w)) s = (r, t)) :
    AtWork me t.sched t.ledger progress (.leaving w []) := by
  induction left generalizing s with
  | nil =>
    cases h
    exact work
  | cons first left ih =>
    rcases gone : exec (letGo w first) s with ⟨r', u⟩
    obtain ⟨sched, locks, done⟩ := exec_letGo w first s
    cases done.symm.trans gone
    have h : exec (letGo w first >>= fun _ => left.forM (letGo w)) s = (r, t) := h
    rw [exec_bind, gone] at h
    exact ih (letGo_order work gone) h

/-- All addresses that a working set holds become free, and the task is done with it. -/
theorem release_order (work : AtWork me s.sched s.ledger progress (.holding w todo)) (h : exec (release w) s = (r, t)) :
    r = .ok () ∧ AtWork me t.sched t.ledger progress .idle := by
  have leaving : AtWork me s.sched s.ledger progress (.leaving w (s.ledger.working w).held) := by
    refine work.turn ⟨work.fits.bound, nofun, nofun⟩ (fun _ => id) fun a m locking holds => ?_
    refine (work.claimed locking holds).imp_right fun claims => ?_
    cases claims with
    | held mine => exact .held mine
  obtain ⟨sched, locks, gone⟩ := exec_forM_letGo w (s.ledger.working w).held s
  have left := forM_letGo_order _ leaving gone
  unfold release at h
  simp only [exec_bind, exec_working, gone, exec_modifyWorking] at h
  cases h
  refine ⟨rfl, left.advance rfl (Nat.le_of_eq (Ledger.size_modifyWorking ..).symm) (fun v other => ?_) (fun _ _ _ => id)
    left.order.oneHolder (fun a v its mem => ?_) ⟨nofun, nofun, nofun⟩ nofun fun a m locking holds => ?_⟩
  · rw [Ledger.working_modifyWorking_ne fun same => other (congrArg some same)]
  · -- whatever it held has been let go
    cases its
    have mem : (a, w) ∈ ((s.ledger.working w).held.map Prod.fst).foldl (Ledger.letGo w) s.ledger.holders := mem
    rw [Ledger.foldl_letGo_eq w _ work.order.oneHolder] at mem
    obtain ⟨mem, kept⟩ := List.mem_filter.mp mem
    have held : a ∈ (s.ledger.working w).held.map Prod.fst := work.order.holders a w mem
    simp [List.mem_map.mp held] at kept
  · refine (left.claimed locking holds).imp_right fun claims => ?_
    cases claims with
    | held mine => cases mine

/-- Whatever the task in turn does with its working set, locks are in order. -/
def Keeps (me : TaskId) (w : WorkingId) (s t : LedgerState V E B) : Prop :=
  ∀ progress, AtWork me s.sched s.ledger progress (.holding w none) → AtWork me t.sched t.ledger progress (.holding w none)

theorem gentle_keeps (me : TaskId) (w : WorkingId) : Gentle w (Keeps (V := V) (E := E) (B := B) me w) where
  refl _ _ := id
  trans first second progress work := second progress (first progress work)
  tryHold _ _ _ work := tryHold_order work rfl
  journal _ e _ work := work.note e
  heap _ _ _ := id
  ledger same _ _ _ _ work := work.ledger same

theorem keeps_of_sameLocks {ledger : Ledger} (same : s.ledger.SameLocks ledger) : Keeps me w s { s with ledger } :=
  fun _ work => work.ledger same

end LedgerM

end LedgerScript
