import LedgerScript.Proofs.Schedule.Bookkeeping

/-!
# Blocks under locks

A scene tells which blocks each task is inside and which block a suspended task is about to enter.  The scheduler is
*guarded* if the history agrees with the scene, and a lock that is only used by blocks is held by the unfinished task
that is inside a block of it, unless that task was robbed of it.

Whatever goes on elsewhere leaves the locks that are only used by blocks alone, and does not wake those who wait for
them.  So what remains are the moments when a lock changes hands.
-/

namespace LedgerScript

open LockHistory

/-! ## What goes on elsewhere -/

namespace TaskView

variable {keys : WaitKey → Prop} {inHand : Bool} {v v' : TaskView} {key : WaitKey}

theorem Move.ended (move : Move keys inHand v v') (ended : v.ended = true) : v'.ended = true := by
  cases move with
  | calm | wake | call | ring | drop => exact ended
  | kill => rfl
  | spawn => cases ended

/-- An unfinished task that waits for a lock whose waiting tasks are not woken still waits. -/
theorem Stands.waits (stands : v.Stands inHand) (moves : Moves keys inHand v v') (closed : ¬ keys key)
    (noTimer : key.isTimer = false) (waits : v.parked = some key) (live : v'.ended = false) : v'.parked = some key := by
  induction moves with
  | refl => exact waits
  | tail before move ih =>
    rename_i v₁ v₂
    have stands₁ := stands.moves before
    have live₁ : v₁.ended = false := by
      by_contra ended
      rw [Bool.not_eq_false] at ended
      simp [move.ended ended] at live
    have waits₁ := ih live₁
    have alive : v₁.killed = false := by
      have ended := stands₁.ended
      rw [live₁] at ended
      simp_all
    cases move with
    | calm => exact waits₁
    | wake here may => exact absurd (Option.some.inj (waits₁.symm.trans here) ▸ may) closed
    | call here unfinished =>
      have free := stands₁.of_queued ⟨unfinished, alive⟩ (Nat.zero_lt_of_lt here)
      simp [free.2.2.1] at waits₁
    | ring here unfinished =>
      obtain ⟨-, key', parked, timer⟩ := stands₁.of_alarms ⟨unfinished, alive⟩ (Nat.zero_lt_of_lt here)
      cases waits₁.symm.trans parked
      simp [noTimer] at timer
    | drop => exact waits₁
    | kill => cases live
    | spawn => cases waits₁

end TaskView

namespace Scheduler

variable {V E B : Type} {s s' : Scheduler V E B} {guards guards' : TaskId → List ObjectId}
  {entering entering' : TaskId → Option ObjectId} {exempt : Option ObjectId} {idle hand : Option TaskId} {t me : TaskId}
  {m : ObjectId}
variable {ms : List ObjectId}

def Known (s : Scheduler V E B) (t : TaskId) : Prop :=
  (s.view t).status ≠ none

/-- Something goes on that leaves alone those who are inside blocks or wait to enter them, but for one lock that may be
exempt, and one task that waits for none. -/
structure Onward (exempt : Option ObjectId) (idle : Option TaskId) (s s' : Scheduler V E B) : Prop where
  history : ∃ new, s'.lockUses = new ++ s.lockUses ∧ ∀ u ∈ new, u.Outside
  locks : ∀ m, s.IsLock m → s'.IsLock m
  holders : ∀ m, exempt ≠ some m → ¬ s'.ByHand m → s'.lockHolder m = s.lockHolder m
  known : ∀ t, s.Known t → s'.Known t
  waits : ∀ t m, idle ≠ some t → exempt ≠ some m → ¬ s'.ByHand m → ¬ s'.Ended t →
    s.parked.get? t = some (.lock m) → s'.parked.get? t = some (.lock m)

theorem Onward.suffix (onward : s.Onward exempt idle s') : s.lockUses <:+ s'.lockUses := by
  obtain ⟨new, eq, -⟩ := onward.history
  exact ⟨new, eq.symm⟩

/-- Whoever waits for a lock that is only used by blocks is not woken by what goes on elsewhere. -/
theorem waits_of_moves {inHand : Bool} (stands : (s.view t).Stands inHand)
    (moves : TaskView.Moves (s'.Wakes exempt) inHand (s.view t) (s'.view t)) (other : exempt ≠ some m)
    (only : ¬ s'.ByHand m) (live : ¬ s'.Ended t) (waits : s.parked.get? t = some (.lock m)) :
    s'.parked.get? t = some (.lock m) := by
  refine stands.waits moves (fun wakes => ?_) rfl waits (decide_eq_false live)
  exact (wakes.lock m rfl).elim other only

theorem Evolution.onward (evolution : s.Evolution exempt hand s') (regular : s.Regular hand) :
    s.Onward exempt idle s' where
  history := evolution.history
  locks := evolution.locks
  holders := evolution.holders
  known t := (evolution.moves t).known
  waits t _ _ := waits_of_moves (regular.stands t) (evolution.moves t)

theorem Parking.onward (parking : s.Parking exempt me s') (regular : s.Regular (some me)) :
    s.Onward exempt (some me) s' := by
  refine ⟨parking.history, parking.locks, parking.holders, fun t known => ?_, fun t m other => ?_⟩
  · by_cases same : t = me
    · exact same ▸ parking.known
    · exact (parking.others t same).known known
  · have same : t ≠ me := fun same => other (congrArg some same.symm)
    exact waits_of_moves (regular.stands_other other) (parking.others t same)

/-- A change that only concerns who is ready, who runs, who has to unwind and what is in the journal. -/
theorem onward_queues (s : Scheduler V E B) {ready : List TaskId} {readySet : FinMap TaskId Unit} {picks : List Nat}
    {current : Option TaskId} {unwinding : List TaskId} {journal : List RunEvent} :
    s.Onward exempt idle { s with ready, readySet, picks, current, unwinding, journal } :=
  ⟨⟨[], rfl, nofun⟩, fun _ lock => lock, fun _ _ _ => rfl, fun _ known => known, fun _ _ _ _ _ _ waits => waits⟩

theorem pickReady_eq (n : Nat) (s : Scheduler V E B) :
    ∃ ready readySet picks, (s.pickReady n).2 = { s with ready, readySet, picks } := by
  induction n generalizing s with
  | zero => exact ⟨s.ready, s.readySet, s.picks, rfl⟩
  | succ n ih =>
    unfold pickReady
    dsimp only
    split
    · exact ⟨s.ready, s.readySet, s.picks, rfl⟩
    · split
      · obtain ⟨ready, readySet, picks, eq⟩ := ih _
        exact ⟨ready, readySet, picks, eq⟩
      · exact ⟨_, _, _, rfl⟩

theorem onward_pick {r : Option TaskId} (picked : s.nextReady = (r, s')) : s.Onward exempt idle s' := by
  obtain ⟨ready, readySet, picks, eq⟩ := pickReady_eq s.ready.length s
  have eq' : s' = { s with ready, readySet, picks } := by rw [← eq, ← nextReady, picked]
  rw [eq']
  exact s.onward_queues

theorem onward_setRunning (s : Scheduler V E B) (me : TaskId) : s.Onward exempt idle (s.setRunning me) := by
  have steady : s.Steady (s.setRunning me) := s.steady_modifyTask me _
  have frame : Frame exempt s (s.setRunning me) := steady.frame
  have parked : (s.setRunning me).parked = s.parked := by rw [setRunning, modifyTask_eq]
  refine ⟨frame.history, frame.locks, frame.holders, fun t known => ?_, fun t m _ _ _ _ waits => parked ▸ waits⟩
  have tasks := s.task?_modifyTask me t fun k => { k with state := .running, reason := .none, started := true }
  unfold Known view at *
  rw [setRunning, tasks]
  split
  · simpa using known
  · exact known

/-- A task in hand has ended. -/
theorem Regular.onward_finish (regular : s.Regular (some me)) (errorText : E → Bytes) (result : Option V)
    (fault : Option (TaskFault E)) : s.Onward exempt idle (s.finish errorText me result fault) := by
  have finished := regular.finished errorText result fault
  have frame : Frame exempt s (s.finish errorText me result fault) :=
    .of_objects finished.objects finished.current ⟨[.ended me], finished.history, by simp [LockUse.Outside]⟩
  obtain ⟨alarms, -, seen⟩ := finished.here
  have wakes : Wakes exempt _ (.join me) := finished.wakes
  have moves := fun t other => finished.others t other _ false wakes
  refine ⟨frame.history, frame.locks, frame.holders, fun t known => ?_, fun t m _ other only live waits => ?_⟩
  · by_cases same : t = me
    · rw [same, Known, seen]
      simp
    · exact (moves t same).known known
  · have same : t ≠ me := fun same => live (by simp [Ended, finished.history, same])
    exact waits_of_moves (regular.stands_other fun held => same (Option.some.inj held).symm) (moves t same) other only live
      waits

/-! ## Guarded schedulers -/

/-- What holds of a lock that is only used by blocks. -/
structure Held (s : Scheduler V E B) (guards : TaskId → List ObjectId) (entering : TaskId → Option ObjectId)
    (m : ObjectId) : Prop where
  inside : ∀ t, ¬ s.Ended t → m ∈ guards t → s.lockHolder m = some t ∨ Robbed s.lockUses t m
  nested : ∀ t, ¬ s.Ended t → (guards t).count m ≤ 1 ∨ Robbed s.lockUses t m
  entering : ∀ t, ¬ s.Ended t → entering t = some m →
    s.parked.get? t = some (.lock m) ∨ (s.lockHolder m = some t ∧ m ∉ guards t) ∨ Robbed s.lockUses t m
  fair : Fair s.lockUses m

/-- The history agrees with where the tasks are, and the locks are with those who are inside. -/
structure Guarded (s : Scheduler V E B) (guards : TaskId → List ObjectId) (entering : TaskId → Option ObjectId) :
    Prop where
  balance : ∀ t m, s.lockUses.count (.entered t m) = s.lockUses.countP (·.leaves t m) + (guards t).count m
  known : ∀ t m, ¬ s.Ended t → m ∈ guards t ∨ entering t = some m → s.Known t
  inLock : ∀ t m, m ∈ guards t → s.IsLock m
  toLock : ∀ t m, entering t = some m → s.IsLock m
  held : ∀ m, ¬ s.ByHand m → s.Held guards entering m

/-- A lock that is left alone, in a history that goes on without blocks. -/
theorem Held.onward (held : s.Held guards entering m) (onward : s.Onward exempt idle s') (other : exempt ≠ some m)
    (only : ¬ s'.ByHand m) (calm : ∀ t, idle = some t → entering t = none) : s'.Held guards entering m := by
  have suffix := onward.suffix
  have holder := onward.holders m other only
  have unfinished : ∀ t, ¬ s'.Ended t → ¬ s.Ended t := fun t live ended => live (suffix.subset ended)
  refine ⟨fun t live mem => ?_, fun t live => ?_, fun t live enters => ?_, ?_⟩
  · rw [holder]
    exact (held.inside t (unfinished t live) mem).imp_right (·.mono suffix)
  · exact (held.nested t (unfinished t live)).imp_right (·.mono suffix)
  · have busy : idle ≠ some t := fun same => by simp [calm t same] at enters
    rw [holder]
    exact (held.entering t (unfinished t live) enters).imp (onward.waits t m busy other only live)
      (Or.imp_right (·.mono suffix))
  · obtain ⟨new, history, outside⟩ := onward.history
    rw [history]
    exact held.fair.append_outside new outside

/-- What goes on elsewhere keeps the locks with those who are inside. -/
theorem Guarded.onward (guarded : s.Guarded guards entering) (onward : s.Onward none idle s')
    (calm : ∀ t, idle = some t → entering t = none) : s'.Guarded guards entering := by
  have suffix := onward.suffix
  refine ⟨fun t m => ?_, fun t m live mem => ?_, fun t m mem => ?_, fun t m enters => ?_, fun m only => ?_⟩
  · obtain ⟨new, history, outside⟩ := onward.history
    rw [history, (count_append_outside new outside).1, (count_append_outside new outside).2]
    exact guarded.balance t m
  · exact onward.known t (guarded.known t m (fun ended => live (suffix.subset ended)) mem)
  · exact onward.locks m (guarded.inLock t m mem)
  · exact onward.locks m (guarded.toLock t m enters)
  · exact (guarded.held m fun byHand => only (suffix.subset byHand)).onward onward nofun only calm

theorem Guarded.keep (guarded : s.Guarded guards entering) (onward : s.Onward none none s') : s'.Guarded guards entering :=
  guarded.onward onward nofun

theorem Guarded.settle (guarded : s.Guarded guards entering) (me : TaskId) :
    s.Guarded guards (Function.update entering me none) := by
  have enters : ∀ t m, Function.update entering me none t = some m → entering t = some m := by
    intro t m enters
    by_cases same : t = me
    · simp [same] at enters
    · simpa [same] using enters
  refine { guarded with known := fun t m live here => ?_, toLock := fun t m h => ?_, held := fun m blocks => ?_ }
  · exact guarded.known t m live (here.imp_right (enters t m))
  · exact guarded.toLock t m (enters t m h)
  · have held := guarded.held m blocks
    exact { held with entering := fun t live h => held.entering t live (enters t m h) }

/-! ## Locks that change hands -/

/-- A lock goes to somebody else, and whoever is inside a block of it was robbed of it before. -/
theorem Guarded.pass (guarded : s.Guarded guards entering) (onward : s.Onward (some m) none s')
    (history : s'.lockUses = s.lockUses) (lost : ¬ s.ByHand m → ∀ t, ¬ s.Ended t → m ∈ guards t → Robbed s.lockUses t m)
    (next : ¬ s.ByHand m → ∀ t, ¬ s.Ended t → entering t = some m →
      s'.parked.get? t = some (.lock m) ∨ s'.lockHolder m = some t ∨ Robbed s.lockUses t m) :
    s'.Guarded guards entering := by
  have ended : ∀ t, s'.Ended t ↔ s.Ended t := fun t => by simp only [Ended, history]
  have byHand : ∀ n, s'.ByHand n ↔ s.ByHand n := fun n => by simp only [ByHand, history]
  refine ⟨fun t n => ?_, fun t n live mem => ?_, fun t n mem => ?_, fun t n enters => ?_, fun n blocks => ?_⟩
  · rw [history]
    exact guarded.balance t n
  · exact onward.known t (guarded.known t n (live ∘ (ended t).mpr) mem)
  · exact onward.locks n (guarded.inLock t n mem)
  · exact onward.locks n (guarded.toLock t n enters)
  · have held := guarded.held n (blocks ∘ (byHand n).mpr)
    by_cases same : n = m
    · subst same
      rw [byHand] at blocks
      refine ⟨fun t live mem => .inr ?_, fun t live => ?_, fun t live enters => ?_, ?_⟩
      · rw [history]
        exact lost blocks t (live ∘ (ended t).mpr) mem
      · rw [history]
        exact held.nested t (live ∘ (ended t).mpr)
      · rw [history]
        rcases next blocks t (live ∘ (ended t).mpr) enters with waits | holds | robbed
        · exact .inl waits
        · by_cases mem : n ∈ guards t
          · exact .inr (.inr (lost blocks t (live ∘ (ended t).mpr) mem))
          · exact .inr (.inl ⟨holds, mem⟩)
        · exact .inr (.inr robbed)
      · rw [history]
        exact held.fair
    · exact held.onward onward (fun eq => same (Option.some.inj eq).symm) blocks (by simp)

/-! ## Entering and leaving -/

/-- What is noted about one lock does not concern the others. -/
theorem Held.elsewhere (held : s.Held guards entering m) {u : LockUse} (entered : ∀ t, u ≠ .entered t m)
    (left : ∀ t holder, u ≠ .left t m holder) (same : ∀ t, (guards' t).count m = (guards t).count m) :
    (s.use u).Held guards' entering m := by
  have suffix : s.lockUses <:+ (s.use u).lockUses := List.suffix_cons u s.lockUses
  have unfinished : ∀ t, ¬ (s.use u).Ended t → ¬ s.Ended t := fun t live ended => live (suffix.subset ended)
  have mem : ∀ t, m ∈ guards' t ↔ m ∈ guards t := fun t => by
    rw [← List.count_pos_iff, ← List.count_pos_iff, same]
  refine ⟨fun t live here => ?_, fun t live => ?_, fun t live enters => ?_, held.fair.elsewhere entered left⟩
  · exact (held.inside t (unfinished t live) ((mem t).mp here)).imp_right (·.mono suffix)
  · rw [same]
    exact (held.nested t (unfinished t live)).imp_right (·.mono suffix)
  · rw [mem]
    exact (held.entering t (unfinished t live) enters).imp_right (Or.imp_right (·.mono suffix))

/-- Whoever is inside according to the history is inside according to the scene, and the other way round. -/
theorem Guarded.inside_iff (guarded : s.Guarded guards entering) : Inside s.lockUses t m ↔ m ∈ guards t := by
  have balance := guarded.balance t m
  unfold Inside
  rw [← List.count_pos_iff]
  omega

/-- The lock whose block the running task enters. -/
theorem Guarded.held_enter (guarded : s.Guarded guards entering) (calm : entering me = none) (only : ¬ s.ByHand m)
    (mine : ¬ s.Ended me → (s.lockHolder m = some me ∧ m ∉ guards me) ∨ Robbed s.lockUses me m) :
    (s.use (.entered me m)).Held (Function.update guards me (m :: guards me)) entering m := by
  have held := guarded.held m only
  have suffix : s.lockUses <:+ (s.use (.entered me m)).lockUses := List.suffix_cons _ s.lockUses
  have unfinished : ∀ t, ¬ (s.use (.entered me m)).Ended t → ¬ s.Ended t :=
    fun t live ended => live (suffix.subset ended)
  have inside : ∀ t, ¬ s.Ended t → m ∈ Function.update guards me (m :: guards me) t →
      s.lockHolder m = some t ∨ Robbed (s.use (.entered me m)).lockUses t m := by
    intro t live mem
    by_cases same : t = me
    · subst same
      exact (mine live).imp And.left (·.mono suffix)
    · rw [Function.update_of_ne same] at mem
      exact (held.inside t live mem).imp_right (·.mono suffix)
  refine ⟨fun t live => inside t (unfinished t live), fun t live => ?_, fun t live enters => ?_, ?_⟩
  · by_cases same : t = me
    · subst same
      rcases mine (unfinished t live) with ⟨-, outside⟩ | robbed
      · simp [List.count_eq_zero.mpr outside]
      · exact .inr (robbed.mono suffix)
    · rw [Function.update_of_ne same]
      exact (held.nested t (unfinished t live)).imp_right (·.mono suffix)
  · have other : t ≠ me := fun same => by simp [same ▸ calm] at enters
    rw [Function.update_of_ne other]
    exact (held.entering t (unfinished t live) enters).imp_right (Or.imp_right (·.mono suffix))
  · refine held.fair.cons (fun t v ne live live' within within' => ?_) fun d t now => by cases now
    -- both hold the lock, or one of them was robbed of it
    have holds : ∀ x, .ended x ∉ (s.use (.entered me m)).lockUses → Inside (.entered me m :: s.lockUses) x m →
        s.lockHolder m = some x ∨ Robbed (s.use (.entered me m)).lockUses x m := by
      intro x live within
      refine inside x (unfinished x live) ?_
      by_cases same : x = me
      · simp [same]
      · rw [Function.update_of_ne same]
        exact guarded.inside_iff.mp (within.of_cons fun now => same (LockUse.entered.inj now).1.symm)
    rcases holds t live within with first | robbed
    · rcases holds v live' within' with second | robbed
      · exact absurd (Option.some.inj (first.symm.trans second)) ne
      · exact .inr robbed
    · exact .inl robbed

/-- The running task enters a block of a lock that it has. -/
theorem Guarded.enter (guarded : s.Guarded guards entering) (runs : s.current = some me) (known : s.Known me)
    (calm : entering me = none) (lock : s.IsLock m)
    (mine : ¬ s.ByHand m → ¬ s.Ended me → (s.lockHolder m = some me ∧ m ∉ guards me) ∨ Robbed s.lockUses me m) :
    (s.enterBlock m).Guarded (Function.update guards me (m :: guards me)) entering := by
  have eq : s.enterBlock m = s.use (.entered me m) := by simp [enterBlock, runs]
  have suffix : s.lockUses <:+ (s.use (.entered me m)).lockUses := List.suffix_cons _ s.lockUses
  rw [eq]
  refine ⟨fun t n => ?_, fun t n live mem => ?_, fun t n mem => ?_, guarded.toLock, fun n only => ?_⟩
  · have balance := guarded.balance t n
    show List.count _ (_ :: _) = List.countP _ (_ :: _) + _
    rw [List.count_cons, List.countP_cons, balance]
    by_cases same : t = me
    · subst same
      simp only [Function.update_self, List.count_cons, beq_iff_eq, LockUse.entered.injEq, true_and, LockUse.leaves]
      simp
      omega
    · simp [same, LockUse.leaves, Ne.symm same]
  · by_cases same : t = me
    · exact same ▸ known
    · rw [Function.update_of_ne same] at mem
      exact guarded.known t n (fun ended => live (suffix.subset ended)) mem
  · by_cases same : t = me
    · subst same
      rw [Function.update_self] at mem
      rcases List.mem_cons.mp mem with rfl | mem
      · exact lock
      · exact guarded.inLock t n mem
    · rw [Function.update_of_ne same] at mem
      exact guarded.inLock t n mem
  · have blocks : ¬ s.ByHand n := fun byHand => only (suffix.subset byHand)
    by_cases here : n = m
    · subst here
      exact guarded.held_enter calm blocks (mine blocks)
    · refine (guarded.held n blocks).elsewhere ?_ (by simp) fun t => ?_
      · exact fun t now => here (LockUse.entered.inj now).2.symm
      · by_cases same : t = me
        · simp [same, Ne.symm here]
        · rw [Function.update_of_ne same]

/-- The lock whose block the running task leaves: whoever else is inside is robbed of it now, if not before. -/
theorem Guarded.held_leave (guarded : s.Guarded guards entering) (here : guards me = m :: ms)
    (calm : entering me = none) (only : ¬ s.ByHand m) :
    (s.use (.left me m (s.lockHolder m))).Held (Function.update guards me ms) entering m ∧
      ∀ t, ¬ s.Ended t → m ∈ Function.update guards me ms t ∨ (t ≠ me ∧ s.lockHolder m = some t) →
        Robbed (s.use (.left me m (s.lockHolder m))).lockUses t m := by
  have held := guarded.held m only
  have suffix : s.lockUses <:+ (s.use (.left me m (s.lockHolder m))).lockUses := List.suffix_cons _ s.lockUses
  have unfinished : ∀ t, ¬ (s.use (.left me m (s.lockHolder m))).Ended t → ¬ s.Ended t :=
    fun t live ended => live (suffix.subset ended)
  have robbed : ∀ t, t ≠ me → ¬ s.Ended t → s.lockHolder m = some t →
      Robbed (s.use (.left me m (s.lockHolder m))).lockUses t m := by
    intro t other live holds
    exact ⟨me, s.lockUses, ⟨holds ▸ List.suffix_rfl, other.symm, live⟩⟩
  have lost : ∀ t, ¬ s.Ended t → m ∈ Function.update guards me ms t →
      Robbed (s.use (.left me m (s.lockHolder m))).lockUses t m := by
    intro t live mem
    by_cases same : t = me
    · subst same
      -- the task was inside twice
      rw [Function.update_self] at mem
      rcases held.nested t live with once | robbed
      · have twice := List.count_pos_iff.mpr mem
        rw [here, List.count_cons_self] at once
        omega
      · exact robbed.mono suffix
    · rw [Function.update_of_ne same] at mem
      rcases held.inside t live mem with holds | before
      · exact robbed t same live holds
      · exact before.mono suffix
  refine ⟨⟨fun t live mem => .inr (lost t (unfinished t live) mem), fun t live => ?_, fun t live enters => ?_, ?_⟩,
    fun t live => Or.rec (lost t live) fun ⟨other, holds⟩ => robbed t other live holds⟩
  · refine (held.nested t (unfinished t live)).imp (fun once => Nat.le_trans ?_ once) (·.mono suffix)
    by_cases same : t = me
    · simp [same, here]
    · rw [Function.update_of_ne same]
  · have other : t ≠ me := fun same => by simp [same ▸ calm] at enters
    rcases held.entering t (unfinished t live) enters with waits | ⟨holds, -⟩ | before
    · exact .inl waits
    · exact .inr (.inr (robbed t other (unfinished t live) holds))
    · exact .inr (.inr (before.mono suffix))
  · refine held.fair.cons ((held.fair _ List.suffix_rfl).1.cons (by simp)) fun d t now other live => ?_
    obtain ⟨rfl, -, holds⟩ := LockUse.left.inj now
    by_cases ended : s.Ended me
    · exact ⟨me, t, s.lockUses, ⟨holds ▸ List.suffix_rfl, other, live⟩, ended⟩
    · -- a task that has not ended and lost the lock was robbed of it itself
      rcases held.inside me ended (by simp [here]) with mine | before
      · exact absurd (Option.some.inj (mine.symm.trans holds)) other
      · exact ((held.fair _ List.suffix_rfl).2 me before).mono suffix

/-- It is noted that the running task leaves a block. -/
theorem Guarded.use_left (guarded : s.Guarded guards entering) (here : guards me = m :: ms) (calm : entering me = none) :
    (s.use (.left me m (s.lockHolder m))).Guarded (Function.update guards me ms) entering := by
  have suffix : s.lockUses <:+ (s.use (.left me m (s.lockHolder m))).lockUses := List.suffix_cons _ s.lockUses
  have inside : ∀ t, Function.update guards me ms t ⊆ guards t := by
    intro t
    by_cases same : t = me
    · simp [same, here]
    · rw [Function.update_of_ne same]
      exact List.Subset.refl _
  refine ⟨fun t n => ?_, fun t n live mem => ?_, fun t n mem => ?_, guarded.toLock, fun n only => ?_⟩
  · have balance := guarded.balance t n
    show List.count _ (_ :: _) = List.countP _ (_ :: _) + _
    rw [List.count_cons_of_ne (by simp), List.countP_cons, balance]
    by_cases same : t = me
    · subst same
      simp only [Function.update_self, here, List.count_cons, LockUse.leaves]
      simp
      omega
    · simp [same, LockUse.leaves, Ne.symm same]
  · exact guarded.known t n (fun ended => live (suffix.subset ended)) (mem.imp_left (inside t ·))
  · exact guarded.inLock t n (inside t mem)
  · have blocks : ¬ s.ByHand n := fun byHand => only (suffix.subset byHand)
    by_cases same : n = m
    · subst same
      exact (guarded.held_leave here calm blocks).1
    · refine (guarded.held n blocks).elsewhere (by simp) ?_ fun t => ?_
      · exact fun t holder now => same (LockUse.left.inj now).2.1.symm
      · by_cases mine : t = me
        · simp [mine, here, Ne.symm same]
        · rw [Function.update_of_ne mine]

theorem lockHolder_setHolder (lock : s.IsLock m) (holder : Option TaskId) :
    (s.setHolder m holder).lockHolder m = holder := by
  obtain ⟨before, here⟩ := lock
  simp [lockHolder, setHolder, object?_modifyObject, here, SyncObject.withHolder]

/-- What the state is when a lock has been passed on: those who wait for it still do, but for the one who gets it. -/
theorem Regular.passed (regular : s.Regular hand) (lock : s.IsLock m) :
    (s.passLock m).2.lockHolder m = (s.passLock m).1 ∧ (s.passLock m).2.lockUses = s.lockUses ∧
      ∀ t, (s.passLock m).1 ≠ some t → s.parked.get? t = some (.lock m) →
        (s.passLock m).2.parked.get? t = some (.lock m) := by
  obtain ⟨eq, nobody⟩ | ⟨id, eq, waits⟩ := regular.passLock m
  · rw [eq]
    refine ⟨lockHolder_setHolder lock none, ?_, fun t _ waits => ?_⟩
    · rw [setHolder, modifyObject_eq]
    · have mem := (regular.tidy.parked_iff t (.lock m)).mp waits
      simp [nobody] at mem
  · rw [eq]
    have woken := steady_wake ((s.unregister id).setHolder m (some id)) id
    have left := s.steady_unregister id
    have tidy : ((s.unregister id).setHolder m (some id)).Tidy := (regular.tidy.unregister id).modifyObject m _
    have lock' : (s.unregister id).IsLock m := by
      obtain ⟨holder, here⟩ := lock
      exact ⟨holder, (left.object? m).trans here⟩
    refine ⟨?_, ?_, fun t other waits => ?_⟩
    · rw [lockHolder, woken.object? m]
      exact lockHolder_setHolder lock' (some id)
    · rw [woken.history, setHolder, modifyObject_eq]
      exact left.history
    · have other : t ≠ id := fun same => other (congrArg some same.symm)
      show ((((s.unregister id).setHolder m (some id)).wake id).view t).parked = _
      rw [view_wake tidy, setHolder, view_modifyObject_same _ m (queued_withHolder _), view_unregister]
      simp only [other, false_and, if_false]
      exact waits

/-- The running task leaves a block, and the lock is given back, whoever holds it. -/
theorem Guarded.leave (guarded : s.Guarded guards entering) (regular : s.Regular hand)
    (runs : s.current = some me) (here : guards me = m :: ms) (calm : entering me = none) :
    (s.leaveBlock m).Guarded (Function.update guards me ms) entering := by
  have eq : s.leaveBlock m = ((s.use (.left me m (s.lockHolder m))).passLock m).2 := by simp [leaveBlock, runs]
  have suffix : s.lockUses <:+ (s.use (.left me m (s.lockHolder m))).lockUses := List.suffix_cons _ s.lockUses
  have unfinished : ∀ t, ¬ (s.use (.left me m (s.lockHolder m))).Ended t → ¬ s.Ended t :=
    fun t live ended => live (suffix.subset ended)
  have lock : (s.use (.left me m (s.lockHolder m))).IsLock m := guarded.inLock me m (by simp [here])
  have noted := guarded.use_left here calm
  have regular' : (s.use (.left me m (s.lockHolder m))).Regular hand := regular.use nofun
  obtain ⟨holder, history, stays⟩ := regular'.passed lock
  rw [eq]
  refine noted.pass ((evolves_passLock _ m regular').onward regular') history ?_ ?_
  · intro only t live mem
    have blocks : ¬ s.ByHand m := fun byHand => only (suffix.subset byHand)
    exact (guarded.held_leave here calm blocks).2 t (unfinished t live) (.inl mem)
  · intro only t live enters
    have blocks : ¬ s.ByHand m := fun byHand => only (suffix.subset byHand)
    rcases (noted.held m only).entering t live enters with waits | ⟨holds, -⟩ | robbed
    · by_cases passed : ((s.use (.left me m (s.lockHolder m))).passLock m).1 = some t
      · exact .inr (.inl (holder.trans passed))
      · exact .inl (stays t passed waits)
    · have other : t ≠ me := fun same => by simp [same ▸ calm] at enters
      exact .inr (.inr ((guarded.held_leave here calm blocks).2 t (unfinished t live) (.inr ⟨other, holds⟩)))
    · exact .inr (.inr robbed)

/-! ## Taking a lock -/

theorem Regular.known_hand (regular : s.Regular (some me)) : s.Known me := by
  obtain ⟨k, here⟩ := regular.task?_hand
  simp [Known, view, here]

/-- A lock is free if nobody holds it; one whose holder has ended is passed on first. -/
theorem Guarded.lockIsFree (guarded : s.Guarded guards entering) (regular : s.Regular hand) (lock : s.IsLock m) :
    (s.lockIsFree m).2.Guarded guards entering ∧
      ((s.lockIsFree m).1 = true → (s.lockIsFree m).2.lockHolder m = none) := by
  obtain ⟨holder, here⟩ := lock
  have holds : s.lockHolder m = holder := by simp [lockHolder, here]
  unfold Scheduler.lockIsFree
  rw [here]
  cases holder with
  | none => exact ⟨guarded, fun _ => holds⟩
  | some d =>
    dsimp only
    split
    · rename_i done
      obtain ⟨passed, history, stays⟩ := regular.passed ⟨some d, here⟩
      have gone : ∀ t, ¬ s.Ended t → s.Known t → s.lockHolder m ≠ some t := by
        intro t live known same
        cases holds.symm.trans same
        exact live (regular.ended_of_isDone done known)
      refine ⟨guarded.pass ((s.evolves_passLock m regular).onward regular) history ?_ ?_, fun free => ?_⟩
      · intro only t live mem
        have known := guarded.known t m live (.inl mem)
        exact ((guarded.held m only).inside t live mem).resolve_left (gone t live known)
      · intro only t live enters
        have known := guarded.known t m live (.inr enters)
        rcases (guarded.held m only).entering t live enters with waits | ⟨mine, -⟩ | robbed
        · by_cases next : (s.passLock m).1 = some t
          · exact .inr (.inl (passed.trans next))
          · exact .inl (stays t next waits)
        · exact absurd mine (gone t live known)
        · exact .inr (.inr robbed)
      · rw [passed]
        exact Option.isNone_iff_eq_none.mp free
    · exact ⟨guarded, fun free => by cases free⟩

/-- The running task takes a lock that nobody holds. -/
theorem Guarded.setHolder (guarded : s.Guarded guards entering) (regular : s.Regular hand)
    (free : s.lockHolder m = none) (me : TaskId) : (s.setHolder m (some me)).Guarded guards entering := by
  have eq := s.modifyObject_eq m (·.withHolder (some me))
  refine guarded.pass ((s.evolves_setHolder m (some me) regular).onward regular) (by rw [Scheduler.setHolder, eq]) ?_ ?_
  · intro only t live mem
    exact ((guarded.held m only).inside t live mem).resolve_left (by simp [free])
  · intro only t live enters
    rw [Scheduler.setHolder, eq]
    rcases (guarded.held m only).entering t live enters with waits | ⟨mine, -⟩ | robbed
    · exact .inl waits
    · simp [free] at mine
    · exact .inr (.inr robbed)

/-- A task waits to enter a block. -/
theorem Guarded.wait (guarded : s.Guarded guards entering) (lock : s.IsLock m) (known : s.Known me)
    (waits : s.parked.get? me = some (.lock m)) : s.Guarded guards (Function.update entering me (some m)) := by
  have enters : ∀ t n, Function.update entering me (some m) t = some n → (t = me ∧ n = m) ∨ entering t = some n := by
    intro t n enters
    by_cases same : t = me
    · simp only [same, Function.update_self, Option.some.injEq] at enters
      exact .inl ⟨same, enters.symm⟩
    · exact .inr (by simpa [same] using enters)
  refine { guarded with known := fun t n live here => ?_, toLock := fun t n h => ?_, held := fun n only => ?_ }
  · rcases here with mem | h
    · exact guarded.known t n live (.inl mem)
    · rcases enters t n h with ⟨rfl, -⟩ | h
      · exact known
      · exact guarded.known t n live (.inr h)
  · rcases enters t n h with ⟨-, rfl⟩ | h
    · exact lock
    · exact guarded.toLock t n h
  · have held := guarded.held n only
    refine { held with entering := fun t live h => ?_ }
    rcases enters t n h with ⟨rfl, rfl⟩ | h
    · exact .inl waits
    · exact held.entering t live h

/-- What came of the attempt to take a lock for a block: it was refused, the block is entered, or the task waits. -/
def Took (guards : TaskId → List ObjectId) (entering : TaskId → Option ObjectId) (me : TaskId) (m : ObjectId) :
    Attempt (Option ScheduleFault) × Scheduler V E B → Prop
  | (.done (some _), s') => s'.Guarded guards entering
  | (.done none, s') => (s'.enterBlock m).Guarded (Function.update guards me (m :: guards me)) entering
  | (.parked, s') => s'.Guarded guards entering ∧ s'.Guarded guards (Function.update entering me (some m))

theorem Guarded.takeLock (guarded : s.Guarded guards entering) (regular : s.Regular (some me))
    (runs : s.current = some me) (calm : entering me = none) (m : ObjectId) : Took guards entering me m (s.takeLock m) := by
  unfold Scheduler.takeLock
  rw [runs]
  split
  · rename_i me' holder same here
    cases same
    obtain ⟨checked, free⟩ := guarded.lockIsFree regular ⟨holder, here⟩
    have evolution := s.evolves_lockIsFree m regular
    have regular' := regular.evolve evolution
    have lock := evolution.locks m ⟨holder, here⟩
    have runs' := evolution.current.trans runs
    split
    · rename_i s' eq
      rw [eq] at checked lock runs' free regular'
      have taken := checked.setHolder regular' (free rfl) me
      have evolution' := s'.evolves_setHolder m (some me) regular'
      have history : (s'.setHolder m (some me)).lockUses = s'.lockUses := by rw [Scheduler.setHolder, modifyObject_eq]
      refine taken.enter (evolution'.current.trans runs') (regular'.evolve evolution').known_hand calm
        (evolution'.locks m lock) fun only live => ?_
      rw [ByHand, history] at only
      rw [Ended, history] at live
      by_cases mem : m ∈ guards me
      · -- a task that takes a lock it should have was robbed of it
        rw [history]
        exact .inr (((checked.held m only).inside me live mem).resolve_left (by simp [free rfl]))
      · exact .inl ⟨lockHolder_setHolder lock (some me), mem⟩
    · rename_i s' eq
      rw [eq] at checked lock runs' regular'
      have parking := s'.parks_park me (.lock m) .lock regular'
      have parked := checked.onward (parking.onward regular') fun t same => Option.some.inj same ▸ calm
      obtain ⟨-, -, -, views⟩ := regular'.park (.lock m) .lock
      refine ⟨parked, parked.wait (parking.locks m lock) parking.known ?_⟩
      have seen := congrArg TaskView.parked (views me)
      rw [if_pos rfl] at seen
      exact seen
  · exact guarded

end Scheduler

end LedgerScript
