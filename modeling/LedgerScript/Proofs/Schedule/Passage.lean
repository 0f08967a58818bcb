import LedgerScript.Proofs.Schedule.Suspense

/-!
# How time passes

Time only goes on, and every timer that is armed later has a greater number than those before, so a number always means
the same timer.  Whoever has exceeded a deadline has failed for good.  Only the clock lets time pass, and a suspended task
stays as it is until it gets a turn, or ends.
-/

open Function (update)

namespace LedgerScript

variable {V E B : Type}

namespace Life

variable {l l' l'' : Life V E B} {t : TaskId} {k : Task V E B} {x : Timer}

/-- Time and timers only go on. -/
structure Onward (l l' : Life V E B) : Prop where
  now : l.now ≤ l'.now
  last : l.lastTimer ≤ l'.lastTimer
  armed : ∀ x ∈ l'.timers, x ∈ l.timers ∨ l.lastTimer < x.id
  uses : l.timerUses ⊆ l'.timerUses
  fired : ∀ u ∈ l'.timerUses, u ∈ l.timerUses ∨ u.2 ∈ l.timers ∨ l.lastTimer < u.2.id

theorem Onward.trans (first : l.Onward l') (second : l'.Onward l'') : l.Onward l'' := by
  have armed {x : Timer} (armed : x ∈ l'.timers ∨ l'.lastTimer < x.id) : x ∈ l.timers ∨ l.lastTimer < x.id :=
    armed.elim (first.armed x) fun newer => .inr (Nat.lt_of_le_of_lt first.last newer)
  refine ⟨Nat.le_trans first.now second.now, Nat.le_trans first.last second.last, fun x here => armed (second.armed x here),
    List.Subset.trans first.uses second.uses, fun u used => ?_⟩
  rcases second.fired u used with old | new
  · exact first.fired u old
  · exact .inr (armed new)

/-- No timer is armed, and none fires. -/
theorem Onward.fewer (now : l.now ≤ l'.now) (last : l'.lastTimer = l.lastTimer) (timers : l'.timers ⊆ l.timers)
    (uses : l'.timerUses = l.timerUses) : l.Onward l' :=
  ⟨now, Nat.le_of_eq last.symm, fun _ here => .inl (timers here), uses ▸ List.Subset.refl _, fun _ used => .inl (uses ▸ used)⟩

theorem Onward.refl (l : Life V E B) : l.Onward l :=
  .fewer (Nat.le_refl _) rfl (List.Subset.refl _) rfl

theorem Onward.insert {timers : List Timer} (now : l'.now = l.now) (last : l'.lastTimer = l.lastTimer + 1)
    (number : x.id = l.lastTimer + 1) (armed : l'.timers = Scheduler.insertTimer x timers) (fewer : timers ⊆ l.timers)
    (uses : l'.timerUses = l.timerUses) : l.Onward l' := by
  refine ⟨Nat.le_of_eq now.symm, by rw [last]; exact Nat.le_succ _, fun y here => ?_, uses ▸ List.Subset.refl _,
    fun _ used => .inl (uses ▸ used)⟩
  rw [armed, Scheduler.mem_insertTimer] at here
  rcases here with rfl | here
  · exact .inr (number ▸ Nat.lt_succ_self _)
  · exact .inl (fewer here)

theorem onward_ring {rest : List Timer} (first : l.timers = x :: rest) : l.Onward (l.ring x rest) := by
  refine ⟨Nat.le_refl _, Nat.le_refl _, fun y here => .inl ?_, List.subset_cons_self _ _, fun u used => ?_⟩
  · rw [first]
    exact List.mem_cons_of_mem x here
  · rcases List.mem_cons.mp used with rfl | used
    · exact .inr (.inl (first ▸ List.mem_cons_self ..))
    · exact .inl used

theorem onward_kill (l : Life V E B) (hand : Option TaskId) (t : TaskId) (k : Task V E B) (cause : ScheduleFault) :
    l.Onward (l.kill hand t k cause) :=
  .fewer (Nat.le_refl _) rfl List.filter_sublist.subset rfl

theorem onward_suspend (p : Pause V) (t : TaskId) (k : Task V E B) (l : Life V E B) : l.Onward (p.suspend t k l) := by
  unfold Pause.suspend
  split
  · exact .insert rfl rfl rfl rfl (List.Subset.refl _) rfl
  · exact .fewer (Nat.le_refl _) rfl (List.Subset.refl _) rfl
  · exact .fewer (Nat.le_refl _) rfl (List.Subset.refl _) rfl

theorem onward_resume (p : Pause V) (t : TaskId) (k : Task V E B) (l : Life V E B) : l.Onward (p.resume t k l) := by
  unfold Pause.resume
  split
  · exact .fewer (Nat.le_refl _) rfl (List.Subset.refl _) rfl
  · exact .refl l

/-- A number always means the same timer. -/
theorem Onward.same_timer (onward : l.Onward l') (wound : l.Wound) (armed : x ∈ l.timers) {y : Timer}
    (later : y ∈ l'.timers ∨ ∃ now, (now, y) ∈ l'.timerUses) (number : y.id = x.id) : y = x := by
  have old : ¬ l.lastTimer < y.id := Nat.not_lt.mpr (number ▸ wound.known x armed)
  obtain here | ⟨now, used⟩ := later
  · exact wound.unique ((onward.armed y here).resolve_right old) armed number
  · rcases onward.fired (now, y) used with used | here | newer
    · exact absurd number (wound.past (now, y) used x armed).2
    · exact wound.unique here armed number
    · exact absurd newer old

end Life

namespace Roster

variable {x y : Roster V E B} {t : TaskId} {hand : Option TaskId}

/-- Time and timers only go on. -/
theorem Step.onward (step : x.Step y) : x.life.Onward y.life := by
  cases step with
  | advance free later first => exact .fewer later rfl (List.Subset.refl _) rfl
  | wake free first due wakes => exact Life.onward_ring first
  | expire free first due expires here unfinished => exact (Life.onward_ring first).trans (Life.onward_kill ..)
  | kill cause here unfinished => exact Life.onward_kill ..
  | setDeadline after here unfinished => exact .insert rfl rfl rfl rfl List.filter_sublist.subset rfl
  | spawn name body fresh => exact .fewer (Nat.le_refl _) rfl (List.Subset.refl _) rfl
  | unwind | start | rest => exact .fewer (Nat.le_refl _) rfl (List.Subset.refl _) rfl
  | @goOn me k p =>
    have put : x.life.Onward (x.life.put me k.dispatched) := .fewer (Nat.le_refl _) rfl (List.Subset.refl _) rfl
    exact put.trans (Life.onward_resume ..)
  | park p => exact Life.onward_suspend ..
  | stay p => exact Life.onward_suspend ..
  | finish => exact .fewer (Nat.le_refl _) rfl List.filter_sublist.subset rfl

theorem Steps.onward (steps : x.Steps y) : x.life.Onward y.life := by
  induction steps with
  | refl => exact .refl _
  | tail _ step ih => exact ih.trans step.onward

/-! ## Deadlines that have passed -/

/-- Whoever has exceeded a deadline has failed for good. -/
def Expired (x : Roster V E B) : Prop :=
  ∀ u ∈ x.life.timerUses, ∀ t after, u.2.action = .expire t after → ∃ k, x.Final t k ∧
    (k.state, k.result, k.fault) = (.failed, none, some (.schedule (.deadline t after)))

theorem Expired.step (expired : x.Expired) (step : x.Step y) : y.Expired := by
  -- Only what fires now is new.
  have keeps (same : y.life.timerUses = x.life.timerUses) : y.Expired := by
    intro u used t after expires
    obtain ⟨k, final, failed⟩ := expired u (same ▸ used) t after expires
    exact ⟨k, final.step step, failed⟩
  have further {timer : Timer} (uses : y.life.timerUses = (x.life.now, timer) :: x.life.timerUses)
      (fires : ∀ t after, timer.action = .expire t after → ∃ k, y.Final t k ∧
        (k.state, k.result, k.fault) = (.failed, none, some (.schedule (.deadline t after)))) : y.Expired := by
    intro u used t after expires
    rw [uses] at used
    rcases List.mem_cons.mp used with rfl | used
    · exact fires t after expires
    · obtain ⟨k, final, failed⟩ := expired u used t after expires
      exact ⟨k, final.step step, failed⟩
  cases step with
  | wake free first due wakes => exact further rfl fun t after expires => absurd (wakes.symm.trans expires) nofun
  | @expire timer rest t after k free first due expires here unfinished =>
    refine further rfl fun u after' expires' => ?_
    obtain ⟨rfl, rfl⟩ : u = t ∧ after' = after := by simpa [expires] using expires'.symm
    refine ⟨_, ⟨Life.tasks_put .., Task.isDone_ended .., fun turn => ?_⟩, rfl⟩
    exact absurd (free.symm.trans turn) (by simp)
  | park p => exact keeps (by unfold Pause.suspend; split <;> rfl)
  | stay p => exact keeps (by unfold Pause.suspend; split <;> rfl)
  | goOn => exact keeps (by unfold Pause.resume; split <;> rfl)
  | advance | kill | setDeadline | spawn | unwind | start | rest | finish => exact keeps rfl

theorem Expired.steps (expired : x.Expired) (steps : x.Steps y) : y.Expired := by
  induction steps with
  | refl => exact expired
  | tail _ step ih => exact ih.step step

/-! ## Tasks that have not started -/

def Fresh (x : Roster V E B) : Prop :=
  ∀ t k, x.life.tasks t = some k → k.started = false → k.reason = .none

theorem Fresh.step (fresh : x.Fresh) (staffed : x.Staffed) (step : x.Step y) : y.Fresh := by
  -- The record of one task changes.
  have change {l : Life V E B} (u : TaskId) (others : ∀ t, t ≠ u → l.tasks t = x.life.tasks t)
      (mine : ∀ k, l.tasks u = some k → k.started = false → k.reason = .none) :
      ∀ t k, l.tasks t = some k → k.started = false → k.reason = .none := by
    intro t k here
    by_cases same : t = u
    · exact mine k (same ▸ here)
    · exact fresh t k (others t same ▸ here)
  have put {l : Life V E B} {u : TaskId} {k' : Task V E B} (tasks : l.tasks = update x.life.tasks u (some k'))
      (mine : k'.started = false → k'.reason = .none) : ∀ t k, l.tasks t = some k → k.started = false → k.reason = .none := by
    refine change u (fun t other => by rw [tasks, Function.update_of_ne other]) fun k here => ?_
    rw [tasks, Function.update_self] at here
    exact Option.some.inj here ▸ mine
  have started {k : Task V E B} {P : Prop} (begun : k.started = true) (unstarted : k.started = false) : P :=
    absurd (begun.symm.trans unstarted) (by simp)
  cases step with
  | advance | wake | unwind | rest => exact fresh
  | @expire _ _ t _ k _ _ _ _ here => exact put rfl (fresh t k here)
  | @kill t k cause here => exact put rfl (fresh t k here)
  | @setDeadline t k after here => exact put rfl (fresh t k here)
  | spawn => exact put rfl fun _ => rfl
  | start => exact put rfl fun _ => rfl
  | @finish me k _ _ turn here => exact put rfl (fresh me k here)
  | @goOn me k p free here =>
    refine change me (fun t other => (p.tasks_resume_ne _ _ other).trans (Life.tasks_put_ne _ _ other)) fun k₁ here₁ => ?_
    obtain ⟨k', here', begun, -⟩ := p.tasks_resume (x.life.tasks_put me k.dispatched)
    obtain rfl := Option.some.inj (here'.symm.trans here₁)
    exact started begun
  | @park me k p turn alive here =>
    refine change me (fun t other => p.tasks_suspend_ne _ _ other) fun k₁ here₁ => ?_
    obtain ⟨k', here', begun, -⟩ := p.tasks_suspend me k x.life
    obtain rfl := Option.some.inj (here'.symm.trans here₁)
    exact started (begun.trans (staffed.started turn here))
  | @stay me k p turn alive here =>
    refine change me (fun t other => p.tasks_suspend_ne _ _ other) fun k₁ here₁ => ?_
    obtain ⟨k', here', begun, -⟩ := p.tasks_suspend me k x.life
    obtain rfl := Option.some.inj (here'.symm.trans here₁)
    exact started (begun.trans (staffed.started turn here))

theorem Fresh.steps (fresh : x.Fresh) (staffed : x.Staffed) (steps : x.Steps y) : y.Fresh := by
  induction steps with
  | refl => exact fresh
  | tail before step ih => exact ih.step (staffed.steps before) step

/-! ## Suspended tasks -/

/-- A task is suspended, and its record names the timer that is to wake it, unless it has ended. -/
structure Away (x : Roster V E B) (t : TaskId) (p : Pause V) (timer : Option TimerId) : Prop where
  paused : x.pauses t = some p
  record : ∃ k, x.life.tasks t = some k ∧ (k.isDone = false → k.sleep = timer)

/-- A suspended task stays as it is until it gets a turn. -/
theorem Away.step {p : Pause V} {timer : Option TimerId} (away : x.Away t p timer) (step : x.Step y)
    (before : x.hand ≠ some t) (after : y.hand ≠ some t) : y.Away t p timer := by
  obtain ⟨paused, k, here, asleep⟩ := away
  -- Who is in turn is another task.
  have turned {me : TaskId} {hand : Option TaskId} (turn : hand = some me) (away : hand ≠ some t) : t ≠ me :=
    fun same => away (turn.trans (congrArg some same.symm))
  have aside {u : TaskId} {l : Life V E B} {pauses : TaskId → Option (Pause V)} {hand : Option TaskId} {dying : Bool}
      (other : t ≠ u) (tasks : ∀ t, t ≠ u → l.tasks t = x.life.tasks t) (same : pauses t = x.pauses t) :
      Away ⟨l, hand, dying, pauses⟩ t p timer :=
    ⟨same.trans paused, k, (tasks t other).trans here, asleep⟩
  have put {u : TaskId} {l : Life V E B} {k₀ k' : Task V E B} {hand : Option TaskId} {dying : Bool}
      (before : x.life.tasks u = some k₀) (tasks : l.tasks = update x.life.tasks u (some k'))
      (lasts : k'.isDone = false → k₀.isDone = false ∧ k'.sleep = k₀.sleep) :
      Away ⟨l, hand, dying, x.pauses⟩ t p timer := by
    by_cases same : t = u
    · subst same
      obtain rfl := Option.some.inj (here.symm.trans before)
      refine ⟨paused, k', by rw [tasks, Function.update_self], fun unfinished => ?_⟩
      obtain ⟨unfinished, sleep⟩ := lasts unfinished
      exact sleep.trans (asleep unfinished)
    · exact aside same (fun t other => by rw [tasks, Function.update_of_ne other]) rfl
  have ended {k' : Task V E B} {P : Prop} (done : k'.isDone = true) (unfinished : k'.isDone = false) : P :=
    absurd (done.symm.trans unfinished) (by simp)
  cases step with
  | advance | wake | rest => exact ⟨paused, k, here, asleep⟩
  | expire _ _ _ _ before unfinished => exact put before rfl (ended (Task.isDone_ended ..))
  | kill cause before unfinished => exact put before rfl (ended (Task.isDone_ended ..))
  | setDeadline deadline before unfinished => exact put before rfl fun _ => ⟨unfinished, rfl⟩
  | finish _ _ turn before => exact put before rfl (ended (Task.isDone_ended ..))
  | spawn name body fresh =>
    refine aside (u := x.life.size + 1) ?_ (fun t other => Function.update_of_ne other ..) rfl
    rintro rfl
    exact absurd (here.symm.trans fresh) (by simp)
  | unwind =>
    have other := turned rfl after
    exact aside other (fun _ _ => rfl) (Function.update_of_ne other ..)
  | start => exact aside (turned rfl after) (fun t other => Life.tasks_put_ne _ _ other) rfl
  | goOn =>
    have other := turned rfl after
    exact aside other (fun t other => (Pause.tasks_resume_ne _ _ _ other).trans (Life.tasks_put_ne _ _ other))
      (Function.update_of_ne other ..)
  | park p turn =>
    have other := turned turn before
    exact aside other (fun t other => p.tasks_suspend_ne _ _ other) (Function.update_of_ne other ..)
  | stay p turn => exact aside (turned turn before) (fun t other => p.tasks_suspend_ne _ _ other) rfl

theorem Away.turn {p : Pause V} {timer : Option TimerId} (away : x.Away t p timer) (turn : x.Turn hand y)
    (before : x.hand ≠ some t) (other : hand ≠ some t) : y.Away t p timer ∧ y.hand ≠ some t := by
  induction turn with
  | refl => exact ⟨away, before⟩
  | @tail y z _ step ih =>
    obtain ⟨step, turn⟩ := step
    obtain ⟨away, before⟩ := ih
    have after : z.hand ≠ some t := by
      rcases turn with free | same
      · exact free ▸ nofun
      · exact same ▸ other
    exact ⟨away.step step before after, after⟩

end Roster

end LedgerScript
