import LedgerScript.Proofs.Schedule.Roster
import Mathlib.Data.List.Nodup

/-!
# Timers

Timers fire in the order in which they are due, and those that are due at the same time in the order in which they were
armed.  The armed timers stand in this order, none of them is overdue, and every timer that has fired did so when it was
due, and before all that are still armed.

Every armed timer serves an unfinished task: it wakes the task, which is asleep, or it is the deadline of the task.  A
deadline that is set is armed, and finished tasks have no timers.
-/

open Function (update)

namespace LedgerScript

variable {V E B : Type}

/-! ## The order of timers -/

def TimerAction.task : TimerAction → TaskId
  | wake t | expire t _ => t

namespace Timer

/-- One timer fires before another one. -/
def Before (x y : Timer) : Prop :=
  x.due < y.due ∨ x.due = y.due ∧ x.id < y.id

theorem Before.trans {x y z : Timer} (first : x.Before y) (second : y.Before z) : x.Before z := by
  rcases first with lt | ⟨eq, lt⟩ <;> rcases second with lt' | ⟨eq', lt'⟩
  · exact .inl (Nat.lt_trans lt lt')
  · exact .inl (eq' ▸ lt)
  · exact .inl (eq ▸ lt')
  · exact .inr ⟨eq.trans eq', Nat.lt_trans lt lt'⟩

def Serves (x : Timer) (k : Task V E B) : Prop :=
  match x.action with
  | .wake _ => k.sleep = some x.id
  | .expire .. => k.deadline = some x.id

end Timer

namespace Scheduler

theorem perm_insertTimer (t : Timer) (l : List Timer) : (insertTimer t l).Perm (t :: l) := by
  induction l with
  | nil => exact .refl _
  | cons u rest ih =>
    unfold insertTimer
    split
    · exact (ih.cons u).trans (.swap t u rest)
    · exact .refl _

theorem mem_insertTimer {t x : Timer} {l : List Timer} : x ∈ insertTimer t l ↔ x = t ∨ x ∈ l :=
  (perm_insertTimer t l).mem_iff.trans List.mem_cons

/-- The latest timer takes its place behind all that are not due later. -/
theorem sorted_insertTimer {t : Timer} {l : List Timer} (sorted : l.Pairwise Timer.Before)
    (latest : ∀ x ∈ l, x.id < t.id) : (insertTimer t l).Pairwise Timer.Before := by
  induction l with
  | nil => simp [insertTimer]
  | cons u rest ih =>
    obtain ⟨first, sorted'⟩ := List.pairwise_cons.mp sorted
    have earlier : u.id < t.id := latest u (List.mem_cons_self ..)
    unfold insertTimer
    split
    · rename_i due
      refine List.pairwise_cons.mpr ⟨fun x mem => ?_, ih sorted' fun x mem => latest x (List.mem_cons_of_mem u mem)⟩
      rcases mem_insertTimer.mp mem with rfl | mem
      · rcases Nat.lt_or_eq_of_le due with lt | eq
        · exact .inl lt
        · exact .inr ⟨eq, earlier⟩
      · exact first x mem
    · rename_i due
      have before : t.Before u := .inl (Nat.not_le.mp due)
      refine List.pairwise_cons.mpr ⟨fun x mem => ?_, sorted⟩
      rcases List.mem_cons.mp mem with rfl | mem
      · exact before
      · exact before.trans (first x mem)

end Scheduler

namespace Life

/-- The armed timers and those that have fired are in order. -/
structure Wound (l : Life V E B) : Prop where
  sorted : l.timers.Pairwise Timer.Before
  ids : (l.timers.map (·.id)).Nodup
  known : ∀ x ∈ l.timers, x.id ≤ l.lastTimer
  due : ∀ x ∈ l.timers, l.now ≤ x.due
  /-- The latest came last. -/
  fired : l.timerUses.Pairwise fun u v => v.2.Before u.2
  punctual : ∀ u ∈ l.timerUses, u.1 = u.2.due ∧ u.2.due ≤ l.now ∧ u.2.id ≤ l.lastTimer
  past : ∀ u ∈ l.timerUses, ∀ x ∈ l.timers, u.2.Before x ∧ u.2.id ≠ x.id

variable {l l' : Life V E B} {t : TaskId} {k k' : Task V E B} {x y : Timer}
variable {rest : List Timer}

theorem Wound.unique (wound : l.Wound) (here : x ∈ l.timers) (there : y ∈ l.timers) (same : x.id = y.id) : x = y :=
  List.inj_on_of_nodup_map wound.ids here there same

theorem Wound.sublist (wound : l.Wound) (fewer : l'.timers.Sublist l.timers) (now : l'.now = l.now)
    (last : l'.lastTimer = l.lastTimer) (uses : l'.timerUses = l.timerUses) : l'.Wound := by
  refine ⟨wound.sorted.sublist fewer, wound.ids.sublist (fewer.map _), ?_, ?_, ?_, ?_, ?_⟩
  · rw [last]
    exact fun x mem => wound.known x (fewer.subset mem)
  · rw [now]
    exact fun x mem => wound.due x (fewer.subset mem)
  · rw [uses]
    exact wound.fired
  · rw [uses, now, last]
    exact wound.punctual
  · rw [uses]
    exact fun u used x mem => wound.past u used x (fewer.subset mem)

/-- A new timer is armed. -/
theorem Wound.insert (wound : l.Wound) (id : x.id = l.lastTimer + 1) (later : l.now ≤ x.due)
    (timers : l'.timers = Scheduler.insertTimer x l.timers) (now : l'.now = l.now) (last : l'.lastTimer = l.lastTimer + 1)
    (uses : l'.timerUses = l.timerUses) : l'.Wound := by
  have newer : ∀ y ∈ l.timers, y.id < x.id := fun y mem => id ▸ Nat.lt_succ_of_le (wound.known y mem)
  have ids : (x :: l.timers |>.map (·.id)).Nodup := by
    refine List.nodup_cons.mpr ⟨fun mem => ?_, wound.ids⟩
    obtain ⟨y, mem, same⟩ := List.mem_map.mp mem
    exact absurd same (Nat.ne_of_lt (newer y mem))
  refine ⟨?_, ?_, fun y mem => ?_, fun y mem => ?_, ?_, ?_, fun u used y mem => ?_⟩
  · rw [timers]
    exact Scheduler.sorted_insertTimer wound.sorted newer
  · rw [timers]
    exact ((Scheduler.perm_insertTimer x l.timers).map _).nodup_iff.mpr ids
  · rw [timers, Scheduler.mem_insertTimer] at mem
    rw [last]
    rcases mem with rfl | mem
    · exact Nat.le_of_eq id
    · exact Nat.le_succ_of_le (wound.known y mem)
  · rw [timers, Scheduler.mem_insertTimer] at mem
    rw [now]
    rcases mem with rfl | mem
    · exact later
    · exact wound.due y mem
  · rw [uses]
    exact wound.fired
  · rw [uses, now, last]
    intro u used
    obtain ⟨at_due, past, old⟩ := wound.punctual u used
    exact ⟨at_due, past, Nat.le_succ_of_le old⟩
  · rw [timers, Scheduler.mem_insertTimer] at mem
    rw [uses] at used
    rcases mem with rfl | mem
    · obtain ⟨-, past, old⟩ := wound.punctual u used
      have earlier : u.2.id < y.id := id ▸ Nat.lt_succ_of_le old
      refine ⟨?_, Nat.ne_of_lt earlier⟩
      rcases Nat.lt_or_eq_of_le (Nat.le_trans past later) with lt | eq
      · exact .inl lt
      · exact .inr ⟨eq, earlier⟩
    · exact wound.past u used y mem

theorem Wound.ring (wound : l.Wound) (first : l.timers = x :: rest) (due : x.due ≤ l.now) : (l.ring x rest).Wound := by
  obtain ⟨sorted, ids, known, later, fired, punctual, past⟩ := wound
  rw [first] at sorted ids known later past
  have here : x ∈ x :: rest := List.mem_cons_self ..
  obtain ⟨firsts, sorted⟩ := List.pairwise_cons.mp sorted
  obtain ⟨differ, ids⟩ := List.nodup_cons.mp ids
  refine ⟨sorted, ids, fun y mem => known y (List.mem_cons_of_mem x mem), fun y mem => later y (List.mem_cons_of_mem x mem),
    List.pairwise_cons.mpr ⟨fun u used => (past u used x here).1, fired⟩, fun u used => ?_, fun u used y mem => ?_⟩
  · rcases List.mem_cons.mp used with rfl | used
    · exact ⟨Nat.le_antisymm (later x here) due, due, known x here⟩
    · exact punctual u used
  · rcases List.mem_cons.mp used with rfl | used
    · exact ⟨firsts y mem, fun same => differ (List.mem_map.mpr ⟨y, mem, same.symm⟩)⟩
    · exact past u used y (List.mem_cons_of_mem x mem)

/-- Time passes. -/
theorem Wound.advance (wound : l.Wound) {now : Nat} (later : l.now ≤ now) (first : ∀ x ∈ l.timers, now ≤ x.due) :
    { l with now }.Wound := by
  refine ⟨wound.sorted, wound.ids, wound.known, first, wound.fired, fun u used => ?_, wound.past⟩
  obtain ⟨at_due, past, old⟩ := wound.punctual u used
  exact ⟨at_due, Nat.le_trans past later, old⟩

/-! ## Whom timers serve -/

/-- Timers serve unfinished tasks, and finished tasks have none. -/
structure Served (l : Life V E B) : Prop where
  serves : ∀ x ∈ l.timers, ∃ k, l.tasks x.action.task = some k ∧ k.isDone = false ∧ x.Serves k
  deadline : ∀ t k i, l.tasks t = some k → k.deadline = some i →
    ∃ x ∈ l.timers, x.id = i ∧ ∃ after, x.action = .expire t after
  sleep : ∀ t k i, l.tasks t = some k → k.sleep = some i →
    i ≤ l.lastTimer ∧ ∀ x ∈ l.timers, x.id = i → x.action = .wake t
  cleared : ∀ t k, l.tasks t = some k → k.isDone = true → k.deadline = none ∧ k.sleep = none

structure Timed (l : Life V E B) : Prop extends Wound l, Served l

/-- A timer of a task is named by its record. -/
theorem Served.mine (served : l.Served) (armed : x ∈ l.timers) (here : l.tasks x.action.task = some k) :
    k.isDone = false ∧ x.Serves k := by
  obtain ⟨k', here', unfinished, serves⟩ := served.serves x armed
  obtain rfl := Option.some.inj (here.symm.trans here')
  exact ⟨unfinished, serves⟩

theorem Timed.expires (timed : l.Timed) (here : l.tasks t = some k) (armed : x ∈ l.timers)
    (deadline : k.deadline = some x.id) : ∃ after, x.action = .expire t after := by
  obtain ⟨y, mem, same, after, expires⟩ := timed.deadline t k x.id here deadline
  exact timed.unique armed mem same.symm ▸ ⟨after, expires⟩

/-- Which timers are left when those of a task are disarmed. -/
theorem Timed.mem_clear (timed : l.Timed) (here : l.tasks t = some k) :
    x ∈ (l.clear k).timers ↔ x ∈ l.timers ∧ x.action.task ≠ t := by
  unfold clear
  rw [List.mem_filter, decide_eq_true_iff]
  refine and_congr_right fun armed => ⟨fun ⟨noDeadline, noSleep⟩ mine => ?_, fun other => ⟨fun deadline => ?_, fun sleep => ?_⟩⟩
  · subst mine
    have serves := (timed.toServed.mine armed here).2
    unfold Timer.Serves at serves
    split at serves
    · exact noSleep serves
    · exact noDeadline serves
  · obtain ⟨after, expires⟩ := timed.expires here armed deadline
    exact other (congrArg TimerAction.task expires)
  · exact other (congrArg TimerAction.task ((timed.sleep t k x.id here sleep).2 x armed rfl))

theorem Served.change (served : l.Served) (tasks : l'.tasks = update l.tasks t (some k'))
    (last : l.lastTimer ≤ l'.lastTimer) (others : ∀ x, x.action.task ≠ t → (x ∈ l'.timers ↔ x ∈ l.timers))
    (mine : ∀ x ∈ l'.timers, x.action.task = t →
      k'.isDone = false ∧ x.Serves k' ∧ (x ∈ l.timers ∨ l.lastTimer < x.id))
    (deadline : ∀ i, k'.deadline = some i → ∃ x ∈ l'.timers, x.id = i ∧ ∃ after, x.action = .expire t after)
    (sleep : ∀ i, k'.sleep = some i → i ≤ l'.lastTimer ∧ ∀ x ∈ l'.timers, x.id = i → x.action = .wake t)
    (cleared : k'.isDone = true → k'.deadline = none ∧ k'.sleep = none) : l'.Served := by
  have found {u : TaskId} {k₁ : Task V E B} (here : l'.tasks u = some k₁) :
      u = t ∧ k₁ = k' ∨ u ≠ t ∧ l.tasks u = some k₁ := by
    rw [tasks] at here
    by_cases same : u = t
    · subst same
      rw [Function.update_self] at here
      exact .inl ⟨rfl, (Option.some.inj here).symm⟩
    · rw [Function.update_of_ne same] at here
      exact .inr ⟨same, here⟩
  refine ⟨fun x armed => ?_, fun u k₁ i here set => ?_, fun u k₁ i here set => ?_, fun u k₁ here final => ?_⟩
  · by_cases same : x.action.task = t
    · obtain ⟨unfinished, serves, -⟩ := mine x armed same
      exact ⟨k', by rw [tasks, same, Function.update_self], unfinished, serves⟩
    · obtain ⟨k₂, here, serves⟩ := served.serves x ((others x same).mp armed)
      exact ⟨k₂, by rw [tasks, Function.update_of_ne same, here], serves⟩
  · obtain ⟨rfl, rfl⟩ | ⟨other, here⟩ := found here
    · exact deadline i set
    · obtain ⟨x, armed, number, after, expires⟩ := served.deadline u k₁ i here set
      refine ⟨x, (others x ?_).mpr armed, number, after, expires⟩
      rw [expires]
      exact other
  · obtain ⟨rfl, rfl⟩ | ⟨other, here⟩ := found here
    · exact sleep i set
    · obtain ⟨old, wakes⟩ := served.sleep u k₁ i here set
      refine ⟨Nat.le_trans old last, fun x armed number => ?_⟩
      by_cases same : x.action.task = t
      · rcases (mine x armed same).2.2 with before | newer
        · exact wakes x before number
        · exact absurd (number ▸ newer) (Nat.not_lt.mpr old)
      · exact wakes x ((others x same).mp armed) number
  · obtain ⟨rfl, rfl⟩ | ⟨other, here⟩ := found here
    · exact cleared final
    · exact served.cleared u k₁ here final

/-- The record of a task has changed, but not what it says about timers. -/
theorem Timed.put (timed : l.Timed) (here : l.tasks t = some k) (deadline : k'.deadline = k.deadline)
    (sleep : k'.sleep = k.sleep) (done : k'.isDone = true → k.isDone = true) : (l.put t k').Timed := by
  refine ⟨timed.sublist (.refl _) rfl rfl rfl, timed.change rfl (Nat.le_refl _) (fun _ _ => .rfl) (fun x armed mine => ?_)
    (fun i set => timed.deadline t k i here (deadline ▸ set)) (fun i set => timed.sleep t k i here (sleep ▸ set))
    (fun final => ?_)⟩
  · subst mine
    obtain ⟨unfinished, serves⟩ := timed.mine armed here
    refine ⟨?_, ?_, .inl armed⟩
    · rw [← Bool.not_eq_true] at unfinished ⊢
      exact mt done unfinished
    · unfold Timer.Serves at serves ⊢
      rw [deadline, sleep]
      exact serves
  · rw [deadline, sleep]
    exact timed.cleared t k here (done final)

/-- A task ends, and its timers are disarmed. -/
theorem Timed.clear (timed : l.Timed) (here : l.tasks t = some k) (deadline : k'.deadline = none) (sleep : k'.sleep = none) :
    ((l.clear k).put t k').Timed := by
  refine ⟨timed.sublist List.filter_sublist rfl rfl rfl, timed.change rfl (Nat.le_refl _) (fun x other => ?_)
    (fun x armed mine => ?_) (fun i set => ?_) (fun i set => ?_) fun _ => ⟨deadline, sleep⟩⟩
  · exact (timed.mem_clear here).trans (and_iff_left other)
  · exact absurd mine ((timed.mem_clear here).mp armed).2
  · exact absurd (deadline.symm.trans set) (by simp)
  · exact absurd (sleep.symm.trans set) (by simp)

theorem Timed.kill (timed : l.Timed) (here : l.tasks t = some k) (hand : Option TaskId) (cause : ScheduleFault) :
    (l.kill hand t k cause).Timed := by
  have cleared : ((l.clear k).put t (k.slain cause)).Timed := timed.clear here rfl rfl
  exact ⟨cleared.sublist (.refl _) rfl rfl rfl, cleared.serves, cleared.deadline, cleared.sleep, cleared.cleared⟩

theorem Timed.setDeadline (timed : l.Timed) (here : l.tasks t = some k) (unfinished : k.isDone = false) (after : Int) :
    (l.setDeadline t k after).Timed := by
  let timer : Timer := { id := l.lastTimer + 1, due := l.now + wholeMillis after, action := .expire t after }
  have fewer : { l with timers := l.timers.filter fun x => k.deadline ≠ some x.id }.Wound :=
    timed.sublist List.filter_sublist rfl rfl rfl
  have mem {x : Timer} : x ∈ (l.setDeadline t k after).timers ↔ x = timer ∨ x ∈ l.timers ∧ k.deadline ≠ some x.id := by
    refine Scheduler.mem_insertTimer.trans (or_congr_right ?_)
    rw [List.mem_filter, decide_eq_true_iff]
  refine ⟨fewer.insert (x := timer) rfl (Nat.le_add_right ..) rfl rfl rfl rfl,
    timed.change rfl (Nat.le_succ _) (fun x other => ?_) (fun x armed mine => ?_) (fun i set => ?_) (fun i set => ?_)
    fun final => absurd (unfinished.symm.trans final) Bool.false_ne_true⟩
  · refine mem.trans ⟨fun armed => ?_, fun armed => .inr ⟨armed, fun named => ?_⟩⟩
    · rcases armed with rfl | ⟨armed, -⟩
      · exact absurd rfl other
      · exact armed
    · obtain ⟨after', expires⟩ := timed.expires here armed named
      exact other (congrArg TimerAction.task expires)
  · rcases mem.mp armed with rfl | ⟨before, other⟩
    · exact ⟨unfinished, rfl, .inr (Nat.lt_succ_self _)⟩
    · subst mine
      have serves := (timed.mine before here).2
      refine ⟨unfinished, ?_, .inl before⟩
      unfold Timer.Serves at serves ⊢
      split at serves
      · exact serves
      · exact absurd serves other
  · exact ⟨timer, mem.mpr (.inl rfl), Option.some.inj set, after, rfl⟩
  · obtain ⟨old, wakes⟩ := timed.sleep t k i here set
    refine ⟨Nat.le_succ_of_le old, fun x armed number => ?_⟩
    rcases mem.mp armed with rfl | ⟨armed, -⟩
    · exact absurd (number ▸ old) (Nat.not_succ_le_self _)
    · exact wakes x armed number

theorem Timed.fallAsleep (timed : l.Timed) (here : l.tasks t = some k) (awake : k.sleep = none) (ns : Int) :
    ((Pause.amid (V := V) (.sleep ns)).suspend t k l).Timed := by
  let timer : Timer := { id := l.lastTimer + 1, due := l.now + wholeMillis ns, action := .wake t }
  have mem {x : Timer} : x ∈ ((Pause.amid (V := V) (.sleep ns)).suspend t k l).timers ↔ x = timer ∨ x ∈ l.timers :=
    Scheduler.mem_insertTimer
  refine ⟨timed.insert (x := timer) rfl (Nat.le_add_right ..) rfl rfl rfl rfl,
    timed.change rfl (Nat.le_succ _) (fun x other => ?_) (fun x armed mine => ?_) (fun i set => ?_) (fun i set => ?_)
    fun final => absurd final (by simp [Task.isDone])⟩
  · refine mem.trans (or_iff_right ?_)
    rintro rfl
    exact other rfl
  · rcases mem.mp armed with rfl | before
    · exact ⟨rfl, rfl, .inr (Nat.lt_succ_self _)⟩
    · subst mine
      have serves := (timed.mine before here).2
      refine ⟨rfl, ?_, .inl before⟩
      unfold Timer.Serves at serves ⊢
      split at serves
      · exact absurd (awake.symm.trans serves) (by simp)
      · exact serves
  · obtain ⟨x, armed, named⟩ := timed.deadline t k i here set
    exact ⟨x, mem.mpr (.inr armed), named⟩
  · obtain rfl := Option.some.inj set
    refine ⟨Nat.le_refl _, fun x armed number => ?_⟩
    rcases mem.mp armed with rfl | armed
    · rfl
    · exact absurd (number ▸ timed.known x armed) (Nat.not_succ_le_self _)

theorem Timed.suspend (timed : l.Timed) (here : l.tasks t = some k) (awake : k.sleep = none) (p : Pause V) :
    (p.suspend t k l).Timed := by
  unfold Pause.suspend
  split
  · rename_i ns
    exact timed.fallAsleep here awake ns
  · exact timed.put here rfl rfl fun done => done
  · exact timed.put here rfl rfl fun done => absurd done (by simp [Task.isDone])

theorem Timed.resume (timed : l.Timed) (here : l.tasks t = some k) (awake : ∀ x ∈ l.timers, x.action ≠ .wake t)
    (p : Pause V) : (p.resume t k l).Timed := by
  unfold Pause.resume
  split
  · refine ⟨timed.sublist (.refl _) rfl rfl rfl, timed.change rfl (Nat.le_refl _) (fun _ _ => .rfl)
      (fun x armed mine => ?_) (fun i set => timed.deadline t k i here set) (fun i set => absurd set (by simp))
      fun final => ⟨(timed.cleared t k here final).1, rfl⟩⟩
    subst mine
    obtain ⟨unfinished, serves⟩ := timed.mine armed here
    refine ⟨unfinished, ?_, .inl armed⟩
    unfold Timer.Serves at serves ⊢
    split at serves
    · rename_i u wakes
      exact absurd wakes (by simpa [wakes, TimerAction.task] using awake x armed)
    · exact serves
  · exact timed

theorem Timed.ring (timed : l.Timed) (first : l.timers = x :: rest) (due : x.due ≤ l.now)
    (wakes : x.action = .wake t) : (l.ring x rest).Timed := by
  have fewer : ∀ y ∈ rest, y ∈ l.timers := fun y mem => first ▸ List.mem_cons_of_mem x mem
  refine ⟨timed.toWound.ring first due, fun y armed => timed.serves y (fewer y armed), fun u k i here set => ?_,
    fun u k i here set => ?_, timed.cleared⟩
  · obtain ⟨y, armed, number, after, expires⟩ := timed.deadline u k i here set
    rw [first] at armed
    rcases List.mem_cons.mp armed with rfl | armed
    · exact absurd (wakes.symm.trans expires) (by simp)
    · exact ⟨y, armed, number, after, expires⟩
  · obtain ⟨old, wakes⟩ := timed.sleep u k i here set
    exact ⟨old, fun y armed => wakes y (fewer y armed)⟩

/-- When a task exceeds its deadline, it is killed, and the timer is gone. -/
theorem Timed.expire_eq (timed : l.Timed) (first : l.timers = x :: rest) {after : Int}
    (expires : x.action = .expire t after) (here : l.tasks t = some k) (hand : Option TaskId) (cause : ScheduleFault) :
    (l.ring x rest).kill hand t { k with deadline := none } cause =
      { l.kill hand t k cause with timerUses := (l.now, x) :: l.timerUses } := by
  have armed : x ∈ l.timers := first ▸ List.mem_cons_self ..
  have deadline : k.deadline = some x.id := by
    have mine : x.action.task = t := by rw [expires]; rfl
    have serves := (timed.mine armed (mine ▸ here)).2
    unfold Timer.Serves at serves
    rw [expires] at serves
    exact serves
  have ids := timed.ids
  rw [first] at ids
  obtain ⟨differ, -⟩ := List.nodup_cons.mp ids
  have timers : (rest.filter fun y => (none : Option TimerId) ≠ some y.id ∧ k.sleep ≠ some y.id) =
      l.timers.filter fun y => k.deadline ≠ some y.id ∧ k.sleep ≠ some y.id := by
    rw [first, List.filter_cons_of_neg (by simp [deadline])]
    refine List.filter_congr fun y mem => ?_
    have other : x.id ≠ y.id := fun same => differ (List.mem_map.mpr ⟨y, mem, same.symm⟩)
    simp [deadline, other]
  simp only [Life.kill, Life.clear, Life.ring, Life.put]
  rw [timers]
  rfl

/-- A task exceeds its deadline. -/
theorem Timed.expire (timed : l.Timed) (first : l.timers = x :: rest) (due : x.due ≤ l.now)
    {after : Int} (expires : x.action = .expire t after) (here : l.tasks t = some k) (hand : Option TaskId)
    (cause : ScheduleFault) : ((l.ring x rest).kill hand t { k with deadline := none } cause).Timed := by
  have killed := timed.kill here hand cause
  have wound : ((l.ring x rest).kill hand t { k with deadline := none } cause).Wound :=
    (timed.toWound.ring first due).sublist List.filter_sublist rfl rfl rfl
  rw [timed.expire_eq first expires here] at wound ⊢
  exact ⟨wound, killed.serves, killed.deadline, killed.sleep, killed.cleared⟩

theorem Timed.spawn (timed : l.Timed) (fresh : l.tasks (l.size + 1) = none) (name : String) (body : B) :
    (l.spawn name body).Timed := by
  refine ⟨timed.sublist (.refl _) rfl rfl rfl, timed.change rfl (Nat.le_refl _) (fun _ _ => .rfl) (fun x armed mine => ?_)
    (fun _ set => absurd set (by simp)) (fun _ set => absurd set (by simp)) fun _ => ⟨rfl, rfl⟩⟩
  obtain ⟨k, here, -⟩ := timed.serves x armed
  rw [mine] at here
  exact absurd (here.symm.trans fresh) (by simp)

end Life

/-! ## Who sleeps -/

/-- A task whose record names a timer to wake it is asleep, or at its end; whoever is asleep has such a timer. -/
structure Napping (k : Option (Task V E B)) (ending : Prop) (p : Option (Pause V)) : Prop where
  asleep : ∀ k', k = some k' → k'.sleep ≠ none → (∃ ns, p = some (.amid (.sleep ns))) ∨ ending
  timer : ∀ k' ns, k = some k' → p = some (.amid (.sleep ns)) → k'.isDone = false → k'.sleep ≠ none

namespace Napping

variable {k : Option (Task V E B)} {k' : Task V E B} {ending ending' : Prop} {p : Option (Pause V)}

theorem mono (napping : Napping k ending p) (wider : ending → ending') : Napping k ending' p :=
  ⟨fun k' here set => (napping.asleep k' here set).imp_right wider, napping.timer⟩

/-- A task that is not asleep and that no timer is to wake. -/
theorem of_awake (awake : k'.sleep = none) (other : ∀ ns, p ≠ some (.amid (.sleep ns))) : Napping (some k') ending p := by
  refine ⟨fun k₁ here set => ?_, fun k₁ ns _ paused => absurd paused (other ns)⟩
  exact absurd awake (Option.some.inj here ▸ set)

/-- A finished task. -/
theorem of_done (awake : k'.sleep = none) (done : k'.isDone = true) : Napping (some k') ending p := by
  refine ⟨fun k₁ here set => absurd awake (Option.some.inj here ▸ set), fun k₁ ns here _ unfinished => ?_⟩
  obtain rfl := Option.some.inj here
  exact absurd (done.symm.trans unfinished) (by simp)

/-- A task is suspended that no timer is to wake so far. -/
theorem suspended {me : TaskId} {k : Task V E B} (l : Life V E B) (awake : k.sleep = none) (p : Pause V) :
    Napping ((p.suspend me k l).tasks me) ending (some p) := by
  unfold Pause.suspend
  split
  · rw [Life.tasks_put]
    exact ⟨fun k₁ here set => .inl ⟨_, rfl⟩, fun k₁ ns here _ _ => Option.some.inj here ▸ by simp⟩
  · rw [Life.tasks_put]
    exact .of_awake awake (by simp)
  · rename_i other _
    rw [Life.tasks_put]
    exact .of_awake awake fun ns same => other ns (Option.some.inj same)

end Napping

namespace Roster

variable {x y : Roster V E B} {me : TaskId} {k : Task V E B}

/-- What there is to say about timers in a run. -/
structure Timed (x : Roster V E B) : Prop where
  life : x.life.Timed
  napping : ∀ t, Napping (x.life.tasks t) (x.hand = some t ∧ x.dying = true) (x.pauses t)

/-- No timer is to wake the task in turn, unless it is at its end. -/
theorem Timed.awake (timed : x.Timed) (staffed : x.Staffed) (turn : x.hand = some me) (alive : x.dying = false)
    (here : x.life.tasks me = some k) : k.sleep = none := by
  by_contra set
  obtain ⟨ns, asleep⟩ | ⟨-, dying⟩ := (timed.napping me).asleep k here set
  · exact absurd ((staffed.idle turn).symm.trans asleep) (by simp)
  · exact absurd (alive.symm.trans dying) (by simp)

theorem Timed.step (timed : x.Timed) (staffed : x.Staffed) (step : x.Step y) : y.Timed := by
  obtain ⟨life, napping⟩ := timed
  have timed : x.Timed := ⟨life, napping⟩
  -- What happens to one task does not concern the naps of the others.
  have others {l : Life V E B} {t : TaskId} {hand : Option TaskId} {dying : Bool} {p : TaskId → Option (Pause V)}
      (tasks : ∀ u, u ≠ t → l.tasks u = x.life.tasks u) (pauses : ∀ u, u ≠ t → p u = x.pauses u)
      (turn : ∀ u, u ≠ t → x.hand = some u ∧ x.dying = true → hand = some u ∧ dying = true)
      (mine : Napping (l.tasks t) (hand = some t ∧ dying = true) (p t)) (u : TaskId) :
      Napping (l.tasks u) (hand = some u ∧ dying = true) (p u) := by
    by_cases same : u = t
    · exact same ▸ mine
    · rw [tasks u same, pauses u same]
      exact (napping u).mono (turn u same)
  cases step with
  | advance free later first =>
    have wound := life.toWound.advance later first
    exact ⟨⟨wound, life.serves, life.deadline, life.sleep, life.cleared⟩, napping⟩
  | wake free first due wakes => exact ⟨life.ring first due wakes, napping⟩
  | @expire timer rest t after k free first due expires here unfinished =>
    refine ⟨life.expire first due expires here _ _, others (fun u same => Life.tasks_put_ne _ _ same) (fun _ _ => rfl)
      (fun _ _ => id) ?_⟩
    rw [show ((x.life.ring timer rest).kill x.hand t { k with deadline := none } (.deadline t after)).tasks t = some _ from
      Life.tasks_put ..]
    exact .of_done rfl (Task.isDone_ended ..)
  | @kill t k cause here unfinished =>
    refine ⟨life.kill here _ _, others (fun u same => Life.tasks_put_ne _ _ same) (fun _ _ => rfl) (fun _ _ => id) ?_⟩
    rw [show (x.life.kill x.hand t k cause).tasks t = some _ from Life.tasks_put ..]
    exact .of_done rfl (Task.isDone_ended ..)
  | @setDeadline t k after here unfinished =>
    refine ⟨life.setDeadline here unfinished after, others (fun u same => Life.tasks_put_ne _ _ same) (fun _ _ => rfl)
      (fun _ _ => id) ?_⟩
    have before := napping t
    rw [here] at before
    rw [show (x.life.setDeadline t k after).tasks t = some _ from Life.tasks_put ..]
    refine ⟨fun k₁ here₁ set => ?_, fun k₁ ns here₁ paused unfinished₁ => ?_⟩
    · obtain rfl := Option.some.inj here₁
      exact before.asleep k rfl set
    · obtain rfl := Option.some.inj here₁
      exact before.timer k ns rfl paused unfinished₁
  | spawn name body fresh =>
    refine ⟨life.spawn fresh name body, others (t := x.life.size + 1) (fun u same => Function.update_of_ne same ..)
      (fun _ _ => rfl) (fun _ _ => id) ?_⟩
    have idle : x.pauses (x.life.size + 1) = none := by
      by_contra paused
      have started := (staffed (x.life.size + 1)).paused (Option.isSome_iff_ne_none.mpr paused)
      simp [fresh] at started
    rw [show (x.life.spawn name body).tasks (x.life.size + 1) = some _ from Function.update_self .., idle]
    exact .of_awake rfl (by simp)
  | @unwind me rest p free first paused =>
    refine ⟨⟨life.toWound.sublist (.refl _) rfl rfl rfl, life.serves, life.deadline, life.sleep, life.cleared⟩,
      others (fun _ _ => rfl) (fun u same => Function.update_of_ne same ..) (by simp [free]) ?_⟩
    exact ⟨fun _ _ _ => .inr ⟨rfl, rfl⟩, fun _ _ _ paused => absurd paused (by simp)⟩
  | @start me k free here unfinished fresh =>
    refine ⟨life.put here rfl rfl fun done => absurd done (by simp [Task.isDone, Task.dispatched]),
      others (fun u same => Life.tasks_put_ne _ _ same) (fun _ _ => rfl) (by simp [free]) ?_⟩
    have awake : k.sleep = none := by
      by_contra set
      obtain ⟨ns, asleep⟩ | ⟨turn, -⟩ := (napping me).asleep k here set
      · exact absurd (fresh.symm.trans asleep) (by simp)
      · exact absurd (free.symm.trans turn) (by simp)
    rw [Life.tasks_put, fresh]
    exact .of_awake awake (by simp)
  | @goOn me k p free here unfinished paused awake =>
    have put : (x.life.put me k.dispatched).Timed :=
      life.put here rfl rfl fun done => absurd done (by simp [Task.isDone, Task.dispatched])
    refine ⟨put.resume (Life.tasks_put ..) awake p, others
      (fun u same => (p.tasks_resume_ne _ _ same).trans (Life.tasks_put_ne _ _ same))
      (fun u same => Function.update_of_ne same ..) (by simp [free]) ?_⟩
    dsimp only
    rw [Function.update_self]
    unfold Pause.resume
    split
    · rw [Life.tasks_put]
      exact .of_awake rfl (by simp)
    · rename_i other
      rw [Life.tasks_put]
      refine .of_awake ?_ (by simp)
      by_contra set
      obtain ⟨ns, asleep⟩ | ⟨turn, -⟩ := (napping me).asleep k here set
      · exact other ns (Option.some.inj (paused.symm.trans asleep))
      · exact absurd (free.symm.trans turn) (by simp)
  | @park me k p turn alive here unfinished =>
    have awake := timed.awake staffed turn alive here
    refine ⟨life.suspend here awake p, others (fun u same => p.tasks_suspend_ne _ _ same)
      (fun u same => Function.update_of_ne same ..) (by simp [alive]) ?_⟩
    dsimp only
    rw [Function.update_self]
    exact .suspended x.life awake p
  | @stay me k p turn alive here killed =>
    have awake := timed.awake staffed turn alive here
    refine ⟨life.suspend here awake p, others (fun u same => p.tasks_suspend_ne _ _ same) (fun _ _ => rfl)
      (by simp [alive]) ?_⟩
    exact ⟨fun _ _ _ => .inr ⟨turn, rfl⟩, fun _ _ _ paused => absurd paused (by simp [staffed.idle turn])⟩
  | @rest me k turn here done =>
    refine ⟨life, others (t := me) (fun _ _ => rfl) (fun _ _ => rfl) (fun u same ending => ?_) ?_⟩
    · exact absurd (Option.some.inj (ending.1.symm.trans turn)) same
    · rw [here]
      exact .of_done (life.cleared me k here done).2 done
  | @finish me k result fault turn here unfinished =>
    refine ⟨life.clear here rfl rfl, others (fun u same => Life.tasks_put_ne _ _ same) (fun _ _ => rfl)
      (fun u same ending => ?_) ?_⟩
    · exact absurd (Option.some.inj (ending.1.symm.trans turn)) same
    · rw [Life.tasks_put]
      exact .of_done rfl (Task.isDone_ended ..)

end Roster

end LedgerScript
