import LedgerScript.Proofs.Schedule.Lifetimes
import Mathlib.Logic.Relation

/-!
# The roster of a run

What a run does to the lives of tasks can be told without the scheduler: the *roster* keeps the lives, the task in turn,
whether that one is at its end, and what every suspended task is about to do.  `Roster.Step` says all that can happen to
it.

A roster is *staffed* if every task that has started and is not finished is in turn or suspended, and if exactly those
finished tasks that are still suspended have to unwind.  Once a task has ended, and is not in turn, nothing about it ever
changes, and when it gets a turn again it is at its end.
-/

open Function (update)

namespace LedgerScript

variable {V E B : Type}

/-- What there is to say about the tasks of a run. -/
structure Roster (V E B : Type) where
  life : Life V E B
  hand : Option TaskId
  /-- The task in turn is at its end. -/
  dying : Bool
  /-- What a suspended task is about to do. -/
  pauses : TaskId → Option (Pause V)

namespace Roster

/-- All that can happen. -/
inductive Step (x : Roster V E B) : Roster V E B → Prop where
  /-- Time passes until the first timer is due. -/
  | advance {now : Nat} (free : x.hand = none) (later : x.life.now ≤ now) (first : ∀ timer ∈ x.life.timers, now ≤ timer.due) :
    Step x { x with life := { x.life with now } }
  | wake {timer : Timer} {rest : List Timer} {t : TaskId} (free : x.hand = none) (first : x.life.timers = timer :: rest)
    (due : timer.due ≤ x.life.now) (wakes : timer.action = .wake t) : Step x { x with life := x.life.ring timer rest }
  /-- A task has exceeded its deadline. -/
  | expire {timer : Timer} {rest : List Timer} {t : TaskId} {after : Int} {k : Task V E B} (free : x.hand = none)
    (first : x.life.timers = timer :: rest) (due : timer.due ≤ x.life.now) (expires : timer.action = .expire t after)
    (here : x.life.tasks t = some k) (unfinished : k.isDone = false) :
    Step x { x with life := (x.life.ring timer rest).kill x.hand t { k with deadline := none } (.deadline t after) }
  | kill {t : TaskId} {k : Task V E B} (cause : ScheduleFault) (here : x.life.tasks t = some k)
    (unfinished : k.isDone = false) : Step x { x with life := x.life.kill x.hand t k cause }
  | setDeadline {t : TaskId} {k : Task V E B} (after : Int) (here : x.life.tasks t = some k)
    (unfinished : k.isDone = false) : Step x { x with life := x.life.setDeadline t k after }
  | spawn (name : String) (body : B) (fresh : x.life.tasks (x.life.size + 1) = none) :
    Step x { x with life := x.life.spawn name body }
  /-- A killed task that is suspended is taken in hand. -/
  | unwind {me : TaskId} {rest : List TaskId} {p : Pause V} (free : x.hand = none)
    (first : x.life.unwinding = me :: rest) (paused : x.pauses me = some p) :
    Step x ⟨{ x.life with unwinding := rest }, some me, true, update x.pauses me none⟩
  /-- A ready task that has not started yet is taken in hand. -/
  | start {me : TaskId} {k : Task V E B} (free : x.hand = none) (here : x.life.tasks me = some k)
    (unfinished : k.isDone = false) (fresh : x.pauses me = none) :
    Step x ⟨x.life.put me k.dispatched, some me, false, x.pauses⟩
  /-- A ready task that has been suspended is taken in hand. -/
  | goOn {me : TaskId} {k : Task V E B} {p : Pause V} (free : x.hand = none) (here : x.life.tasks me = some k)
    (unfinished : k.isDone = false) (paused : x.pauses me = some p)
    (awake : ∀ timer ∈ x.life.timers, timer.action ≠ .wake me) :
    Step x ⟨p.resume me k.dispatched (x.life.put me k.dispatched), some me, false, update x.pauses me none⟩
  | park {me : TaskId} {k : Task V E B} (p : Pause V) (turn : x.hand = some me) (alive : x.dying = false)
    (here : x.life.tasks me = some k) (unfinished : k.isDone = false) :
    Step x ⟨p.suspend me k x.life, none, false, update x.pauses me (some p)⟩
  /-- The task in turn has been killed before it was suspended, and does not leave. -/
  | stay {me : TaskId} {k : Task V E B} (p : Pause V) (turn : x.hand = some me) (alive : x.dying = false)
    (here : x.life.tasks me = some k) (killed : k.killed = true) :
    Step x { x with life := p.suspend me k x.life, dying := true }
  | rest {me : TaskId} {k : Task V E B} (turn : x.hand = some me) (here : x.life.tasks me = some k)
    (done : k.isDone = true) : Step x { x with hand := none, dying := false }
  | finish {me : TaskId} {k : Task V E B} (result : Option V) (fault : Option (TaskFault E)) (turn : x.hand = some me)
    (here : x.life.tasks me = some k) (unfinished : k.isDone = false) :
    Step x { x with life := (x.life.clear k).put me (k.ended result fault), hand := none, dying := false }

abbrev Steps : Roster V E B → Roster V E B → Prop :=
  Relation.ReflTransGen Step

/-- One step after another, while one task, if any, gets a turn. -/
abbrev Turn (hand : Option TaskId) : Roster V E B → Roster V E B → Prop :=
  Relation.ReflTransGen fun x y => x.Step y ∧ (y.hand = none ∨ y.hand = hand)

theorem Turn.steps {hand : Option TaskId} {x y : Roster V E B} (turn : Turn hand x y) : x.Steps y :=
  Relation.ReflTransGen.mono (fun _ _ step => step.1) _ _ turn

end Roster

/-! ## What happens to a life -/

namespace Life

variable {l : Life V E B} {t id : TaskId} {k k' : Task V E B}

theorem tasks_put (l : Life V E B) (id : TaskId) (k : Task V E B) : (l.put id k).tasks id = some k :=
  Function.update_self ..

theorem tasks_put_ne (l : Life V E B) (k : Task V E B) (other : t ≠ id) : (l.put id k).tasks t = l.tasks t :=
  Function.update_of_ne other ..

end Life

namespace Pause

variable {t me : TaskId} {k : Task V E B} {l : Life V E B}
variable (p : Pause V)

theorem tasks_suspend (me : TaskId) (k : Task V E B) (l : Life V E B) :
    ∃ k' : Task V E B, (p.suspend me k l).tasks me = some k' ∧ k'.started = k.started ∧ k'.killed = k.killed ∧
      k'.reason = p.reason ∧ (k.isDone = false → k'.isDone = false) := by
  unfold suspend
  split
  · exact ⟨_, l.tasks_put me _, rfl, rfl, rfl, fun _ => rfl⟩
  · exact ⟨_, l.tasks_put me _, rfl, rfl, rfl, fun unfinished => unfinished⟩
  · exact ⟨_, l.tasks_put me _, rfl, rfl, rfl, fun _ => rfl⟩

theorem tasks_suspend_ne (k : Task V E B) (l : Life V E B) (other : t ≠ me) : (p.suspend me k l).tasks t = l.tasks t := by
  unfold suspend
  split <;> exact l.tasks_put_ne _ other

theorem unwinding_suspend (me : TaskId) (k : Task V E B) (l : Life V E B) : (p.suspend me k l).unwinding = l.unwinding := by
  unfold suspend
  split <;> rfl

/-- The record of a task that goes on. -/
theorem tasks_resume (here : l.tasks me = some k) :
    ∃ k' : Task V E B, (p.resume me k l).tasks me = some k' ∧ k'.started = k.started ∧ k'.isDone = k.isDone := by
  unfold resume
  split
  · exact ⟨_, l.tasks_put me _, rfl, rfl⟩
  · exact ⟨k, here, rfl, rfl⟩

theorem tasks_resume_ne (k : Task V E B) (l : Life V E B) (other : t ≠ me) : (p.resume me k l).tasks t = l.tasks t := by
  unfold resume
  split
  · exact l.tasks_put_ne _ other
  · rfl

theorem unwinding_resume (me : TaskId) (k : Task V E B) (l : Life V E B) : (p.resume me k l).unwinding = l.unwinding := by
  unfold resume
  split <;> rfl

end Pause

/-! ## Who is where -/

/-- What the roster has to say about one task: its record, whether it is in turn, what it is about to do, and how often
it is among those that have to unwind. -/
structure Staffing (k : Option (Task V E B)) (inHand : Prop) (p : Option (Pause V)) (reaps : Nat) : Prop where
  held : inHand → p = none ∧ k.any (·.started) = true
  paused : p.isSome = true → k.any (·.started) = true
  waits : ¬ inHand → k.any (fun k => k.started && !k.isDone) = true → p.isSome = true
  reaped : reaps = if p.isSome && k.any (·.isDone) then 1 else 0
  named : ∀ k' p', k = some k' → p = some p' → k'.isDone = false → k'.reason = p'.reason

namespace Staffing

variable {k : Option (Task V E B)} {inHand inHand' : Prop} {p : Option (Pause V)} {reaps : Nat}

/-- Somebody else is in turn, or nobody. -/
theorem turn (staffing : Staffing k inHand p reaps) (before : ¬ inHand) (after : ¬ inHand') : Staffing k inHand' p reaps :=
  ⟨fun held => absurd held after, staffing.paused, fun _ => staffing.waits before, staffing.reaped, staffing.named⟩

/-- The task in turn. -/
theorem held_of (held : inHand) (idle : p = none) (started : k.any (·.started) = true) (none : reaps = 0) :
    Staffing k inHand p reaps := by
  subst idle
  exact ⟨fun _ => ⟨rfl, started⟩, nofun, fun away => absurd held away, by simpa using none,
    fun _ _ _ paused => absurd paused (by simp)⟩

/-- A task that is not in turn, has not started or is finished, and is not suspended. -/
theorem away_of (away : ¬ inHand) (idle : p = none) (ended : k.any (fun k => k.started && !k.isDone) = false)
    (none : reaps = 0) : Staffing k inHand p reaps := by
  subst idle
  refine ⟨fun held => absurd held away, nofun, fun _ waits => ?_, by simpa using none,
    fun _ _ _ paused => absurd paused (by simp)⟩
  exact absurd (ended.symm.trans waits) Bool.false_ne_true

end Staffing

namespace Roster

variable {x y : Roster V E B} {t me : TaskId} {k : Task V E B}

/-- Every task that has started and is not finished is in turn or suspended, and the finished ones that are suspended
have to unwind. -/
def Staffed (x : Roster V E B) : Prop :=
  ∀ t, Staffing (x.life.tasks t) (x.hand = some t) (x.pauses t) (x.life.unwinding.count t)

theorem Staffed.idle (staffed : x.Staffed) (turn : x.hand = some me) : x.pauses me = none :=
  ((staffed me).held turn).1

theorem Staffed.started (staffed : x.Staffed) (turn : x.hand = some me) (here : x.life.tasks me = some k) :
    k.started = true := by
  simpa [here] using ((staffed me).held turn).2

theorem Staffed.unpaused (staffed : x.Staffed) (here : x.life.tasks t = some k) (fresh : k.started = false) :
    x.pauses t = none := by
  by_contra paused
  have started := (staffed t).paused (Option.isSome_iff_ne_none.mpr paused)
  simp [here, fresh] at started

theorem Staffed.count_unwinding (staffed : x.Staffed) (here : x.life.tasks t = some k) (unfinished : k.isDone = false) :
    x.life.unwinding.count t = 0 := by
  simpa [here, unfinished] using (staffed t).reaped

theorem Staffed.count_hand (staffed : x.Staffed) (turn : x.hand = some me) : x.life.unwinding.count me = 0 := by
  simpa [staffed.idle turn] using (staffed me).reaped

theorem Staffed.paused_of_mem (staffed : x.Staffed) (due : t ∈ x.life.unwinding) : ∃ p, x.pauses t = some p := by
  refine Option.isSome_iff_exists.mp ?_
  by_contra absent
  have count := (staffed t).reaped
  rw [if_neg (by simp [absent])] at count
  exact List.count_eq_zero.mp count due

theorem Staffed.kill (staffed : x.Staffed) (here : x.life.tasks t = some k) (unfinished : k.isDone = false)
    {l : Life V E B} (tasks : l.tasks = x.life.tasks) (unwinding : l.unwinding = x.life.unwinding) {k' : Task V E B}
    (started : k'.started = k.started) (cause : ScheduleFault) : { x with life := l.kill x.hand t k' cause }.Staffed := by
  intro u
  have before := staffed u
  by_cases same : u = t
  · subst same
    have none := staffed.count_unwinding here unfinished
    simp only [Life.kill, Life.tasks_put, unwinding]
    rw [here] at before
    have final : (k'.slain cause).isDone = true := Task.isDone_ended ..
    have begun : (k'.slain cause).started = k.started := started
    rw [started]
    by_cases turn : x.hand = some u
    · refine .held_of turn (staffed.idle turn) ?_ (by simp [turn, none])
      simpa [begun] using (before.held turn).2
    · cases fresh : k.started with
      | false => exact .away_of turn (staffed.unpaused here fresh) (by simp [final]) (by simp [none])
      | true =>
        have waits := before.waits turn (by simp [fresh, unfinished])
        refine ⟨fun held => absurd held turn, fun _ => by simp [begun, fresh], fun _ _ => waits, ?_, ?_⟩
        · simp [turn, none, waits, final]
        · intro k₁ p' here₁ _ unfinished'
          obtain rfl := Option.some.inj here₁
          exact absurd (final.symm.trans unfinished') (by simp)
  · have kept : (l.kill x.hand t k' cause).tasks u = x.life.tasks u :=
      (Life.tasks_put_ne _ _ same).trans (congrFun tasks u)
    have count : (l.kill x.hand t k' cause).unwinding.count u = x.life.unwinding.count u := by
      simp only [Life.kill, unwinding]
      split
      · rfl
      · simp [List.count_append, Ne.symm same]
    rw [kept, count]
    exact before

theorem Staffed.step (staffed : x.Staffed) (step : x.Step y) : y.Staffed := by
  cases step with
  | advance | wake => exact staffed
  | expire _ _ _ _ here unfinished => exact staffed.kill here unfinished rfl rfl rfl _
  | kill cause here unfinished => exact staffed.kill here unfinished rfl rfl rfl cause
  | @setDeadline t k after here unfinished =>
    intro u
    have before := staffed u
    by_cases same : u = t
    · subst same
      rw [here] at before
      rw [show (x.life.setDeadline u k after).tasks u = some _ from Life.tasks_put ..]
      refine ⟨before.held, before.paused, before.waits, before.reaped, ?_⟩
      intro k₁ p' here₁ paused _
      obtain rfl := Option.some.inj here₁
      exact before.named k p' rfl paused unfinished
    · rw [show (x.life.setDeadline t k after).tasks u = x.life.tasks u from Life.tasks_put_ne _ _ same]
      exact before
  | spawn name body fresh =>
    intro u
    have before := staffed u
    by_cases same : u = x.life.size + 1
    · subst same
      rw [fresh] at before
      have idle : x.pauses (x.life.size + 1) = none := by
        by_contra paused
        simpa using before.paused (Option.isSome_iff_ne_none.mpr paused)
      have count := before.reaped
      simp only [Life.spawn, Function.update_self]
      refine .away_of (fun held => ?_) idle rfl (by simpa [idle] using count)
      simpa using (before.held held).2
    · simp only [Life.spawn, Function.update_of_ne same]
      exact before
  | @unwind me rest p free first paused =>
    intro u
    have before := staffed u
    by_cases same : u = me
    · subst same
      have count := before.reaped
      rw [first, List.count_cons_self] at count
      have once : rest.count u = 0 := by split at count <;> omega
      exact .held_of rfl (Function.update_self ..) (before.paused (by simp [paused])) once
    · have count : rest.count u = x.life.unwinding.count u := by rw [first, List.count_cons_of_ne (Ne.symm same)]
      simp only [Function.update_of_ne same, count]
      exact before.turn (by simp [free]) fun held => same (Option.some.inj held).symm
  | @start me k free here unfinished fresh =>
    intro u
    have before := staffed u
    by_cases same : u = me
    · subst same
      have none := staffed.count_unwinding here unfinished
      simp only [Life.tasks_put, fresh]
      exact .held_of trivial rfl rfl none
    · simp only [Life.tasks_put_ne _ _ same]
      exact before.turn (by simp [free]) fun held => same (Option.some.inj held).symm
  | @goOn me k p free here unfinished paused awake =>
    intro u
    have before := staffed u
    simp only [p.unwinding_resume]
    by_cases same : u = me
    · subst same
      have none := staffed.count_unwinding here unfinished
      obtain ⟨k', here', started, done⟩ := p.tasks_resume (x.life.tasks_put u k.dispatched)
      simp only [here', Function.update_self]
      exact .held_of trivial rfl (by simp [started, Task.dispatched]) none
    · simp only [p.tasks_resume_ne _ _ same, Life.tasks_put_ne _ _ same, Function.update_of_ne same]
      exact before.turn (by simp [free]) fun held => same (Option.some.inj held).symm
  | @park me k p turn alive here unfinished =>
    intro u
    have before := staffed u
    simp only [p.unwinding_suspend]
    by_cases same : u = me
    · subst same
      have none := staffed.count_hand turn
      obtain ⟨k', here', started, -, reason, unfinished'⟩ := p.tasks_suspend u k x.life
      simp only [here', Function.update_self]
      refine ⟨nofun, fun _ => ?_, fun _ _ => rfl, ?_, fun k₁ p₁ here₁ paused₁ _ => ?_⟩
      · simpa [started] using staffed.started turn here
      · simp [unfinished' unfinished, none]
      · obtain rfl := Option.some.inj here₁
        obtain rfl := Option.some.inj paused₁
        exact reason
    · simp only [p.tasks_suspend_ne _ _ same, Function.update_of_ne same]
      exact before.turn (by simpa [turn] using Ne.symm same) nofun
  | @stay me k p turn alive here killed =>
    intro u
    have before := staffed u
    simp only [p.unwinding_suspend]
    by_cases same : u = me
    · subst same
      have none := staffed.count_hand turn
      have idle := staffed.idle turn
      obtain ⟨k', here', started, -⟩ := p.tasks_suspend u k x.life
      simp only [here', idle]
      exact .held_of turn rfl (by simpa [started] using staffed.started turn here) none
    · simp only [p.tasks_suspend_ne _ _ same]
      exact before
  | @rest me k turn here done =>
    intro u
    have before := staffed u
    by_cases same : u = me
    · subst same
      exact .away_of nofun (staffed.idle turn) (by simp [here, done]) (staffed.count_hand turn)
    · exact before.turn (by simpa [turn] using Ne.symm same) nofun
  | @finish me k result fault turn here unfinished =>
    intro u
    have before := staffed u
    by_cases same : u = me
    · subst same
      have none := staffed.count_hand turn
      have idle := staffed.idle turn
      have final := k.isDone_ended result fault
      simp only [Life.tasks_put, idle]
      exact .away_of nofun rfl (by simp [final]) none
    · simp only [Life.tasks_put_ne _ _ same]
      exact before.turn (by simpa [turn] using Ne.symm same) nofun

/-! ## The end of a task -/

/-- A task has ended for good. -/
structure Final (x : Roster V E B) (t : TaskId) (k : Task V E B) : Prop where
  here : x.life.tasks t = some k
  done : k.isDone = true
  /-- When it gets another turn it is at its end. -/
  dying : x.hand = some t → x.dying = true

/-- A change to the record of an unfinished task leaves a finished one alone. -/
theorem Final.other (final : x.Final t k) {u : TaskId} {k' : Task V E B} (here : x.life.tasks u = some k')
    (unfinished : k'.isDone = false) : t ≠ u := by
  rintro rfl
  obtain rfl := Option.some.inj (final.here.symm.trans here)
  exact Bool.false_ne_true (unfinished.symm.trans final.done)

/-- Whoever is in turn and not at its end has not ended for good. -/
theorem Final.away (final : x.Final t k) (turn : x.hand = some me) (alive : x.dying = false) : t ≠ me := by
  rintro rfl
  exact Bool.false_ne_true (alive.symm.trans (final.dying turn))

/-- Nothing ever changes about a task that has ended. -/
theorem Final.step (final : x.Final t k) (step : x.Step y) : y.Final t k := by
  obtain ⟨here, done, dying⟩ := final
  have final : x.Final t k := ⟨here, done, dying⟩
  have known (l : Life V E B) {u : TaskId} {k' : Task V E B} (other : t ≠ u) (same : l.tasks = x.life.tasks) :
      (l.put u k').tasks t = some k :=
    (l.tasks_put_ne k' other).trans ((congrFun same t).trans here)
  cases step with
  | advance | wake => exact ⟨here, done, dying⟩
  | expire _ _ _ _ here' unfinished => exact ⟨known _ (final.other here' unfinished) rfl, done, dying⟩
  | kill cause here' unfinished => exact ⟨known _ (final.other here' unfinished) rfl, done, dying⟩
  | setDeadline after here' unfinished => exact ⟨known _ (final.other here' unfinished) rfl, done, dying⟩
  | spawn name body fresh =>
    refine ⟨(Function.update_of_ne ?_ ..).trans here, done, dying⟩
    rintro rfl
    exact absurd (here.symm.trans fresh) (by simp)
  | unwind => exact ⟨here, done, fun _ => rfl⟩
  | start free here' unfinished fresh =>
    have other := final.other here' unfinished
    exact ⟨known _ other rfl, done, fun turn => absurd (Option.some.inj turn).symm other⟩
  | goOn free here' unfinished paused awake =>
    have other := final.other here' unfinished
    exact ⟨(Pause.tasks_resume_ne _ _ _ other).trans (known _ other rfl), done,
      fun turn => absurd (Option.some.inj turn).symm other⟩
  | park p turn alive here' unfinished =>
    exact ⟨(p.tasks_suspend_ne _ _ (final.away turn alive)).trans here, done, nofun⟩
  | stay p turn alive here' killed =>
    exact ⟨(p.tasks_suspend_ne _ _ (final.away turn alive)).trans here, done, fun _ => rfl⟩
  | rest => exact ⟨here, done, nofun⟩
  | finish result fault turn here' unfinished => exact ⟨known _ (final.other here' unfinished) rfl, done, nofun⟩

theorem Final.steps (final : x.Final t k) (steps : x.Steps y) : y.Final t k := by
  induction steps with
  | refl => exact final
  | tail _ step ih => exact ih.step step

/-- A task will do nothing any more but come to its end: it is in turn, and at its end, or it has ended for good. -/
structure Doomed (x : Roster V E B) (t : TaskId) : Prop where
  dying : x.hand = some t → x.dying = true
  ended : x.hand ≠ some t → ∃ k, x.Final t k

theorem Final.doomed (final : x.Final t k) : x.Doomed t :=
  ⟨final.dying, fun _ => ⟨k, final⟩⟩

theorem Doomed.step (doomed : x.Doomed t) (step : x.Step y) : y.Doomed t := by
  by_cases turn : x.hand = some t
  · have dying := doomed.dying turn
    have stuck : ¬ x.dying = false := by simp [dying]
    have held : ¬ x.hand = none := by simp [turn]
    cases step with
    | advance free | wake free | expire free | unwind free | start free | goOn free => exact absurd free held
    | park _ _ alive | stay _ _ alive => exact absurd alive stuck
    | kill | setDeadline | spawn => exact ⟨fun _ => dying, fun away => absurd turn away⟩
    | rest turn' here done =>
      obtain rfl := Option.some.inj (turn.symm.trans turn')
      exact ⟨nofun, fun _ => ⟨_, here, done, nofun⟩⟩
    | finish result fault turn' here unfinished =>
      obtain rfl := Option.some.inj (turn.symm.trans turn')
      exact ⟨nofun, fun _ => ⟨_, Life.tasks_put .., Task.isDone_ended .., nofun⟩⟩
  · obtain ⟨k, final⟩ := doomed.ended turn
    exact (final.step step).doomed

theorem Doomed.steps (doomed : x.Doomed t) (steps : x.Steps y) : y.Doomed t := by
  induction steps with
  | refl => exact doomed
  | tail _ step ih => exact ih.step step

end Roster

end LedgerScript
