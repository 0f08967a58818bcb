import LedgerScript.Proofs.Schedule.Play

/-!
# What suspended tasks wait for

A suspended task that is not ready waits where it has been registered: under the key of what it is about to do, or in a
queue.  One that awaits another task is only woken when that one has ended, and a sleeping task only by its timer, at the
very time at which it goes on: time does not pass while a task is ready.

All of this concerns tasks that are neither finished nor in turn.  What others do leaves them alone, but may wake them.
-/

open Function (update)

namespace LedgerScript

variable {V E B : Type}

/-! ## Bystanders -/

namespace TaskView

variable {keys : WaitKey → Prop} {v v' : TaskView}

/-- A task that is not in turn is left where it is, or woken from where it waits. -/
def Left (keys : WaitKey → Prop) (v v' : TaskView) : Prop :=
  v'.ready = v.ready ∧ v'.parked = v.parked ∧ v'.alarms ≤ v.alarms ∨
    v.ready = false ∧ v'.ready = true ∧
      ∀ key, v.parked = some key →
      (key.isTimer = true → v'.alarms < v.alarms) ∧ (key.isTimer = false → keys key)

theorem Move.live (move : Move keys false v v') (live : v'.Live) (known : v.status ≠ none) : v.Live := by
  cases move with
  | calm | drop => exact live
  | wake _ _ _ unfinished | call _ unfinished | ring _ unfinished => exact ⟨unfinished, live.2⟩
  | kill => exact absurd live.2 (by simp)
  | spawn => exact absurd rfl known

/-- Whatever is made of moves leaves a live task alone or wakes it. -/
theorem Moves.left (moves : Moves keys false v v') (stands : v.Stands false) (known : v.status ≠ none) (live : v'.Live) :
    v.Live ∧ v.Left keys v' := by
  induction moves with
  | refl => exact ⟨live, .inl ⟨rfl, rfl, Nat.le_refl _⟩⟩
  | @tail mid v' before move ih =>
    have live' := move.live live (Moves.known before known)
    have stands' := stands.moves before
    obtain ⟨started, left⟩ := ih live'
    refine ⟨started, ?_⟩
    -- Only a task that has not been woken yet can be woken.
    have asleep (unready : mid.ready = false) : v.ready = false ∧ mid.parked = v.parked ∧ mid.alarms ≤ v.alarms := by
      obtain ⟨ready, parked, alarms⟩ | ⟨-, ready, -⟩ := left
      · exact ⟨ready ▸ unready, parked, alarms⟩
      · exact absurd (unready.symm.trans ready) (by simp)
    cases move with
    | calm fewer =>
      obtain ⟨ready, parked, alarms⟩ | ⟨unready, ready, woken⟩ := left
      · exact .inl ⟨ready, parked, Nat.le_trans fewer alarms⟩
      · refine .inr ⟨unready, ready, fun key here => ?_⟩
        exact (woken key here).imp_left fun woken timer => Nat.lt_of_le_of_lt fewer (woken timer)
    | @wake _ key here may noTimer unfinished =>
      obtain ⟨-, unready, -⟩ := stands'.of_parked live' here
      obtain ⟨ready, parked, -⟩ := asleep unready
      refine .inr ⟨ready, rfl, fun key' here' => ?_⟩
      obtain rfl := Option.some.inj (here'.symm.trans (parked.symm.trans here))
      exact ⟨fun timer => absurd (noTimer.symm.trans timer) (by simp), fun _ => may⟩
    | call here unfinished =>
      obtain ⟨-, unready, unparked, -⟩ := stands'.of_queued live' (Nat.zero_lt_of_lt here)
      obtain ⟨ready, parked, -⟩ := asleep unready
      refine .inr ⟨ready, rfl, fun key here => ?_⟩
      exact absurd (here.symm.trans (parked.symm.trans unparked)) (by simp)
    | ring here unfinished =>
      obtain ⟨-, key, waits, timer⟩ := stands'.of_alarms live' (Nat.zero_lt_of_lt here)
      obtain ⟨-, unready, -⟩ := stands'.of_parked live' waits
      obtain ⟨ready, parked, alarms⟩ := asleep unready
      refine .inr ⟨ready, rfl, fun key' here' => ?_⟩
      obtain rfl := Option.some.inj (here'.symm.trans (parked.symm.trans waits))
      exact ⟨fun _ => Nat.lt_of_lt_of_le here alarms, fun noTimer => absurd (noTimer.symm.trans timer) (by simp)⟩
    | drop fewer done => exact absurd (live'.1.symm.trans done) (by simp)
    | kill => exact absurd live.2 (by simp)
    | spawn => exact absurd live'.1 (by simp [isDone])

end TaskView

namespace Life

variable {l l' l'' : Life V E B} {t id : TaskId} {k k' : Task V E B}

/-- Time stands still, and as long as a task is unfinished the timers that will wake it stay. -/
structure Spares (t : TaskId) (l l' : Life V E B) : Prop where
  now : l'.now = l.now
  uses : l.timerUses ⊆ l'.timerUses
  sleep : ∀ k', l'.tasks t = some k' → k'.isDone = false →
    (∃ k, l.tasks t = some k ∧ k.isDone = false ∧ k.sleep = k'.sleep) ∧
      l'.timers.countP (·.action = .wake t) = l.timers.countP (·.action = .wake t)

theorem Spares.refl (t : TaskId) (l : Life V E B) : l.Spares t l :=
  ⟨rfl, List.Subset.refl _, fun k here unfinished => ⟨⟨k, here, unfinished, rfl⟩, rfl⟩⟩

theorem Spares.trans (first : l.Spares t l') (second : l'.Spares t l'') : l.Spares t l'' := by
  refine ⟨second.now.trans first.now, List.Subset.trans first.uses second.uses, fun k'' here'' unfinished => ?_⟩
  obtain ⟨⟨k', here', unfinished', sleep'⟩, alarms'⟩ := second.sleep k'' here'' unfinished
  obtain ⟨⟨k, here, unfinished, sleep⟩, alarms⟩ := first.sleep k' here' unfinished'
  exact ⟨⟨k, here, unfinished, sleep.trans sleep'⟩, alarms'.trans alarms⟩

/-- Something happens to another task, and to timers that do not concern this one. -/
theorem Spares.other (now : l'.now = l.now) (uses : l.timerUses ⊆ l'.timerUses) (tasks : l'.tasks t = l.tasks t)
    (alarms : l'.timers.countP (·.action = .wake t) = l.timers.countP (·.action = .wake t)) : l.Spares t l' :=
  ⟨now, uses, fun k here unfinished => ⟨⟨k, tasks ▸ here, unfinished, rfl⟩, alarms⟩⟩

theorem spares_put (other : t ≠ id) (l : Life V E B) (k : Task V E B) : l.Spares t (l.put id k) :=
  .other rfl (List.Subset.refl _) (l.tasks_put_ne k other) rfl

/-- The timers of another task are disarmed. -/
theorem Timed.alarms_clear (timed : l.Timed) (here : l.tasks id = some k) (other : t ≠ id) :
    (l.clear k).timers.countP (·.action = .wake t) = l.timers.countP (·.action = .wake t) := by
  show (l.timers.filter _).countP _ = _
  rw [List.countP_filter]
  refine List.countP_congr fun x armed => ?_
  rw [Bool.and_eq_true, and_iff_left_iff_imp]
  intro wakes
  have kept := (timed.mem_clear (x := x) here).mpr ⟨armed, by simpa [of_decide_eq_true wakes, TimerAction.task] using other⟩
  exact (List.mem_filter.mp kept).2

theorem Timed.spares_kill (timed : l.Timed) (here : l.tasks id = some k) (hand : Option TaskId) (cause : ScheduleFault)
    (t : TaskId) : l.Spares t (l.kill hand id k cause) := by
  by_cases same : t = id
  · subst same
    refine ⟨rfl, List.Subset.refl _, fun k' here' unfinished => ?_⟩
    obtain rfl := Option.some.inj ((tasks_put ..).symm.trans here')
    exact absurd ((Task.isDone_ended ..).symm.trans unfinished) (by simp)
  · exact .other rfl (List.Subset.refl _) (tasks_put_ne _ _ same) (timed.alarms_clear here same)

theorem Timed.spares_finish (timed : l.Timed) (here : l.tasks id = some k) (other : t ≠ id) (k' : Task V E B) :
    l.Spares t ((l.clear k).put id k') :=
  .other rfl (List.Subset.refl _) (tasks_put_ne _ _ other) (timed.alarms_clear here other)

theorem Timed.spares_setDeadline (timed : l.Timed) (here : l.tasks id = some k) (unfinished : k.isDone = false)
    (after : Int) (t : TaskId) : l.Spares t (l.setDeadline id k after) := by
  have alarms : (l.setDeadline id k after).timers.countP (·.action = .wake t) = l.timers.countP (·.action = .wake t) := by
    show (Scheduler.insertTimer _ _).countP _ = _
    rw [Scheduler.countP_insertTimer, List.countP_cons_of_neg (by simp), List.countP_filter]
    refine List.countP_congr fun x armed => ?_
    rw [Bool.and_eq_true, and_iff_left_iff_imp]
    intro wakes
    refine decide_eq_true fun named => ?_
    obtain ⟨after', expires⟩ := timed.expires here armed named
    exact absurd ((of_decide_eq_true wakes).symm.trans expires) (by simp)
  by_cases same : t = id
  · subst same
    refine ⟨rfl, List.Subset.refl _, fun k' here' _ => ⟨⟨k, here, unfinished, ?_⟩, alarms⟩⟩
    obtain rfl := Option.some.inj ((tasks_put ..).symm.trans here')
    rfl
  · exact .other rfl (List.Subset.refl _) (tasks_put_ne _ _ same) alarms

theorem spares_suspend (p : Pause V) (k : Task V E B) (l : Life V E B) (other : t ≠ id) :
    l.Spares t (p.suspend id k l) := by
  unfold Pause.suspend
  split
  · refine .other rfl (List.Subset.refl _) (tasks_put_ne _ _ other) ?_
    show (Scheduler.insertTimer _ _).countP _ = _
    rw [Scheduler.countP_insertTimer, List.countP_cons_of_neg (by simpa using Ne.symm other)]
  · exact spares_put other l _
  · exact spares_put other l _

theorem spares_resume (p : Pause V) (k : Task V E B) (l : Life V E B) (other : t ≠ id) : l.Spares t (p.resume id k l) := by
  unfold Pause.resume
  split
  · exact spares_put other l _
  · exact .refl t l

end Life

/-! ## Places -/

/-- The key under which a task waits that is about to do something, if a timer is to wake it. -/
def Pause.place (sleep : Option TimerId) : Pause V → Option WaitKey
  | amid (.sleep _) => sleep.map .timer
  | p => p.key 0

theorem Pause.key_suspend (p : Pause V) {me : TaskId} {k k' : Task V E B} {l : Life V E B}
    (here : (p.suspend me k l).tasks me = some k') : p.key l.lastTimer = p.place k'.sleep := by
  cases p with
  | door m => rfl
  | amid op =>
    cases op with
    | sleep ns =>
      obtain rfl := Option.some.inj ((Life.tasks_put ..).symm.trans here)
      rfl
    | await | yield | lock | permit | barrier | send | receive => rfl

namespace Scheduler

variable {s s' : Scheduler V E B} {t me : TaskId} {p : Pause V} {sleep : Option TimerId} {keys : WaitKey → Prop}
  {exempt : Option ObjectId} {hand : Option TaskId}

/-- A suspended task waits in its place until it is woken for a reason. -/
structure Waits (s : Scheduler V E B) (t : TaskId) (sleep : Option TimerId) (p : Pause V) : Prop where
  place : (s.view t).ready = false → (s.view t).parked = p.place sleep
  armed : (s.view t).ready = false → ∀ ns, p = .amid (.sleep ns) → 0 < (s.view t).alarms
  woken : (s.view t).ready = true → ∀ u, p = .amid (.await u) → s.Ended u
  slept : (s.view t).ready = true → ∀ ns, p = .amid (.sleep ns) →
    ∃ timer, (s.now, timer) ∈ s.timerUses ∧ timer.action = .wake t ∧ sleep = some timer.id

/-- What is done leaves a task that is not in turn alone, but may wake it. -/
structure Bystands (t : TaskId) (s s' : Scheduler V E B) : Prop where
  left : ∃ keys, (s.view t).Left keys (s'.view t) ∧ ∀ u, keys (.join u) → s'.Ended u
  ended : ∀ u, s.Ended u → s'.Ended u
  spares : s.life.Spares t s'.life

/-- A suspended task still waits in its place, or has been woken for a reason. -/
theorem Waits.kept (waits : s.Waits t sleep p) (stands : (s.view t).Stands false) (live : (s.view t).Live)
    (bystands : Bystands t s s') (alarms : (s'.view t).alarms = (s.view t).alarms) : s'.Waits t sleep p := by
  obtain ⟨⟨keys, left, joins⟩, ended, spares⟩ := bystands
  obtain ⟨ready, parked, -⟩ | ⟨unready, ready, woken⟩ := left
  · refine ⟨fun unready => ?_, fun unready ns naps => ?_, fun ready' u awaits => ?_, fun ready' ns naps => ?_⟩
    · rw [parked]
      exact waits.place (ready ▸ unready)
    · rw [alarms]
      exact waits.armed (ready ▸ unready) ns naps
    · exact ended u (waits.woken (ready ▸ ready') u awaits)
    · obtain ⟨timer, fired, wakes⟩ := waits.slept (ready ▸ ready') ns naps
      have now : s'.now = s.now := spares.now
      exact ⟨timer, now ▸ spares.uses fired, wakes⟩
  · have place := waits.place unready
    refine ⟨fun unready' => ?_, fun unready' => ?_, fun _ u awaits => ?_, fun _ ns naps => ?_⟩
    · exact absurd (ready.symm.trans unready') (by simp)
    · exact absurd (ready.symm.trans unready') (by simp)
    · subst awaits
      exact joins u ((woken (.join u) place).2 rfl)
    · obtain ⟨-, key, here, timer⟩ := stands.of_alarms live (waits.armed unready ns naps)
      exact absurd ((woken key here).1 timer) (by simp [alarms])

theorem bystands_of_moves (stands : (s.view t).Stands false) (known : (s.view t).status ≠ none) (live : (s'.view t).Live)
    (moves : TaskView.Moves (s'.Wakes exempt) false (s.view t) (s'.view t)) (ended : ∀ u, s.Ended u → s'.Ended u)
    (spares : s.life.Spares t s'.life) : Bystands t s s' :=
  ⟨⟨_, (moves.left stands known live).2, fun u wakes => wakes.join u rfl⟩, ended, spares⟩

/-- Nothing can be seen of a change. -/
theorem bystands_of_view (ready : (s'.view t).ready = (s.view t).ready) (parked : (s'.view t).parked = (s.view t).parked)
    (alarms : (s'.view t).alarms = (s.view t).alarms) (ended : ∀ u, s.Ended u → s'.Ended u)
    (spares : s.life.Spares t s'.life) : Bystands t s s' :=
  ⟨⟨fun _ => False, .inl ⟨ready, parked, Nat.le_of_eq alarms⟩, fun _ => False.elim⟩, ended, spares⟩

end Scheduler

namespace Play

variable {x y : Play V E B} {s s' : Scheduler V E B} {t me : TaskId} {p : Pause V} {k : Task V E B} {dying : Bool}
  {pauses : TaskId → Option (Pause V)}
variable {timer : Timer} {rest : List Timer}

def Suspense (x : Play V E B) : Prop :=
  ∀ t p k, x.pauses t = some p → x.sched.life.tasks t = some k → k.isDone = false → x.sched.Waits t k.sleep p

/-- Suspended tasks are not in turn. -/
theorem Lawful.away (lawful : x.Lawful) (paused : x.pauses t = some p) : x.hand ≠ some t :=
  fun turn => absurd ((lawful.staffed.idle turn).symm.trans paused) (by simp)

theorem Lawful.live (lawful : x.Lawful) (away : x.hand ≠ some t) (here : x.sched.life.tasks t = some k)
    (unfinished : k.isDone = false) : (x.sched.view t).Live :=
  lawful.regular.live_other away ((Scheduler.isDone_of_tasks here).trans unfinished)

theorem known_of_tasks (here : s.life.tasks t = some k) : (s.view t).status ≠ none := by
  obtain ⟨k₀, known, -⟩ := Scheduler.task?_of_tasks here
  simp [Scheduler.view, known]

/-- What is known of a suspended task before a step: it is known, and stands well. -/
structure Aside (x : Play V E B) (t : TaskId) : Prop where
  away : x.hand ≠ some t
  stands : (x.sched.view t).Stands false
  known : (x.sched.view t).status ≠ none

theorem Lawful.aside (lawful : x.Lawful) (paused : x.pauses t = some p) : x.Aside t := by
  have away := lawful.away paused
  have started := (lawful.staffed t).paused (Option.isSome_iff_exists.mpr ⟨p, paused⟩)
  obtain ⟨k, here, -⟩ := (Option.any_eq_true _ _).mp started
  exact ⟨away, lawful.regular.stands_other away, known_of_tasks here⟩

/-- A task that has been suspended before still waits in its place, or has been woken for a reason. -/
theorem Suspense.bystand (suspense : x.Suspense) (lawful : x.Lawful) (lawful' : y.Lawful) (before : x.pauses t = some p)
    (paused : y.pauses t = some p) (here : y.sched.life.tasks t = some k) (unfinished : k.isDone = false)
    (bystands : x.Aside t → (y.sched.view t).Live → x.sched.Bystands t y.sched) : y.sched.Waits t k.sleep p := by
  have aside := lawful.aside before
  have bystands := bystands aside (lawful'.live (lawful'.away paused) here unfinished)
  obtain ⟨⟨k₀, here₀, unfinished₀, sleep⟩, alarms⟩ := bystands.spares.sleep k here unfinished
  rw [← sleep]
  have live := lawful.live aside.away here₀ unfinished₀
  exact (suspense t p k₀ before here₀ unfinished₀).kept aside.stands live bystands alarms

theorem waits_ring (waits : s.Waits t k.sleep p) (lawful : Lawful ⟨s, none, dying, pauses⟩)
    (away : pauses t = some p) (here : s.life.tasks t = some k) (unfinished : k.isDone = false)
    (first : s.timers = timer :: rest) (wakes : timer.action = .wake t) : (s.ring timer rest).Waits t k.sleep p := by
  have aside := lawful.aside away
  have stands : (s.view t).Stands false := aside.stands
  have live : (s.view t).Live := lawful.live aside.away here unfinished
  have armed : timer ∈ s.life.timers := by
    rw [show s.life.timers = timer :: rest from first]
    exact List.mem_cons_self ..
  have alarms : 0 < (s.view t).alarms := List.countP_pos_iff.mpr ⟨timer, armed, by simp [wakes]⟩
  obtain ⟨-, key, parked, isTimer⟩ := stands.of_alarms live alarms
  obtain ⟨-, unready, -⟩ := stands.of_parked live parked
  have place := waits.place unready
  have ready : ((s.ring timer rest).view t).ready = true := by
    have tidy := lawful.regular.tidy
    have tidy' : Scheduler.Tidy { s with timers := rest, timerUses := (s.now, timer) :: s.timerUses } := tidy.of_same rfl
    unfold Scheduler.ring Scheduler.fire
    rw [wakes]
    dsimp only
    rw [Scheduler.view_wake tidy', if_pos ⟨rfl, live.1⟩]
    rfl
  refine ⟨fun unready' => absurd (ready.symm.trans unready') (by simp),
    fun unready' => absurd (ready.symm.trans unready') (by simp), fun _ u awaits => ?_, fun _ ns naps => ?_⟩
  · rw [parked, awaits] at place
    obtain rfl := Option.some.inj place
    exact absurd isTimer (by simp [WaitKey.isTimer])
  · have life := s.life_ring_wake rest wakes
    have now : (s.ring timer rest).now = s.now := congrArg Life.now life
    have uses : (s.ring timer rest).timerUses = (s.now, timer) :: s.timerUses := congrArg Life.timerUses life
    refine ⟨timer, ?_, wakes, ?_⟩
    · rw [now, uses]
      exact List.mem_cons_self ..
    · have mine : timer.action.task = t := by rw [wakes]; rfl
      have serves := (lawful.timed.life.mine armed (mine ▸ here)).2
      unfold Timer.Serves at serves
      rw [wakes] at serves
      exact serves

/-- A timer fires that does not wake this task. -/
theorem spares_ring (lawful : Lawful ⟨s, none, dying, pauses⟩)
    (first : s.timers = timer :: rest) (other : timer.action ≠ .wake t) : s.life.Spares t (s.ring timer rest).life := by
  have timers : s.life.timers = timer :: rest := first
  have life : s.life.Timed := lawful.timed.life
  have later : s.life.timerUses ⊆ (s.now, timer) :: s.timerUses := List.subset_cons_self ..
  cases action : timer.action with
  | wake u =>
    rw [s.life_ring_wake rest action]
    refine .other rfl later rfl ?_
    rw [timers, List.countP_cons_of_neg (by simpa using other)]
    rfl
  | expire u after =>
    have armed : timer ∈ s.life.timers := by
      rw [timers]
      exact List.mem_cons_self ..
    obtain ⟨k, here, unfinished, -⟩ := life.serves timer armed
    rw [action] at here
    have killed := life.spares_kill here s.current (.deadline u after) t
    rw [Scheduler.life_ring_expire rest action here unfinished, life.expire_eq timers action here]
    exact ⟨killed.now, later, killed.sleep⟩

theorem Suspense.ring (suspense : Suspense ⟨s, none, dying, pauses⟩)
    (lawful : Lawful ⟨s, none, dying, pauses⟩) (lawful' : Lawful ⟨s.ring timer rest, none, dying, pauses⟩)
    (first : s.timers = timer :: rest) : Suspense ⟨s.ring timer rest, none, dying, pauses⟩ := by
  intro t p k paused here unfinished
  by_cases wakes : timer.action = .wake t
  · have same : s.life.tasks t = some k := by
      have here : (s.ring timer rest).life.tasks t = some k := here
      rwa [s.life_ring_wake rest wakes] at here
    exact waits_ring (suspense t p k paused same unfinished) lawful paused same unfinished first wakes
  · refine suspense.bystand lawful lawful' paused paused here unfinished fun aside live => ?_
    have evolution : s.Evolution none none (s.ring timer rest) := s.evolves_ring first lawful.regular
    exact Scheduler.bystands_of_moves aside.stands aside.known live (evolution.moves t) (fun u => evolution.ended)
      (spares_ring lawful first wakes)

theorem Suspense.fireDue (n : Nat) (suspense : Suspense ⟨s, none, dying, pauses⟩) (lawful : Lawful ⟨s, none, dying, pauses⟩) :
    Suspense ⟨s.fireDue n, none, dying, pauses⟩ := by
  induction n generalizing s with
  | zero => exact suspense
  | succ n ih =>
    have once := lawful.step (.fire rfl 1)
    unfold Scheduler.fireDue at once ⊢
    split
    · rename_i timer rest first
      rw [first] at once
      dsimp only at once
      split
      · rename_i due
        rw [if_pos due] at once
        exact ih (suspense.ring lawful once first) once
      · exact suspense
    · exact suspense

/-- Time passes while no task is ready, and timers fire. -/
theorem Suspense.advance (suspense : Suspense ⟨s, none, dying, pauses⟩) (lawful : Lawful ⟨s, none, dying, pauses⟩)
    (idle : s.ready = []) (later : s.advance? = some s') : Suspense ⟨s', none, dying, pauses⟩ := by
  unfold Scheduler.advance? at later
  split at later
  · cases later
  · rename_i timer rest armed
    obtain rfl := Option.some.inj later
    obtain ⟨regular, current, staffed, timed⟩ := lawful
    have step := step_advance timed armed
    have moved : Scheduler.Evolution none none s { s with now := max s.now timer.due } :=
      Scheduler.Steady.evolves ⟨rfl, rfl, rfl⟩
        (fun tidy => tidy.of_same rfl) (fun _ => rfl) regular
    refine Suspense.fireDue _ (fun t p k paused here unfinished => ?_)
      ⟨regular.evolve moved, current, staffed.step step, timed.step staffed step⟩
    have waits := suspense t p k paused here unfinished
    have unready : (s.view t).ready = false := decide_eq_false (by simp [idle])
    refine ⟨waits.place, waits.armed, fun ready => ?_, fun ready => ?_⟩
    · exact absurd (unready.symm.trans ready) (by simp)
    · exact absurd (unready.symm.trans ready) (by simp)

/-! ### Whoever is picked -/

/-- A pick leaves the other unfinished tasks alone. -/
theorem view_pickReady (n : Nat) {s s' : Scheduler V E B} (tidy : s.Tidy) {r : Option TaskId}
    (picked : s.pickReady n = (r, s')) (unfinished : s.isDone t = false) (other : r ≠ some t) : s'.view t = s.view t := by
  induction n generalizing s with
  | zero =>
    cases picked
    rfl
  | succ n ih =>
    unfold Scheduler.pickReady at picked
    dsimp only at picked
    split at picked
    · cases picked
      rfl
    · rename_i id here
      obtain ⟨tidy', views⟩ := tidy.pick here s.picks.tail
      split at picked
      · rename_i done
        have differs : t ≠ id := by
          rintro rfl
          exact absurd (unfinished.symm.trans done) (by simp)
        rw [ih tidy' picked unfinished, views, if_neg differs]
      · cases picked
        rw [views, if_neg fun same => other (congrArg some same.symm)]

/-- A pick does not change the history. -/
theorem ended_pickReady {n : Nat} (regular : s.Regular none) {r : Option TaskId} (picked : s.pickReady n = (r, s'))
    (u : TaskId) (ended : s.Ended u) : s'.Ended u := by
  have steady := (regular.pickReady n).1
  rw [picked] at steady
  unfold Scheduler.Ended
  rw [steady.history]
  exact ended

/-- What the books say about the others when a task gets its turn. -/
theorem view_dispatch (regular : s.Regular none) (next : s.nextReady = (some me, s')) (unfinished : s.isDone t = false)
    (other : t ≠ me) : ((s'.setRunning me).setCurrent (some me)).view t = s.view t := by
  have same : s'.view t = s.view t :=
    view_pickReady _ regular.tidy next unfinished fun held => other (Option.some.inj held).symm
  obtain ⟨k, here, -⟩ := Scheduler.task?_of_isDone (Scheduler.pickReady_unfinished _ next)
  have known : ∃ k, s'.task? me = some k := by
    obtain ⟨k', here', -⟩ := Scheduler.task?_of_life (Scheduler.life_nextReady next) here
    exact ⟨k', here'⟩
  obtain ⟨k', known⟩ := known
  show (s'.modifyTask me _).view t = s.view t
  rw [Scheduler.view_modifyTask known, if_neg other, same]

/-! ### All that can happen -/

theorem spares_kill (timed : s.life.Timed) (id : TaskId) (cause : ScheduleFault) (t : TaskId) :
    s.life.Spares t (s.kill id cause).life := by
  cases done : s.isDone id with
  | true =>
    rw [Scheduler.kill_done done]
    exact .refl t _
  | false =>
    obtain ⟨k, here, unfinished⟩ := Scheduler.tasks_of_isDone done
    rw [Scheduler.life_kill here unfinished]
    exact timed.spares_kill here _ _ t

theorem spares_setDeadline (timed : s.life.Timed) (id : TaskId) (after : Int) (t : TaskId) :
    s.life.Spares t (s.setDeadline id after).life := by
  cases done : s.isDone id with
  | true =>
    rw [Scheduler.setDeadline_done done]
    exact .refl t _
  | false =>
    obtain ⟨k, here, unfinished⟩ := Scheduler.tasks_of_isDone done
    rw [Scheduler.life_setDeadline here unfinished]
    exact timed.spares_setDeadline here unfinished after t

/-- What the task in turn does leaves the others alone. -/
theorem bystands_run {α : Type} (lawful : x.Lawful) (op : TaskOp V E B α) (aside : x.Aside t)
    (live : ((op.run x.sched).2.view t).Live) : x.sched.Bystands t (op.run x.sched).2 := by
  have evolution : x.sched.Evolution none x.hand (op.run x.sched).2 := op.evolves _ lawful.regular
  have moves := evolution.moves t
  rw [decide_eq_false aside.away] at moves
  refine Scheduler.bystands_of_moves aside.stands aside.known live moves (fun u => evolution.ended) ?_
  have timed := lawful.timed.life
  have calm (others : ¬ op.Lives) (noSpawn : ∀ name body k, op ≠ .spawn name body k) :
      x.sched.life.Spares t (op.run x.sched).2.life := by
    have same : x.sched.Same .still (op.run x.sched).2 := Scheduler.Same.run op (fun _ => trivial) others noSpawn (.refl _)
    rw [same.life]
    exact .refl t _
  cases op with
  | spawn name body k =>
    obtain ⟨s₁, pushed, spawned⟩ := x.sched.life_spawn name body
    have fresh : x.sched.life.tasks (x.sched.life.size + 1) = none := by
      have beyond : x.sched.task? (x.sched.tasks.size + 1) = none := by simp [Scheduler.task?]
      exact congrArg (Option.map Task.lasting) beyond
    have other : t ≠ x.sched.life.size + 1 := by
      rintro rfl
      exact aside.known (by simpa [Scheduler.view] using Option.map_eq_none_iff.mp fresh)
    have first : x.sched.life.Spares t s₁.life := by
      rw [pushed]
      exact .other rfl (List.Subset.refl _) (Function.update_of_ne other ..) rfl
    show x.sched.life.Spares t (x.sched.spawn name body).2.life
    rw [spawned]
    split
    · exact first.trans (spares_setDeadline (pushed ▸ timed.spawn fresh name body) _ _ t)
    · exact first
  | cancel id => exact spares_kill timed id .cancelled t
  | setDeadline id after => exact spares_setDeadline timed id after t
  | _ => exact calm (fun lives => lives) (by simp)

/-- A task that has just been suspended waits in its place. -/
theorem waits_park {k₀ : Task V E B} (regular : s.Regular (some me)) (current : s.current = some me)
    (here₀ : s.life.tasks me = some k₀) (parked : p.start s = (.parked, s')) (alive : (s.view me).killed = false)
    (lawful' : Lawful ⟨s'.notePark.setCurrent none, none, dying, pauses⟩)
    (here : (s'.notePark.setCurrent none).life.tasks me = some k) (unfinished : k.isDone = false) :
    (s'.notePark.setCurrent none).Waits me k.sleep p := by
  have attempted := Scheduler.attempted current here₀ p
  rw [parked] at attempted
  obtain ⟨lives, place⟩ := attempted
  have place := place (regular.running alive).2.2.1
  have life : (s'.notePark.setCurrent none).life = p.suspend me k₀ s.life := (life_notePark s').trans lives
  rw [life] at here
  have stands : ((s'.notePark.setCurrent none).view me).Stands false := lawful'.regular.stands_other (by simp)
  have live : ((s'.notePark.setCurrent none).view me).Live := lawful'.live nofun (life ▸ here) unfinished
  have unready {key : WaitKey} (parked : s'.parked.get? me = some key) : ((s'.notePark.setCurrent none).view me).ready = false :=
    (stands.of_parked live parked).2.1
  refine ⟨fun _ => ?_, fun _ ns naps => ?_, fun ready u awaits => ?_, fun ready ns naps => ?_⟩
  · exact place.trans (p.key_suspend here)
  · subst naps
    have armed : 0 < (s'.notePark.setCurrent none).life.timers.countP (·.action = .wake me) := by
      rw [life]
      refine List.countP_pos_iff.mpr ⟨_, Scheduler.mem_insertTimer.mpr (.inl rfl), ?_⟩
      exact decide_eq_true rfl
    exact armed
  · subst awaits
    exact absurd ((unready place).symm.trans ready) (by simp)
  · subst naps
    exact absurd ((unready place).symm.trans ready) (by simp)

/-- A task that gets its turn leaves the others alone. -/
theorem bystands_dispatch (regular : s.Regular none) (next : s.nextReady = (some me, s')) (other : t ≠ me)
    (unfinished : ((s'.setRunning me).setCurrent (some me)).isDone t = false) :
    s.Bystands t ((s'.setRunning me).setCurrent (some me)) := by
  obtain ⟨k₀, -, -, life⟩ := life_dispatch next
  have before : s.isDone t = false := by
    obtain ⟨k, here, unfinished⟩ := Scheduler.tasks_of_isDone unfinished
    rw [life, Life.tasks_put_ne _ _ other] at here
    exact (Scheduler.isDone_of_tasks here).trans unfinished
  have view := view_dispatch regular next before other
  refine Scheduler.bystands_of_view (by rw [view]) (by rw [view]) (by rw [view]) (fun u ended => ?_) ?_
  · have ended := ended_pickReady regular next u ended
    unfold Scheduler.Ended at ended ⊢
    rw [show ((s'.setRunning me).setCurrent (some me)).lockUses = (s'.setRunning me).lockUses from rfl,
      Scheduler.setRunning, Scheduler.modifyTask_eq]
    exact ended
  · rw [life]
    exact Life.spares_put other _ _

/-- A task that goes on leaves the others alone. -/
theorem bystands_goOn (regular : s.Regular none) (next : s.nextReady = (some me, s')) (other : t ≠ me)
    (known : (s.view t).status ≠ none) (live : ((p.finish ((s'.setRunning me).setCurrent (some me))).view t).Live) :
    s.Bystands t (p.finish ((s'.setRunning me).setCurrent (some me))) := by
  let s₁ : Scheduler V E B := (s'.setRunning me).setCurrent (some me)
  have taken : s₁.Regular (some me) := (regular.nextReady_some next).setCurrent (some me)
  obtain ⟨k, -, -, life⟩ := life_dispatch next
  have here : s₁.life.tasks me = some k.dispatched := by
    rw [life]
    exact Life.tasks_put ..
  have resumed : (p.finish s₁).life = p.resume me k.dispatched s₁.life := Scheduler.life_goOn rfl here p
  have unfinished : s₁.isDone t = false := by
    obtain ⟨k', here', unfinished⟩ := Scheduler.tasks_of_isDone ((Scheduler.isDone_view _ t).symm.trans live.1)
    rw [show ((s'.setRunning me).setCurrent (some me)) = s₁ from rfl, resumed, Pause.tasks_resume_ne _ _ _ other] at here'
    exact (Scheduler.isDone_of_tasks here').trans unfinished
  have first : s.Bystands t s₁ := bystands_dispatch regular next other unfinished
  have before : s.isDone t = false := by
    obtain ⟨k', here', unfinished⟩ := Scheduler.tasks_of_isDone unfinished
    rw [life, Life.tasks_put_ne _ _ other] at here'
    exact (Scheduler.isDone_of_tasks here').trans unfinished
  have view : s₁.view t = s.view t := view_dispatch regular next before other
  have spares : s.life.Spares t (p.finish s₁).life := by
    refine first.spares.trans ?_
    rw [resumed]
    exact Life.spares_resume p _ _ other
  cases p with
  | door m =>
    have entered : (s₁.enterBlock m).view t = s.view t := (s₁.view_use (fun _ => LockUse.noConfusion) t).trans view
    exact Scheduler.bystands_of_view (congrArg TaskView.ready entered) (congrArg TaskView.parked entered)
      (congrArg TaskView.alarms entered) (fun u ended => List.mem_cons_of_mem _ (first.ended u ended)) spares
  | amid op =>
    have evolution : Scheduler.Evolution none (some me) s₁ (op.finish s₁).2 := op.evolves_finish s₁ taken
    have moves := evolution.moves t
    rw [view, decide_eq_false (by simpa using Ne.symm other)] at moves
    exact Scheduler.bystands_of_moves (regular.stands_other (by simp)) known live moves
      (fun u ended => evolution.ended (first.ended u ended)) spares

/-- A task that leaves a block leaves the others alone. -/
theorem bystands_leaveBlock (lawful : x.Lawful) (m : ObjectId) (aside : x.Aside t)
    (live : ((x.sched.leaveBlock m).view t).Live) : x.sched.Bystands t (x.sched.leaveBlock m) := by
  let used := x.sched.use (.left (x.sched.current.getD 0) m (x.sched.lockHolder m))
  have view : used.view t = x.sched.view t := x.sched.view_use (fun _ => LockUse.noConfusion) t
  have regular : used.Regular x.hand := lawful.regular.use nofun
  have evolution : used.Evolution (some m) x.hand (x.sched.leaveBlock m) := used.evolves_passLock m regular
  have moves := evolution.moves t
  rw [decide_eq_false aside.away, view] at moves
  have same : (x.sched.leaveBlock m).life = x.sched.life := ((Scheduler.Same.refl x.sched).leaveBlock m).life
  refine Scheduler.bystands_of_moves aside.stands aside.known live moves (fun u ended => ?_) (same ▸ .refl t _)
  exact evolution.ended (List.mem_cons_of_mem _ ended)

/-- Whatever happens, suspended tasks wait in their places until they are woken for a reason. -/
theorem Suspense.step (suspense : x.Suspense) (lawful : x.Lawful) {a : Actor} (step : x.Step a y) : y.Suspense := by
  have lawful' := lawful.step step
  -- Where nothing happens to lives, only the moves of tasks count.
  have still {s : Scheduler V E B} {hand : Option TaskId} {dying : Bool} (exempt : Option ObjectId)
      (lawful' : Lawful ⟨s, hand, dying, x.pauses⟩) (evolution : x.sched.Evolution exempt x.hand s)
      (same : s.life = x.sched.life) : Suspense ⟨s, hand, dying, x.pauses⟩ := by
    intro t p k paused here unfinished
    refine suspense.bystand lawful lawful' paused paused here unfinished fun aside live => ?_
    have moves := evolution.moves t
    rw [decide_eq_false aside.away] at moves
    exact Scheduler.bystands_of_moves aside.stands aside.known live moves (fun u => evolution.ended) (same ▸ .refl t _)
  cases step with
  | idle free nobody =>
    have regular := lawful.regular
    rw [free] at regular
    have same := Scheduler.life_nextReady nobody
    intro t p k paused here unfinished
    refine suspense.bystand lawful lawful' paused paused here unfinished fun aside live => ?_
    have before : x.sched.life.tasks t = some k := same ▸ here
    have view := view_pickReady (t := t) _ regular.tidy nobody ((Scheduler.isDone_of_tasks before).trans unfinished) (by simp)
    refine Scheduler.bystands_of_view (by rw [view]) (by rw [view]) (by rw [view]) (ended_pickReady regular nobody) ?_
    rw [same]
    exact .refl t _
  | fire free n =>
    obtain ⟨s, hand, dying, pauses⟩ := x
    obtain rfl : hand = none := free
    exact suspense.fireDue n lawful
  | advance free idle later =>
    obtain ⟨s, hand, dying, pauses⟩ := x
    obtain rfl : hand = none := free
    exact suspense.advance lawful idle later
  | kill free id cause =>
    intro t p k paused here unfinished
    refine suspense.bystand lawful lawful' paused paused here unfinished fun aside live => ?_
    have evolution : x.sched.Evolution none x.hand (x.sched.kill id cause) := x.sched.evolves_kill id cause lawful.regular
    have moves := evolution.moves t
    rw [decide_eq_false aside.away] at moves
    exact Scheduler.bystands_of_moves aside.stands aside.known live moves (fun u => evolution.ended)
      (spares_kill lawful.timed.life id cause t)
  | note free e => exact still none lawful' (x.sched.evolves_note e lawful.regular) rfl
  | @unwind me rest p free first paused =>
    intro t q k paused' here unfinished
    have other : t ≠ me := fun same => by simp [same] at paused'
    have paused : x.pauses t = some q := (Function.update_of_ne other ..).symm.trans paused'
    refine suspense.bystand lawful lawful' paused paused' here unfinished fun aside live => ?_
    refine Scheduler.bystands_of_view rfl rfl rfl (fun _ => id) ?_
    exact ⟨rfl, List.Subset.refl _, fun k' here' unfinished' => ⟨⟨k', here', unfinished', rfl⟩, rfl⟩⟩
  | @start me s free next fresh =>
    have regular := lawful.regular
    rw [free] at regular
    intro t p k paused here unfinished
    refine suspense.bystand lawful lawful' paused paused here unfinished fun aside live => ?_
    have other : t ≠ me := fun same => by simp [same, fresh] at paused
    exact bystands_dispatch regular next other ((Scheduler.isDone_of_tasks here).trans unfinished)
  | @goOn me s p free next paused =>
    have regular := lawful.regular
    rw [free] at regular
    intro t q k paused' here unfinished
    have other : t ≠ me := fun same => by simp [same] at paused'
    have before : x.pauses t = some q := (Function.update_of_ne other ..).symm.trans paused'
    exact suspense.bystand lawful lawful' before paused' here unfinished fun aside live =>
      bystands_goOn regular next other aside.known live
  | operate turn alive op =>
    intro t p k paused here unfinished
    exact suspense.bystand lawful lawful' paused paused here unfinished fun aside => bystands_run lawful op aside
  | @attempt me s r p turn alive done =>
    obtain ⟨exempt, tries⟩ := p.tries x.sched
    have tried := tries.done (turn ▸ lawful.regular) (lawful.current.trans turn) done
    rw [← turn] at tried
    exact still exempt lawful' tried (life_attempt (turn ▸ lawful.regular) (lawful.current.trans turn) done)
  | @park me s p turn alive parked spared =>
    obtain ⟨exempt, tries⟩ := p.tries x.sched
    have regular := lawful.regular
    have current := lawful.current
    rw [turn] at regular current
    have parking := tries.parked regular current parked
    obtain ⟨k₀, here₀⟩ := regular.task?_hand
    have here₀ : x.sched.life.tasks me = some k₀.lasting := congrArg (Option.map Task.lasting) here₀
    obtain ⟨lives, -, killed⟩ := parked_spec regular current here₀ parked
    intro t q k paused here unfinished
    by_cases same : t = me
    · subst same
      obtain rfl : p = q := by simpa using paused
      have alive : (x.sched.view t).killed = false := (Scheduler.killed_of_tasks here₀).trans (killed.symm.trans spared)
      exact waits_park regular current here₀ parked alive lawful' here unfinished
    · have before : x.pauses t = some q := (Function.update_of_ne same ..).symm.trans paused
      refine suspense.bystand lawful lawful' before paused here unfinished fun aside live => ?_
      have bystands : x.sched.Bystands t s := by
        refine Scheduler.bystands_of_moves aside.stands aside.known live (parking.others t same) (fun u => parking.ended) ?_
        rw [lives]
        exact Life.spares_suspend p _ _ same
      exact ⟨bystands.left, bystands.ended, bystands.spares⟩
  | @stay me s p turn alive parked killed =>
    obtain ⟨exempt, tries⟩ := p.tries x.sched
    have regular := lawful.regular
    have current := lawful.current
    rw [turn] at regular current
    have parking := tries.parked regular current parked
    obtain ⟨k₀, here₀⟩ := regular.task?_hand
    obtain ⟨lives, -⟩ := parked_spec regular current (congrArg (Option.map Task.lasting) here₀) parked
    intro t q k paused here unfinished
    refine suspense.bystand lawful lawful' paused paused here unfinished fun aside live => ?_
    have other : t ≠ me := fun same => aside.away (turn.trans (congrArg some same.symm))
    refine Scheduler.bystands_of_moves aside.stands aside.known live (parking.others t other) (fun u => parking.ended) ?_
    rw [lives]
    exact Life.spares_suspend p _ _ other
  | enter turn m =>
    intro t p k paused here unfinished
    refine suspense.bystand lawful lawful' paused paused here unfinished fun aside live => ?_
    have view := x.sched.view_use (u := .entered (x.sched.current.getD 0) m) (fun _ => nofun) t
    exact Scheduler.bystands_of_view (congrArg TaskView.ready view) (congrArg TaskView.parked view)
      (congrArg TaskView.alarms view) (fun u ended => List.mem_cons_of_mem _ ended) (.refl t _)
  | leave turn m =>
    intro t p k paused here unfinished
    exact suspense.bystand lawful lawful' paused paused here unfinished fun aside => bystands_leaveBlock lawful m aside
  | quit turn op quits =>
    intro t p k paused here unfinished
    exact suspense.bystand lawful lawful' paused paused here unfinished fun aside => bystands_run lawful op aside
  | rest turn done =>
    intro t p k paused here unfinished
    refine suspense.bystand lawful lawful' paused paused here unfinished fun aside live => ?_
    exact Scheduler.bystands_of_view rfl rfl rfl (fun _ => id) (.refl t _)
  | @finish me turn unfinished errorText result fault =>
    have regular := lawful.regular
    rw [turn] at regular
    have finished := regular.finished errorText result fault
    obtain ⟨k₀, here₀⟩ := regular.task?_hand
    have here₀ : x.sched.life.tasks me = some k₀.lasting := congrArg (Option.map Task.lasting) here₀
    intro t p k paused here unfinished
    refine suspense.bystand lawful lawful' paused paused here unfinished fun aside live => ?_
    have other : t ≠ me := fun same => aside.away (turn.trans (congrArg some same.symm))
    have moves := finished.others t other ((x.sched.finish errorText me result fault).Wakes none) false finished.wakes
    have bystands : x.sched.Bystands t (x.sched.finish errorText me result fault) := by
      refine Scheduler.bystands_of_moves aside.stands aside.known live moves (fun u ended => ?_) ?_
      · unfold Scheduler.Ended
        rw [finished.history]
        exact List.mem_cons_of_mem _ ended
      · rw [Scheduler.life_finish here₀]
        exact lawful.timed.life.spares_finish here₀ other _
    exact ⟨bystands.left, bystands.ended, bystands.spares⟩

theorem Suspense.steps (suspense : x.Suspense) (lawful : x.Lawful) (steps : x.Steps y) : y.Suspense := by
  induction steps with
  | refl => exact suspense
  | tail before step ih =>
    obtain ⟨a, step⟩ := step
    exact ih.step (lawful.steps before) step

end Play

end LedgerScript
