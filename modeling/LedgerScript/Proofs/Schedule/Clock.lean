import LedgerScript.Proofs.Schedule.Finality
import LedgerScript.Proofs.Schedule.Passage

/-!
# Virtual time

Time stands still while a task is ready, and otherwise jumps to the next timer, so no timer is ever overdue: a sleeping
task goes on when it has slept as long as it wanted, and a task that has not ended by its deadline fails at that very time.
Between the turns the armed timers are those of the sleeping tasks and the deadlines of the unfinished ones.
-/

open Function (update)

namespace LedgerScript

variable {S V E B A : Type}

def TimerAction.expires (t : TaskId) : TimerAction → Bool
  | wake _ => false
  | expire u _ => u = t

/-! ## Timers fire -/

namespace Scheduler

variable {s s' : Scheduler V E B} {t : TaskId} {k : Task V E B} {timer : Timer} {rest : List Timer}
variable {me : TaskId}

/-- When a timer fires no other timer is armed, and time stands still. -/
theorem ring_spec (s : Scheduler V E B) (timer : Timer) (rest : List Timer) :
    (s.ring timer rest).timers.Sublist rest ∧ (s.ring timer rest).now = s.now := by
  have lives {s₁ s₂ : Scheduler V E B} {l : Life V E B} (life : s₁.life = l) (timers : l.timers.Sublist rest)
      (now : l.now = s₂.now) : s₁.timers.Sublist rest ∧ s₁.now = s₂.now := by
    subst life
    exact ⟨timers, now⟩
  cases action : timer.action with
  | wake t => exact lives (s.life_ring_wake rest action) (.refl _) rfl
  | expire t after =>
    cases done : s.isDone t with
    | false =>
      obtain ⟨k, here, unfinished⟩ := tasks_of_isDone done
      exact lives (life_ring_expire rest action here unfinished) List.filter_sublist rfl
    | true =>
      let s₁ : Scheduler V E B := { s with timers := rest, timerUses := (s.now, timer) :: s.timerUses }
      let forget (k : Task V E B) : Task V E B := { k with deadline := none }
      have same : (s₁.modifyTask t forget).view t = s₁.view t := s₁.view_modifyTask_same t t (fun _ => rfl) fun _ => rfl
      have done : (s₁.modifyTask t forget).isDone t = true := by
        rw [← isDone_view, same, isDone_view]
        exact done
      unfold ring fire
      rw [action]
      show ((s₁.modifyTask t forget).kill t _).timers.Sublist rest ∧ ((s₁.modifyTask t forget).kill t _).now = s.now
      rw [kill_done done, modifyTask_eq]
      exact ⟨.refl _, rfl⟩

theorem now_fireDue (n : Nat) (s : Scheduler V E B) : (s.fireDue n).now = s.now := by
  induction n generalizing s with
  | zero => rfl
  | succ n ih =>
    unfold fireDue
    split
    · split
      · exact (ih _).trans (s.ring_spec _ _).2
      · rfl
    · rfl

theorem due_fireDue (n : Nat) (s : Scheduler V E B) (sorted : s.timers.Pairwise Timer.Before)
    (enough : s.timers.length ≤ n) : ∀ timer ∈ (s.fireDue n).timers, (s.fireDue n).now < timer.due := by
  induction n generalizing s with
  | zero =>
    intro timer armed
    rw [fireDue, List.length_eq_zero_iff.mp (Nat.le_zero.mp enough)] at armed
    cases armed
  | succ n ih =>
    unfold fireDue
    split
    · rename_i timer rest first
      rw [first] at sorted enough
      obtain ⟨later, sorted⟩ := List.pairwise_cons.mp sorted
      split
      · have fewer := (s.ring_spec timer rest).1
        exact ih _ (sorted.sublist fewer) (Nat.le_trans fewer.length_le (Nat.le_of_succ_le_succ enough))
      · rename_i pending
        rw [Nat.not_le] at pending
        intro other armed
        rw [first] at armed
        rcases List.mem_cons.mp armed with rfl | armed
        · exact pending
        · rcases later other armed with lt | ⟨eq, -⟩
          · exact Nat.lt_trans pending lt
          · exact eq ▸ pending
    · rename_i none
      intro timer armed
      rw [none] at armed
      cases armed

theorem now_kill (s : Scheduler V E B) (id : TaskId) (cause : ScheduleFault) : (s.kill id cause).now = s.now := by
  cases done : s.isDone id with
  | true => rw [kill_done done]
  | false =>
    obtain ⟨k, here, unfinished⟩ := tasks_of_isDone done
    exact congrArg Life.now (life_kill here unfinished cause)

theorem now_setDeadline (s : Scheduler V E B) (id : TaskId) (after : Int) : (s.setDeadline id after).now = s.now := by
  cases done : s.isDone id with
  | true => rw [setDeadline_done done]
  | false =>
    obtain ⟨k, here, unfinished⟩ := tasks_of_isDone done
    exact congrArg Life.now (life_setDeadline here unfinished after)

/-- Time stands still while a task does something. -/
theorem now_run {α : Type} (op : TaskOp V E B α) (s : Scheduler V E B) : (op.run s).2.now = s.now := by
  have calm (others : ¬ op.Lives) (noSpawn : ∀ name body k, op ≠ .spawn name body k) : (op.run s).2.now = s.now := by
    have same : s.Same .still (op.run s).2 := Same.run op (fun _ => trivial) others noSpawn (.refl s)
    exact congrArg Life.now same.life
  cases op with
  | spawn name body k =>
    obtain ⟨s₁, pushed, spawned⟩ := s.life_spawn name body
    have before : s₁.now = s.now := congrArg Life.now pushed
    have after := congrArg Life.now spawned
    split at after
    · exact after.trans ((now_setDeadline ..).trans before)
    · exact after.trans before
  | cancel id => exact now_kill s id _
  | setDeadline id after => exact now_setDeadline s id after
  | _ => exact calm (fun lives => lives) (by simp)

theorem now_of_life {l : Life V E B} (lives : s'.life = l) (same : l.now = s.now) : s'.now = s.now :=
  (congrArg Life.now lives).trans same

/-- Time stands still while an operation starts. -/
theorem now_start (runs : s.current = some me) (here : s.life.tasks me = some k) {p : Pause V} {outcome : Attempt (Woken V)}
    (starts : p.start s = (outcome, s')) : s'.now = s.now := by
  have started := attempted runs here p
  rw [starts] at started
  cases outcome with
  | done r => exact now_of_life started rfl
  | parked =>
    refine now_of_life started.1 ?_
    unfold Pause.suspend
    split <;> rfl

theorem now_takeLock (runs : s.current = some me) (here : s.life.tasks me = some k) {m : ObjectId}
    {outcome : Attempt (Option ScheduleFault)} (takes : s.takeLock m = (outcome, s')) : s'.now = s.now := by
  have starts : (Pause.door m : Pause V).start s = (outcome.woken, s') := by rw [Pause.start, takes]; rfl
  exact now_start runs here starts

theorem now_goOn (runs : s.current = some me) (here : s.life.tasks me = some k) (p : Pause V) : (p.finish s).now = s.now := by
  refine now_of_life (life_goOn runs here p) ?_
  unfold Pause.resume
  split <;> rfl

end Scheduler

namespace Play

variable {x y : Play V E B} {a : Actor}

/-- Only the clock lets time pass. -/
theorem Step.now (step : x.Step a y) (lawful : x.Lawful) (other : a ≠ .clock) : y.sched.now = x.sched.now := by
  have inHand {me : TaskId} (turn : x.hand = some me) :
      x.sched.current = some me ∧ ∃ k, x.sched.life.tasks me = some k := by
    have regular := lawful.regular
    rw [turn] at regular
    obtain ⟨k, here⟩ := regular.task?_hand
    exact ⟨lawful.current.trans turn, k.lasting, congrArg (Option.map Task.lasting) here⟩
  cases step with
  | advance => exact absurd rfl other
  | idle free nobody => exact Scheduler.now_of_life (Scheduler.life_nextReady nobody) rfl
  | fire free n => exact x.sched.now_fireDue n
  | kill free id cause => exact x.sched.now_kill id cause
  | note | unwind | rest => rfl
  | start free next =>
    obtain ⟨k, -, -, lives⟩ := life_dispatch next
    exact Scheduler.now_of_life lives rfl
  | @goOn me s p free next =>
    obtain ⟨k, -, -, lives⟩ := life_dispatch next
    have here : ((s.setRunning me).setCurrent (some me)).life.tasks me = some k.dispatched := by
      rw [lives]
      exact Life.tasks_put ..
    exact (Scheduler.now_goOn (s := (s.setRunning me).setCurrent (some me)) rfl here p).trans (Scheduler.now_of_life lives rfl)
  | operate turn alive op => exact Scheduler.now_run op x.sched
  | attempt p turn alive done =>
    obtain ⟨runs, k, here⟩ := inHand turn
    exact Scheduler.now_start runs here done
  | @park me s p turn alive waits =>
    obtain ⟨runs, k, here⟩ := inHand turn
    exact (congrArg Life.now (life_notePark s)).trans (Scheduler.now_start runs here waits)
  | stay p turn alive waits =>
    obtain ⟨runs, k, here⟩ := inHand turn
    exact Scheduler.now_start runs here waits
  | enter turn m => exact Scheduler.now_of_life ((Scheduler.Same.refl x.sched).enterBlock m).life rfl
  | leave turn m => exact Scheduler.now_of_life ((Scheduler.Same.refl x.sched).leaveBlock m).life rfl
  | quit turn op => exact Scheduler.now_run op x.sched
  | finish turn unfinished errorText result fault =>
    obtain ⟨-, k, here⟩ := inHand turn
    exact Scheduler.now_of_life (Scheduler.life_finish here errorText result fault) rfl

theorem Does.now (does : x.Does a y) (lawful : x.Lawful) (other : a ≠ .clock) : y.sched.now = x.sched.now := by
  induction does with
  | refl => rfl
  | tail before step ih => exact (step.now (lawful.steps (Does.steps before)) other).trans ih

end Play

/-! ## Which timers are armed -/

theorem Pause.eq_sleep {p : Pause V} (sleeps : p.reason = .sleep) : ∃ ns, p = .amid (.sleep ns) := by
  cases p with
  | door m => cases sleeps
  | amid op =>
    cases op with
    | sleep ns => exact ⟨ns, rfl⟩
    | await | yield | lock | permit | barrier | send | receive => cases sleeps

/-- Exactly the unfinished tasks with a deadline have a timer for it. -/
theorem Life.Timed.countP_expires {l : Life V E B} (timed : l.Timed) (t : TaskId) :
    l.timers.countP (·.action.expires t) = ((l.tasks t).any fun k => !k.isDone && k.deadline.isSome).toNat := by
  have serves {x : Timer} (armed : x ∈ l.timers) (expires : x.action.expires t = true) :
      ∃ k, l.tasks t = some k ∧ k.isDone = false ∧ k.deadline = some x.id := by
    obtain ⟨k, here, unfinished, serves⟩ := timed.serves x armed
    unfold TimerAction.expires at expires
    unfold Timer.Serves at serves
    split at expires
    · cases expires
    · rename_i u after action
      obtain rfl := of_decide_eq_true expires
      rw [action] at here serves
      exact ⟨k, here, unfinished, serves⟩
  cases set : (l.tasks t).any fun k => !k.isDone && k.deadline.isSome with
  | false =>
    refine List.countP_eq_zero.mpr fun x armed expires => ?_
    obtain ⟨k, here, unfinished, deadline⟩ := serves armed expires
    simp [here, unfinished, deadline] at set
  | true =>
    obtain ⟨k, here, unfinished⟩ := (Option.any_eq_true _ _).mp set
    rw [Bool.and_eq_true] at unfinished
    obtain ⟨i, deadline⟩ := Option.isSome_iff_exists.mp unfinished.2
    obtain ⟨x, armed, -, after, expires⟩ := timed.deadline t k i here deadline
    refine Nat.le_antisymm ?_ (List.countP_pos_iff.mpr ⟨x, armed, by simp [expires, TimerAction.expires]⟩)
    have mine : ∀ y ∈ l.timers, y.action.expires t = true → (y.id == i) = true := by
      intro y armed expires
      obtain ⟨k', here', -, deadline'⟩ := serves armed expires
      obtain rfl := Option.some.inj (here.symm.trans here')
      exact beq_iff_eq.mpr (Option.some.inj (deadline'.symm.trans deadline))
    refine Nat.le_trans (List.countP_mono_left mine) ?_
    have once := List.nodup_iff_count_le_one.mp timed.ids i
    rwa [List.count, List.countP_map] at once

namespace Play

variable {x : Play V E B} {t : TaskId}

/-- While no task is in turn, exactly the sleeping ones have a timer that wakes them. -/
theorem Lawful.alarms (lawful : x.Lawful) (suspense : x.Suspense) (fresh : x.roster.Fresh) (free : x.hand = none)
    (t : TaskId) :
    x.sched.alarms t = ((x.sched.task? t).any fun k => decide (k.state = .suspended ∧ k.reason = .sleep)).toNat := by
  have away : x.hand ≠ some t := by simp [free]
  have stands : (x.sched.view t).Stands false := lawful.regular.stands_other away
  cases here : x.sched.task? t with
  | none =>
    have unknown : x.sched.view t = {} := (lawful.regular.unknown here).1
    exact congrArg TaskView.alarms unknown
  | some k =>
    have lasts : x.sched.life.tasks t = some k.lasting := congrArg (Option.map Task.lasting) here
    have status : (x.sched.view t).status = some k.state := by simp [Scheduler.view, here]
    have staffing := lawful.staffed t
    rcases Nat.eq_zero_or_pos (x.sched.alarms t) with unarmed | armed
    · have awake : decide (k.state = .suspended ∧ k.reason = .sleep) = false := by
        refine decide_eq_false fun both => ?_
        obtain ⟨suspended, sleeps⟩ := both
        have unfinished : k.lasting.isDone = false := by rw [k.isDone_lasting, Task.isDone, suspended]; rfl
        have live := lawful.live away lasts unfinished
        have unready : (x.sched.view t).ready = false := by
          by_contra ready
          rw [Bool.not_eq_false] at ready
          have state := stands.state live rfl
          rw [status, ready, suspended] at state
          cases state
        cases started : k.started with
        | false => exact absurd (sleeps.symm.trans (fresh t k.lasting lasts started)) (by simp)
        | true =>
          have waits : (x.pauses t).isSome = true := by
            refine staffing.waits away ?_
            have lasts : x.roster.life.tasks t = some k.lasting := lasts
            simp [lasts, unfinished, show k.lasting.started = true from started]
          obtain ⟨p, paused⟩ := Option.isSome_iff_exists.mp waits
          obtain ⟨ns, rfl⟩ := Pause.eq_sleep ((staffing.named _ p lasts paused unfinished).symm.trans sleeps)
          have armed := (suspense t _ _ paused lasts unfinished).armed unready ns rfl
          exact absurd unarmed (Nat.ne_of_gt armed)
      rw [unarmed, Option.any_some, awake]
      rfl
    · obtain ⟨timer, mem, wakes⟩ := List.countP_pos_iff.mp armed
      rw [decide_eq_true_eq] at wakes
      have mine : timer.action.task = t := by rw [wakes]; rfl
      obtain ⟨unfinished, serves⟩ := lawful.timed.life.mine mem (mine ▸ lasts)
      unfold Timer.Serves at serves
      rw [wakes] at serves
      obtain ⟨ns, paused⟩ | ⟨turn, -⟩ := (lawful.timed.napping t).asleep _ lasts (by simp [serves])
      · have live := lawful.live away lasts unfinished
        obtain ⟨once, key, parked, -⟩ := stands.of_alarms live armed
        obtain ⟨-, unready, -⟩ := stands.of_parked live parked
        have state := stands.state live rfl
        rw [status, unready] at state
        have reason : k.reason = .sleep := staffing.named _ _ lasts paused unfinished
        rw [Option.any_some, decide_eq_true ⟨Option.some.inj state, reason⟩]
        exact once
      · exact absurd turn away

end Play

/-! ## Stages -/

namespace Stage

/-- One stage after another, while a task does not get its turn. -/
abbrev Absence (host : Host S V E B A) (me : TaskId) : Stage S V E B A → Stage S V E B A → Prop :=
  Relation.ReflTransGen fun stage stage' => Goes host stage stage' ∧ stage'.hand ≠ some me

/-- What is promised about time from a stage of a run on. -/
structure Timely (host : Host S V E B A) (stage : Stage S V E B A) : Prop where
  /-- Time does not go back. -/
  forward : ∀ later, Course host stage later → stage.sched.now ≤ later.sched.now
  /-- It only passes while no task is ready. -/
  passes : ∀ next, Goes host stage next → next.sched.now ≠ stage.sched.now → stage.hand = none ∧ stage.sched.ready = []
  /-- No timer is overdue. -/
  due : ∀ timer ∈ stage.sched.timers, stage.sched.now ≤ timer.due
  /-- Between the turns every sleeping task has one timer that wakes it, and no other task has one. -/
  wakes : stage.hand = none → ∀ t, stage.sched.timers.countP (·.action = .wake t) =
    ((stage.sched.task? t).any fun k => decide (k.state = .suspended ∧ k.reason = .sleep)).toNat
  /-- Every unfinished task that has a deadline has one timer for it, and no other task has one. -/
  expires : ∀ t, stage.sched.timers.countP (·.action.expires t) =
    ((stage.sched.task? t).any fun k => !k.isDone && k.deadline.isSome).toNat
  /-- Timers have fired in the order in which they were due, and otherwise in the order in which they were armed. -/
  order : stage.sched.timerUses.Pairwise fun late early => early.2.Before late.2
  /-- They have fired when they were due. -/
  punctual : ∀ u ∈ stage.sched.timerUses, u.1 = u.2.due
  /-- The loop leaves no timer that is due, whether time has passed or not. -/
  fires : ∀ m, stage = .between m → (∀ timer ∈ m.fired.world.sched.timers, m.fired.world.sched.now < timer.due) ∧
    ∀ s, m.world.sched.advance? = some s → ∀ timer ∈ s.timers, s.now < timer.due
  /-- A sleeping task that is not killed gets its next turn exactly when it has slept as long as it wanted. -/
  sleeps : ∀ threads me s own ns k stack first later,
    stage = .running threads me (.wait ⟨s, own⟩ (.sleep ns) k) stack → Goes host stage first → first.hand ≠ some me →
    Absence host me first later → (later.sched.view me).killed = false →
    later.sched.now ≤ s.now + wholeMillis ns ∧
      ∀ next, Goes host later next → next.hand = some me → next.sched.now = s.now + wholeMillis ns
  /-- The timer of a deadline is armed and not overdue, or it has fired when it was due, and then the task has failed, or
  the task has ended before, or has got another deadline. -/
  deadlines : ∀ timer t after later, timer ∈ stage.sched.timers → timer.action = .expire t after → Course host stage later →
    timer ∈ later.sched.timers ∧ later.sched.now ≤ timer.due ∧ later.sched.isDone t = false ∨
    (timer.due, timer) ∈ later.sched.timerUses ∧
      later.sched.standing t = some (.failed, none, some (.schedule (.deadline t after))) ∨
    timer ∉ later.sched.timers ∧ (∀ now, (now, timer) ∉ later.sched.timerUses) ∧
      ∀ k, later.sched.task? t = some k → k.deadline ≠ some timer.id

variable {host : Host S V E B A} {dead : A → Prop} {stage stage' first later next : Stage S V E B A} {dying : Bool}
  {t me : TaskId} {p : Pause V} {i : Option TimerId} {timer : Timer}

/-- A stage of a run, seen as a stage of a play, with all there is to say about time. -/
structure Timing (dead : A → Prop) (dying : Bool) (stage : Stage S V E B A) : Prop where
  acting : stage.Acting dead dying
  expired : (stage.play dying).roster.Expired
  fresh : (stage.play dying).roster.Fresh

theorem Timing.course (timing : stage.Timing dead dying) (heeding : host.Heeds dead) (course : Course host stage stage') :
    ∃ dying', stage'.Timing dead dying' ∧ (stage.play dying).roster.Steps (stage'.play dying').roster := by
  obtain ⟨acting, expired, fresh⟩ := timing
  obtain ⟨dying', acting', rosters⟩ := acting.later heeding course
  exact ⟨dying', ⟨acting', expired.steps rosters, fresh.steps acting.lawful.staffed rosters⟩, rosters⟩

theorem Acting.timed (acting : stage.Acting dead dying) : stage.sched.life.Timed :=
  sched_play stage dying ▸ acting.lawful.timed.life

/-- Between two stages time and timers only go on. -/
theorem onward_play {dying' : Bool} (rosters : (stage.play dying).roster.Steps (stage'.play dying').roster) :
    stage.sched.life.Onward stage'.sched.life := by
  have onward := rosters.onward
  rwa [Play.roster, Play.roster, sched_play, sched_play] at onward

/-- Time only passes while no task is ready. -/
theorem Acting.passes (acting : stage.Acting dead dying) (heeding : host.Heeds dead) (goes : Goes host stage next)
    (later : next.sched.now ≠ stage.sched.now) : stage.hand = none ∧ stage.sched.ready = [] := by
  obtain ⟨a, dying', -, does, led⟩ := acting.goes heeding goes
  refine led.idle ?_
  by_contra other
  have same := does.now acting.lawful other
  rw [sched_play, sched_play] at same
  exact later same

/-- The loop leaves no timer that is due. -/
theorem Acting.fires {m : Machine S V E B A} (acting : (between m).Acting dead dying) :
    (∀ timer ∈ m.fired.world.sched.timers, m.fired.world.sched.now < timer.due) ∧
      ∀ s, m.world.sched.advance? = some s → ∀ timer ∈ s.timers, s.now < timer.due := by
  have sorted : m.world.sched.timers.Pairwise Timer.Before := acting.timed.sorted
  refine ⟨Scheduler.due_fireDue _ _ sorted (Nat.le_refl _), fun s later => ?_⟩
  unfold Scheduler.advance? at later
  split at later
  · cases later
  · obtain rfl := Option.some.inj later
    exact Scheduler.due_fireDue _ _ sorted (Nat.le_refl _)

/-! ### Sleep -/

theorem Acting.fallsAsleep {threads : List (TaskId × Thread S V E B A)} {s : Scheduler V E B} {own : S} {ns : Int}
    {k : World S V E B → Option (Woken V) → Proc S V E B A (Turn B A)} {stack : List (Waiting S V E B A)}
    (acting : (running threads me (.wait ⟨s, own⟩ (.sleep ns) k) stack).Acting dead dying)
    (goes : Goes host (running threads me (.wait ⟨s, own⟩ (.sleep ns) k) stack) first) (away : first.hand ≠ some me) :
    ⟨s.lastTimer + 1, s.now + wholeMillis ns, .wake me⟩ ∈ first.sched.timers ∧
      ∀ dying', (first.play dying').roster.Away me (.amid (.sleep ns)) (some (s.lastTimer + 1)) := by
  have regular : s.Regular (some me) := acting.lawful.regular
  have current : s.current = some me := acting.lawful.current
  obtain ⟨k₀, here⟩ := regular.task?_hand
  have here : s.life.tasks me = some k₀.lasting := congrArg (Option.map Task.lasting) here
  cases goes with
  | act acts =>
    cases acts with
    | step => exact absurd rfl away
    | @stop _ _ _ _ e stops =>
      unfold Host.step at stops
      dsimp only at stops
      split at stops
      · cases stops
      · rename_i s' parked
        split at stops
        · cases stops
        · cases stops
          have parked : (Pause.amid (V := V) (.sleep ns)).start s = (.parked, s') := parked
          have lives := (Play.parked_spec regular current here parked).1
          have life : (s'.notePark.setCurrent none).life = s'.life := Play.life_notePark s'
          rw [lives] at life
          refine ⟨?_, fun dying' => ⟨?_, ?_⟩⟩
          · have timers : s'.notePark.timers = _ := congrArg Life.timers life
            show _ ∈ s'.notePark.timers
            rw [timers]
            exact Scheduler.mem_insertTimer.mpr (.inl rfl)
          · show threadPauses ((me, _) :: threads) me = _
            rw [threadPauses, threadRead_cons]
            exact Function.update_self ..
          · refine ⟨_, (congrFun (congrArg Life.tasks life) me).trans (Life.tasks_put ..), fun _ => rfl⟩

/-- A suspended task stays as it is until it gets its turn. -/
theorem Acting.absence (acting : first.Acting dead dying) (heeding : host.Heeds dead) (absence : Absence host me first later)
    (before : first.hand ≠ some me) (away : (first.play dying).roster.Away me p i) :
    ∃ dying', later.Acting dead dying' ∧ later.hand ≠ some me ∧ (later.play dying').roster.Away me p i ∧
      (first.play dying).roster.Steps (later.play dying').roster := by
  induction absence with
  | refl => exact ⟨dying, acting, before, away, .refl⟩
  | @tail later next _ goes ih =>
    obtain ⟨goes, after⟩ := goes
    obtain ⟨dying', acting', before, away, rosters⟩ := ih
    obtain ⟨a, dying'', acting'', does, led⟩ := acting'.goes heeding goes
    have turn := acting'.lawful.does does
    have other : a.hand ≠ some me := by
      cases a with
      | machine | clock => exact nofun
      | task me' =>
        rintro same
        obtain rfl := Option.some.inj same
        exact (led.mine me' rfl).elim before after
    have start : (later.play dying').roster.hand ≠ some me := fun same => before ((hand_play later dying').symm.trans same)
    exact ⟨dying'', acting'', after, (away.turn turn start other).1, rosters.trans turn.steps⟩

/-- A task that is asleep, and has not been killed, is ready when its timer is due, and not before. -/
theorem Acting.asleep {ns : Int} (acting : later.Acting dead dying)
    (asleep : (later.play dying).roster.Away me (.amid (.sleep ns)) (some timer.id))
    (alive : (later.sched.view me).killed = false)
    (only : ∀ y, (y ∈ later.sched.timers ∨ ∃ now, (now, y) ∈ later.sched.timerUses) → y.id = timer.id → y = timer) :
    later.sched.now ≤ timer.due ∧ ((later.sched.view me).ready = true → later.sched.now = timer.due) := by
  obtain ⟨paused, k, here, sleeps⟩ := asleep
  have lawful := acting.lawful
  have suspense := acting.suspense
  have timed := acting.timed
  have unfinished : k.isDone = false := by
    rw [← Bool.not_eq_true]
    intro done
    have reaped := (lawful.staffed me).reaped
    rw [paused, here, if_pos (by simpa using done)] at reaped
    have due : me ∈ (later.play dying).sched.unwinding := List.count_pos_iff.mp (reaped ▸ Nat.one_pos)
    have killed := (lawful.regular.stands me).reaped (decide_eq_true due)
    rw [sched_play, alive] at killed
    cases killed
  have waits := suspense me _ k paused here unfinished
  rw [sched_play] at waits
  cases ready : (later.sched.view me).ready with
  | true =>
    obtain ⟨y, fired, -, named⟩ := waits.slept ready ns rfl
    obtain rfl := only y (.inr ⟨_, fired⟩) (Option.some.inj (named.symm.trans (sleeps unfinished)))
    have now : later.sched.now = y.due := (timed.punctual _ fired).1
    exact ⟨Nat.le_of_eq now, fun _ => now⟩
  | false =>
    obtain ⟨y, armed, wakes⟩ := List.countP_pos_iff.mp (waits.armed ready ns rfl)
    rw [decide_eq_true_eq] at wakes
    have here : later.sched.life.tasks me = some k := sched_play later dying ▸ here
    have mine : y.action.task = me := by rw [wakes]; rfl
    have serves := (timed.mine armed (mine ▸ here)).2
    unfold Timer.Serves at serves
    rw [wakes] at serves
    obtain rfl := only y (.inl armed) (Option.some.inj (serves.symm.trans (sleeps unfinished)))
    exact ⟨timed.due y armed, nofun⟩

theorem hand_opening (host : Host S V E B A) (m : Machine S V E B A) {id : TaskId} (turn : (m.opening host id).hand = some me) :
    id = me := by
  unfold Machine.opening at turn
  dsimp only at turn
  split at turn
  · exact Option.some.inj turn
  · exact Option.some.inj turn
  · cases turn

/-- A task that has not been killed gets its turn when it is ready. -/
theorem Acting.ready_of_turn (acting : later.Acting dead dying) (goes : Goes host later next) (away : later.hand ≠ some me)
    (turn : next.hand = some me) (alive : (later.sched.view me).killed = false) : (later.sched.view me).ready = true := by
  cases goes with
  | advance => cases turn
  | act acts =>
    cases acts with
    | @unwind m id rest first =>
      obtain rfl := hand_opening host _ turn
      have due : id ∈ m.world.sched.unwinding := first ▸ List.mem_cons_self ..
      have killed := (acting.lawful.regular.stands id).reaped (decide_eq_true due)
      exact absurd (alive.symm.trans killed) (by simp)
    | dispatch picked =>
      obtain rfl := hand_opening host _ turn
      exact decide_eq_true (Scheduler.mem_of_pickReady _ picked)
    | idle | fire | kill | note | stop => cases turn
    | step => exact absurd turn away

/-! ### Deadlines -/

theorem Timing.deadline (timing : stage.Timing dead dying) (heeding : host.Heeds dead) (armed : timer ∈ stage.sched.timers)
    {after : Int} (expires : timer.action = .expire t after) (course : Course host stage later) :
    timer ∈ later.sched.timers ∧ later.sched.now ≤ timer.due ∧ later.sched.isDone t = false ∨
    (timer.due, timer) ∈ later.sched.timerUses ∧
      later.sched.standing t = some (.failed, none, some (.schedule (.deadline t after))) ∨
    timer ∉ later.sched.timers ∧ (∀ now, (now, timer) ∉ later.sched.timerUses) ∧
      ∀ k, later.sched.task? t = some k → k.deadline ≠ some timer.id := by
  obtain ⟨dying', ⟨acting', expired', -⟩, rosters⟩ := timing.course heeding course
  have timed := timing.acting.timed
  have timed' := acting'.timed
  have onward := onward_play rosters
  by_cases still : timer ∈ later.sched.timers
  · obtain ⟨k, here, unfinished, -⟩ := timed'.serves timer still
    rw [expires] at here
    exact .inl ⟨still, timed'.due timer still, (Scheduler.isDone_of_tasks here).trans unfinished⟩
  · by_cases fired : ∃ now, (now, timer) ∈ later.sched.timerUses
    · obtain ⟨now, fired⟩ := fired
      obtain rfl : now = timer.due := (timed'.punctual _ fired).1
      have used : (timer.due, timer) ∈ (later.play dying').roster.life.timerUses := by
        show _ ∈ (later.play dying').sched.timerUses
        rwa [sched_play]
      obtain ⟨k, final, failed⟩ := expired' _ used t after expires
      have here : later.sched.life.tasks t = some k := sched_play later dying' ▸ final.here
      exact .inr (.inl ⟨fired, (Scheduler.standing_of_tasks here final.done).trans (congrArg some failed)⟩)
    · refine .inr (.inr ⟨still, fun now used => fired ⟨now, used⟩, fun k here set => still ?_⟩)
      have lasts : later.sched.life.tasks t = some k.lasting := congrArg (Option.map Task.lasting) here
      obtain ⟨y, mem, number, -⟩ := timed'.deadline t k.lasting timer.id lasts set
      exact onward.same_timer timed.toWound armed (.inl mem) number ▸ mem

theorem Timing.timely (timing : stage.Timing dead dying) (heeding : host.Heeds dead) : stage.Timely host := by
  have acting := timing.acting
  have timed := acting.timed
  refine ⟨fun later course => ?_, fun next goes => acting.passes heeding goes, timed.due, fun free t => ?_, fun t => ?_,
    timed.fired, fun u used => (timed.punctual u used).1, ?_, ?_, fun timer t after later armed expires =>
    timing.deadline heeding armed expires⟩
  · obtain ⟨dying', -, rosters⟩ := timing.course heeding course
    exact (onward_play rosters).now
  · have alarms := acting.lawful.alarms acting.suspense timing.fresh ((hand_play stage dying).trans free) t
    rwa [sched_play] at alarms
  · refine (timed.countP_expires t).trans ?_
    show (((stage.sched.task? t).map Task.lasting).any _).toNat = _
    rw [Option.any_map]
    congr 2
    funext k
    exact congrArg (! · && k.deadline.isSome) k.isDone_lasting
  · rintro m rfl
    exact acting.fires
  · rintro threads me s own ns k stack first later rfl goes away absence alive
    obtain ⟨armed, asleep⟩ := acting.fallsAsleep goes away
    obtain ⟨dying₁, timing₁, -⟩ := timing.course heeding (.single goes)
    obtain ⟨dying₂, acting₂, away₂, asleep₂, rosters⟩ := timing₁.acting.absence heeding absence away (asleep dying₁)
    have only := fun y here => (onward_play rosters).same_timer timing₁.acting.timed.toWound armed (y := y) here
    obtain ⟨patient, due⟩ := acting₂.asleep asleep₂ alive only
    refine ⟨patient, fun next goes turn => ?_⟩
    have ready := acting₂.ready_of_turn goes away₂ turn alive
    by_contra other
    have passed := acting₂.passes heeding goes (fun same => other (same.trans (due ready)))
    have queued : me ∈ later.sched.ready := of_decide_eq_true ready
    rw [passed.2] at queued
    cases queued

end Stage

/-! ## Runs -/

theorem Roster.expired_blank : (blank : Roster V E B).Expired :=
  fun _ used => absurd used List.not_mem_nil

theorem Roster.fresh_blank : (blank : Roster V E B).Fresh :=
  fun _ _ here => absurd here (Option.some_ne_none _).symm

/-- Before the run no time has passed. -/
theorem Machine.Fresh.timing {m : Machine S V E B A} (fresh : m.Fresh) (dead : A → Prop) :
    (Stage.between m).Timing dead false := by
  have rosters := fresh.prepared.rosters
  have same : ((Stage.between m).play false).roster = Play.roster ⟨m.world.sched, none, false, fun _ => none⟩ := by
    show Play.roster ⟨m.world.sched, none, false, threadPauses m.threads⟩ = _
    rw [fresh.threads]
    rfl
  exact ⟨fresh.acting dead, same ▸ Roster.expired_blank.steps rosters,
    same ▸ Roster.fresh_blank.steps Roster.staffed_blank rosters⟩

namespace Scheduler

variable {s : Scheduler V E B} {t : TaskId} {k : Task V E B}

/-- A deadline arms a timer that is due when as much time has passed. -/
theorem task?_setDeadline (here : s.task? t = some k) (unfinished : k.isDone = false) (after : Int) :
    (∃ k', (s.setDeadline t after).task? t = some k' ∧ k'.deadline = some (s.lastTimer + 1)) ∧
      ⟨s.lastTimer + 1, s.now + wholeMillis after, .expire t after⟩ ∈ (s.setDeadline t after).timers := by
  have lives := life_setDeadline (congrArg (Option.map Task.lasting) here) (k.isDone_lasting.trans unfinished) after
  refine ⟨?_, ?_⟩
  · have tasks := congrFun (congrArg Life.tasks lives) t
    obtain ⟨k', here', lasting⟩ := Option.map_eq_some_iff.mp (tasks.trans (Life.tasks_put ..))
    exact ⟨k', here', congrArg Task.deadline lasting⟩
  · have timers : (s.setDeadline t after).timers = _ := congrArg Life.timers lives
    rw [timers]
    exact mem_insertTimer.mpr (.inl rfl)

end Scheduler

/-- Whatever the tasks do, a deadline is a timer, and at every stage of a run time is as it should be.  Tasks that are
killed must heed it. -/
theorem virtual_time {m : Machine S V E B A} (host : Host S V E B A) {dead : A → Prop} (heeds : host.Heeds dead)
    (fresh : m.Fresh) :
    (∀ (s : Scheduler V E B) t k after, s.task? t = some k → k.isDone = false →
      (∃ k', (s.setDeadline t after).task? t = some k' ∧ k'.deadline = some (s.lastTimer + 1)) ∧
        ⟨s.lastTimer + 1, s.now + wholeMillis after, .expire t after⟩ ∈ (s.setDeadline t after).timers) ∧
    ∀ stage, Stage.Course host (.between m) stage → stage.Timely host := by
  refine ⟨fun s t k after here unfinished => Scheduler.task?_setDeadline here unfinished after, fun stage course => ?_⟩
  obtain ⟨dying, timing, -⟩ := (fresh.timing dead).course heeds course
  exact timing.timely heeds

/-- A task sleeps, and another one wants to sleep beyond its deadline. -/
def sleeping : Machine (ScriptState Nat) Nat Bytes Nat (ScriptEnd Nat) where
  world := {
    sched := (({} : Scheduler Nat Bytes Nat).spawn "main" 0).2
    own := {
      definitions := [
        { name := "main", steps := [
          { name := "a", step := .spawn 1 }, { name := "b", step := .deadline 1 3 }, { name := "c", step := .sleep 5 },
          { name := "d", step := .sleep 5 }] },
        { name := "late", steps := [{ name := "a", step := .sleep 8 }] }]
      spawned := [(0, 1)] } }

theorem virtual_time_sleeping :
    sleeping.Fresh ∧
      ∃ m, sleeping.Turns Script.host m ∧ m.world.sched.now = 5 ∧
        m.world.sched.timerUses.map (fun u => (u.1, u.2.action.task)) = [(5, 1), (3, 2)] ∧
        (m.world.sched.task? 2).any (·.state == .failed) = true ∧ (Stage.between m).Timely Script.host := by
  have fresh : sleeping.Fresh := ⟨.operate (.new 0 [] []) (.spawn "main" 0 id), rfl⟩
  have seen : (sleeping.after Script.host 4).any fun m =>
      m.world.sched.now = 5 ∧ m.world.sched.timerUses.map (fun u => (u.1, u.2.action.task)) = [(5, 1), (3, 2)] ∧
        (m.world.sched.task? 2).any (·.state == .failed) = true := by decide +kernel
  obtain ⟨m, later, ended⟩ := (Option.any_eq_true _ _).mp seen
  rw [decide_eq_true_eq] at ended
  have turns := Machine.turns_of_after 4 sleeping later
  exact ⟨fresh, m, turns, ended.1, ended.2.1, ended.2.2,
    (virtual_time Script.host Script.host_heeds fresh).2 (.between m) turns.course⟩

end LedgerScript
