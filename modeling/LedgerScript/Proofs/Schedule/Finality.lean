import LedgerScript.Proofs.Schedule.Acting

/-!
# Ends are final

Once the turn of a finished task is over, nothing about its end changes any more.  A task that has been killed does
nothing but unwind: whenever it is in turn it is at its end, and if it had not started it never gets a turn.  A task that
kills itself goes on until it wants to wait.  So whoever awaits a task learns its end for good.
-/

namespace LedgerScript

variable {S V E B A : Type}

namespace Scheduler

variable {s s' : Scheduler V E B} {t : TaskId} {k : Task V E B}

def standing (s : Scheduler V E B) (t : TaskId) : Option (TaskState × Option V × Option (TaskFault E)) :=
  (s.task? t).map fun k => (k.state, k.result, k.fault)

theorem outcome_of_standing (same : s'.standing t = s.standing t) : s'.outcome t = s.outcome t := by
  unfold standing at same
  unfold outcome
  cases here : s.task? t with
  | none =>
    rw [here, Option.map_none, Option.map_eq_none_iff] at same
    rw [same]
  | some k =>
    rw [here, Option.map_some] at same
    obtain ⟨k', here', standing⟩ := Option.map_eq_some_iff.mp same
    rw [here']
    exact congrArg Prod.snd standing

theorem isDone_of_standing (same : s'.standing t = s.standing t) : s'.isDone t = s.isDone t := by
  unfold standing at same
  unfold isDone
  cases here : s.task? t with
  | none =>
    rw [here, Option.map_none, Option.map_eq_none_iff] at same
    rw [same]
  | some k =>
    rw [here, Option.map_some] at same
    obtain ⟨k', here', standing⟩ := Option.map_eq_some_iff.mp same
    have state : k'.state = k.state := congrArg Prod.fst standing
    simp only [here', Task.isDone, state]

/-- The life of a finished task tells how it has ended. -/
theorem standing_of_tasks (here : s.life.tasks t = some k) (done : k.isDone = true) :
    s.standing t = some (k.state, k.result, k.fault) := by
  obtain ⟨k₀, known, rfl⟩ := task?_of_tasks here
  rw [Task.isDone_lasting] at done
  rw [standing, known, Option.map_some, Task.state_lasting done]
  rfl

end Scheduler

namespace Stage

structure Finished (stage : Stage S V E B A) (t : TaskId) : Prop where
  away : stage.hand ≠ some t
  done : ∃ k, stage.sched.task? t = some k ∧ k.isDone = true

structure Killed (stage : Stage S V E B A) (t : TaskId) : Prop where
  away : stage.hand ≠ some t
  killed : ∃ k, stage.sched.task? t = some k ∧ k.killed = true

def AtEnd (dead : A → Prop) (t : TaskId) : Stage S V E B A → Prop
  | between _ => True
  | running _ me p _ => me = t → p.Over dead

/-- A task goes on in a world after it has awaited another one, and nobody has told it that it cannot wait. -/
inductive Awaited (u : TaskId) : World S V E B → Stage S V E B A → Stage S V E B A → Prop where
  | atOnce {threads : List (TaskId × Thread S V E B A)} {me : TaskId} {s s' : Scheduler V E B} {own : S}
    {k : World S V E B → Option (Woken V) → Proc S V E B A (Turn B A)} {stack : List (Waiting S V E B A)} {r : Woken V}
    (done : (WaitOp.await u).start s = (.done r, s')) (fine : r.fault = none) :
    Awaited u ⟨s', own⟩ (.running threads me (.wait ⟨s, own⟩ (.await u) k) stack)
      (.running threads me (k ⟨s', own⟩ (some r)) stack)
  | waited {threads : List (TaskId × Thread S V E B A)} {me : TaskId} {s s' : Scheduler V E B} {own : S}
    {k : World S V E B → Option (Woken V) → Proc S V E B A (Turn B A)} {stack : List (Waiting S V E B A)}
    (next : s.nextReady = (some me, s'))
    (found : threads.find? (·.1 = me) = some (me, { suspended := .wait (.await u) k, stack })) :
    Awaited u ⟨(s'.setRunning me).setCurrent (some me), own⟩ (.between { world := ⟨s, own⟩, threads })
      (.running (threads.filter (·.1 ≠ me)) me (k ⟨(s'.setRunning me).setCurrent (some me), own⟩ (some {})) stack)

/-- From a stage on, ends are final, and whoever has been killed does nothing more. -/
structure Decided (host : Host S V E B A) (dead : A → Prop) (stage : Stage S V E B A) : Prop where
  /-- Nothing changes about the end of a task. -/
  final : ∀ t later, stage.Finished t → Course host stage later → later.sched.standing t = stage.sched.standing t
  /-- A task that has been killed takes no further step. -/
  killed : ∀ t later, stage.Killed t → Course host stage later → later.AtEnd dead t
  /-- A task that has been killed before it started never starts. -/
  unstarted : ∀ t k later, stage.Killed t → stage.sched.task? t = some k → k.started = false →
    Course host stage later → later.hand ≠ some t
  /-- A task that has killed itself takes no further step once it wants to wait. -/
  selfKilled : ∀ threads me p stack q s next later, stage = .running threads me p stack → p.pause? = some q →
    q.start p.world.sched = (.parked, s) → (p.world.sched.view me).killed = true → Goes host stage next →
    Course host next later → later.AtEnd dead me
  /-- Whoever has awaited a task learns its end. -/
  awaited : ∀ u w next later, Awaited u w stage next → (stage.sched.view u).status ≠ none →
    Course host next later → w.sched.isDone u = true ∧ later.sched.outcome u = w.sched.outcome u ∧
      later.sched.standing u = w.sched.standing u

/-! ## Why it is so -/

variable {host : Host S V E B A} {dead : A → Prop} {stage stage' : Stage S V E B A} {dying : Bool} {t me : TaskId}
  {k : Task V E B}

theorem hand_play (stage : Stage S V E B A) (dying : Bool) : (stage.play dying).hand = stage.hand := by
  cases stage <;> rfl

theorem sched_play (stage : Stage S V E B A) (dying : Bool) : (stage.play dying).sched = stage.sched := by
  cases stage <;> rfl

theorem dying_play (turn : stage.hand = some me) (dying : Bool) : (stage.play dying).dying = dying := by
  cases stage with
  | between m => cases turn
  | running => rfl

/-- A killed task whose turn is over is finished. -/
theorem Killed.finished (killed : stage.Killed t) (acting : stage.Acting dead dying) : stage.Finished t := by
  obtain ⟨away, k, here, killed⟩ := killed
  refine ⟨away, k, here, ?_⟩
  have regular := acting.lawful.regular
  rw [hand_play, sched_play] at regular
  have stands := regular.stands_other away
  have slain : (stage.sched.view t).killed = true := by
    rw [Scheduler.killed_of_tasks (congrArg (Option.map Task.lasting) here)]
    exact killed
  have done := (stands.dead slain).resolve_right Bool.false_ne_true
  rw [Scheduler.isDone_view, Scheduler.isDone, here] at done
  exact done

theorem Finished.isDone (finished : stage.Finished t) : stage.sched.isDone t = true := by
  obtain ⟨-, k, here, done⟩ := finished
  rw [Scheduler.isDone, here]
  exact done

/-- A task that has finished has ended for good. -/
theorem Finished.final (finished : stage.Finished t) (dying : Bool) : ∃ k, (stage.play dying).roster.Final t k := by
  obtain ⟨away, k, here, done⟩ := finished
  refine ⟨k.lasting, ?_, k.isDone_lasting.trans done, fun turn => ?_⟩
  · show (stage.play dying).sched.life.tasks t = _
    rw [sched_play]
    exact congrArg (Option.map Task.lasting) here
  · exact absurd ((hand_play stage dying).symm.trans turn) away

/-- A doomed task is at its end when it is in turn. -/
theorem Acting.atEnd (acting : stage.Acting dead dying) (doomed : (stage.play dying).roster.Doomed t) :
    stage.AtEnd dead t := by
  cases stage with
  | between m => trivial
  | running threads me p stack =>
    rintro rfl
    exact acting.heeds.1 (doomed.dying rfl)

/-- What comes after a stage, as far as the roster shows it. -/
theorem Acting.later (acting : stage.Acting dead dying) (heeding : host.Heeds dead) (course : Course host stage stage') :
    ∃ dying', stage'.Acting dead dying' ∧ (stage.play dying).roster.Steps (stage'.play dying').roster := by
  obtain ⟨dying', acting', plays⟩ := acting.course heeding course
  exact ⟨dying', acting', acting.lawful.rosters plays⟩

/-- Nothing changes about the end of a task. -/
theorem Finished.later (finished : stage.Finished t) (acting : stage.Acting dead dying) (heeding : host.Heeds dead)
    (course : Course host stage stage') : stage'.sched.standing t = stage.sched.standing t := by
  obtain ⟨dying', acting', rosters⟩ := acting.later heeding course
  obtain ⟨k, final⟩ := finished.final dying
  have before : stage.sched.life.tasks t = some k := sched_play stage dying ▸ final.here
  have after : stage'.sched.life.tasks t = some k := sched_play stage' dying' ▸ (final.steps rosters).here
  rw [Scheduler.standing_of_tasks before final.done, Scheduler.standing_of_tasks after final.done]

/-- A task that has been killed takes no further step. -/
theorem Killed.later (killed : stage.Killed t) (acting : stage.Acting dead dying) (heeding : host.Heeds dead)
    (course : Course host stage stage') : stage'.AtEnd dead t := by
  obtain ⟨dying', acting', rosters⟩ := acting.later heeding course
  obtain ⟨k, final⟩ := (killed.finished acting).final dying
  exact acting'.atEnd (final.doomed.steps rosters)

theorem Killed.unstarted (killed : stage.Killed t) (acting : stage.Acting dead dying) (heeding : host.Heeds dead)
    (here : stage.sched.task? t = some k) (fresh : k.started = false) (course : Course host stage stage') :
    stage'.hand ≠ some t := by
  intro turn
  obtain ⟨dying', acting', rosters⟩ := acting.later heeding course
  obtain ⟨k', final⟩ := (killed.finished acting).final dying
  have same : some k.lasting = some k' := by
    have before : stage.sched.life.tasks t = some k' := sched_play stage dying ▸ final.here
    exact (congrArg (Option.map Task.lasting) here).symm.trans before
  obtain rfl := Option.some.inj same
  have started := acting'.lawful.staffed.started ((hand_play stage' dying').trans turn) (final.steps rosters).here
  exact absurd (fresh.symm.trans started) (by simp)

/-- A task that has been killed dies where it wants to wait. -/
theorem Acting.stays {threads : List (TaskId × Thread S V E B A)} {p : Proc S V E B A (Turn B A)}
    {stack : List (Waiting S V E B A)} {q : Pause V} {s : Scheduler V E B}
    (acting : (running threads me p stack).Acting dead dying) (wants : p.pause? = some q)
    (parked : q.start p.world.sched = (.parked, s)) (killed : (p.world.sched.view me).killed = true)
    (goes : Goes host (running threads me p stack) stage') : stage'.Acting dead true ∧ stage'.hand = some me := by
  obtain ⟨atEnd, heeds, frames, others⟩ := acting.heeds
  have alive : dying = false := by
    rw [← Bool.not_eq_true]
    intro ended
    have last := atEnd ended
    cases p with
    | done => cases wants
    | ask | wait | block => exact last
  subst alive
  have regular : p.world.sched.Regular (some me) := acting.lawful.regular
  have current : p.world.sched.current = some me := acting.lawful.current
  obtain ⟨k, here⟩ := regular.task?_hand
  have here : p.world.sched.life.tasks me = some k.lasting := congrArg (Option.map Task.lasting) here
  have killed : s.currentKilled = true :=
    (Play.parked_spec regular current here parked).2.2.trans ((Scheduler.killed_of_tasks here).symm.trans killed)
  obtain ⟨p', stack', step, along⟩ : ∃ p' stack', host.step p stack = .go p' stack' ∧
      GoesAlong dead (threadPauses threads) me ⟨p.world.sched, some me, false, threadPauses threads⟩ true p' stack' :=
    dies_step wants parked killed heeds frames
  have next : stage' = running threads me p' stack' := by
    cases goes with
    | act acts =>
      cases acts with
      | step goes =>
        rw [step] at goes
        cases goes
        rfl
      | stop stops =>
        rw [step] at stops
        cases stops
  subst next
  exact ⟨acting.further goes along.plays.steps ⟨along.atEnd, along.heeds, along.frames, others⟩, rfl⟩

theorem Awaited.goes {u : TaskId} {w : World S V E B} (awaited : Awaited u w stage stage')
    (acting : stage.Acting dead dying) : Goes host stage stage' := by
  cases awaited with
  | atOnce done fine =>
    refine .act (.step ?_)
    unfold Host.step
    simp only [done]
  | @waited threads me s s' own k stack next found =>
    have alive := Play.alive_dispatch acting.lawful.regular next
    have opened : ((Machine.onSched { world := ⟨s, own⟩, threads } fun _ => s'.setRunning me).opening host me) =
        .running (threads.filter (·.1 ≠ me)) me (k ⟨(s'.setRunning me).setCurrent (some me), own⟩ (some {})) stack := by
      unfold Machine.opening
      simp only [Machine.onSched, found, Host.goOn, alive]
      rfl
    rw [← opened]
    exact .act (.dispatch next)

theorem finished_of_isDone {u : TaskId} (away : stage.hand ≠ some u) (known : (stage.sched.view u).status ≠ none)
    (done : stage.sched.isDone u = true) : stage.Finished u := by
  cases here : stage.sched.task? u with
  | none => exact absurd (by rw [Scheduler.view, here]; rfl) known
  | some k =>
    rw [Scheduler.isDone, here] at done
    exact ⟨away, k, here, done⟩

/-- Whoever has awaited a task finds that it has finished. -/
theorem Awaited.finished {u : TaskId} {w : World S V E B} (awaited : Awaited u w stage stage')
    (acting : stage.Acting dead dying) (known : (stage.sched.view u).status ≠ none) :
    stage.Finished u ∧ w.sched.standing u = stage.sched.standing u := by
  cases awaited with
  | @atOnce threads me s s' own k stack r attempt fine =>
    have current : s.current = some me := acting.lawful.current
    have attempt : (s.await u).map (Attempt.woken (V := V)) id = (.done r, s') := attempt
    unfold Scheduler.await at attempt
    rw [current] at attempt
    dsimp only at attempt
    split at attempt
    · cases attempt
      cases fine
    · rename_i other
      split at attempt
      · rename_i done
        cases attempt
        refine ⟨finished_of_isDone (fun turn => other ?_) known done, rfl⟩
        exact (Option.some.inj turn).symm
      · cases attempt
  | @waited threads me s s' own k stack next found =>
    have regular : s.Regular none := acting.lawful.regular
    obtain ⟨k₀, here, unfinished, life⟩ := Play.life_dispatch next
    have ready : (s.view me).ready = true := decide_eq_true (Scheduler.mem_of_pickReady _ next)
    have waits := acting.suspense me (.amid (.await u)) k₀ (threadPauses_found found).1 here unfinished
    have done : s.isDone u = true := regular.frank_between u (waits.woken ready u rfl)
    have finished : (between { world := ⟨s, own⟩, threads }).Finished u := finished_of_isDone nofun known done
    obtain ⟨away, k₁, here₁, done₁⟩ := finished
    have before : s.life.tasks u = some k₁.lasting := congrArg (Option.map Task.lasting) here₁
    have other : u ≠ me := by
      rintro rfl
      exact absurd (done.symm.trans (Scheduler.isDone_of_tasks here |>.trans unfinished)) (by simp)
    have after : ((s'.setRunning me).setCurrent (some me)).life.tasks u = some k₁.lasting := by
      rw [life, Life.tasks_put_ne _ _ other]
      exact before
    have done' := k₁.isDone_lasting.trans done₁
    refine ⟨⟨away, k₁, here₁, done₁⟩, ?_⟩
    exact (Scheduler.standing_of_tasks after done').trans (Scheduler.standing_of_tasks before done').symm

/-- Whatever has happened, ends are final. -/
theorem Acting.decided (acting : stage.Acting dead dying) (heeding : host.Heeds dead) : stage.Decided host dead := by
  refine ⟨fun t later finished => finished.later acting heeding, fun t later killed => killed.later acting heeding,
    fun t k later killed => killed.unstarted acting heeding, ?_, ?_⟩
  · rintro threads me p stack q s next later rfl wants parked killed goes course
    obtain ⟨acting', turn⟩ := acting.stays wants parked killed goes
    obtain ⟨dying', acting'', rosters⟩ := acting'.later heeding course
    have doomed : (next.play true).roster.Doomed me :=
      ⟨fun _ => ?_, fun away => absurd ((hand_play next true).trans turn) away⟩
    · exact acting''.atEnd (doomed.steps rosters)
    · exact dying_play turn true
  · intro u w next later awaited known course
    obtain ⟨finished, standing⟩ := awaited.finished acting known
    have same := (finished.later acting heeding (.head (awaited.goes acting) course)).trans standing.symm
    exact ⟨(Scheduler.isDone_of_standing standing).trans finished.isDone, Scheduler.outcome_of_standing same, same⟩

end Stage

end LedgerScript
