import LedgerScript.Proofs.Schedule.Guarded

/-!
# Mutual exclusion of blocks

Whatever happens keeps the locks with those who are inside.  So two tasks that are neither finished nor killed are
inside blocks of one lock only after an ended task, which had to unwind, has given back the lock of another one.
-/

namespace LedgerScript

open LockHistory

variable {S V E B A : Type} {s s' : Scheduler V E B} {x y : Scene V E B} {guards : TaskId → List ObjectId}
  {entering : TaskId → Option ObjectId} {me t u : TaskId} {m : ObjectId}

namespace Scheduler

theorem Guarded.interlude (guarded : s.Guarded guards entering) (regular : s.Regular none) (interlude : s.Interlude s') :
    s'.Guarded guards entering := by
  have evolved : s.Evolves none none s' → s'.Guarded guards entering := fun evolves =>
    guarded.keep ((evolves regular).onward regular)
  cases interlude with
  | idle nobody => exact guarded.keep (onward_pick nobody)
  | fire n => exact evolved (s.evolves_fireDue n)
  | advance later => exact evolved (Scheduler.evolves_advance? s later)
  | kill id cause => exact evolved (s.evolves_kill id cause)
  | note e => exact evolved (s.evolves_note e)

theorem Guarded.work (guarded : s.Guarded guards entering) (regular : s.Regular (some me)) (current : s.current = some me)
    (calm : entering me = none) (work : s.Work s') : s'.Guarded guards entering := by
  have evolved : s.Evolution none (some me) s' → s'.Guarded guards entering := fun evolution =>
    guarded.keep (evolution.onward regular)
  cases work with
  | operate steps => exact evolved (steps.evolves regular)
  | @attempt _ op r done => exact evolved ((op.tries s).done regular current done)
  | @stay _ op parked killed =>
    have parking := (op.tries s).parked regular current parked
    exact guarded.onward (parking.onward regular) fun t same => Option.some.inj same ▸ calm
  | awake op => exact evolved (op.evolves_finish s regular)
  | @refuse _ m f refused =>
    have took := guarded.takeLock regular current calm m
    rw [refused] at took
    exact took
  | @deny _ m parked killed =>
    have took := guarded.takeLock regular current calm m
    rw [parked] at took
    exact took.1

end Scheduler

/-- Whatever happens, the locks stay with those who are inside. -/
theorem Scene.Orderly.guarded (orderly : x.Orderly) (guarded : x.sched.Guarded x.guards x.entering) (step : x.Step y) :
    y.sched.Guarded y.guards y.entering := by
  obtain ⟨regular, current⟩ := orderly
  cases step with
  | between free interlude => exact guarded.interlude (free ▸ regular) interlude
  | unwind free first => exact guarded.keep (Scheduler.onward_queues _)
  | @dispatch me s free next =>
    have picked := guarded.keep (Scheduler.onward_pick next)
    exact (picked.keep (s.onward_setRunning me)).keep (Scheduler.onward_queues _)
  | work turn calm work => exact guarded.work (turn ▸ regular) (turn ▸ current) calm work
  | @park me s op turn calm parked alive =>
    rw [turn] at regular current
    have parking := (op.tries x.sched).parked regular current parked
    have parked := guarded.onward (parking.onward regular) fun t same => Option.some.inj same ▸ calm
    exact parked.keep (Scheduler.onward_queues _)
  | @enter me s m turn calm taken =>
    have took := guarded.takeLock (turn ▸ regular) (turn ▸ current) calm m
    rw [taken] at took
    exact took
  | @queue me s m turn calm parked alive =>
    have took := guarded.takeLock (turn ▸ regular) (turn ▸ current) calm m
    rw [parked] at took
    exact took.2.keep (Scheduler.onward_queues _)
  | @enterAfter me m turn waited alive =>
    rw [turn] at regular current
    rw [Scheduler.currentKilled_eq current] at alive
    refine (guarded.settle me).enter current regular.known_hand (Function.update_self ..) (guarded.toLock me m waited)
      fun only live => ?_
    -- a task in turn does not wait any more, so it has the lock unless it was robbed of it
    refine ((guarded.held m only).entering me live waited).resolve_left fun waits => ?_
    have free : x.sched.parked.get? me = none := (regular.running alive).2.2.1
    simp [free] at waits
  | giveUp turn => exact guarded.settle _
  | leave turn calm inside => exact guarded.leave regular (current.trans turn) inside calm
  | rest turn done => exact guarded.keep (Scheduler.onward_queues _)
  | @finish me turn errorText result fault =>
    rw [turn] at regular
    have finished := guarded.keep (regular.onward_finish errorText result fault)
    exact finished.keep (Scheduler.onward_queues _)

theorem Scene.Orderly.guarded_steps (orderly : x.Orderly) (guarded : x.sched.Guarded x.guards x.entering)
    (steps : x.Steps y) : y.sched.Guarded y.guards y.entering := by
  induction steps with
  | refl => exact guarded
  | tail before step ih => exact (orderly.steps before).guarded ih step

/-- Before a run nobody is inside a block. -/
theorem Scheduler.Prepared.guarded (prepared : s.Prepared) : s.Guarded (fun _ => []) fun _ => none := by
  induction prepared with
  | new defaultDeadline picks journal =>
    exact ⟨fun t m => rfl, nofun, nofun, nofun, fun m _ => ⟨nofun, fun t _ => .inl (Nat.zero_le 1), nofun, fair_nil m⟩⟩
  | operate before op ih =>
    have regular := before.regular.1
    exact ih.keep ((op.evolves _ regular).onward regular)
  | attempt before op ih =>
    obtain ⟨regular, free⟩ := before.regular
    exact ih.keep ((regular.outside free op).onward regular)

/-- At every stage of a run the locks are with those who are inside. -/
theorem Machine.Fresh.guarded {w : Machine S V E B A} {host : Host S V E B A} {stage : Stage S V E B A} (fresh : w.Fresh)
    (reaches : Stage.Reaches host (.between w) stage) :
    stage.scene.Orderly ∧ stage.scene.sched.Guarded stage.scene.guards stage.scene.entering := by
  obtain ⟨start, scenes⟩ := fresh.reaches reaches
  have nowhere : (Stage.between w).scene = ⟨w.world.sched, none, fun _ => [], fun _ => none⟩ := by
    rw [Stage.scene, fresh.threads]
    rfl
  rw [nowhere] at start scenes
  exact ⟨start.steps scenes, start.guarded_steps fresh.prepared.guarded scenes⟩

/-- The end of a task that is neither finished nor killed is not in the history. -/
theorem Scheduler.Regular.not_ended {hand : Option TaskId} (regular : s.Regular hand) (live : (s.view t).Live) :
    ¬ s.Ended t := by
  have ended := (regular.stands t).ended
  obtain ⟨unfinished, alive⟩ := live
  unfold TaskView.isDone at unfinished
  cases status : (s.view t).status with
  | none => simp [status] at unfinished
  | some st =>
    have unfinished : st.isFinal = false := by simpa [status] using unfinished
    rw [status, alive, Option.any_some, unfinished] at ended
    exact of_decide_eq_false ended

/-- Two tasks that are neither finished nor killed are inside blocks of a lock that is only used by blocks, at any stage
of a run, only after a task that had ended gave back the lock while another, unfinished task held it. -/
theorem blocks_exclusive {w : Machine S V E B A} {host : Host S V E B A} {stage : Stage S V E B A} (fresh : w.Fresh)
    (reaches : Stage.Reaches host (.between w) stage) (only : ¬ stage.sched.ByHand m) (other : t ≠ u)
    (live : (stage.sched.view t).Live) (live' : (stage.sched.view u).Live) (inside : m ∈ stage.scene.guards t)
    (inside' : m ∈ stage.scene.guards u) : RobbedByEnded stage.sched.lockUses m := by
  obtain ⟨orderly, guarded⟩ := fresh.guarded reaches
  have same : stage.scene.sched = stage.sched := by cases stage <;> rfl
  rw [same] at guarded
  have regular := orderly.regular
  rw [same] at regular
  obtain ⟨exclusive, blame⟩ := (guarded.held m only).fair _ List.suffix_rfl
  have robbed := exclusive t u other (regular.not_ended live) (regular.not_ended live') (guarded.inside_iff.mpr inside)
    (guarded.inside_iff.mpr inside')
  exact robbed.elim (blame t) (blame u)

/-- What tasks do that visit a block of the first lock. -/
inductive Visit where
  | enter
  /-- Another task is cancelled first. -/
  | oust (victim : TaskId)
  /-- The task is inside, and stays there. -/
  | stay

def visitHost : Host Unit Unit Unit Visit Unit where
  start
    | .enter => do
      let _ ← Act.block 1 .stay
      return .answer ()
    | .oust victim => do
      Act.onSched (.cancel victim ())
      let _ ← Act.block 1 .stay
      return .answer ()
    | .stay => do
      match ← Act.wait .yield with
      | some _ => return .become .stay
      | none => return .answer ()
  conclude _ _ := (none, none)
  errorText _ _ := []

/-- Three visitors: the second one cancels the first one while it is inside. -/
def visitors : Machine Unit Unit Unit Visit Unit where
  world := {
    sched := (((({} : Scheduler Unit Unit Visit).newLock.2.spawn "" .enter).2.spawn "" (.oust 1)).2.spawn "" .enter).2
    own := () }

/-- The second and the third visitor are inside together, after the first one has given back the lock of the second. -/
theorem blocks_exclusive_visitors :
    visitors.Fresh ∧ ∃ w, visitors.Turns visitHost w ∧ ¬ w.world.sched.ByHand 1 ∧
      (w.world.sched.view 2).Live ∧ (w.world.sched.view 3).Live ∧
      1 ∈ threadGuards w.threads 2 ∧ 1 ∈ threadGuards w.threads 3 ∧ RobbedByEnded w.world.sched.lockUses 1 := by
  have locked := Scheduler.Prepared.operate (.new (V := Unit) (E := Unit) (B := Visit) 0 [] []) (.newLock id)
  have first := locked.operate (.spawn "" .enter id)
  have second := first.operate (.spawn "" (.oust 1) id)
  have fresh : visitors.Fresh := ⟨second.operate (.spawn "" .enter id), rfl⟩
  have seen : (visitors.after visitHost 3).any fun w => .byHand 1 ∉ w.world.sched.lockUses ∧
      (w.world.sched.view 2).isDone = false ∧ (w.world.sched.view 2).killed = false ∧
      (w.world.sched.view 3).isDone = false ∧ (w.world.sched.view 3).killed = false ∧
      1 ∈ threadGuards w.threads 2 ∧ 1 ∈ threadGuards w.threads 3 := by decide +kernel
  obtain ⟨w, later, facts⟩ := (Option.any_eq_true _ _).mp seen
  rw [decide_eq_true_eq] at facts
  obtain ⟨only, unfinished, alive, unfinished', alive', inside, inside'⟩ := facts
  have turns := Machine.turns_of_after 3 visitors later
  exact ⟨fresh, w, turns, only, ⟨unfinished, alive⟩, ⟨unfinished', alive'⟩, inside, inside',
    blocks_exclusive fresh turns.reaches only (by decide) ⟨unfinished, alive⟩ ⟨unfinished', alive'⟩ inside inside'⟩

end LedgerScript
