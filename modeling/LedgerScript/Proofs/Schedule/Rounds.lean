import LedgerScript.Proofs.Schedule.Flowing

/-!
# Turns of the loop

A turn of the loop lets the killed tasks unwind, fires the timers, and serves one ready task.  Until it serves a task the
queues only move in order, and so they do while the task that it serves runs.
-/

namespace LedgerScript

variable {S V E B A : Type}

/-- Every line may be set apart: only the order of the ready queue is told. -/
abbrev Scheduler.Queues {V E B : Type} (s s' : Scheduler V E B) : Prop :=
  s.Flows (fun _ => True) s'

theorem Scheduler.Flows.queues {V E B : Type} {apart : WaitKey → Prop} {s s' : Scheduler V E B} (flows : s.Flows apart s') :
    s.Queues s' :=
  flows.mono fun _ _ => trivial

/-- Operations one after another let the ready queue move in order. -/
theorem Scheduler.Steps.queues {V E B : Type} {s s' : Scheduler V E B} {hand : Option TaskId} (steps : s.Steps s')
    (regular : s.Regular hand) : s.Queues s' := by
  induction steps with
  | refl => exact .refl _ s
  | tail first op ih =>
    have evolution := first.evolves regular
    exact ih.trans (op.flows (regular.evolve evolution)).queues

/-! ## The turn of a task -/

section

variable {host : Host S V E B A} {threads : List (TaskId × Thread S V E B A)} {me : TaskId} {s s' : Scheduler V E B}
  {p : Proc S V E B A (Turn B A)} {stack : List (Waiting S V E B A)}

def ThreadStep.sched : ThreadStep S V E B A → Scheduler V E B
  | .go p _ => p.world.sched
  | .stop e => e.world.sched

theorem queues_process {hand : Option TaskId} (before : s.Queues s') (regular : s'.Regular hand) (process : p.Sound s') :
    s.Queues p.world.sched :=
  before.trans (process.world.queues regular)

theorem queues_enter (own : S) {lock : ObjectId} (request : B) {k : World S V E B → BlockEnd A → Proc S V E B A (Turn B A)}
    (regular : s.Regular (some me)) : s.Queues (host.enter ⟨s, own⟩ lock request k stack).1.world.sched :=
  queues_process (s.flows_use _) (regular.enterBlock lock) ((host.start request).sound ⟨s.enterBlock lock, own⟩)

/-- The task in turn has to wait, unless it has been killed. -/
theorem queues_parked {exempt : Option ObjectId} (before : s.Queues s') (regular : s.Regular (some me))
    (parking : s.Parking exempt me s') (current : s.current = some me) (own : S)
    {killed : Proc S V E B A (Turn B A)} (sound : killed.Sound s') (t : Thread S V E B A) :
    s.Queues (if s'.currentKilled then .go killed stack else .stop (.parked ⟨s'.notePark, own⟩ t) :
      ThreadStep S V E B A).sched := by
  split
  · rename_i dead
    rw [Scheduler.currentKilled_eq (parking.current.trans current)] at dead
    exact queues_process before (parking.stays regular dead) sound
  · exact before.trans s'.flows_notePark

theorem queues_step (host : Host S V E B A) (regular : p.world.sched.Regular (some me))
    (current : p.world.sched.current = some me) (process : p.Sound p.world.sched) (frames : ∀ f ∈ stack, f.Sound) :
    p.world.sched.Queues (host.step p stack).sched := by
  cases p with
  | done w r =>
    cases r with
    | answer a =>
      cases stack with
      | nil => exact .refl _ w.sched
      | cons f rest =>
        obtain ⟨sound, -⟩ := List.forall_mem_cons.mp frames
        show w.sched.Queues (f.answer w a).world.sched
        unfold Waiting.answer
        split
        · exact queues_process (.refl _ _) regular (sound w a)
        · rename_i lock _
          have left : w.sched.Queues (w.sched.leaveBlock lock) := w.sched.flows_leaveBlock lock trivial
          exact queues_process left (regular.leaveBlock lock).1 (sound (w.onSched (·.leaveBlock lock)) a)
    | become request => exact queues_process (.refl _ _) regular ((host.start request).sound w)
  | ask w request k => exact queues_process (.refl _ _) regular ((host.start request).sound w)
  | wait w op k =>
    obtain ⟨s, own⟩ := w
    have regular : s.Regular (some me) := regular
    have current : s.current = some me := current
    have started : s.Queues (op.start s).2 := (op.flows (current ▸ regular)).queues
    unfold Host.step
    dsimp only
    split
    · rename_i r s' done
      rw [done] at started
      exact queues_process started (regular.evolve ((op.tries s).done regular current done)) (process.2 ⟨s', own⟩ (some r))
    · rename_i s' parked
      rw [parked] at started
      exact queues_parked started regular ((op.tries s).parked regular current parked) current own
        (process.2 ⟨s', own⟩ none) _
  | block w lock request k =>
    obtain ⟨s, own⟩ := w
    have regular : s.Regular (some me) := regular
    have current : s.current = some me := current
    have taken : s.Queues (s.takeLock lock).2 := Scheduler.flows_takeLock (current ▸ regular) lock trivial
    have done {r : Option ScheduleFault} {s' : Scheduler V E B} (done : s.takeLock lock = (.done r, s')) :
        s'.Regular (some me) := regular.evolve ((s.tries_takeLock lock).done regular current done)
    unfold Host.step
    dsimp only
    split
    · rename_i f s' refused
      rw [refused] at taken
      exact queues_process taken (done refused) (process.2 ⟨s', own⟩ (.refused f))
    · rename_i s' eq
      rw [eq] at taken
      exact taken.trans (queues_enter own request (done eq))
    · rename_i s' parked
      rw [parked] at taken
      exact queues_parked taken regular ((s.tries_takeLock lock).parked regular current parked) current own
        (process.2 ⟨s', own⟩ .killed) _

theorem queues_afterTurn (host : Host S V E B A) (threads : List (TaskId × Thread S V E B A)) {e : TurnEnd S V E B A}
    (regular : (∃ w a, e = .ended w a) → e.world.sched.Regular (some me)) :
    e.world.sched.Queues (Machine.afterTurn host threads me e).2.world.sched := by
  cases e with
  | ended w a =>
    have free := (regular ⟨w, a, rfl⟩).free_hand
    unfold Machine.afterTurn
    dsimp only
    split
    · exact w.sched.flows_setCurrent none
    · exact (w.sched.flows_finish _ me _ _ free).trans (Scheduler.flows_setCurrent _ none)
  | parked w t => exact w.sched.flows_setCurrent none
  | exhausted w => exact .refl _ w.sched

end

namespace Stage

variable {host : Host S V E B A} {stage stage' : Stage S V E B A} {m m' : Machine S V E B A} {me id : TaskId}

/-- The books are in order, and what is left to do only uses operations of tasks. -/
structure Proper (stage : Stage S V E B A) : Prop where
  sound : stage.Sound
  orderly : stage.scene.Orderly

theorem Proper.regular (proper : stage.Proper) : stage.sched.Regular stage.hand := by
  cases stage <;> exact proper.orderly.regular

theorem Proper.current (proper : stage.Proper) : stage.sched.current = stage.hand := by
  cases stage <;> exact proper.orderly.current

theorem Proper.next (proper : stage.Proper) (next : Next host stage stage') : stage'.Proper := by
  obtain ⟨sound, scenes⟩ := proper.sound.next next
  exact ⟨sound, proper.orderly.steps scenes⟩

theorem Proper.reaches (proper : stage.Proper) (reaches : Reaches host stage stage') : stage'.Proper := by
  induction reaches with
  | refl => exact proper
  | tail _ next ih => exact ih.next next

/-- While a task runs, the ready queue moves in order. -/
theorem Proper.queues_turn (proper : stage.Proper) (turn : stage.hand = some me) (acts : Acts host stage stage') :
    stage.sched.Queues stage'.sched := by
  have regular := proper.regular
  have current := proper.current
  rw [turn] at regular current
  cases acts with
  | unwind | dispatch | idle | fire | kill | note => cases turn
  | @step threads me p p' stack stack' goes =>
    obtain ⟨-, -, process, frames⟩ := proper.sound
    have step := queues_step host regular current process frames
    rw [goes] at step
    exact step
  | @stop threads me' p stack e stops =>
    cases turn
    obtain ⟨-, -, process, frames⟩ := proper.sound
    have step := queues_step host regular current process frames
    rw [stops] at step
    refine step.trans (queues_afterTurn host threads ?_)
    rintro ⟨w, a, rfl⟩
    have follows := follows_step host threads me process frames
    rw [stops] at follows
    exact (proper.orderly.steps follows).regular

/-- A task is taken in hand. -/
theorem queues_opening (host : Host S V E B A) (m : Machine S V E B A) (sound : ∀ x ∈ m.threads, x.2.Sound)
    (regular : m.world.sched.Regular (some me)) : m.world.sched.Queues (m.opening host me).sched := by
  have taken : m.world.sched.Queues (m.world.sched.setCurrent (some me)) := m.world.sched.flows_setCurrent _
  have regular₁ := regular.setCurrent (some me)
  unfold Machine.opening
  dsimp only
  split
  · rename_i id t found
    obtain ⟨suspended, stack⟩ := t
    obtain ⟨sound, -⟩ := sound _ (List.mem_of_find?_eq_some found)
    refine taken.trans ?_
    show (m.world.sched.setCurrent (some me)).Queues
      (host.goOn ⟨m.world.sched.setCurrent (some me), m.world.own⟩ ⟨suspended, stack⟩).1.world.sched
    unfold Host.goOn
    cases suspended with
    | wait op k =>
      dsimp only
      split
      · exact queues_process (.refl _ _) regular₁ (sound ⟨m.world.sched.setCurrent (some me), m.world.own⟩ none)
      · have evolution : Scheduler.Evolution none (some me) _ _ := op.evolves_finish _ regular₁
        exact queues_process (op.flows_finish _).queues (regular₁.evolve evolution)
          (sound ⟨(op.finish (m.world.sched.setCurrent (some me))).2, m.world.own⟩ _)
    | enter lock request k =>
      dsimp only
      split
      · exact queues_process (.refl _ _) regular₁ (sound ⟨m.world.sched.setCurrent (some me), m.world.own⟩ .killed)
      · exact queues_enter m.world.own request regular₁
  · rename_i k _ _
    exact queues_process taken regular₁ ((host.start k.body).sound ⟨m.world.sched.setCurrent (some me), m.world.own⟩)
  · exact taken.trans (Scheduler.flows_setCurrent _ none)

/-- What can follow a stage without a ready task being served. -/
inductive Passes (host : Host S V E B A) : Stage S V E B A → Stage S V E B A → Prop where
  | unwind {m : Machine S V E B A} {id : TaskId} {rest : List TaskId} (first : m.world.sched.unwinding = id :: rest) :
    Passes host (.between m) ((m.onSched fun s => { s with unwinding := rest }).opening host id)
  | fire (m : Machine S V E B A) (n : Nat) : Passes host (.between m) (.between (m.onSched (·.fireDue n)))
  | turn {stage stage' : Stage S V E B A} {me : TaskId} (turn : stage.hand = some me) (acts : Acts host stage stage') :
    Passes host stage stage'

theorem Passes.next (passes : Passes host stage stage') : Next host stage stage' := by
  cases passes with
  | unwind first => exact .act (.unwind first)
  | fire m n => exact .act (.fire m n)
  | turn _ acts => exact .act acts

theorem Proper.passes (proper : stage.Proper) (passes : Relation.ReflTransGen (Passes host) stage stage') :
    stage'.Proper ∧ stage.sched.Queues stage'.sched := by
  induction passes with
  | refl => exact ⟨proper, .refl _ _⟩
  | tail _ step ih =>
    obtain ⟨proper, queues⟩ := ih
    refine ⟨proper.next step.next, queues.trans ?_⟩
    cases step with
    | @unwind m id rest first =>
      have regular : m.world.sched.Regular none := proper.regular
      have taken : m.world.sched.Queues { m.world.sched with unwinding := rest } := Scheduler.flows_of_eq
      exact taken.trans (queues_opening host (m.onSched fun s => { s with unwinding := rest }) proper.sound
        (regular.takeKilled first))
    | fire m n => exact Scheduler.flows_fireDue n (proper.regular : m.world.sched.Regular none)
    | turn turn acts => exact proper.queues_turn turn acts

end Stage

namespace Machine

open Stage

variable {host : Host S V E B A} {m m' : Machine S V E B A} {threads : List (TaskId × Thread S V E B A)}
  {me id : TaskId}

theorem passes_runThread (fuel : Nat) (p : Proc S V E B A (Turn B A)) (stack : List (Waiting S V E B A))
    (ended : afterTurn host threads me (host.runThread fuel p stack) = (true, m')) :
    Relation.ReflTransGen (Passes host) (.running threads me p stack) (.between m') := by
  induction fuel generalizing p stack with
  | zero => exact absurd (congrArg Prod.fst ended) Bool.false_ne_true
  | succ fuel ih =>
    unfold Host.runThread at ended
    split at ended
    · rename_i e stops
      have last : (afterTurn host threads me e).2 = m' := by rw [ended]
      exact last ▸ .single (.turn rfl (.stop stops))
    · rename_i p' stack' goes
      exact .head (.turn rfl (.step goes)) (ih p' stack' ended)

theorem passes_resume (ended : m.resume host id = (true, m')) :
    Relation.ReflTransGen (Passes host) (m.opening host id) (.between m') := by
  unfold resume at ended
  split at ended
  · rename_i threads me p stack opened
    rw [opened]
    exact passes_runThread host.activations p stack ended
  · rename_i m'' opened
    cases ended
    rw [opened]

theorem passes_unwind (n : Nat) (m : Machine S V E B A) (ended : m.unwind host n = (true, m')) :
    Relation.ReflTransGen (Passes host) (.between m) (.between m') := by
  induction n generalizing m with
  | zero =>
    cases ended
    exact .refl
  | succ n ih =>
    unfold unwind at ended
    split at ended
    · cases ended
      exact .refl
    · rename_i id rest first
      split at ended
      · rename_i m₁ resumed
        exact .head (.unwind first) ((passes_resume resumed).trans (ih m₁ ended))
      · cases ended

/-- The machine when it is about to pick the next ready task. -/
def poised (host : Host S V E B A) (m : Machine S V E B A) : Machine S V E B A :=
  (m.unwindAll host).2.fired

/-- The ready task that is served by a turn of the loop. -/
def served (host : Host S V E B A) (m : Machine S V E B A) : Option TaskId :=
  match m.unwindAll host with
  | (true, m₁) => if m₁.world.sched.interrupted then none else m₁.fired.world.sched.nextReady.1
  | (false, _) => none

/-- Turns of the loop one after another, and the ready tasks that they serve. -/
inductive Serves (host : Host S V E B A) (m : Machine S V E B A) : List TaskId → Machine S V E B A → Prop where
  | none : Serves host m [] m
  | turn {served : List TaskId} {m' m'' : Machine S V E B A} (before : Serves host m served m')
    (again : m'.turn host = .again m'') : Serves host m (served ++ (m'.served host).toList) m''

/-- Whoever is served is picked by the poised machine. -/
theorem served_eq {t : TaskId} (serves : m.served host = some t) :
    m.unwindAll host = (true, (m.unwindAll host).2) ∧ ∃ s, (m.poised host).world.sched.nextReady = (some t, s) := by
  unfold served at serves
  unfold poised
  split at serves
  · rename_i m₁ unwound
    rw [unwound]
    split at serves
    · cases serves
    · exact ⟨rfl, _, Prod.ext serves rfl⟩
  · cases serves

/-- The ready queue moves in order until the loop picks a task. -/
theorem queues_poised (proper : (Stage.between m).Proper) (unwound : m.unwindAll host = (true, m')) :
    (Stage.between (m.poised host)).Proper ∧ m.world.sched.Queues (m.poised host).world.sched := by
  have passes : Relation.ReflTransGen (Passes host) (.between m) (.between (m.poised host)) := by
    unfold poised
    rw [unwound]
    exact (passes_unwind _ m unwound).tail (.fire m' _)
  exact proper.passes passes

/-- What comes of a turn of the loop: the queues move in order, a task is picked or nobody is left to be picked, and the
queues move in order again. -/
theorem turn_queues (proper : (Stage.between m).Proper) (again : m.turn host = .again m') :
    (Stage.between (m.poised host)).Proper ∧ m.world.sched.Queues (m.poised host).world.sched ∧
      ∃ s, (m.poised host).world.sched.nextReady = (m.served host, s) ∧ s.Queues m'.world.sched := by
  have round := m.round host
  rw [again] at round
  generalize turned : LoopStep.again m' = r at round
  have served_eq {m₁ : Machine S V E B A} (unwound : m.unwindAll host = (true, m₁))
      (on : m₁.world.sched.interrupted = false) : m.served host = m₁.fired.world.sched.nextReady.1 := by
    unfold served
    rw [unwound]
    dsimp only
    rw [on, if_neg Bool.false_ne_true]
  have on {m₁ : Machine S V E B A} (unwound : m.unwindAll host = (true, m₁)) : m₁.world.sched.interrupted = false := by
    by_contra off
    rw [Bool.not_eq_false] at off
    have closing : m.turn host = m₁.shutDown host .interrupted .interrupted := by
      unfold turn
      rw [unwound]
      dsimp only
      rw [off, if_pos rfl]
    exact shutDown_ne_again _ _ _ _ (closing.symm.trans again)
  cases round with
  | exhausted | finished => cases turned
  | interrupted | stalled => exact (shutDown_ne_again _ _ _ _ turned.symm).elim
  | @dispatch m₁ m'' s id unwound next resumed =>
    cases turned
    have same : m.poised host = m₁.fired := by rw [poised, unwound]
    obtain ⟨proper₁, queues⟩ := queues_poised proper unwound
    refine ⟨proper₁, queues, s, ?_, ?_⟩
    · rw [served_eq unwound (on unwound), same, next]
    · rw [same] at proper₁
      have regular : m₁.fired.world.sched.Regular none := proper₁.regular
      have taken : s.Queues (s.setRunning id) := s.flows_setRunning id
      have opened := queues_opening host (m₁.fired.onSched fun _ => s.setRunning id) proper₁.sound (regular.nextReady_some next)
      have proper₂ := proper₁.next (.act (Acts.dispatch next : Acts host _ _))
      exact (taken.trans opened).trans (proper₂.passes (passes_resume resumed)).2
  | @advance m₁ s s' unwound nobody later =>
    cases turned
    have same : m.poised host = m₁.fired := by rw [poised, unwound]
    obtain ⟨proper₁, queues⟩ := queues_poised proper unwound
    refine ⟨proper₁, queues, s, ?_, ?_⟩
    · rw [served_eq unwound (on unwound), same, nobody]
    · rw [same] at proper₁
      have regular : m₁.fired.world.sched.Regular none := proper₁.regular
      exact Scheduler.flows_advance? (regular.nextReady_none nobody).1 later

end Machine

/-- Whatever a machine that has not run yet comes to is in order. -/
theorem Machine.Fresh.proper {m : Machine S V E B A} (fresh : m.Fresh) : (Stage.between m).Proper :=
  ⟨by simp [Stage.Sound, fresh.threads], fresh.prepared.regular.1, fresh.prepared.regular.2⟩

end LedgerScript
