import LedgerScript.Proofs.Schedule.Bookkeeping
import LedgerScript.Proofs.Schedule.Heeding
import LedgerScript.Proofs.Schedule.Timed

/-!
# Plays

A *play* is a run without its processes, but with what suspended tasks are about to do, and with the news whether the task
in turn is at its end.  A killed task that goes on is at its end, and so is one that finds out where it wants to wait that
it has been killed: from then on it only leaves blocks and gives things back.  `Play.Step` tells all that can happen.

The books are in order at every stage of a play, and so is its roster.
-/

open Function (update)

namespace LedgerScript

variable {V E B : Type}

/-- Who acts: the machine, its clock, or the task in turn. -/
inductive Actor where
  | machine
  | clock
  | task (me : TaskId)

def Actor.hand : Actor → Option TaskId
  | machine | clock => none
  | task me => some me

/-- A run without its processes. -/
structure Play (V E B : Type) where
  sched : Scheduler V E B
  hand : Option TaskId
  /-- The task in turn is at its end. -/
  dying : Bool
  /-- What a suspended task is about to do. -/
  pauses : TaskId → Option (Pause V)

namespace Play

/-- All that can happen, and who does it. -/
inductive Step (x : Play V E B) : Actor → Play V E B → Prop where
  | idle {s : Scheduler V E B} (free : x.hand = none) (nobody : x.sched.nextReady = (none, s)) :
    Step x .machine { x with sched := s }
  | fire (free : x.hand = none) (n : Nat) : Step x .machine { x with sched := x.sched.fireDue n }
  /-- Time passes while no task is ready. -/
  | advance {s : Scheduler V E B} (free : x.hand = none) (idle : x.sched.ready = []) (later : x.sched.advance? = some s) :
    Step x .clock { x with sched := s }
  | kill (free : x.hand = none) (id : TaskId) (cause : ScheduleFault) :
    Step x .machine { x with sched := x.sched.kill id cause }
  | note (free : x.hand = none) (e : RunEvent) : Step x .machine { x with sched := x.sched.note e }
  /-- A killed task that is suspended is taken in hand. -/
  | unwind {me : TaskId} {rest : List TaskId} {p : Pause V} (free : x.hand = none) (first : x.sched.unwinding = me :: rest)
    (paused : x.pauses me = some p) :
    Step x (.task me) ⟨{ x.sched with unwinding := rest }.setCurrent (some me), some me, true, update x.pauses me none⟩
  | start {me : TaskId} {s : Scheduler V E B} (free : x.hand = none) (next : x.sched.nextReady = (some me, s))
    (fresh : x.pauses me = none) : Step x (.task me) ⟨(s.setRunning me).setCurrent (some me), some me, false, x.pauses⟩
  | goOn {me : TaskId} {s : Scheduler V E B} {p : Pause V} (free : x.hand = none)
    (next : x.sched.nextReady = (some me, s)) (paused : x.pauses me = some p) :
    Step x (.task me) ⟨p.finish ((s.setRunning me).setCurrent (some me)), some me, false, update x.pauses me none⟩
  | operate {me : TaskId} {α : Type} (turn : x.hand = some me) (alive : x.dying = false) (op : TaskOp V E B α) :
    Step x (.task me) { x with sched := (op.run x.sched).2 }
  /-- What may suspend the task in turn is done at once. -/
  | attempt {me : TaskId} {s : Scheduler V E B} {r : Woken V} (p : Pause V) (turn : x.hand = some me)
    (alive : x.dying = false) (done : p.start x.sched = (.done r, s)) : Step x (.task me) { x with sched := s }
  | park {me : TaskId} {s : Scheduler V E B} (p : Pause V) (turn : x.hand = some me) (alive : x.dying = false)
    (parked : p.start x.sched = (.parked, s)) (spared : s.currentKilled = false) :
    Step x (.task me) ⟨s.notePark.setCurrent none, none, false, update x.pauses me (some p)⟩
  | stay {me : TaskId} {s : Scheduler V E B} (p : Pause V) (turn : x.hand = some me) (alive : x.dying = false)
    (parked : p.start x.sched = (.parked, s)) (killed : s.currentKilled = true) :
    Step x (.task me) { x with sched := s, dying := true }
  | enter {me : TaskId} (turn : x.hand = some me) (m : ObjectId) :
    Step x (.task me) { x with sched := x.sched.enterBlock m }
  | leave {me : TaskId} (turn : x.hand = some me) (m : ObjectId) :
    Step x (.task me) { x with sched := x.sched.leaveBlock m }
  /-- The task in turn gives something back. -/
  | quit {me : TaskId} {α : Type} (turn : x.hand = some me) (op : TaskOp V E B α) (quits : op.Quits) :
    Step x (.task me) { x with sched := (op.run x.sched).2 }
  | rest {me : TaskId} (turn : x.hand = some me) (done : x.sched.isDone me = true) :
    Step x (.task me) { x with sched := x.sched.setCurrent none, hand := none, dying := false }
  | finish {me : TaskId} (turn : x.hand = some me) (unfinished : x.sched.isDone me = false) (errorText : E → Bytes)
    (result : Option V) (fault : Option (TaskFault E)) :
    Step x (.task me) { x with
      sched := (x.sched.finish errorText me result fault).setCurrent none, hand := none, dying := false }

abbrev Does (a : Actor) : Play V E B → Play V E B → Prop :=
  Relation.ReflTransGen fun x y => x.Step a y

abbrev Steps : Play V E B → Play V E B → Prop :=
  Relation.ReflTransGen fun x y => ∃ a, x.Step a y

theorem Does.steps {a : Actor} {x y : Play V E B} (does : Does a x y) : Steps x y :=
  Relation.ReflTransGen.mono (fun _ _ step => ⟨a, step⟩) _ _ does

/-- What there is to say about the tasks. -/
def roster (x : Play V E B) : Roster V E B :=
  ⟨x.sched.life, x.hand, x.dying, x.pauses⟩

/-- The books are in order, and so is the roster. -/
structure Lawful (x : Play V E B) : Prop where
  regular : x.sched.Regular x.hand
  current : x.sched.current = x.hand
  staffed : x.roster.Staffed
  timed : x.roster.Timed

end Play

/-! ## What happens to the roster -/

namespace Roster

variable {x y : Roster V E B}

theorem Staffed.steps (staffed : x.Staffed) (steps : x.Steps y) : y.Staffed := by
  induction steps with
  | refl => exact staffed
  | tail _ step ih => exact ih.step step

theorem Timed.steps (timed : x.Timed) (staffed : x.Staffed) (steps : x.Steps y) : y.Timed := by
  induction steps with
  | refl => exact timed
  | tail before step ih => exact ih.step (staffed.steps before) step

end Roster

namespace Play

variable {x y : Play V E B} {s s' : Scheduler V E B} {hand : Option TaskId} {dying : Bool}
  {pauses : TaskId → Option (Pause V)} {me : TaskId} {k : Task V E B}

theorem current_ring (s : Scheduler V E B) (timer : Timer) (rest : List Timer) :
    (s.ring timer rest).current = s.current := by
  let s₁ : Scheduler V E B := { s with timers := rest, timerUses := (s.now, timer) :: s.timerUses }
  have same : s₁.Same ⟨True, True⟩ (s₁.fire timer.action) := by
    unfold Scheduler.fire
    split
    · rename_i t _
      exact (Scheduler.Same.refl s₁).wake t
    · rename_i t after _
      have forgotten : s₁.Same ⟨True, True⟩ (s₁.modifyTask t fun t => { t with deadline := none }) :=
        Scheduler.Same.modifyTask trivial (.refl s₁) t (fun _ => rfl) fun _ => rfl
      exact Scheduler.Same.kill trivial trivial forgotten t _
  exact same.current

theorem step_ring {timer : Timer} {rest : List Timer} (timed : (roster ⟨s, none, dying, pauses⟩).Timed)
    (free : s.current = none) (first : s.timers = timer :: rest) (due : timer.due ≤ s.now) :
    (roster ⟨s, none, dying, pauses⟩).Step (roster ⟨s.ring timer rest, none, dying, pauses⟩) := by
  unfold roster
  cases action : timer.action with
  | wake t =>
    rw [s.life_ring_wake rest action]
    exact .wake rfl first due action
  | expire t after =>
    have armed : timer ∈ s.life.timers := by
      rw [show s.life.timers = timer :: rest from first]
      exact List.mem_cons_self ..
    obtain ⟨k, here, unfinished, -⟩ := timed.life.serves timer armed
    rw [action] at here
    rw [Scheduler.life_ring_expire rest action here unfinished, free]
    exact .expire rfl first due action here unfinished

theorem steps_fireDue (n : Nat) (staffed : (roster ⟨s, none, dying, pauses⟩).Staffed)
    (timed : (roster ⟨s, none, dying, pauses⟩).Timed) (free : s.current = none) :
    (roster ⟨s, none, dying, pauses⟩).Turn none (roster ⟨s.fireDue n, none, dying, pauses⟩) := by
  induction n generalizing s with
  | zero => exact .refl
  | succ n ih =>
    unfold Scheduler.fireDue
    split
    · rename_i timer rest first
      split
      · rename_i due
        have step := step_ring timed free first due
        exact .head ⟨step, .inl rfl⟩ (ih (staffed.step step) (timed.step staffed step) ((current_ring s timer rest).trans free))
      · exact .refl
    · exact .refl

/-- Time passes until the first timer is due. -/
theorem step_advance {timer : Timer} {rest : List Timer} (timed : (roster ⟨s, none, dying, pauses⟩).Timed)
    (armed : s.timers = timer :: rest) :
    (roster ⟨s, none, dying, pauses⟩).Step (roster ⟨{ s with now := max s.now timer.due }, none, dying, pauses⟩) := by
  have sorted := timed.life.sorted
  have due := timed.life.due
  have timers : (roster ⟨s, none, dying, pauses⟩).life.timers = timer :: rest := armed
  rw [timers] at sorted due
  refine .advance rfl (Nat.le_max_left ..) fun other mem => ?_
  rw [timers] at mem
  refine Nat.max_le.mpr ⟨due other mem, ?_⟩
  rcases List.mem_cons.mp mem with rfl | mem
  · exact Nat.le_refl _
  · rcases (List.pairwise_cons.mp sorted).1 other mem with lt | ⟨eq, -⟩
    · exact Nat.le_of_lt lt
    · exact Nat.le_of_eq eq

/-- Time passes, and timers fire. -/
theorem steps_advance (staffed : (roster ⟨s, none, dying, pauses⟩).Staffed)
    (timed : (roster ⟨s, none, dying, pauses⟩).Timed) (free : s.current = none) (later : s.advance? = some s') :
    (roster ⟨s, none, dying, pauses⟩).Turn none (roster ⟨s', none, dying, pauses⟩) := by
  unfold Scheduler.advance? at later
  split at later
  · cases later
  · rename_i timer rest armed
    obtain rfl := Option.some.inj later
    have step := step_advance timed armed
    exact .head ⟨step, .inl rfl⟩ (steps_fireDue _ (staffed.step step) (timed.step staffed step) free)

theorem steps_kill (current : s.current = hand) (id : TaskId) (cause : ScheduleFault) :
    (roster ⟨s, hand, dying, pauses⟩).Turn hand (roster ⟨s.kill id cause, hand, dying, pauses⟩) := by
  cases done : s.isDone id with
  | true =>
    rw [Scheduler.kill_done done]
  | false =>
    obtain ⟨k, here, unfinished⟩ := Scheduler.tasks_of_isDone done
    unfold roster
    rw [Scheduler.life_kill here unfinished, current]
    exact .single ⟨.kill cause here unfinished, .inr rfl⟩

theorem steps_setDeadline (s : Scheduler V E B) (id : TaskId) (after : Int) :
    (roster ⟨s, hand, dying, pauses⟩).Turn hand (roster ⟨s.setDeadline id after, hand, dying, pauses⟩) := by
  cases done : s.isDone id with
  | true =>
    rw [Scheduler.setDeadline_done done]
  | false =>
    obtain ⟨k, here, unfinished⟩ := Scheduler.tasks_of_isDone done
    unfold roster
    rw [Scheduler.life_setDeadline here unfinished]
    exact .single ⟨.setDeadline after here unfinished, .inr rfl⟩

theorem steps_spawn (s : Scheduler V E B) (name : String) (body : B) :
    (roster ⟨s, hand, dying, pauses⟩).Turn hand (roster ⟨(s.spawn name body).2, hand, dying, pauses⟩) := by
  obtain ⟨s₁, pushed, spawned⟩ := s.life_spawn name body
  have fresh : s.life.tasks (s.life.size + 1) = none := by
    have beyond : s.task? (s.tasks.size + 1) = none := by simp [Scheduler.task?]
    exact congrArg (Option.map Task.lasting) beyond
  have step : (roster ⟨s, hand, dying, pauses⟩).Step (roster ⟨s₁, hand, dying, pauses⟩) := by
    unfold roster
    rw [pushed]
    exact .spawn name body fresh
  unfold roster at step ⊢
  rw [spawned]
  split
  · exact .head ⟨step, .inr rfl⟩ (steps_setDeadline s₁ _ _)
  · exact .single ⟨step, .inr rfl⟩

theorem steps_run {α : Type} (current : s.current = hand) (op : TaskOp V E B α) :
    (roster ⟨s, hand, dying, pauses⟩).Turn hand (roster ⟨(op.run s).2, hand, dying, pauses⟩) := by
  have calm (others : ¬ op.Lives) (noSpawn : ∀ name body k, op ≠ .spawn name body k) :
      (roster ⟨s, hand, dying, pauses⟩).Turn hand (roster ⟨(op.run s).2, hand, dying, pauses⟩) := by
    have same : s.Same .still (op.run s).2 := Scheduler.Same.run op (fun _ => trivial) others noSpawn (.refl s)
    unfold roster
    rw [same.life]
  cases op with
  | spawn name body k => exact steps_spawn s name body
  | cancel id => exact steps_kill current id _
  | setDeadline id after => exact steps_setDeadline s id after
  | _ => exact calm (fun lives => lives) (by simp)

/-- A ready task is taken in hand. -/
theorem life_dispatch (next : s.nextReady = (some me, s')) :
    ∃ k, s.life.tasks me = some k ∧ k.isDone = false ∧
      ((s'.setRunning me).setCurrent (some me)).life = s.life.put me k.dispatched := by
  obtain ⟨k, here, unfinished⟩ := Scheduler.tasks_of_isDone (Scheduler.pickReady_unfinished _ next)
  have same := Scheduler.life_nextReady next
  refine ⟨k, here, unfinished, ?_⟩
  rw [← same] at here ⊢
  exact Scheduler.life_setRunning here

/-- A ready task that is taken in hand has not been killed. -/
theorem alive_dispatch (regular : s.Regular none) (next : s.nextReady = (some me, s')) :
    ((s'.setRunning me).setCurrent (some me)).currentKilled = false := by
  obtain ⟨k, before, -, life⟩ := life_dispatch next
  have live := regular.live_other (by simp) (Scheduler.pickReady_unfinished _ next)
  have here : ((s'.setRunning me).setCurrent (some me)).life.tasks me = some k.dispatched := by
    rw [life]
    exact Life.tasks_put ..
  rw [Scheduler.currentKilled_eq rfl, Scheduler.killed_of_tasks here]
  exact (Scheduler.killed_of_tasks before).symm.trans live.2

theorem awake_dispatch (regular : s.Regular none) (next : s.nextReady = (some me, s')) :
    ∀ timer ∈ s.life.timers, timer.action ≠ .wake me := by
  have stands : (s.view me).Stands false := regular.stands_other (by simp)
  have live := regular.live_other (by simp) (Scheduler.pickReady_unfinished _ next)
  have ready : (s.view me).ready = true := decide_eq_true (Scheduler.mem_of_pickReady _ next)
  have alarms : s.alarms me = 0 := by
    by_contra armed
    obtain ⟨-, key, parked, -⟩ := stands.of_alarms live (Nat.pos_of_ne_zero armed)
    exact absurd (ready.symm.trans (stands.of_parked live parked).2.1) (by simp)
  intro timer armed wakes
  exact absurd (List.countP_eq_zero.mp alarms timer armed) (by simp [wakes])

theorem life_notePark (s : Scheduler V E B) : s.notePark.life = s.life :=
  ((Scheduler.Same.refl s).noteTask _ _ _).life

/-- What has become of the task in turn when it has to wait. -/
theorem parked_spec (regular : s.Regular (some me)) (current : s.current = some me) (here : s.life.tasks me = some k)
    {p : Pause V} (parked : p.start s = (.parked, s')) :
    s'.life = p.suspend me k s.life ∧ s'.current = some me ∧ s'.currentKilled = k.killed := by
  have attempted := Scheduler.attempted current here p
  rw [parked] at attempted
  obtain ⟨lives, -⟩ := attempted
  obtain ⟨exempt, tries⟩ := p.tries s
  have current' := (tries.parked regular current parked).current.trans current
  obtain ⟨k', here', -, killed, -⟩ := p.tasks_suspend me k s.life
  rw [← lives] at here'
  exact ⟨lives, current', (Scheduler.currentKilled_eq current').trans ((Scheduler.killed_of_tasks here').trans killed)⟩

/-- Nothing has become of the task in turn when it need not wait. -/
theorem life_attempt (regular : s.Regular (some me)) (current : s.current = some me) {p : Pause V} {r : Woken V}
    (done : p.start s = (.done r, s')) : s'.life = s.life := by
  obtain ⟨k, here⟩ := regular.task?_hand
  have attempted := Scheduler.attempted current (congrArg (Option.map Task.lasting) here) p
  rw [done] at attempted
  exact attempted

/-- A step of a play is made of steps of its roster. -/
theorem Lawful.roster (lawful : x.Lawful) {a : Actor} (step : x.Step a y) : x.roster.Turn a.hand y.roster := by
  obtain ⟨regular, current, staffed, timed⟩ := lawful
  obtain ⟨s, hand, dying, pauses⟩ := x
  have calm {s' : Scheduler V E B} {actor : Option TaskId} (same : s'.life = s.life) :
      (Play.roster ⟨s, hand, dying, pauses⟩).Turn actor (Play.roster ⟨s', hand, dying, pauses⟩) := by
    unfold Play.roster
    rw [same]
  have known {me : TaskId} (turn : hand = some me) : ∃ k, s.task? me = some k ∧ s.life.tasks me = some k.lasting := by
    subst turn
    obtain ⟨k, here⟩ := regular.task?_hand
    exact ⟨k, here, congrArg (Option.map Task.lasting) here⟩
  cases step with
  | idle free nobody => exact calm (Scheduler.life_nextReady nobody)
  | fire free n =>
    obtain rfl : hand = none := free
    exact steps_fireDue n staffed timed current
  | advance free idle later =>
    obtain rfl : hand = none := free
    exact steps_advance staffed timed current later
  | kill free id cause =>
    obtain rfl : hand = none := free
    exact steps_kill current id cause
  | note free e => exact calm rfl
  | unwind free first paused => exact .single ⟨.unwind free first paused, .inr rfl⟩
  | start free next fresh =>
    obtain ⟨k, here, unfinished, life⟩ := life_dispatch next
    unfold Play.roster
    rw [life]
    exact .single ⟨.start free here unfinished fresh, .inr rfl⟩
  | @goOn me s' p free next paused =>
    obtain rfl : hand = none := free
    obtain ⟨k, here, unfinished, life⟩ := life_dispatch next
    have here' : ((s'.setRunning me).setCurrent (some me)).life.tasks me = some k.dispatched := by
      rw [life]
      exact Life.tasks_put ..
    unfold Play.roster
    rw [Scheduler.life_goOn rfl here', life]
    exact .single ⟨.goOn rfl here unfinished paused (awake_dispatch regular next), .inr rfl⟩
  | operate turn alive op =>
    obtain rfl := (turn : hand = _)
    exact steps_run current op
  | @attempt me s' r p turn alive done =>
    obtain rfl : hand = some me := turn
    exact calm (life_attempt regular current done)
  | @park me s' p turn alive parked spared =>
    obtain ⟨k, here, here'⟩ := known turn
    obtain rfl : hand = some me := turn
    obtain ⟨lives, -, killed⟩ := parked_spec regular current here' parked
    have unfinished : k.lasting.isDone = false := by
      have alive : (s.view me).killed = false := (Scheduler.killed_of_tasks here').trans (killed.symm.trans spared)
      rw [← Scheduler.isDone_of_tasks here', ← Scheduler.isDone_view]
      exact (regular.running alive).1.1
    unfold Play.roster
    rw [show (s'.notePark.setCurrent none).life = s'.life from life_notePark s', lives]
    exact .single ⟨.park p rfl alive here' unfinished, .inl rfl⟩
  | @stay me s' p turn alive parked killed =>
    obtain ⟨k, here, here'⟩ := known turn
    obtain rfl : hand = some me := turn
    obtain ⟨lives, -, same⟩ := parked_spec regular current here' parked
    unfold Play.roster
    rw [lives]
    exact .single ⟨.stay p rfl alive here' (same.symm.trans killed), .inr rfl⟩
  | enter turn m => exact calm ((Scheduler.Same.refl s).enterBlock m).life
  | leave turn m => exact calm ((Scheduler.Same.refl s).leaveBlock m).life
  | quit turn op quits =>
    have quits : s.Quits (op.run s).2 := .tail (.refl s) op quits
    exact calm quits.same.life
  | rest turn done =>
    obtain ⟨k, here, here'⟩ := known turn
    refine .single ⟨.rest turn here' ?_, .inl rfl⟩
    simpa [Scheduler.isDone, here, Task.isDone_lasting] using done
  | @finish me turn unfinished errorText result fault =>
    obtain ⟨k, here, here'⟩ := known turn
    have unfinished' : k.lasting.isDone = false := by
      simpa [Scheduler.isDone, here, Task.isDone_lasting] using unfinished
    unfold Play.roster
    rw [show ((s.finish errorText me result fault).setCurrent none).life = _ from
      Scheduler.life_finish here' errorText result fault]
    exact .single ⟨.finish result fault turn here' unfinished', .inl rfl⟩

/-- Whatever happens, the books and the roster stay in order. -/
theorem Lawful.step (lawful : x.Lawful) {a : Actor} (step : x.Step a y) : y.Lawful := by
  have rosters := (lawful.roster step).steps
  have staffed := lawful.staffed.steps rosters
  have timed := lawful.timed.steps lawful.staffed rosters
  suffices books : y.sched.Regular y.hand ∧ y.sched.current = y.hand from ⟨books.1, books.2, staffed, timed⟩
  obtain ⟨regular, current, -, -⟩ := lawful
  have interlude {s' : Scheduler V E B} (free : x.hand = none) (happens : x.sched.Interlude s') :
      s'.Regular x.hand ∧ s'.current = x.hand := by
    rw [free] at regular current ⊢
    obtain ⟨rest, same⟩ := regular.interlude happens
    exact ⟨rest, same.trans current⟩
  have evolve {exempt : Option ObjectId} {s' : Scheduler V E B} (evolution : x.sched.Evolution exempt x.hand s') :
      s'.Regular x.hand ∧ s'.current = x.hand :=
    ⟨regular.evolve evolution, evolution.current.trans current⟩
  cases step with
  | idle free nobody => exact interlude free (.idle nobody)
  | fire free n => exact interlude free (.fire n)
  | advance free idle later => exact interlude free (.advance later)
  | kill free id cause => exact interlude free (.kill id cause)
  | note free e => exact interlude free (.note e)
  | unwind free first paused =>
    rw [free] at regular
    exact ⟨(regular.takeKilled first).setCurrent _, rfl⟩
  | start free next fresh =>
    rw [free] at regular
    exact ⟨(regular.nextReady_some next).setCurrent _, rfl⟩
  | @goOn me s p free next paused =>
    rw [free] at regular
    have taken := (regular.nextReady_some next).setCurrent (some me)
    cases p with
    | amid op =>
      have evolution : Scheduler.Evolution none (some me) _ _ := op.evolves_finish _ taken
      exact ⟨taken.evolve evolution, evolution.current⟩
    | door m => exact ⟨taken.enterBlock m, rfl⟩
  | operate turn alive op => exact evolve (op.evolves _ regular)
  | @attempt me s r p turn alive done =>
    obtain ⟨exempt, tries⟩ := p.tries x.sched
    have tried := tries.done (turn ▸ regular) (current.trans turn) done
    rw [← turn] at tried
    exact evolve tried
  | @park me s p turn alive parked spared =>
    rw [turn] at regular current
    obtain ⟨exempt, tries⟩ := p.tries x.sched
    exact ⟨regular.leave current (tries.parked regular current parked) spared, rfl⟩
  | @stay me s p turn alive parked killed =>
    obtain ⟨exempt, tries⟩ := p.tries x.sched
    have parking := tries.parked (turn ▸ regular) (current.trans turn) parked
    have current' := parking.current.trans current
    rw [Scheduler.currentKilled_eq (current'.trans turn)] at killed
    refine ⟨?_, current'⟩
    show s.Regular x.hand
    rw [turn] at regular ⊢
    exact parking.stays regular killed
  | enter turn m => exact ⟨regular.enterBlock m, current⟩
  | leave turn m =>
    obtain ⟨rest, same⟩ := regular.leaveBlock m
    exact ⟨rest, same.trans current⟩
  | quit turn op quits => exact evolve (op.evolves _ regular)
  | rest turn done =>
    rw [turn] at regular
    exact ⟨(regular.putDone done).setCurrent none, rfl⟩
  | finish turn unfinished errorText result fault =>
    rw [turn] at regular
    exact ⟨(regular.finish errorText result fault).setCurrent none, rfl⟩

theorem Lawful.steps (lawful : x.Lawful) (steps : x.Steps y) : y.Lawful := by
  induction steps with
  | refl => exact lawful
  | tail _ step ih =>
    obtain ⟨a, step⟩ := step
    exact ih.step step

/-- What somebody does is done with the roster. -/
theorem Lawful.does (lawful : x.Lawful) {a : Actor} (does : x.Does a y) : x.roster.Turn a.hand y.roster := by
  induction does with
  | refl => exact .refl
  | tail before step ih => exact ih.trans ((lawful.steps (Does.steps before)).roster step)

theorem Lawful.rosters (lawful : x.Lawful) (steps : x.Steps y) : x.roster.Steps y.roster := by
  induction steps with
  | refl => exact .refl
  | tail before step ih =>
    obtain ⟨a, step⟩ := step
    exact ih.trans ((lawful.steps before).roster step).steps

end Play

end LedgerScript
