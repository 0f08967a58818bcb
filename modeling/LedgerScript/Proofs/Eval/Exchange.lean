import LedgerScript.Proofs.Eval.TurnTaking

/-!
# Tasks that carry out transactions

An *exchange* is a run in which tasks carry out transactions: a task has at most one at a time, and goes through the
process of `Deed.transact` with it.  Between two stages of this process, and between two transactions, a task may do
anything else.  It may use the working set of its transaction as contracts do, whatever accounts that reaches, use
objects of any kind, start and cancel other tasks, and suspend itself.  Only the locks of addresses are the ledger's own:
no program can name them.  `Exchange.Step` tells all that can happen.

In an exchange nobody waits, over however many others, for itself.
-/

open Function (update)

namespace LedgerScript

abbrev Carrying :=
  Proc RunState Value Fault Request Answer (Except Exit (Receipt Fault))

/-- What a task is doing about transactions. -/
inductive Job where
  /-- It has none. -/
  | idle
  /-- It is in the middle of the process. -/
  | busy (q : Carrying)
  /-- Its contract runs. -/
  | inside (w : WorkingId) (k : World RunState Value Fault Request → Answer → Carrying)
  | asleep (op : WaitOp Value) (k : World RunState Value Fault Request → Option (Woken Value) → Carrying)

/-- The task may do something else. -/
inductive Job.Free : Job → Prop where
  | idle : Free idle
  | inside {w : WorkingId} {k : World RunState Value Fault Request → Answer → Carrying} : Free (inside w k)

/-- The world, and what its tasks are doing about transactions. -/
structure Exchange where
  world : World RunState Value Fault Request
  hand : Option TaskId
  jobs : TaskId → Job

namespace Exchange

def withSched (x : Exchange) (s : Scheduler Value Fault Request) : Exchange :=
  { x with world := ⟨s, x.world.own⟩ }

/-- A task has come to a stage of the process. -/
def carry (x : Exchange) (me : TaskId) (q : Carrying) : Exchange :=
  { x with world := q.world, jobs := update x.jobs me (.busy q) }

abbrev IsLocking (x : Exchange) (m : ObjectId) : Prop :=
  x.world.own.ledger.IsLocking m

/-- All that can happen. -/
inductive Step (x : Exchange) : Exchange → Prop where
  | between {s : Scheduler Value Fault Request} (free : x.hand = none) (interlude : x.world.sched.Interlude s) :
    Step x (x.withSched s)
  /-- A killed task is taken in hand. -/
  | unwind {me : TaskId} {rest : List TaskId} (free : x.hand = none) (first : x.world.sched.unwinding = me :: rest) :
    Step x { x.withSched ({ x.world.sched with unwinding := rest }.setCurrent (some me)) with hand := some me }
  | dispatch {me : TaskId} {s : Scheduler Value Fault Request} (free : x.hand = none)
    (next : x.world.sched.nextReady = (some me, s)) :
    Step x { x.withSched ((s.setRunning me).setCurrent (some me)) with hand := some me }
  | begin {me : TaskId} (turn : x.hand = some me) (idle : x.jobs me = .idle) (tx : Transaction)
    (call : Option ContractCall) : Step x (x.carry me ((Deed.transact tx call).act.run x.world))
  /-- The contract of its transaction is activated. -/
  | activate {me : TaskId} {w : WorkingId} {request : Request} {k : World RunState Value Fault Request → Answer → Carrying}
    (turn : x.hand = some me) (busy : x.jobs me = .busy (.ask x.world request k)) (mine : request.working? = some w) :
    Step x { x with jobs := update x.jobs me (.inside w k) }
  | use {me : TaskId} {w : WorkingId} {k : World RunState Value Fault Request → Answer → Carrying} {α : Type}
    {op : LedgerOp α} {c : CallContext} {r : Except LedgerFault α} {t : LedgerState Value Fault Request}
    (turn : x.hand = some me) (inside : x.jobs me = .inside w k) (runs : c.working = some w) (allowed : c.Allows op)
    (done : LedgerM.exec op.run ⟨x.world.sched, x.world.own.heap, x.world.own.ledger⟩ = (r, t)) :
    Step x { x with world := ⟨t.sched, { x.world.own with heap := t.heap, ledger := t.ledger }⟩ }
  | answer {me : TaskId} {w : WorkingId} {k : World RunState Value Fault Request → Answer → Carrying}
    (turn : x.hand = some me) (inside : x.jobs me = .inside w k) (a : Answer) : Step x (x.carry me (k x.world a))
  /-- What may suspend the task in turn is done at once. -/
  | attempt {me : TaskId} {op : WaitOp Value} {k : World RunState Value Fault Request → Option (Woken Value) → Carrying}
    {r : Woken Value} {s : Scheduler Value Fault Request} (turn : x.hand = some me)
    (busy : x.jobs me = .busy (.wait x.world op k)) (done : op.start x.world.sched = (.done r, s)) :
    Step x (x.carry me (k ⟨s, x.world.own⟩ (some r)))
  | stay {me : TaskId} {op : WaitOp Value} {k : World RunState Value Fault Request → Option (Woken Value) → Carrying}
    {s : Scheduler Value Fault Request} (turn : x.hand = some me) (busy : x.jobs me = .busy (.wait x.world op k))
    (parked : op.start x.world.sched = (.parked, s)) (killed : s.currentKilled = true) :
    Step x (x.carry me (k ⟨s, x.world.own⟩ none))
  | park {me : TaskId} {op : WaitOp Value} {k : World RunState Value Fault Request → Option (Woken Value) → Carrying}
    {s : Scheduler Value Fault Request} (turn : x.hand = some me) (busy : x.jobs me = .busy (.wait x.world op k))
    (parked : op.start x.world.sched = (.parked, s)) (spared : s.currentKilled = false) :
    Step x ⟨⟨s.notePark.setCurrent none, x.world.own⟩, none, update x.jobs me (.asleep op k)⟩
  /-- A task that has waited goes on, in case it has been killed with nothing. -/
  | awake {me : TaskId} {op : WaitOp Value} {k : World RunState Value Fault Request → Option (Woken Value) → Carrying}
    (turn : x.hand = some me) (asleep : x.jobs me = .asleep op k) :
    Step x (x.carry me (if x.world.sched.currentKilled then k x.world none
      else k ⟨(op.finish x.world.sched).2, x.world.own⟩ (some (op.finish x.world.sched).1)))
  /-- The transaction is over. -/
  | ended {me : TaskId} {r : Except Exit (Receipt Fault)} (turn : x.hand = some me)
    (busy : x.jobs me = .busy (.done x.world r)) : Step x { x with jobs := update x.jobs me .idle }
  | elsewhere {me : TaskId} {s : Scheduler Value Fault Request} (turn : x.hand = some me) (free : (x.jobs me).Free)
    (elsewhere : x.world.sched.Elsewhere x.IsLocking s) : Step x (x.withSched s)
  /-- The task in turn has to wait for something else. -/
  | leave {me : TaskId} {p : Pause Value} {s : Scheduler Value Fault Request} (turn : x.hand = some me)
    (free : (x.jobs me).Free) (other : ∀ m, x.IsLocking m → ¬ p.Names m) (parked : p.start x.world.sched = (.parked, s))
    (spared : s.currentKilled = false) : Step x { x.withSched (s.notePark.setCurrent none) with hand := none }
  /-- Something else is done to what the tasks share. -/
  | share {own : RunState} (free : ∀ me, x.hand = some me → (x.jobs me).Free)
    (same : x.world.own.ledger.SameLocks own.ledger) : Step x { x with world := ⟨x.world.sched, own⟩ }
  | rest {me : TaskId} (turn : x.hand = some me) (idle : x.jobs me = .idle) (done : x.world.sched.isDone me = true) :
    Step x { x.withSched (x.world.sched.setCurrent none) with hand := none }
  | finish {me : TaskId} (turn : x.hand = some me) (idle : x.jobs me = .idle) (errorText : Fault → Bytes)
    (result : Option Value) (fault : Option (TaskFault Fault)) :
    Step x { x.withSched ((x.world.sched.finish errorText me result fault).setCurrent none) with hand := none }

abbrev Steps : Exchange → Exchange → Prop :=
  Relation.ReflTransGen Step

/-- An exchange before its first turn. -/
structure Fresh (x : Exchange) : Prop where
  prepared : x.world.sched.Prepared
  hand : x.hand = none
  idle : ∀ t, x.jobs t = .idle
  locks : x.world.own.ledger.locks = []
  holders : x.world.own.ledger.holders = []

/-! ## What is known at every stage -/

end Exchange

/-- What a task is doing fits how far it has come: the process abides, or will abide when it goes on. -/
def Job.Fits (t : TaskId) (x : World RunState Value Fault Request) (progress : TaskId → Progress) : Job → Prop
  | idle => progress t = .idle
  | busy q => q.world = x ∧ q.Abides t (fun _ => Reached t .idle) progress
  | inside w k => progress t = .holding w none ∧ ∀ y others a, Reached t (.holding w none) y others →
    (k y a).Abides t (fun _ => Reached t .idle) others
  | asleep op k => ∃ w address lock rest, op = .lock lock ∧ progress t = .reaching w lock address (some rest) ∧
    Proc.GoesOn w address lock rest t fun y r others => (k y r).Abides t (fun _ => Reached t .idle) others

/-- What a task is doing that is not in the middle of a process fits in any world. -/
theorem Job.Fits.elsewhere {t : TaskId} {x y : World RunState Value Fault Request} {progress progress' : TaskId → Progress}
    {job : Job} (fits : job.Fits t x progress) (calm : ∀ q, job ≠ .busy q) (same : progress' t = progress t) :
    job.Fits t y progress' := by
  cases job with
  | busy q => exact absurd rfl (calm q)
  | idle => exact same.trans fits
  | inside => exact ⟨same.trans fits.1, fits.2⟩
  | asleep =>
    obtain ⟨w, address, lock, rest, op, here, goesOn⟩ := fits
    exact ⟨w, address, lock, rest, op, same.trans here, goesOn⟩

/-- What a contract is allowed to do, it does with the working set of its transaction. -/
theorem CallContext.Allows.isContract {c : CallContext} {α : Type} {op : LedgerOp α} (allowed : c.Allows op)
    {w : WorkingId} (runs : c.working = some w) : op.isContract w := by
  cases allowed with
  | load mine | code mine | balance mine | emit mine | fail mine | setValidating mine | store mine | transfer mine =>
    exact Option.some.inj (mine.symm.trans runs)

namespace Exchange

variable {x y : Exchange} {progress : TaskId → Progress} {me : TaskId} {p : Progress}

/-- The books and the locks are in order, and only the task in turn is in the middle of a process. -/
structure Sound (x : Exchange) (progress : TaskId → Progress) : Prop where
  regular : x.world.sched.Regular x.hand
  current : x.world.sched.current = x.hand
  order : LockOrder x.world.sched x.world.own.ledger progress
  fits : ∀ t, (x.jobs t).Fits t x.world progress
  turn : ∀ t q, x.jobs t = .busy q → x.hand = some t

namespace Sound

variable {world : World RunState Value Fault Request}

/-- Nobody is in the middle of a process. -/
theorem calm_of_free (sound : x.Sound progress) (free : ∀ me, x.hand = some me → (x.jobs me).Free) (t : TaskId) (q : Carrying) :
    x.jobs t ≠ .busy q := by
  intro busy
  have calm := free t (sound.turn t q busy)
  rw [busy] at calm
  cases calm

/-- Something else happens, while nobody is in the middle of a process. -/
theorem move (sound : x.Sound progress) (free : ∀ me, x.hand = some me → (x.jobs me).Free) {hand : Option TaskId} (regular : world.sched.Regular hand)
    (current : world.sched.current = hand) (order : LockOrder world.sched world.own.ledger progress) :
    Sound { x with world, hand } progress :=
  ⟨regular, current, order, fun t => (sound.fits t).elsewhere (sound.calm_of_free free t) rfl,
    fun t q busy => absurd busy (sound.calm_of_free free t q)⟩

/-- The task in turn, or one that was in turn, is doing something else now. -/
theorem become (sound : x.Sound progress) (turn : x.hand = some me)
    {hand : Option TaskId} {job : Job} (regular : world.sched.Regular hand) (current : world.sched.current = hand)
    (order : LockOrder world.sched world.own.ledger (update progress me p)) (fits : job.Fits me world (update progress me p))
    (inTurn : ∀ q, job = .busy q → hand = some me) : Sound ⟨world, hand, update x.jobs me job⟩ (update progress me p) := by
  have calm {t : TaskId} (other : t ≠ me) (q : Carrying) : x.jobs t ≠ .busy q := fun busy =>
    other (Option.some.inj ((sound.turn t q busy).symm.trans turn))
  refine ⟨regular, current, order, fun t => ?_, fun t q busy => ?_⟩
  · show (update x.jobs me job t).Fits t world (update progress me p)
    by_cases same : t = me
    · subst same
      rw [Function.update_self]
      exact fits
    · rw [Function.update_of_ne same]
      exact (sound.fits t).elsewhere (calm same) (Function.update_of_ne same ..)
  · have busy : update x.jobs me job t = .busy q := busy
    by_cases same : t = me
    · subst same
      rw [Function.update_self] at busy
      exact inTurn q busy
    · rw [Function.update_of_ne same] at busy
      exact absurd busy (calm same q)

/-- The task in turn goes on, and has come so far. -/
theorem goOn (sound : x.Sound progress) (turn : x.hand = some me) {job : Job}
    (here : Reached me p world progress) (fits : job.Fits me world (update progress me p)) :
    Sound { x with world, jobs := update x.jobs me job } (update progress me p) := by
  have after : Sound ⟨world, some me, update x.jobs me job⟩ (update progress me p) :=
    sound.become turn here.regular here.current here.order fits fun _ _ => rfl
  rw [← turn] at after
  exact after

/-- The task in turn has come to another stage of the process. -/
theorem carry (sound : x.Sound progress) (turn : x.hand = some me) {q : Carrying}
    (abides : q.Abides me (fun _ => Reached me .idle) progress) : ∃ progress', (x.carry me q).Sound progress' := by
  obtain ⟨p, here⟩ := abides.reached
  exact ⟨update progress me p, sound.goOn turn here ⟨rfl, abides.forget p⟩⟩

/-- How far the task in turn has come. -/
theorem reached (sound : x.Sound progress) (turn : x.hand = some me) (here : progress me = p) :
    Reached me p x.world progress := by
  subst here
  exact ⟨turn ▸ sound.regular, sound.current.trans turn, by rw [Function.update_eq_self]; exact sound.order⟩

end Sound

/-- Whatever happens, the books and the locks stay in order. -/
theorem Sound.step (sound : x.Sound progress) (step : x.Step y) : ∃ progress', y.Sound progress' := by
  have isLock : ∀ m, x.IsLocking m → x.world.sched.IsLock m := sound.order.isLock
  have nobody (free : x.hand = none) : ∀ me, x.hand = some me → (x.jobs me).Free := fun me turn => by
    rw [free] at turn
    cases turn
  have alone {me : TaskId} (turn : x.hand = some me) (free : (x.jobs me).Free) :
      ∀ me, x.hand = some me → (x.jobs me).Free := fun me' turn' => by
    cases turn.symm.trans turn'
    exact free
  cases step with
  | between free interlude =>
    have regular := sound.regular
    rw [free] at regular
    obtain ⟨rest, same⟩ := regular.interlude interlude
    exact ⟨progress, sound.move (nobody free) (free ▸ rest) (same.trans sound.current)
      (sound.order.handover (regular.handover_interlude isLock interlude))⟩
  | unwind free first =>
    have regular := sound.regular
    rw [free] at regular
    exact ⟨progress, sound.move (nobody free) ((regular.takeKilled first).setCurrent _) rfl
      (sound.order.handover (Scheduler.handover_queues _))⟩
  | dispatch free next =>
    have regular := sound.regular
    rw [free] at regular
    exact ⟨progress, sound.move (nobody free) ((regular.nextReady_some next).setCurrent _) rfl
      (sound.order.handover (Scheduler.handover_dispatch next))⟩
  | @begin me turn idle tx call =>
    have fits := sound.fits me
    rw [idle] at fits
    exact sound.carry turn (leads_transact tx call _ _ (sound.reached turn fits))
  | @activate me w request k turn busy mine =>
    have fits := sound.fits me
    rw [busy] at fits
    obtain ⟨-, w', mine', here, rest⟩ := fits
    cases mine.symm.trans mine'
    exact ⟨_, sound.goOn turn here ⟨Function.update_self .., rest⟩⟩
  | @use me w k α op c r t turn inside runs allowed done =>
    have fits := sound.fits me
    rw [inside] at fits
    have here : Reached me (.holding w none) x.world progress := sound.reached turn fits.1
    have kept := LedgerOp.within_gentle (LedgerM.gentle_keeps me w) (allowed.isContract runs)
      ⟨x.world.sched, x.world.own.heap, x.world.own.ledger⟩ progress here
    rw [show op.run.run.run ⟨x.world.sched, x.world.own.heap, x.world.own.ledger⟩ = (r, t) from done] at kept
    have order := kept.order
    rw [← fits.1, Function.update_eq_self] at order
    exact ⟨progress, sound.move (alone turn (inside ▸ .inside)) (turn ▸ kept.regular) (kept.current.trans turn.symm) order⟩
  | @answer me w k turn inside a =>
    have fits := sound.fits me
    rw [inside] at fits
    exact sound.carry turn (fits.2 _ _ a (sound.reached turn fits.1))
  | @attempt me op k r s turn busy done =>
    have fits := sound.fits me
    rw [busy] at fits
    obtain ⟨-, w, address, lock, rest, rfl, locking, free, here, goesOn⟩ := fits
    obtain ⟨well, taken⟩ := AtWork.attempt here locking free done
    exact sound.carry turn (goesOn.woken ⟨s, x.world.own⟩ progress r well taken)
  | @stay me op k s turn busy parked killed =>
    have fits := sound.fits me
    rw [busy] at fits
    obtain ⟨-, w, address, lock, rest, rfl, locking, free, here, goesOn⟩ := fits
    obtain ⟨-, gone⟩ := AtWork.parked here locking free parked
    exact sound.carry turn (goesOn.killed ⟨s, x.world.own⟩ progress (gone killed))
  | @park me op k s turn busy parked spared =>
    have fits := sound.fits me
    rw [busy] at fits
    obtain ⟨-, w, address, lock, rest, rfl, locking, free, here, goesOn⟩ := fits
    obtain ⟨order, -⟩ := AtWork.parked here locking free parked
    obtain ⟨exempt, tries⟩ := (Pause.amid (.lock lock)).tries x.world.sched
    have regular := here.regular.leave here.current (tries.parked here.regular here.current parked) spared
    exact ⟨_, sound.become turn regular rfl (order.handover (Scheduler.handover_queues _))
      ⟨w, address, lock, rest, rfl, Function.update_self .., goesOn⟩ nofun⟩
  | @awake me op k turn asleep =>
    have fits := sound.fits me
    rw [asleep] at fits
    obtain ⟨w, address, lock, rest, rfl, here, goesOn⟩ := fits
    have reached := sound.reached turn here
    split
    · rename_i killed
      rw [Scheduler.currentKilled_eq reached.current] at killed
      exact sound.carry turn (goesOn.killed _ _ (reached.giveUp killed))
    · exact sound.carry turn (goesOn.woken _ _ _ rfl reached)
  | @ended me r turn busy =>
    have fits := sound.fits me
    rw [busy] at fits
    exact ⟨_, sound.goOn turn fits.2 (Function.update_self ..)⟩
  | elsewhere turn free elsewhere =>
    have regular := sound.regular
    rw [turn] at regular
    obtain ⟨handover, regular, current⟩ := elsewhere.spec isLock regular (sound.current.trans turn)
    exact ⟨progress, sound.move (alone turn free) (turn ▸ regular) (current.trans turn.symm) (sound.order.handover handover)⟩
  | @leave me p s turn free other parked spared =>
    have regular := sound.regular
    have current := sound.current
    rw [turn] at regular current
    obtain ⟨exempt, tries⟩ := p.tries x.world.sched
    have left := regular.leave current (tries.parked regular current parked) spared
    have handover := regular.handover_parked isLock current parked other
    exact ⟨progress, sound.move (alone turn free) left rfl
      (sound.order.handover (handover.trans (Scheduler.handover_queues _)))⟩
  | share free same =>
    exact ⟨progress, sound.move free sound.regular sound.current (sound.order.ledger same)⟩
  | rest turn idle done =>
    have regular := sound.regular
    rw [turn] at regular
    exact ⟨progress, sound.move (alone turn (idle ▸ .idle)) ((regular.putDone done).setCurrent none) rfl
      (sound.order.handover (Scheduler.handover_queues _))⟩
  | finish turn idle errorText result fault =>
    have regular := sound.regular
    rw [turn] at regular
    exact ⟨progress, sound.move (alone turn (idle ▸ .idle)) ((regular.finish errorText result fault).setCurrent none) rfl
      (sound.order.handover ((regular.handover_end errorText result fault).trans (Scheduler.handover_queues _)))⟩

theorem Sound.steps (sound : x.Sound progress) (steps : x.Steps y) : ∃ progress', y.Sound progress' := by
  induction steps with
  | refl => exact ⟨progress, sound⟩
  | tail _ step ih =>
    obtain ⟨_, sound⟩ := ih
    exact sound.step step

/-- Before the first turn nothing has begun. -/
theorem Fresh.sound (fresh : x.Fresh) : x.Sound fun _ => .idle := by
  obtain ⟨regular, current⟩ := fresh.prepared.regular
  refine ⟨fresh.hand ▸ regular, current.trans fresh.hand.symm, .prepared fresh.prepared fresh.locks fresh.holders,
    fun t => ?_, fun t q busy => ?_⟩
  · rw [fresh.idle]
    rfl
  · rw [fresh.idle] at busy
    cases busy

/-- Tasks that carry out transactions never wait for one another in a circle. -/
theorem locking_acyclic (fresh : x.Fresh) (steps : x.Steps y) (t : TaskId) :
    ¬ Relation.TransGen (WaitsFor y.world.sched y.world.own.ledger) t t := by
  obtain ⟨progress, sound⟩ := fresh.sound.steps steps
  exact sound.order.acyclic t

/-! ## Two payments -/

/-- The next ready task begins a transaction. -/
def takeUp (x : Exchange) (tx : Transaction) (call : Option ContractCall) : Option Exchange :=
  match x.hand, x.world.sched.nextReady with
  | none, (some me, s) =>
    match x.jobs me with
    | .idle =>
      let y : Exchange := { x.withSched ((s.setRunning me).setCurrent (some me)) with hand := some me }
      some (y.carry me ((Deed.transact tx call).act.run y.world))
    | _ => none
  | _, _ => none

/-- The task in turn goes on with the process of its transaction. -/
def proceed (x : Exchange) : Option Exchange := do
  let me ← x.hand
  match x.jobs me with
  | .busy (.ask _ request k) =>
    let w ← request.working?
    return { x with jobs := update x.jobs me (.inside w k) }
  | .busy (.wait _ op k) =>
    match op.start x.world.sched with
    | (.done r, s) => return x.carry me (k ⟨s, x.world.own⟩ (some r))
    | (.parked, s) =>
      if s.currentKilled then return x.carry me (k ⟨s, x.world.own⟩ none)
      else return ⟨⟨s.notePark.setCurrent none, x.world.own⟩, none, update x.jobs me (.asleep op k)⟩
  | .busy (.done _ _) => return { x with jobs := update x.jobs me .idle }
  | _ => none

/-- The contract of the task in turn lets other tasks run. -/
def giveWay (x : Exchange) : Option Exchange := do
  let me ← x.hand
  match x.jobs me, WaitOp.yield.start x.world.sched with
  | .inside .., (.parked, s) =>
    if s.currentKilled then none else return { x.withSched (s.notePark.setCurrent none) with hand := none }
  | _, _ => none

theorem steps_takeUp {tx : Transaction} {call : Option ContractCall} (taken : x.takeUp tx call = some y) : x.Steps y := by
  unfold takeUp at taken
  split at taken
  · rename_i me s free next
    split at taken
    · rename_i idle
      cases taken
      exact .tail (.single (.dispatch free next))
        (.begin (x := ⟨⟨(s.setRunning me).setCurrent (some me), x.world.own⟩, some me, x.jobs⟩) rfl idle tx call)
    · cases taken
  · cases taken

theorem Fresh.steps_proceed {z : Exchange} (fresh : x.Fresh) (steps : x.Steps y) (proceeds : y.proceed = some z) :
    x.Steps z := by
  obtain ⟨progress, sound⟩ := fresh.sound.steps steps
  obtain ⟨me, turn, proceeds⟩ := Option.bind_eq_some_iff.mp proceeds
  refine steps.tail ?_
  have fits := sound.fits me
  cases job : y.jobs me with
  | busy q =>
    rw [job] at proceeds fits
    obtain ⟨here, -⟩ := fits
    cases q with
    | done w r =>
      cases proceeds
      cases here
      exact .ended turn job
    | ask w request k =>
      obtain ⟨v, mine, proceeds⟩ := Option.bind_eq_some_iff.mp proceeds
      cases proceeds
      cases here
      exact .activate turn job mine
    | wait w op k =>
      cases here
      dsimp only at proceeds
      split at proceeds
      · rename_i r s done
        cases proceeds
        exact .attempt turn job done
      · rename_i s parked
        split at proceeds
        · rename_i killed
          cases proceeds
          exact .stay turn job parked killed
        · rename_i spared
          cases proceeds
          exact .park turn job parked (Bool.not_eq_true _ ▸ spared)
    | block => cases proceeds
  | idle | inside | asleep =>
    rw [job] at proceeds
    cases proceeds

theorem steps_giveWay (gives : x.giveWay = some y) : x.Steps y := by
  obtain ⟨me, turn, gives⟩ := Option.bind_eq_some_iff.mp gives
  split at gives
  · rename_i w k s inside parked
    split at gives
    · cases gives
    · rename_i spared
      cases gives
      exact .single (.leave (p := .amid .yield) turn (inside ▸ .inside) (fun _ _ => id) parked (Bool.not_eq_true _ ▸ spared))
  · cases gives

/-- A transaction that needs one lock only. -/
def payment : Transaction where
  id := []
  sender := [1]
  receiver := []
  amount := 0
  method := []
  args := []
  code := []

/-- The first task lets the second one run while its contract runs, and both pay from the same address. -/
def queue (x : Exchange) : Option Exchange := do
  let call : ContractCall := { cls := 0, address := [], method := none, args := [], span := default }
  let x ← x.takeUp payment (some call)
  let x ← x.proceed
  let x ← x.proceed
  let x ← x.giveWay
  let x ← x.takeUp payment (some call)
  x.proceed

theorem Fresh.steps_queue (fresh : x.Fresh) (queued : x.queue = some y) : x.Steps y := by
  obtain ⟨x₁, taken, queued⟩ := Option.bind_eq_some_iff.mp queued
  obtain ⟨x₂, locked, queued⟩ := Option.bind_eq_some_iff.mp queued
  obtain ⟨x₃, activated, queued⟩ := Option.bind_eq_some_iff.mp queued
  obtain ⟨x₄, gives, queued⟩ := Option.bind_eq_some_iff.mp queued
  obtain ⟨x₅, taken', parked⟩ := Option.bind_eq_some_iff.mp queued
  have first := fresh.steps_proceed (steps_takeUp taken) locked
  have inside := (fresh.steps_proceed first activated).trans (steps_giveWay gives)
  exact fresh.steps_proceed (inside.trans (steps_takeUp taken')) parked

/-- Two tasks that have not begun. -/
def payers : Exchange where
  world := {
    sched := ((({} : Scheduler Value Fault Request).spawn "" default).2.spawn "" default).2
    own := {
      heap := {}, env := {}, ledger := {}, global := 0, builtins := [], messageClass := 0
      modules := { read := fun _ => .ok [] } } }
  hand := none
  jobs _ := .idle

/-- The second task waits for the first one, and nobody waits for itself. -/
theorem locking_acyclic_payers : payers.Fresh ∧ ∃ y, payers.Steps y ∧
    WaitsFor y.world.sched y.world.own.ledger 2 1 ∧
    ∀ t, ¬ Relation.TransGen (WaitsFor y.world.sched y.world.own.ledger) t t := by
  have fresh : payers.Fresh := by
    refine ⟨?_, rfl, fun _ => rfl, rfl, rfl⟩
    exact (Scheduler.Prepared.operate (.new 0 [] []) (.spawn "" default id)).operate (.spawn "" default id)
  have seen : payers.queue.any fun y => (y.world.sched.view 2).isDone = false ∧ (y.world.sched.view 2).killed = false ∧
      ([1], 1) ∈ y.world.own.ledger.locks ∧ y.world.sched.parked.get? 2 = some (.lock 1) ∧
      y.world.sched.lockHolder 1 = some 1 := by decide +kernel
  obtain ⟨y, queued, facts⟩ := (Option.any_eq_true _ _).mp seen
  rw [decide_eq_true_eq] at facts
  obtain ⟨unfinished, alive, locking, waits, holds⟩ := facts
  have steps := fresh.steps_queue queued
  exact ⟨fresh, y, steps, ⟨⟨unfinished, alive⟩, 1, ⟨[1], locking⟩, waits, holds⟩, locking_acyclic fresh steps⟩

end Exchange

end LedgerScript
