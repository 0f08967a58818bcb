import LedgerScript.Proofs.Schedule.Acting
import LedgerScript.Proofs.Schedule.Fairness

/-!
# Barriers trip in generations

How many tasks have arrived at a barrier is not written down: it is how many wait there.  A task that is killed no longer
waits, and whoever arrives last lets all others go.  So fewer tasks wait than the barrier is for, and it trips when
exactly as many have arrived; `Scheduler.Trip` tells what happens then.

A task that has to wait is counted in the next trip, and in no other one, unless it is killed before.  Tasks that are
killed must heed it: one that has killed itself would otherwise arrive, not wait, and be counted all the same.
-/

namespace LedgerScript

variable {S V E B A : Type}
variable {s : Scheduler V E B}

namespace Scheduler

variable {s s' s'' : Scheduler V E B} {apart : WaitKey → Prop} {actor hand : Option TaskId} {b : ObjectId}
  {key : WaitKey} {t me : TaskId} {parties generation : Nat}

/-- Fewer tasks wait at a barrier than it is for, and nobody waits at what is no barrier. -/
structure Few (s : Scheduler V E B) (b : ObjectId) : Prop where
  room : ∀ parties generation, s.object? b = some (.barrier parties generation) →
    (s.waitersOf (.barrier b)).length < parties
  nobody : (∀ parties generation, s.object? b ≠ some (.barrier parties generation)) → s.waitersOf (.barrier b) = []

/-- The last one arrives at a barrier: nobody waits any more, those who have waited are ready, and a new generation begins. -/
structure Trip (me : TaskId) (b : ObjectId) (parties generation : Nat) (s s' : Scheduler V E B) : Prop where
  arrives : s.arrive b = (.done none, s')
  all : (s.waitersOf (.barrier b)).length + 1 = parties
  live : ∀ t ∈ s.waitersOf (.barrier b), (s.view t).Live
  ready : s'.ready = s.ready ++ s.waitersOf (.barrier b)
  empty : s'.waitersOf (.barrier b) = []
  next : s'.object? b = some (.barrier parties (generation + 1))

/-- What can happen at a barrier while a task, or nobody, has its turn. -/
inductive BarrierStep (actor : Option TaskId) (b : ObjectId) (parties generation : Nat) (s s' : Scheduler V E B) :
    Prop where
  /-- Nobody arrives, and whoever no longer waits has been killed. -/
  | stays (here : s'.object? b = some (.barrier parties generation))
    (fewer : (s'.waitersOf (.barrier b)).Sublist (s.waitersOf (.barrier b)))
    (dead : ∀ t ∈ s.waitersOf (.barrier b), t ∉ s'.waitersOf (.barrier b) → s'.Killed t) :
    BarrierStep actor b parties generation s s'
  | joins {me : TaskId} (turn : actor = some me) (parked : (s.arrive b).1 = .parked)
    (here : s'.object? b = some (.barrier parties generation)) (new : me ∉ s.waitersOf (.barrier b))
    (line : s'.waitersOf (.barrier b) = s.waitersOf (.barrier b) ++ [me])
    (room : (s.waitersOf (.barrier b)).length + 1 < parties) : BarrierStep actor b parties generation s s'
  | trips {me : TaskId} (turn : actor = some me) (trip : s.Trip me b parties generation s') :
    BarrierStep actor b parties generation s s'

/-! ## Where nobody arrives -/

/-- Nobody arrives at a barrier, and whoever leaves it has been killed. -/
structure Calm (b : ObjectId) (s s' : Scheduler V E B) : Prop where
  killed : ∀ t, s.Killed t → s'.Killed t
  sized : s.Sized → s'.Sized
  fewer : (s'.waitersOf (.barrier b)).Sublist (s.waitersOf (.barrier b))
  dead : ∀ t ∈ s.waitersOf (.barrier b), t ∉ s'.waitersOf (.barrier b) → s'.Killed t
  same : ∀ parties generation, s.object? b = some (.barrier parties generation) →
    s'.object? b = some (.barrier parties generation)

theorem Calm.trans (first : s.Calm b s') (second : s'.Calm b s'') : s.Calm b s'' where
  killed t := second.killed t ∘ first.killed t
  sized := second.sized ∘ first.sized
  fewer := second.fewer.trans first.fewer
  dead t here left := by
    by_cases stays : t ∈ s'.waitersOf (.barrier b)
    · exact second.dead t stays left
    · exact second.killed t (first.dead t here stays)
  same parties generation here := second.same parties generation (first.same parties generation here)

theorem Flows.calm (flows : s.Flows apart s') (other : ¬ apart (.barrier b)) : s.Calm b s' where
  killed := flows.killed
  sized := flows.sized
  fewer := (flows.lines (.barrier b) rfl other).1
  dead := (flows.lines (.barrier b) rfl other).2
  same _ _ here := flows.objects b _ _ here rfl other

/-- Neither the objects nor those who wait have changed. -/
theorem calm_of_same (waiters : s'.waiters = s.waiters) (objects : s'.objects = s.objects)
    (killed : ∀ t, s.Killed t → s'.Killed t) : s.Calm b s' where
  killed := killed
  sized all m o here := by
    rw [object?, objects] at here
    exact all m o here
  fewer := by
    rw [waitersOf, waiters]
    exact .refl _
  dead t here left := by
    rw [waitersOf, waiters] at left
    exact absurd here left
  same _ _ here := by
    rw [object?, objects]
    exact here

/-- Nobody arrives when a ready task is picked. -/
theorem calm_nextReady (s : Scheduler V E B) : s.Calm b s.nextReady.2 := by
  obtain ⟨ready, readySet, picks, eq⟩ := pickReady_eq s.ready.length s
  rw [nextReady, eq]
  exact calm_of_same rfl rfl fun _ dead => dead

theorem Calm.step (calm : s.Calm b s') (here : s.object? b = some (.barrier parties generation)) :
    s.BarrierStep actor b parties generation s' :=
  .stays (calm.same parties generation here) calm.fewer calm.dead

theorem Calm.few (calm : s.Calm b s') (sized : s.Sized) (few : s.Few b) : s'.Few b := by
  by_cases here : ∃ parties generation, s.object? b = some (.barrier parties generation)
  · obtain ⟨parties, generation, here⟩ := here
    have here' := calm.same parties generation here
    refine ⟨fun parties' generation' same => ?_, fun none => absurd here' (none _ _)⟩
    cases here'.symm.trans same
    exact Nat.lt_of_le_of_lt calm.fewer.length_le (few.room _ _ here)
  · have nobody := few.nobody fun parties generation here' => here ⟨parties, generation, here'⟩
    have nobody' := List.sublist_nil.mp (nobody ▸ calm.fewer)
    refine ⟨fun parties generation here' => ?_, fun _ => nobody'⟩
    rw [nobody']
    exact calm.sized sized b _ here'

/-! ## Where somebody arrives -/

/-- Tasks that are woken one after another become ready in their order. -/
theorem ready_wakeEach (ids : List TaskId) (s : Scheduler V E B) (queue : QueueTidy s.ready s.readySet)
    (distinct : (s.ready ++ ids).Nodup) (unfinished : ∀ id ∈ ids, s.isDone id = false) :
    (ids.foldl (fun s id => (s.unpark id).wake id) s).ready = s.ready ++ ids := by
  induction ids generalizing s with
  | nil => exact (List.append_nil _).symm
  | cons id ids ih =>
    have first : s.isDone id = false := unfinished id List.mem_cons_self
    have fresh : id ∉ s.ready := fun mem =>
      (List.nodup_append.mp distinct).2.2 id mem id List.mem_cons_self rfl
    have absent : ¬ (s.unpark id).readySet.has id = true := fun has => fresh ((queue.has_iff id).mp has)
    have joined : ((s.unpark id).enqueue id).ready = s.ready ++ [id] := by
      rw [enqueue, if_neg absent, modifyTask_eq]
      rfl
    rw [List.foldl_cons, wake_unpark first, ih]
    · rw [joined, List.append_assoc]
      rfl
    · exact QueueTidy.enqueue (s := s.unpark id) queue id
    · rw [joined, List.append_assoc]
      exact distinct
    · intro id' mem
      have other : id' ≠ id := fun same =>
        (List.nodup_cons.mp (List.nodup_append.mp distinct).2.1).1 (same ▸ mem)
      rw [← isDone_view, view_enqueue (s := s.unpark id) queue first, if_neg other]
      exact (isDone_view s id').trans (unfinished id' (List.mem_cons_of_mem id mem))

theorem wakeAll_spec (tidy : s.Tidy) (unfinished : ∀ t ∈ s.waitersOf key, s.isDone t = false)
    (idle : ∀ t ∈ s.waitersOf key, t ∉ s.ready) :
    (s.wakeAll key).ready = s.ready ++ s.waitersOf key ∧ (s.wakeAll key).waitersOf key = [] ∧
      (s.wakeAll key).objects = s.objects := by
  have distinct : (s.ready ++ s.waitersOf key).Nodup :=
    List.nodup_append.mpr ⟨tidy.queue.nodup, tidy.waiters_nodup key, fun t ready u waits same => idle u waits (same ▸ ready)⟩
  obtain ⟨tidy', ⟨ready, readySet, tasks, waiters, parked, eq⟩, views⟩ := tidy.wakeAll key unfinished
  refine ⟨?_, List.eq_nil_iff_forall_not_mem.mpr fun t waits => ?_, by rw [eq]⟩
  · unfold wakeAll
    split
    · rename_i nobody
      rw [nobody, List.append_nil]
    · have woken := ready_wakeEach (s.waitersOf key) (s.setWaiters key [])
      rw [setWaiters_eq] at woken ⊢
      exact woken tidy.queue distinct unfinished
  · have parked : ((s.wakeAll key).view t).parked = some key := (tidy'.parked_iff t key).mpr waits
    rw [views] at parked
    split at parked
    · cases parked
    · rename_i other
      exact other parked

theorem object?_nextGeneration (s : Scheduler V E B) (here : s.object? b = some (.barrier parties generation)) :
    (s.nextGeneration b).object? b = some (.barrier parties (generation + 1)) := by
  rw [nextGeneration, object?_modifyObject, if_pos rfl, here]
  rfl

theorem nextGeneration_eq (s : Scheduler V E B) (b : ObjectId) : ∃ objects, s.nextGeneration b = { s with objects } :=
  ⟨_, modifyObject_eq _ _ _⟩

/-- Who waits at a barrier while somebody else arrives has been neither finished nor killed. -/
theorem Regular.waits_live (regular : s.Regular (some me)) (free : s.parked.get? me = none)
    (waits : t ∈ s.waitersOf key) : (s.view t).Live := by
  have parked := (regular.tidy.parked_iff t key).mpr waits
  have other : (some me : Option TaskId) ≠ some t := by
    rintro same
    cases same
    cases free.symm.trans parked
  exact regular.live_other other (regular.unfinished parked)

/-- The task in turn arrives at a barrier: it is the last one, or it has to wait. -/
theorem barrierStep_arrive (regular : s.Regular (some me)) (runs : s.current = some me) (free : s.parked.get? me = none)
    (few : s.Few b) (here : s.object? b = some (.barrier parties generation)) :
    s.BarrierStep (some me) b parties generation (s.arrive b).2 ∧
      ∀ r, (s.arrive b).1 = .done r → s.Trip me b parties generation (s.arrive b).2 := by
  have room := few.room parties generation here
  have state : s.barrierState b = (parties, generation) := by rw [barrierState, here]
  have live : ∀ t ∈ s.waitersOf (.barrier b), (s.view t).Live := fun t waits => regular.waits_live free waits
  have idle : ∀ t ∈ s.waitersOf (.barrier b), t ∉ s.ready := by
    intro t waits ready
    have other : (some me : Option TaskId) ≠ some t := by
      rintro same
      cases same
      cases free.symm.trans ((regular.tidy.parked_iff me _).mpr waits)
    have parked := (regular.tidy.parked_iff t _).mpr waits
    have unready := ((regular.stands_other other).of_parked (live t waits) parked).2.1
    exact absurd (decide_eq_true ready) (by simpa [view] using unready)
  unfold arrive
  rw [runs]
  dsimp only
  rw [state]
  by_cases last : parties ≤ (s.waitersOf (.barrier b)).length + 1
  · rw [if_pos last]
    have trip : s.Trip me b parties generation ((s.nextGeneration b).wakeAll (.barrier b)) := by
      obtain ⟨objects, eq⟩ := s.nextGeneration_eq b
      have next := s.object?_nextGeneration here
      have unfinished : ∀ t ∈ (s.nextGeneration b).waitersOf (.barrier b), (s.nextGeneration b).isDone t = false := by
        rw [eq]
        exact regular.waiters_unfinished (.barrier b)
      have tidy : (s.nextGeneration b).Tidy := regular.tidy.modifyObject b _
      obtain ⟨ready, empty, same⟩ := wakeAll_spec tidy unfinished (by rw [eq]; exact idle)
      refine ⟨?_, by omega, live, ?_, empty, ?_⟩
      · unfold arrive
        rw [runs]
        dsimp only
        rw [state, if_pos last]
      · rw [ready, eq]
        rfl
      · rw [object?, same]
        exact next
    exact ⟨.trips rfl trip, fun _ _ => trip⟩
  · rw [if_neg last]
    refine ⟨?_, fun r done => by cases done⟩
    have absent : me ∉ s.waitersOf (.barrier b) := fun waits => by
      cases free.symm.trans ((regular.tidy.parked_iff me _).mpr waits)
    refine .joins rfl ?_ ((s.object?_park me _ _ b).trans here) absent ?_ (by omega)
    · unfold arrive
      rw [runs]
      dsimp only
      rw [state, if_neg last]
    · exact (waitersOf_park regular.tidy me _ _).trans (if_neg absent)

/-- Nothing happens to those who wait at what is no barrier. -/
theorem few_arrive (few : s.Few b) (other : ∀ parties generation, s.object? b ≠ some (.barrier parties generation)) :
    (s.arrive b).2.Few b := by
  have nobody := few.nobody other
  unfold arrive
  split
  · exact few
  · have state : s.barrierState b = (0, 0) := by
      unfold barrierState
      split
      · rename_i here
        exact absurd here (other _ _)
      · rfl
    rw [state, if_pos (Nat.zero_le _)]
    obtain ⟨objects, eq⟩ := s.nextGeneration_eq b
    have nobody' : (s.nextGeneration b).waitersOf (.barrier b) = [] := by
      rw [eq]
      exact nobody
    have same : (s.nextGeneration b).wakeAll (.barrier b) = s.nextGeneration b := by
      unfold wakeAll
      rw [nobody']
    dsimp only
    rw [same]
    refine ⟨fun parties generation here => ?_, fun _ => nobody'⟩
    rw [nextGeneration, object?_modifyObject, if_pos rfl] at here
    obtain ⟨o, here', same⟩ := Option.map_eq_some_iff.mp here
    cases o with
    | barrier => exact absurd here' (other _ _)
    | lock | semaphore | channel => cases same

/-- A task that has to wait leaves the processor. -/
theorem BarrierStep.leave (step : s.BarrierStep actor b parties generation s') (parked : (s.arrive b).1 = .parked)
    (waiters : s''.waiters = s'.waiters) (objects : s''.objects = s'.objects) (killed : ∀ t, s'.Killed t → s''.Killed t) :
    s.BarrierStep actor b parties generation s'' := by
  have line : s''.waitersOf (.barrier b) = s'.waitersOf (.barrier b) := by
    rw [waitersOf, waiters]
    rfl
  have same : s''.object? b = s'.object? b := by
    rw [object?, objects]
    rfl
  cases step with
  | stays here fewer dead =>
    exact .stays (same.trans here) (line ▸ fewer) fun t before left => killed t (dead t before (line ▸ left))
  | joins turn parked here new line' room => exact .joins turn parked (same.trans here) new (line.trans line') room
  | trips turn trip =>
    rw [trip.arrives] at parked
    cases parked

theorem BarrierStep.few (step : s.BarrierStep actor b parties generation s') (room : (s.waitersOf (.barrier b)).length < parties)
    : s'.Few b := by
  cases step with
  | stays here fewer dead =>
    refine ⟨fun parties' generation' same => ?_, fun none => absurd here (none _ _)⟩
    cases here.symm.trans same
    exact Nat.lt_of_le_of_lt fewer.length_le room
  | joins turn parked here new line room =>
    refine ⟨fun parties' generation' same => ?_, fun none => absurd here (none _ _)⟩
    cases here.symm.trans same
    rw [line, List.length_append]
    exact room
  | trips turn trip =>
    refine ⟨fun parties' generation' same => ?_, fun none => absurd trip.next (none _ _)⟩
    cases trip.next.symm.trans same
    rw [trip.empty, ← trip.all]
    exact Nat.succ_pos _

end Scheduler

theorem TaskView.Moves.finished {keys : WaitKey → Prop} {inHand : Bool} {v v' : TaskView} (moves : Moves keys inHand v v')
    (before : v.killed = true → v.isDone = true) : v'.killed = true → v'.isDone = true := by
  induction moves with
  | refl => exact before
  | tail _ move ih =>
    have alive {v : TaskView} (finished : v.killed = true → v.isDone = true) (unfinished : v.isDone = false) :
        v.killed ≠ true := fun killed => Bool.false_ne_true (unfinished.symm.trans (finished killed))
    cases move with
    | calm | drop => exact ih
    | wake here may noTimer unfinished =>
      have alive := alive ih unfinished
      exact fun killed => absurd killed alive
    | call here unfinished | ring here unfinished =>
      have alive := alive ih unfinished
      exact fun killed => absurd killed alive
    | kill => exact fun _ => rfl
    | spawn => exact nofun

/-- No operation that is over at once is about a barrier. -/
theorem TaskOp.calm {α : Type} {hand : Option TaskId} (op : TaskOp V E B α) (regular : s.Regular hand)
    (b : ObjectId) : s.Calm b (op.run s).2 := by
  refine (op.flows regular).calm ?_
  cases op <;> nofun

theorem Pause.arrive_of_start {s' : Scheduler V E B} {b : ObjectId} {r : Attempt (Woken V)}
    (started : (Pause.amid (.barrier b)).start s = (r, s')) : ∃ r', s.arrive b = (r', s') ∧ r = r'.woken := by
  have started : (s.arrive b).map Attempt.woken id = (r, s') := started
  cases started
  exact ⟨_, rfl, rfl⟩

/-- Nobody arrives at a barrier by wanting to wait for something else. -/
theorem Pause.calm {p : Pause V} {b : ObjectId} (regular : s.Regular s.current)
    (other : p ≠ .amid (.barrier b)) : s.Calm b (p.start s).2 := by
  cases p with
  | door m =>
    have flows : s.Flows (· = .lock m) (s.takeLock m).2 := Scheduler.flows_takeLock regular m rfl
    exact flows.calm nofun
  | amid op =>
    refine (op.flows regular).calm ?_
    cases op with
    | barrier b' =>
      rintro same
      cases same
      exact other rfl
    | await | yield | sleep | lock | permit | send | receive => nofun

theorem Pause.calm_finish (p : Pause V) (s : Scheduler V E B) (b : ObjectId) : s.Calm b (p.finish s) := by
  cases p with
  | door m =>
    have flows : s.Flows (fun _ => False) (s.enterBlock m) := s.flows_use _
    exact flows.calm nofun
  | amid op => exact (op.flows_finish s).calm fun mine => mine

namespace Play

variable {x y z : Play V E B} {a : Actor} {b : ObjectId} {t me : TaskId} {parties generation : Nat}
variable {trips : List (List TaskId)}

/-- The task in turn arrives at a barrier. -/
inductive Arrives (b : ObjectId) (x y : Play V E B) : Prop where
  | atOnce {r : Option ScheduleFault} (done : x.sched.arrive b = (.done r, y.sched))
  | waits {s : Scheduler V E B} (parked : x.sched.arrive b = (.parked, s)) (waiters : y.sched.waiters = s.waiters)
    (objects : y.sched.objects = s.objects) (killed : ∀ t, s.Killed t → y.sched.Killed t)

/-- Whatever happens, nobody arrives at a barrier but the task in turn, which is not at its end. -/
theorem Lawful.arrives (lawful : x.Lawful) (step : x.Step a y) (b : ObjectId) :
    x.sched.Calm b y.sched ∨ x.dying = false ∧ (∃ me, x.hand = some me) ∧ x.Arrives b y := by
  have regular := lawful.regular
  have current := lawful.current
  have turn : x.sched.Regular x.sched.current := current.symm ▸ regular
  have quiet {s s' : Scheduler V E B} (flows : s.Flows (fun _ => False) s') : s.Calm b s' := flows.calm fun mine => mine
  have picked {me : TaskId} {s : Scheduler V E B} (next : x.sched.nextReady = (some me, s)) :
      x.sched.Calm b ((s.setRunning me).setCurrent (some me)) := by
    have picked : x.sched.Calm b x.sched.nextReady.2 := x.sched.calm_nextReady
    rw [next] at picked
    exact picked.trans (quiet ((s.flows_setRunning me).trans (Scheduler.flows_setCurrent _ _)))
  have paused {p : Pause V} {r : Attempt (Woken V)} {s s' : Scheduler V E B} (started : p.start x.sched = (r, s))
      (waiters : s'.waiters = s.waiters) (objects : s'.objects = s.objects) (killed : ∀ t, s.Killed t → s'.Killed t) :
      p ≠ .amid (.barrier b) → x.sched.Calm b s' := by
    intro other
    have calm := Pause.calm turn other
    rw [started] at calm
    exact calm.trans (Scheduler.calm_of_same waiters objects killed)
  cases step with
  | idle free nobody =>
    have picked : x.sched.Calm b x.sched.nextReady.2 := x.sched.calm_nextReady
    rw [nobody] at picked
    exact .inl picked
  | fire free n => exact .inl (quiet (Scheduler.flows_fireDue n regular))
  | advance free idle later => exact .inl (quiet (Scheduler.flows_advance? regular later))
  | kill free id cause => exact .inl (quiet (x.sched.flows_kill id cause))
  | note free e => exact .inl (quiet (x.sched.flows_note e))
  | unwind free first held => exact .inl (quiet Scheduler.flows_of_eq)
  | start free next fresh => exact .inl (picked next)
  | @goOn me s p free next held => exact .inl ((picked next).trans (p.calm_finish _ b))
  | operate turn alive op => exact .inl (op.calm regular b)
  | @attempt me s r p turn alive done =>
    by_cases mine : p = .amid (.barrier b)
    · subst mine
      obtain ⟨r', arrived, same⟩ := Pause.arrive_of_start done
      cases r' with
      | done fault => exact .inr ⟨alive, ⟨me, turn⟩, .atOnce arrived⟩
      | parked => cases same
    · exact .inl (paused done rfl rfl (fun _ dead => dead) mine)
  | @park me s p turn alive parked spared =>
    by_cases mine : p = .amid (.barrier b)
    · subst mine
      obtain ⟨r', arrived, same⟩ := Pause.arrive_of_start parked
      cases r' with
      | done fault => cases same
      | parked => exact .inr ⟨alive, ⟨me, turn⟩, .waits arrived rfl rfl fun _ dead => dead⟩
    · exact .inl (paused parked rfl rfl (fun _ dead => dead) mine)
  | @stay me s p turn alive parked killed =>
    by_cases mine : p = .amid (.barrier b)
    · subst mine
      obtain ⟨r', arrived, same⟩ := Pause.arrive_of_start parked
      cases r' with
      | done fault => cases same
      | parked => exact .inr ⟨alive, ⟨me, turn⟩, .waits arrived rfl rfl fun _ dead => dead⟩
    · exact .inl (paused parked rfl rfl (fun _ dead => dead) mine)
  | enter turn m => exact .inl (quiet (x.sched.flows_use _))
  | leave turn m =>
    have flows : x.sched.Flows (· = .lock m) (x.sched.leaveBlock m) := x.sched.flows_leaveBlock m rfl
    exact .inl (flows.calm nofun)
  | quit turn op quits => exact .inl (op.calm regular b)
  | rest turn done => exact .inl (quiet (x.sched.flows_setCurrent none))
  | @finish me turn unfinished errorText result fault =>
    rw [turn] at regular
    exact .inl (quiet ((x.sched.flows_finish errorText me result fault regular.free_hand).trans
      (Scheduler.flows_setCurrent _ none)))

/-- Fewer tasks wait at each barrier than it is for, and whoever is in turn and not at its end does not wait. -/
structure Gathered (x : Play V E B) : Prop where
  sized : x.sched.Sized
  few : ∀ b, x.sched.Few b
  alert : x.dying = false → ∀ me, x.hand = some me → x.sched.Killed me → x.sched.isDone me = true

/-- Whoever is in turn and not at its end does not wait. -/
theorem Gathered.free (gathered : x.Gathered) (lawful : x.Lawful) (turn : x.hand = some me) (alive : x.dying = false) :
    x.sched.parked.get? me = none := by
  have regular := lawful.regular
  rw [turn] at regular
  by_cases killed : x.sched.Killed me
  · exact (regular.stands me).clear ((Scheduler.isDone_view _ me).trans (gathered.alert alive me turn killed))
  · rw [Scheduler.Killed, Bool.not_eq_true] at killed
    exact (regular.running killed).2.2.1

theorem Gathered.barrierStep (gathered : x.Gathered) (lawful : x.Lawful) (step : x.Step a y)
    (here : x.sched.object? b = some (.barrier parties generation)) :
    x.sched.BarrierStep x.hand b parties generation y.sched := by
  obtain calm | ⟨alive, ⟨me, turn⟩, arrives⟩ := lawful.arrives step b
  · exact calm.step here
  · have regular := lawful.regular
    rw [turn] at regular ⊢
    obtain ⟨arrived, trips⟩ := Scheduler.barrierStep_arrive regular (lawful.current.trans turn)
      (gathered.free lawful turn alive) (gathered.few b) here
    cases arrives with
    | atOnce done =>
      rw [done] at trips
      exact .trips rfl (trips _ rfl)
    | waits parked waiters objects killed =>
      have waiting : (x.sched.arrive b).1 = .parked := congrArg Prod.fst parked
      rw [parked] at arrived
      exact arrived.leave waiting waiters objects killed

/-- Whoever arrives as the last one trips the barrier. -/
theorem Gathered.trip (gathered : x.Gathered) (lawful : x.Lawful) (turn : x.hand = some me) (alive : x.dying = false)
    (here : x.sched.object? b = some (.barrier parties generation)) {r : Option ScheduleFault} {s : Scheduler V E B}
    (done : x.sched.arrive b = (.done r, s)) : x.sched.Trip me b parties generation s := by
  have regular := lawful.regular
  rw [turn] at regular
  obtain ⟨-, trips⟩ := Scheduler.barrierStep_arrive regular (lawful.current.trans turn) (gathered.free lawful turn alive)
    (gathered.few b) here
  rw [done] at trips
  exact trips r rfl

/-- Whoever has been killed stays so, and no barrier is for nobody. -/
theorem Lawful.lasting (lawful : x.Lawful) (step : x.Step a y) :
    (∀ t, x.sched.Killed t → y.sched.Killed t) ∧ (x.sched.Sized → y.sched.Sized) := by
  obtain calm | ⟨-, -, arrives⟩ := lawful.arrives step 0
  · exact ⟨calm.killed, calm.sized⟩
  · have regular : x.sched.Regular x.sched.current := lawful.current.symm ▸ lawful.regular
    have flows : x.sched.Flows (· = .barrier 0) (x.sched.arrive 0).2 := Scheduler.flows_arrive regular 0 rfl
    cases arrives with
    | atOnce done =>
      rw [done] at flows
      exact ⟨flows.killed, flows.sized⟩
    | waits parked waiters objects killed =>
      rw [parked] at flows
      refine ⟨fun t => killed t ∘ flows.killed t, fun sized m o here => ?_⟩
      rw [Scheduler.object?, objects] at here
      exact flows.sized sized m o here

theorem Gathered.fewer (gathered : x.Gathered) (lawful : x.Lawful) (step : x.Step a y) (b : ObjectId) : y.sched.Few b := by
  have few := gathered.few b
  by_cases here : ∃ parties generation, x.sched.object? b = some (.barrier parties generation)
  · obtain ⟨parties, generation, here⟩ := here
    exact (gathered.barrierStep lawful step here).few (few.room parties generation here)
  · have other : ∀ parties generation, x.sched.object? b ≠ some (.barrier parties generation) :=
      fun parties generation here' => here ⟨parties, generation, here'⟩
    obtain calm | ⟨-, ⟨me, turn⟩, arrives⟩ := lawful.arrives step b
    · exact calm.few gathered.sized few
    · have few' := Scheduler.few_arrive few other
      cases arrives with
      | atOnce done =>
        rw [done] at few'
        exact few'
      | waits parked =>
        -- nobody waits at what is no barrier
        unfold Scheduler.arrive at parked
        rw [lawful.current.trans turn] at parked
        dsimp only at parked
        have state : x.sched.barrierState b = (0, 0) := by
          unfold Scheduler.barrierState
          split
          · rename_i here
            exact absurd here (other _ _)
          · rfl
        rw [state, if_pos (Nat.zero_le _)] at parked
        cases parked

theorem Gathered.step (gathered : x.Gathered) (lawful : x.Lawful) (step : x.Step a y) : y.Gathered := by
  refine ⟨(lawful.lasting step).2 gathered.sized, gathered.fewer lawful step, fun alive me turn => ?_⟩
  have moves {exempt : Option ObjectId} {s s' : Scheduler V E B} {hand : Option TaskId}
      (evolution : s.Evolution exempt hand s') (before : s.Killed me → s.isDone me = true) :
      s'.Killed me → s'.isDone me = true := by
    rw [← Scheduler.isDone_view] at before ⊢
    exact (evolution.moves me).finished before
  have used {s : Scheduler V E B} {u : LockUse} (before : s.Killed me → s.isDone me = true) :
      (s.use u).Killed me → (s.use u).isDone me = true := before
  have dispatched {s s' : Scheduler V E B} (regular : s.Regular none) (next : s.nextReady = (some me, s')) :
      ¬ ((s'.setRunning me).setCurrent (some me)).Killed me := by
    have alive := alive_dispatch regular next
    rw [Scheduler.currentKilled_eq rfl] at alive
    rw [Scheduler.Killed, alive]
    exact Bool.false_ne_true
  have regular := lawful.regular
  cases step with
  | idle free | fire free | advance free | kill free | note free => cases free.symm.trans turn
  | unwind => cases alive
  | park | rest | finish => cases turn
  | stay => cases alive
  | start free next fresh =>
    cases turn
    rw [free] at regular
    exact fun killed => absurd killed (dispatched regular next)
  | @goOn _ s p free next paused =>
    cases turn
    rw [free] at regular
    have spared := dispatched regular next
    have taken := (regular.nextReady_some next).setCurrent (some me)
    cases p with
    | door m => exact used fun killed => absurd killed spared
    | amid op =>
      have evolution : Scheduler.Evolution none (some me) _ _ := op.evolves_finish _ taken
      exact moves evolution fun killed => absurd killed spared
  | operate _ _ op => exact moves (op.evolves _ regular) (gathered.alert alive me turn)
  | @attempt _ s r p turn' _ done =>
    obtain ⟨exempt, tries⟩ := p.tries x.sched
    exact moves (tries.done (turn' ▸ regular) (lawful.current.trans turn') done) (gathered.alert alive me turn)
  | enter turn' m => exact used (gathered.alert alive me turn)
  | leave turn' m =>
    have noted : (x.sched.use (.left (x.sched.current.getD 0) m (x.sched.lockHolder m))).Regular x.hand :=
      regular.use fun _ => LockUse.noConfusion
    exact moves (Scheduler.evolves_passLock _ m noted) (used (gathered.alert alive me turn))
  | quit _ op => exact moves (op.evolves _ regular) (gathered.alert alive me turn)

theorem Gathered.steps (gathered : x.Gathered) (lawful : x.Lawful) (steps : x.Steps y) : y.Gathered := by
  induction steps with
  | refl => exact gathered
  | tail before step ih =>
    obtain ⟨a, step⟩ := step
    exact ih.step (lawful.steps before) step

/-! ## Who is counted -/

/-- Those who are counted in the trip of a barrier, if a step is one: whoever waits, and the one in turn. -/
def counted (b : ObjectId) (x y : Play V E B) : List (List TaskId) :=
  if (y.sched.barrierState b).2 = (x.sched.barrierState b).2 then []
  else [x.sched.waitersOf (.barrier b) ++ x.hand.toList]

/-- One step after another while a task does not get its turn, and those who are counted in the trips on the way. -/
inductive Trips (b : ObjectId) (t : TaskId) (x : Play V E B) : List (List TaskId) → Play V E B → Prop where
  | refl : Trips b t x [] x
  | tail {a : Actor} {y z : Play V E B} {trips : List (List TaskId)} (first : Trips b t x trips y) (step : y.Step a z)
    (other : a ≠ .task t) : Trips b t x (trips ++ y.counted b z) z

inductive Arrived (b : ObjectId) (t : TaskId) (trips : List (List TaskId)) (x : Play V E B) : Prop where
  | waits (here : t ∈ x.sched.waitersOf (.barrier b)) (none : trips = [])
  | dropped (killed : x.sched.Killed t) (absent : t ∉ x.sched.waitersOf (.barrier b)) (never : ∀ trip ∈ trips, t ∉ trip)
  | released {first : List TaskId} {rest : List (List TaskId)} (absent : t ∉ x.sched.waitersOf (.barrier b))
    (eq : trips = first :: rest) (counted : t ∈ first) (once : ∀ trip ∈ rest, t ∉ trip)

theorem Trips.steps (first : x.Trips b t trips y) : x.Steps y := by
  induction first with
  | refl => exact .refl
  | tail _ step _ ih => exact ih.tail ⟨_, step⟩

theorem Step.actor (step : x.Step a y) (turn : x.hand = some me) : a = .task me := by
  cases step with
  | idle free | fire free | advance free | kill free | note free | unwind free | start free | goOn free =>
    exact absurd (free.symm.trans turn) nofun
  | operate turn' | attempt p turn' | park p turn' | stay p turn' | enter turn' | leave turn' | quit turn' | rest turn'
  | finish turn' =>
    cases turn'.symm.trans turn
    rfl

theorem barrierState_of_object? {s : Scheduler V E B} (here : s.object? b = some (.barrier parties generation)) :
    (s.barrierState b).2 = generation := by
  rw [Scheduler.barrierState, here]

/-- A task that has waited at a barrier is counted at most once until it gets its turn. -/
theorem Arrived.step {trips : List (List TaskId)} (arrived : x.Arrived b t trips) (gathered : x.Gathered)
    (lawful : x.Lawful) (here : x.sched.object? b = some (.barrier parties generation)) (step : x.Step a y)
    (other : a ≠ .task t) : y.Arrived b t (trips ++ x.counted b y) := by
  have same := barrierState_of_object? here
  have slain := (lawful.lasting step).1 t
  have away {me : TaskId} (turn : x.hand = some me) : me ≠ t := fun same => other (same ▸ step.actor turn)
  have barred := gathered.barrierStep lawful step here
  cases barred with
  | stays here' fewer dead =>
    have none : x.counted b y = [] := if_pos ((barrierState_of_object? here').trans same.symm)
    rw [none, List.append_nil]
    cases arrived with
    | waits waits empty =>
      by_cases stays : t ∈ y.sched.waitersOf (.barrier b)
      · exact .waits stays empty
      · exact .dropped (dead t waits stays) stays (by rw [empty]; nofun)
    | dropped killed absent never => exact .dropped (slain killed) (fun mem => absent (fewer.subset mem)) never
    | released absent eq counted once => exact .released (fun mem => absent (fewer.subset mem)) eq counted once
  | @joins me turn parked here' new line room =>
    have none : x.counted b y = [] := if_pos ((barrierState_of_object? here').trans same.symm)
    have absent' (absent : t ∉ x.sched.waitersOf (.barrier b)) : t ∉ y.sched.waitersOf (.barrier b) := by
      rw [line]
      intro mem
      rcases List.mem_append.mp mem with mem | mem
      · exact absent mem
      · exact away turn (List.mem_singleton.mp mem).symm
    rw [none, List.append_nil]
    cases arrived with
    | waits waits empty => exact .waits (line ▸ List.mem_append_left _ waits) empty
    | dropped killed absent never => exact .dropped (slain killed) (absent' absent) never
    | released absent eq counted once => exact .released (absent' absent) eq counted once
  | @trips me turn trip =>
    have one : x.counted b y = [x.sched.waitersOf (.barrier b) ++ [me]] := by
      rw [counted, barrierState_of_object? trip.next, same, if_neg (Nat.succ_ne_self generation), turn]
      rfl
    have empty : t ∉ y.sched.waitersOf (.barrier b) := by
      rw [trip.empty]
      exact List.not_mem_nil
    have uncounted (absent : t ∉ x.sched.waitersOf (.barrier b)) : t ∉ x.sched.waitersOf (.barrier b) ++ [me] := by
      intro mem
      rcases List.mem_append.mp mem with mem | mem
      · exact absent mem
      · exact away turn (List.mem_singleton.mp mem).symm
    rw [one]
    cases arrived with
    | waits waits none =>
      exact .released empty (by rw [none]; rfl) (List.mem_append_left _ waits) fun trip mem => absurd mem List.not_mem_nil
    | dropped killed absent never =>
      refine .dropped (slain killed) empty fun trip mem => ?_
      rcases List.mem_append.mp mem with mem | mem
      · exact never trip mem
      · rw [List.mem_singleton.mp mem]
        exact uncounted absent
    | released absent eq counted once =>
      refine .released empty (by rw [eq]; rfl) counted fun trip mem => ?_
      rcases List.mem_append.mp mem with mem | mem
      · exact once trip mem
      · rw [List.mem_singleton.mp mem]
        exact uncounted absent

theorem Gathered.here (gathered : x.Gathered) (lawful : x.Lawful)
    (here : x.sched.object? b = some (.barrier parties generation)) (steps : x.Steps y) :
    ∃ generation, y.sched.object? b = some (.barrier parties generation) := by
  induction steps with
  | refl => exact ⟨generation, here⟩
  | tail before step ih =>
    obtain ⟨a, step⟩ := step
    obtain ⟨generation, here⟩ := ih
    have barred := (gathered.steps lawful before).barrierStep (lawful.steps before) step here
    cases barred with
    | stays here' => exact ⟨generation, here'⟩
    | joins _ _ here' => exact ⟨generation, here'⟩
    | trips _ trip => exact ⟨generation + 1, trip.next⟩

/-- Whoever waits at a barrier is counted at most once until it gets its turn. -/
theorem Gathered.arrived (gathered : x.Gathered) (lawful : x.Lawful)
    (here : x.sched.object? b = some (.barrier parties generation)) (waits : t ∈ x.sched.waitersOf (.barrier b))
    (run : x.Trips b t trips y) : y.Arrived b t trips := by
  induction run with
  | refl => exact .waits waits rfl
  | tail first step other ih =>
    obtain ⟨generation', here'⟩ := gathered.here lawful here first.steps
    exact ih.step (gathered.steps lawful first.steps) (lawful.steps first.steps) here' step other

/-- A task goes on that has not been killed and does not wait. -/
theorem Step.goes (step : x.Step a y) (free : x.hand = none) (turn : y.hand = some t) (alive : y.dying = false) :
    ∃ s, x.sched.nextReady = (some t, s) := by
  cases step with
  | start _ next | goOn _ next =>
    cases turn
    exact ⟨_, next⟩
  | unwind => cases alive
  | idle | fire | advance | kill | note => exact absurd (free.symm.trans turn) nofun
  | operate turn' | attempt _ turn' | park _ turn' | stay _ turn' | enter turn' | leave turn' | quit turn' | rest turn'
  | finish turn' => exact absurd (free.symm.trans turn') nofun

/-- Whoever goes on after it has waited at a barrier has been counted. -/
theorem Arrived.goes (arrived : x.Arrived b t trips) (lawful : x.Lawful) (step : x.Step a y)
    (free : x.hand = none) (turn : y.hand = some t) (alive : y.dying = false) :
    ∃ first rest, trips = first :: rest ∧ t ∈ first ∧ ∀ trip ∈ rest, t ∉ trip := by
  obtain ⟨s, next⟩ := Step.goes step free turn alive
  have regular := lawful.regular
  rw [free] at regular
  have live := regular.live_other nofun (Scheduler.pickReady_unfinished _ next)
  cases arrived with
  | waits waits none =>
    have parked := (regular.tidy.parked_iff t _).mpr waits
    have ready : (x.sched.view t).ready = true := decide_eq_true (Scheduler.mem_of_pickReady _ next)
    have unready := ((regular.stands_other nofun).of_parked live parked).2.1
    exact absurd (ready.symm.trans unready) nofun
  | dropped killed => exact absurd (live.2.symm.trans killed) nofun
  | @released first rest absent eq counted once => exact ⟨first, rest, eq, counted, once⟩

/-- From a moment on, a barrier trips in generations. -/
structure Generations (b : ObjectId) (x : Play V E B) : Prop where
  /-- Fewer tasks wait than the barrier is for. -/
  room : ∀ y parties generation, x.Steps y → y.sched.object? b = some (.barrier parties generation) →
    (y.sched.waitersOf (.barrier b)).length < parties
  /-- It only trips when the last one arrives, and whoever is killed no longer waits. -/
  barrier : ∀ y z a parties generation, x.Steps y → y.Step a z →
    y.sched.object? b = some (.barrier parties generation) →
    y.sched.BarrierStep y.hand b parties generation z.sched
  /-- Whoever need not wait has tripped it. -/
  atOnce : ∀ y me parties generation r s, x.Steps y → y.hand = some me → y.dying = false →
    y.sched.object? b = some (.barrier parties generation) → y.sched.arrive b = (.done r, s) →
    y.sched.Trip me b parties generation s
  /-- Whoever waits is counted once, unless it is killed before. -/
  counted : ∀ y z t trips parties generation, x.Steps y → y.sched.object? b = some (.barrier parties generation) →
    t ∈ y.sched.waitersOf (.barrier b) → y.Trips b t trips z → z.Arrived b t trips
  /-- Whoever goes on after it has waited has been counted once. -/
  returns : ∀ y z w a t trips parties generation, x.Steps y →
    y.sched.object? b = some (.barrier parties generation) → t ∈ y.sched.waitersOf (.barrier b) → y.Trips b t trips z →
    z.Step a w → z.hand = none → w.hand = some t → w.dying = false →
    ∃ first rest, trips = first :: rest ∧ t ∈ first ∧ ∀ trip ∈ rest, t ∉ trip

theorem Gathered.generations (gathered : x.Gathered) (lawful : x.Lawful) (b : ObjectId) : x.Generations b where
  room y parties generation steps here := ((gathered.steps lawful steps).few b).room parties generation here
  barrier y z a parties generation steps step here :=
    (gathered.steps lawful steps).barrierStep (lawful.steps steps) step here
  atOnce y me parties generation r s steps turn alive here done :=
    (gathered.steps lawful steps).trip (lawful.steps steps) turn alive here done
  counted y z t trips parties generation steps here waits run :=
    (gathered.steps lawful steps).arrived (lawful.steps steps) here waits run
  returns y z w a t trips parties generation steps here waits run step free turn alive := by
    have arrived := (gathered.steps lawful steps).arrived (lawful.steps steps) here waits run
    exact arrived.goes (lawful.steps (steps.trans run.steps)) step free turn alive

end Play

/-! ## Before the run -/

/-- Before a run nobody waits at a barrier. -/
theorem Scheduler.Prepared.mustered (prepared : s.Prepared) : s.Sized ∧ ∀ b, s.Few b := by
  induction prepared with
  | new defaultDeadline picks journal =>
    have none : ∀ b, ({ defaultDeadline, picks, journal } : Scheduler V E B).object? b = none := by simp [object?]
    refine ⟨fun m o here => ?_, fun b => ⟨fun parties generation here => ?_, fun _ => rfl⟩⟩
    · cases (none m).symm.trans here
    · cases (none b).symm.trans here
  | operate before op ih =>
    obtain ⟨sized, few⟩ := ih
    have calm := fun b => op.calm before.regular.1 b
    exact ⟨(calm 0).sized sized, fun b => (calm b).few sized (few b)⟩
  | @attempt s before op ih =>
    obtain ⟨sized, few⟩ := ih
    obtain ⟨regular, free⟩ := before.regular
    -- outside tasks nobody arrives
    have calm : ∀ b, s.Calm b (op.start s).2 := by
      intro b
      by_cases mine : Pause.amid op = .amid (.barrier b)
      · cases mine
        have same : (s.arrive b).2 = s := by
          unfold arrive
          rw [free]
        exact calm_of_same (congrArg waiters same) (congrArg objects same) fun t => same.symm ▸ id
      · exact Pause.calm (free ▸ regular) mine
    exact ⟨(calm 0).sized sized, fun b => (calm b).few sized (few b)⟩

/-- Every run is a play in which every barrier trips in generations, whatever the tasks do and whenever they are killed.
Tasks that are killed must heed it. -/
theorem barriers_trip_in_generations {m : Machine S V E B A} (host : Host S V E B A) {dead : A → Prop}
    (heeds : host.Heeds dead) (fresh : m.Fresh) :
    (∀ b, ((Stage.between m).play false).Generations b) ∧
      ∀ stage, Stage.Course host (.between m) stage →
        ∃ dying, ((Stage.between m).play false).Steps (stage.play dying) := by
  have acting := fresh.acting dead
  obtain ⟨sized, few⟩ := fresh.prepared.mustered
  have gathered : ((Stage.between m).play false).Gathered := ⟨sized, few, fun _ _ turn => absurd turn nofun⟩
  refine ⟨fun b => gathered.generations acting.lawful b, fun stage course => ?_⟩
  obtain ⟨dying, -, plays⟩ := acting.course heeds course
  exact ⟨dying, plays⟩

/-- Three tasks that arrive at a barrier for two. -/
def gathering : Machine (ScriptState Nat) Nat Bytes Nat (ScriptEnd Nat) where
  world := {
    sched := (((({} : Scheduler Nat Bytes Nat).newBarrier 2).2.spawn "a" 0).2.spawn "b" 0).2.spawn "c" 0 |>.2
    own := {
      definitions := [{ name := "main", steps := [{ name := "a", step := .arrive 0 }] }]
      spawned := [(0, 1)]
      barriers := [1] } }

/-- The barrier has tripped once, and the third task waits. -/
theorem barriers_trip_in_generations_gathering :
    gathering.Fresh ∧ (∀ b, ((Stage.between gathering).play false).Generations b) ∧
      ∃ m, gathering.Turns Script.host m ∧ m.world.sched.barrierState 1 = (2, 1) ∧
        m.world.sched.waitersOf (.barrier 1) = [3] ∧
        ∃ dying, ((Stage.between gathering).play false).Steps ((Stage.between m).play dying) := by
  have made := (Scheduler.Prepared.new (V := Nat) (E := Bytes) (B := Nat) 0 [] []).operate (.newBarrier 2 id)
  have first := made.operate (.spawn "a" 0 id)
  have fresh : gathering.Fresh := ⟨(first.operate (.spawn "b" 0 id)).operate (.spawn "c" 0 id), rfl⟩
  have seen : (gathering.after Script.host 3).any fun m =>
      m.world.sched.barrierState 1 = (2, 1) ∧ m.world.sched.waitersOf (.barrier 1) = [3] := by decide +kernel
  obtain ⟨m, later, facts⟩ := (Option.any_eq_true _ _).mp seen
  rw [decide_eq_true_eq] at facts
  have turns := Machine.turns_of_after 3 gathering later
  obtain ⟨generations, plays⟩ := barriers_trip_in_generations Script.host Script.host_heeds fresh
  exact ⟨fresh, generations, m, turns, facts.1, facts.2, plays (.between m) turns.course⟩

end LedgerScript
