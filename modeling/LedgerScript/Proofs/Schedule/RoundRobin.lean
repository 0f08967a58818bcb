import LedgerScript.Proofs.Schedule.Rounds

/-!
# Yielding

A task that yields goes behind all tasks that are ready, and whoever becomes ready later goes behind it.  As long as the
first ready task is always the next one, the tasks in front of it are served once each, in their order, before it has its
turn again.  Only those that are killed are passed over, and if it is killed itself, nothing is promised to it any more.
-/

namespace LedgerScript

variable {S V E B A : Type}

namespace Scheduler

variable {V E B : Type} {s s' : Scheduler V E B} {t u : TaskId} {q ds : List TaskId}
variable {next : Option TaskId}

/-! ## The first of the ready tasks -/

/-- The first ready task is always the next one, and only killed tasks are ready when they are finished. -/
structure Plain (s : Scheduler V E B) : Prop where
  picks : s.picks = []
  pending : ∀ t ∈ s.ready, s.Pending t

theorem Plain.queues (plain : s.Plain) (queues : s.Queues s') : s'.Plain :=
  ⟨queues.picks.trans plain.picks, queues.pending plain.pending⟩

/-- Fewer tasks are ready, and nothing else has changed. -/
theorem Plain.fewer (plain : s.Plain) (picks : s'.picks = []) (fewer : s'.ready.Sublist s.ready)
    (tasks : s'.tasks = s.tasks) : s'.Plain := by
  refine ⟨picks, fun t here => ?_⟩
  have same : s'.task? t = s.task? t := by rw [task?, task?, tasks]
  have waits := plain.pending t (fewer.subset here)
  unfold Pending isDone at waits ⊢
  rw [killed_iff] at waits ⊢
  rwa [same]

/-- What it means to pick the first ready task that is not finished. -/
structure Picked (s : Scheduler V E B) (next : Option TaskId) (s' : Scheduler V E B) : Prop where
  picks : s'.picks = []
  tasks : s'.tasks = s.tasks
  ready : ∃ gone, (∀ t ∈ gone, s.isDone t = true) ∧ s.ready = gone ++ (next.toList ++ s'.ready)
  nobody : next = none → s'.ready = []

theorem picked_pickReady (n : Nat) (s : Scheduler V E B) (plain : s.picks = []) (enough : s.ready.length ≤ n) :
    s.Picked (s.pickReady n).1 (s.pickReady n).2 := by
  induction n generalizing s with
  | zero =>
    have nobody : s.ready = [] := List.length_eq_zero_iff.mp (Nat.le_zero.mp enough)
    exact ⟨plain, rfl, ⟨[], List.forall_mem_nil _, rfl⟩, fun _ => nobody⟩
  | succ n ih =>
    unfold pickReady
    dsimp only
    rw [plain, List.headD_nil, Nat.zero_mod]
    cases ready : s.ready with
    | nil => exact ⟨plain, rfl, ⟨[], List.forall_mem_nil _, rfl⟩, fun _ => ready⟩
    | cons first rest =>
      let s₁ : Scheduler V E B := { s with ready := rest, readySet := s.readySet.erase first, picks := [] }
      show s.Picked (if s₁.isDone first then s₁.pickReady n else (some first, s₁)).1
        (if s₁.isDone first then s₁.pickReady n else (some first, s₁)).2
      by_cases done : s₁.isDone first = true
      · rw [ready, List.length_cons, Nat.add_le_add_iff_right] at enough
        obtain ⟨picks, tasks, ⟨gone, finished, eq⟩, nobody⟩ := ih s₁ rfl enough
        rw [if_pos done]
        refine ⟨picks, tasks, ⟨first :: gone, List.forall_mem_cons.mpr ⟨done, finished⟩, ?_⟩, nobody⟩
        rw [ready, List.cons_append]
        exact congrArg (first :: ·) eq
      · rw [if_neg done]
        exact ⟨rfl, rfl, ⟨[], List.forall_mem_nil _, ready⟩, fun none => by cases none⟩

theorem picked_nextReady (plain : s.picks = []) (eq : s.nextReady = (next, s')) : s.Picked next s' := by
  have picked := picked_pickReady s.ready.length s plain (Nat.le_refl _)
  rw [← nextReady, eq] at picked
  exact picked

theorem Picked.killed {next : Option TaskId} (picked : s.Picked next s') (t : TaskId) (killed : s.Killed t) : s'.Killed t := by
  rw [killed_iff, task?] at killed ⊢
  rwa [picked.tasks]

theorem Regular.tidy_nextReady (regular : s.Regular none) (eq : s.nextReady = (next, s')) :
    QueueTidy s'.ready s'.readySet := by
  cases next with
  | none => exact (regular.nextReady_none eq).1.tidy.queue
  | some t =>
    have tidy := (regular.nextReady_some eq).tidy.queue
    rwa [Scheduler.setRunning, modifyTask_eq] at tidy

theorem Plain.pick (plain : s.Plain) (picked : s.Picked next s') : s'.Plain := by
  obtain ⟨gone, -, eq⟩ := picked.ready
  refine plain.fewer picked.picks ?_ picked.tasks
  rw [eq, ← List.append_assoc]
  exact List.sublist_append_right _ _

/-! ## In front of a task, and behind it -/

/-- A task waits for its turn behind the tasks `q`, of which `ds` have been served: some tasks of `q` have had their turn
or have been killed, those that are left wait in front of the task unless they have been killed, and all others wait
behind it. -/
def Behind (s : Scheduler V E B) (q : List TaskId) (t : TaskId) (ds : List TaskId) : Prop :=
  ∃ past left, q = past ++ left ∧ ds.Sublist past ∧ (∀ u ∈ past, u ∉ ds → s.Killed u) ∧
    ∃ front back, s.ready = front ++ t :: back ∧ front.Sublist left ∧ ∀ u ∈ left, u ∉ front → s.Killed u

/-- While the queues move in order, a task keeps its place unless it is killed. -/
theorem Behind.queues (behind : s.Behind q t ds) (tidy : QueueTidy s.ready s.readySet) (queues : s.Queues s') :
    s'.Killed t ∨ s'.Behind q t ds := by
  obtain ⟨past, left, eq, served, passed, front, back, ready, waits, lost⟩ := behind
  obtain ⟨kept, new, ready', fewer, gone⟩ := queues.ready tidy
  have distinct := tidy.nodup
  rw [ready] at fewer gone distinct
  by_cases stays : t ∈ kept
  · obtain ⟨front', back', rfl, before, after⟩ := sublist_around fewer distinct stays
    refine .inr ⟨past, left, eq, served, fun u here other => queues.killed u (passed u here other), front', back' ++ new,
      by rw [ready', List.append_assoc, List.cons_append], before.trans waits, fun u here other => ?_⟩
    by_cases mem : u ∈ front
    · refine gone u (List.mem_append_left _ mem) fun kept => ?_
      -- it is not behind the task, so it has lost its place
      have behind : u ∈ t :: back := (after.cons_cons t).subset ((List.mem_append.mp kept).resolve_left other)
      exact (List.nodup_append.mp distinct).2.2 u mem u behind rfl
    · exact queues.killed u (lost u here mem)
  · exact .inl (gone t (by simp) stays)

/-- What is in a list stands between what is in front of it and what is behind it. -/
theorem sublist_split {gone front left : List TaskId} (fewer : (gone ++ u :: front).Sublist left) :
    ∃ before after, left = before ++ u :: after ∧ gone.Sublist before ∧ front.Sublist after := by
  obtain ⟨l₁, l₂, rfl, first, rest⟩ := List.append_sublist_iff.mp fewer
  obtain ⟨r₁, r₂, eq, here, last⟩ := List.cons_sublist_iff.mp rest
  obtain ⟨a, b, rfl⟩ := List.append_of_mem here
  refine ⟨l₁ ++ a, b ++ r₂, by simp [eq], first.trans (List.sublist_append_left _ _), ?_⟩
  exact last.trans (List.sublist_append_right _ _)

/-- Of two ways to cut a list in front of one of its elements, one cuts it earlier, unless they are the same. -/
theorem cut_eq {front back gone rest : List TaskId} (eq : front ++ t :: back = gone ++ u :: rest) :
    t ∈ gone ∨ u = t ∧ front = gone ∨ ∃ more, front = gone ++ u :: more ∧ rest = more ++ t :: back := by
  induction gone generalizing front with
  | nil =>
    cases front with
    | nil => exact .inr (.inl ⟨(List.cons.inj eq).1.symm, rfl⟩)
    | cons first more =>
      obtain ⟨rfl, rest⟩ := List.cons.inj eq
      exact .inr (.inr ⟨more, rfl, rest.symm⟩)
  | cons g gone ih =>
    cases front with
    | nil => exact .inl ((List.cons.inj eq).1 ▸ List.mem_cons_self)
    | cons first more =>
      obtain ⟨rfl, tail⟩ := List.cons.inj eq
      rcases ih tail with here | ⟨same, rfl⟩ | ⟨more, rfl, behind⟩
      · exact .inl (List.mem_cons_of_mem _ here)
      · exact .inr (.inl ⟨same, rfl⟩)
      · exact .inr (.inr ⟨more, rfl, behind⟩)

/-- The next task is the first one in front that has not been killed, or it is the task itself. -/
theorem Behind.pick (behind : s.Behind q t ds) (plain : s.Plain) (distinct : q.Nodup) (picked : s.Picked next s') :
    s.Killed t ∨ (next = some t ∧ ds.Sublist q ∧ ∀ u ∈ q, u ∉ ds → s.Killed u) ∨
      ∃ u, next = some u ∧ s'.Behind q t (ds ++ [u]) := by
  obtain ⟨past, left, rfl, served, passed, front, back, ready, waits, lost⟩ := behind
  obtain ⟨gone, finished, eq⟩ := picked.ready
  have killed := picked.killed
  have dead : ∀ u ∈ gone, s.Killed u := fun u mem =>
    (plain.pending u (eq ▸ List.mem_append_left _ mem)).resolve_left (by simp [finished u mem])
  cases next with
  | none =>
    rw [picked.nobody rfl, Option.toList_none, List.append_nil, List.append_nil] at eq
    exact .inl (dead t (eq ▸ ready ▸ by simp))
  | some u =>
    rw [ready, Option.toList_some, List.singleton_append] at eq
    obtain here | ⟨rfl, rfl⟩ | ⟨more, rfl, rest⟩ := cut_eq eq
    · exact .inl (dead t here)
    · refine .inr (.inl ⟨rfl, served.trans (List.sublist_append_left _ _), fun v here other => ?_⟩)
      rcases List.mem_append.mp here with here | here
      · exact passed v here other
      · by_cases mem : v ∈ front
        · exact dead v mem
        · exact lost v here mem
    · obtain ⟨before, after, rfl, skipped, waits⟩ := sublist_split waits
      have apart := (List.nodup_append.mp (List.nodup_append.mp distinct).2.1).2.2
      have lost : ∀ v ∈ before ++ u :: after, v ∉ gone → v ≠ u → v ∉ more → s.Killed v := fun v here passed other behind =>
        lost v here (by simp [passed, other, behind])
      refine .inr (.inr ⟨u, rfl, past ++ (before ++ [u]), after, by simp, ?_, fun v here other => ?_, more, back, rest,
        waits, fun v here other => ?_⟩)
      · exact served.append (List.sublist_append_right _ _)
      · obtain ⟨other, new⟩ := not_or.mp (mt List.mem_append.mpr other)
        have new : v ≠ u := by simpa using new
        rcases List.mem_append.mp here with here | here
        · exact killed v (passed v here other)
        · have here : v ∈ before := (List.mem_append.mp here).resolve_right (by simpa using new)
          by_cases mem : v ∈ gone
          · exact killed v (dead v mem)
          · refine killed v (lost v (List.mem_append_left _ here) mem new fun behind => ?_)
            exact apart v here v (List.mem_cons_of_mem u (waits.subset behind)) rfl
      · have behind : v ∈ u :: after := List.mem_cons_of_mem u here
        have new : v ≠ u := fun same =>
          (List.nodup_cons.mp (List.nodup_append.mp (List.nodup_append.mp distinct).2.1).2.1).1 (same ▸ here)
        refine killed v (lost v (List.mem_append_right _ behind) (fun mem => ?_) new other)
        exact apart v (skipped.subset mem) v behind rfl

end Scheduler

/-! ## Runs -/

namespace Stage

variable {host : Host S V E B A} {stage stage' : Stage S V E B A}

/-- The first ready task stays the next one. -/
theorem Proper.plain (proper : stage.Proper) (plain : stage.sched.Plain) (next : Next host stage stage') :
    stage'.sched.Plain := by
  have passes (passes : Passes host stage stage') : stage'.sched.Plain :=
    plain.queues (proper.passes (.single passes)).2
  cases next with
  | advance later =>
    have regular := proper.regular
    exact plain.queues (Scheduler.flows_advance? regular later)
  | act acts =>
    cases acts with
    | unwind first => exact passes (.unwind first)
    | @dispatch m id s picked =>
      have regular : m.world.sched.Regular none := proper.regular
      have taken : s.Queues (s.setRunning id) := s.flows_setRunning id
      have opened := queues_opening host (m.onSched fun _ => s.setRunning id) proper.sound (regular.nextReady_some picked)
      exact (plain.pick (Scheduler.picked_nextReady plain.picks picked)).queues (taken.trans opened)
    | idle nobody => exact plain.pick (Scheduler.picked_nextReady plain.picks nobody)
    | fire m n => exact passes (.fire m n)
    | kill m id cause => exact plain.queues (m.world.sched.flows_kill id cause)
    | note m e => exact plain.queues (m.world.sched.flows_note e)
    | step goes => exact passes (.turn rfl (.step goes))
    | stop stops => exact passes (.turn rfl (.stop stops))

theorem Proper.plain_reaches (proper : stage.Proper) (plain : stage.sched.Plain) (reaches : Reaches host stage stage') :
    stage'.sched.Plain := by
  induction reaches with
  | refl => exact plain
  | tail before next ih => exact (proper.reaches before).plain ih next

end Stage

/-- Before the run the ready tasks have not been finished but by being killed. -/
theorem Scheduler.Prepared.pending {V E B : Type} {s : Scheduler V E B} (prepared : s.Prepared) :
    ∀ t ∈ s.ready, s.Pending t := by
  induction prepared with
  | new => exact nofun
  | operate before op ih => exact (op.flows before.regular.1).pending ih
  | attempt before op ih =>
    obtain ⟨regular, free⟩ := before.regular
    exact (op.flows (free ▸ regular)).pending ih

namespace Machine

open Stage

variable {host : Host S V E B A} {m m₁ m₂ : Machine S V E B A} {t : TaskId} {q ds : List TaskId}

/-- What the loop promises to a task that waits for its turn behind the tasks `q`, of which `ds` have been served. -/
structure RoundRobin (host : Host S V E B A) (q : List TaskId) (t : TaskId) (ds : List TaskId) (m : Machine S V E B A) :
    Prop where
  /-- Those that have been served are in `q`, and have been served in its proper, each once. -/
  order : ds.Sublist q
  /-- Those of `q` that wait in front have not been killed, and all others have had their turn or have been killed. -/
  place : m.world.sched.Behind q t ds
  alive : ∀ u, m.served host = some u → ¬ (m.poised host).world.sched.Killed u
  /-- Unless the task is killed, the next one is another one of `q`, or it is the task itself, and all others of `q` have
  been served or killed. -/
  next : ∀ u, m.served host = some u → (m.poised host).world.sched.Killed t ∨ (ds ++ [u]).Sublist q ∨
    u = t ∧ ∀ v ∈ q, v ∉ ds → (m.poised host).world.sched.Killed v

theorem sublist_of_behind {s : Scheduler V E B} (behind : s.Behind q t ds) : ds.Sublist q := by
  obtain ⟨past, left, rfl, served, -⟩ := behind
  exact served.trans (List.sublist_append_left _ _)

/-- What has been killed is not revived by a turn of the loop. -/
theorem killed_turn (proper : (Stage.between m).Proper) (plain : m.world.sched.Plain) (again : m.turn host = .again m₁)
    (killed : m.world.sched.Killed t) : m₁.world.sched.Killed t := by
  obtain ⟨-, queues, s, next, rest⟩ := turn_queues proper again
  have picked := Scheduler.picked_nextReady (plain.queues queues).picks next
  exact rest.killed t (picked.killed t (queues.killed t killed))

/-- What a turn of the loop does to a task that waits for its turn. -/
theorem behind_turn (proper : (Stage.between m).Proper) (plain : m.world.sched.Plain) (distinct : q.Nodup)
    (behind : m.world.sched.Behind q t ds) (again : m.turn host = .again m₁) (waits : m.served host ≠ some t) :
    m₁.world.sched.Killed t ∨ m₁.world.sched.Behind q t (ds ++ (m.served host).toList) := by
  have regular : m.world.sched.Regular none := proper.regular
  obtain ⟨proper', queues, s, next, rest⟩ := turn_queues proper again
  have regular' : (m.poised host).world.sched.Regular none := proper'.regular
  have plain' : (m.poised host).world.sched.Plain := plain.queues queues
  have picked := Scheduler.picked_nextReady plain'.picks next
  have dead (killed : (m.poised host).world.sched.Killed t) : m₁.world.sched.Killed t :=
    rest.killed t (picked.killed t killed)
  rcases behind.queues regular.tidy.queue queues with killed | behind
  · exact .inl (dead killed)
  · rcases behind.pick plain' distinct picked with killed | ⟨mine, -⟩ | ⟨u, other, behind⟩
    · exact .inl (dead killed)
    · exact absurd mine waits
    · rw [other]
      exact behind.queues (regular'.tidy_nextReady next) rest

/-- A task that waits for its turn has the promises of the loop. -/
theorem roundRobin_of_behind (proper : (Stage.between m).Proper) (plain : m.world.sched.Plain) (distinct : q.Nodup)
    (behind : m.world.sched.Behind q t ds) : m.RoundRobin host q t ds := by
  have regular : m.world.sched.Regular none := proper.regular
  have poised {u : TaskId} (serves : m.served host = some u) :
      (Stage.between (m.poised host)).Proper ∧ m.world.sched.Queues (m.poised host).world.sched :=
    queues_poised proper (served_eq serves).1
  refine ⟨sublist_of_behind behind, behind, fun u serves killed => ?_, fun u serves => ?_⟩
  · obtain ⟨-, s, next⟩ := served_eq serves
    have regular' : (m.poised host).world.sched.Regular none := (poised serves).1.regular
    have live := regular'.live_other nofun (Scheduler.pickReady_unfinished _ next)
    exact Bool.false_ne_true (live.2.symm.trans killed)
  · obtain ⟨-, s, next⟩ := served_eq serves
    obtain ⟨-, queues⟩ := poised serves
    have plain' : (m.poised host).world.sched.Plain := plain.queues queues
    rcases behind.queues regular.tidy.queue queues with killed | behind
    · exact .inl killed
    · rcases behind.pick plain' distinct (Scheduler.picked_nextReady plain'.picks next) with
        killed | ⟨mine, -, all⟩ | ⟨v, other, behind⟩
      · exact .inl killed
      · exact .inr (.inr ⟨Option.some.inj mine, all⟩)
      · cases other
        exact .inr (.inl (sublist_of_behind behind))

theorem behind_yield {threads : List (TaskId × Thread S V E B A)} {s : Scheduler V E B} {own : S}
    {k : World S V E B → Option (Woken V) → Proc S V E B A (Turn B A)} {stack : List (Waiting S V E B A)}
    (proper : (Stage.running threads t (.wait ⟨s, own⟩ .yield k) stack).Proper)
    (yields : Next host (.running threads t (.wait ⟨s, own⟩ .yield k) stack) (.between m)) :
    t ∉ s.ready ∧ m.world.sched.ready = s.ready ++ [t] := by
  have regular : s.Regular (some t) := proper.regular
  have current : s.current = some t := proper.current
  have yielded : WaitOp.start (V := V) .yield s =
      (.parked, (s.enqueue t).modifyTask t fun t => { t with reason := .yield }) := by
    simp only [WaitOp.start, Scheduler.yield, current]
    rfl
  cases yields with
  | act acts =>
    cases acts with
    | stop stops =>
      unfold Host.step at stops
      dsimp only at stops
      rw [yielded] at stops
      dsimp only at stops
      split at stops
      · cases stops
      · rename_i spared
        cases stops
        have alive : ¬ s.Killed t := by
          intro killed
          have parking := (WaitOp.yield.tries s).parked regular current yielded
          rw [Scheduler.currentKilled_eq (parking.current.trans current)] at spared
          have flows : s.Queues (WaitOp.start (V := V) .yield s).2 := (WaitOp.yield.flows (current ▸ regular)).queues
          rw [yielded] at flows
          exact spared (flows.killed t killed)
        have absent : t ∉ s.ready := (regular.free_hand.resolve_left alive).1
        refine ⟨absent, ?_⟩
        have fresh : s.readySet.has t = false := by
          rw [Bool.eq_false_iff, Ne, regular.tidy.queue.has_iff]
          exact absent
        show (((s.enqueue t).modifyTask t fun t => { t with reason := .yield }).notePark.setCurrent none).ready = s.ready ++ [t]
        simp only [Scheduler.notePark, Scheduler.noteTask, Scheduler.note, Scheduler.setCurrent, Scheduler.enqueue, fresh,
          Scheduler.modifyTask_eq]
        rfl

end Machine

/-- If a task yields while the tasks `q` are ready, the loop serves those of `q` that are not killed before their turn, each
once and in this order, before it serves the task again, unless that is killed.  Whoever becomes ready later is served after
the task. -/
theorem yield_is_round_robin {m m₁ : Machine S V E B A} (host : Host S V E B A) (fresh : m.Fresh)
    (plain : m.world.sched.picks = []) {threads : List (TaskId × Thread S V E B A)} {t : TaskId} {s : Scheduler V E B} {own : S}
    {k : World S V E B → Option (Woken V) → Proc S V E B A (Turn B A)} {stack : List (Waiting S V E B A)}
    (run : Stage.Reaches host (.between m) (.running threads t (.wait ⟨s, own⟩ .yield k) stack))
    (yields : Stage.Next host (.running threads t (.wait ⟨s, own⟩ .yield k) stack) (.between m₁)) :
    s.ready.Nodup ∧ t ∉ s.ready ∧ ∀ ds m₂, m₁.Serves host ds m₂ → t ∉ ds →
      m₂.world.sched.Killed t ∨ m₂.RoundRobin host s.ready t ds := by
  have start : (Stage.between m).Proper := fresh.proper
  have proper := start.reaches run
  have regular : s.Regular (some t) := proper.regular
  have distinct := regular.tidy.queue.nodup
  obtain ⟨absent, ready⟩ := Machine.behind_yield proper yields
  refine ⟨distinct, absent, fun ds m₂ serves waits => ?_⟩
  have proper₁ := proper.next yields
  have plain₁ : m₁.world.sched.Plain :=
    proper.plain (start.plain_reaches ⟨plain, fresh.prepared.pending⟩ run) yields
  suffices promise : (Stage.between m₂).Proper ∧ m₂.world.sched.Plain ∧
      (m₂.world.sched.Killed t ∨ m₂.world.sched.Behind s.ready t ds) by
    obtain ⟨proper₂, plain₂, promise⟩ := promise
    exact promise.imp_right (Machine.roundRobin_of_behind proper₂ plain₂ distinct)
  induction serves with
  | none =>
    refine ⟨proper₁, plain₁, .inr ⟨[], s.ready, rfl, .slnil, nofun, s.ready, [], ready, .refl _, ?_⟩⟩
    exact fun u here other => absurd here other
  | turn before again ih =>
    obtain ⟨others, last⟩ := not_or.mp (mt List.mem_append.mpr waits)
    obtain ⟨proper₂, plain₂, promise⟩ := ih others
    have further := Machine.reaches_turn again
    refine ⟨proper₂.reaches further, proper₂.plain_reaches plain₂ further, ?_⟩
    rcases promise with killed | behind
    · exact .inl (Machine.killed_turn proper₂ plain₂ again killed)
    · exact Machine.behind_turn proper₂ plain₂ distinct behind again fun mine => last (by simp [mine])

/-- Tasks that yield once, and then end. -/
def yielding : Host Unit Unit Unit Unit Unit where
  start _ := do
    let _ ← Act.wait .yield
    return .answer ()
  conclude _ _ := (none, none)
  errorText _ _ := []

/-- Three tasks that yield. -/
def yielders : Machine Unit Unit Unit Unit Unit where
  world := {
    sched := ((((({} : Scheduler Unit Unit Unit).spawn "a" ()).2).spawn "b" ()).2.spawn "c" ()).2
    own := () }

/-- The first of them has got its turn. -/
def firstYields : World Unit Unit Unit Unit where
  sched := (yielders.world.sched.nextReady.2.setRunning 1).setCurrent (some 1)
  own := ()

def firstYielded : Machine Unit Unit Unit Unit Unit where
  world := { sched := firstYields.sched.yield.2.notePark.setCurrent none, own := () }
  threads := [(1, { suspended := .wait .yield fun w _ => .done w (.answer ()), stack := [] })]

theorem yield_is_round_robin_yielders :
    yielders.Fresh ∧ firstYields.sched.ready = [2, 3] ∧ ∃ m, firstYielded.Serves yielding [2] m ∧ m.served yielding = some 3 ∧
      (m.world.sched.Killed 1 ∨ m.RoundRobin yielding [2, 3] 1 [2]) := by
  have fresh : yielders.Fresh :=
    ⟨.operate (.operate (.operate (.new 0 [] []) (.spawn "a" () id)) (.spawn "b" () id)) (.spawn "c" () id), rfl⟩
  have run : Stage.Reaches yielding (.between yielders)
      (.running [] 1 (.wait firstYields .yield fun w _ => .done w (.answer ())) []) :=
    .single (.act (.dispatch (show yielders.world.sched.nextReady = (some 1, _) from rfl)))
  have yields : Stage.Next yielding (.running [] 1 (.wait firstYields .yield fun w _ => .done w (.answer ())) [])
      (.between firstYielded) :=
    .act (.stop (e := .parked ⟨firstYields.sched.yield.2.notePark, ()⟩
      ⟨.wait .yield fun w _ => .done w (.answer ()), []⟩) rfl)
  have promise := yield_is_round_robin yielding fresh rfl run yields
  have served : firstYielded.served yielding = some 2 := by decide +kernel
  have seen : (firstYielded.after yielding 1).any fun m => m.served yielding = some 3 := by decide +kernel
  obtain ⟨m, later, next⟩ := (Option.any_eq_true _ _).mp seen
  have again : firstYielded.turn yielding = .again m := by
    unfold Machine.after at later
    split at later
    · rename_i m' again
      cases later
      exact again
    · cases later
  have serves : firstYielded.Serves yielding [2] m := by
    have serves := Machine.Serves.turn .none again
    rwa [served] at serves
  exact ⟨fresh, rfl, m, serves, of_decide_eq_true next, promise.2.2 [2] m serves (by decide)⟩

end LedgerScript
