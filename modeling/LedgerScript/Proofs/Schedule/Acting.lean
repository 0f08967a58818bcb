import LedgerScript.Proofs.Schedule.Order
import LedgerScript.Proofs.Schedule.Suspense

/-!
# Runs are plays

Every stage of a run shows a stage of a play, if the tasks heed that they are killed.  The task in turn is only said to be
at its end when its process is: a killed task that goes on has nothing to go on with, and so it dies.
-/

open Function (update)

namespace LedgerScript

variable {S V E B A : Type}

def Thread.pause (t : Thread S V E B A) : Pause V :=
  match t.suspended with
  | .wait op _ => .amid op
  | .enter lock _ _ => .door lock

def Proc.pause? {R : Type} : Proc S V E B A R → Option (Pause V)
  | wait _ op _ => some (.amid op)
  | block _ lock _ _ => some (.door lock)
  | done .. | ask .. => none

abbrev threadPauses : List (TaskId × Thread S V E B A) → TaskId → Option (Pause V) :=
  threadRead (fun t => some t.pause) none

theorem threadPauses_found {threads : List (TaskId × Thread S V E B A)} {me id : TaskId} {t : Thread S V E B A}
    (found : threads.find? (·.1 = me) = some (id, t)) :
    threadPauses threads me = some t.pause ∧ update (threadPauses threads) me none = threadPauses (threads.filter (·.1 ≠ me)) := by
  have idle : threadPauses (threads.filter (·.1 ≠ me)) me = none := by
    refine threadRead_missing _ _ ?_
    rw [find?_filter_thread, if_pos rfl]
  rw [threadPauses, threadRead_filter _ _ found]
  refine ⟨Function.update_self .., ?_⟩
  rw [Function.update_idem]
  exact Function.update_eq_self_iff.mpr idle.symm

namespace Stage

/-- The play that a stage shows, where the task in turn may be at its end. -/
def play (dying : Bool) : Stage S V E B A → Play V E B
  | between m => ⟨m.world.sched, none, false, threadPauses m.threads⟩
  | running threads me p _ => ⟨p.world.sched, some me, dying, threadPauses threads⟩

/-- All tasks heed that they are killed, and if the one in turn is said to be at its end, it is. -/
def Heeding (dead : A → Prop) (dying : Bool) : Stage S V E B A → Prop
  | between m => ∀ x ∈ m.threads, x.2.Heeds dead
  | running threads _ p stack =>
    (dying = true → p.Over dead) ∧ p.Heeds dead (Turn.Dead dead) ∧ (∀ f ∈ stack, f.Heeds dead) ∧
      ∀ x ∈ threads, x.2.Heeds dead

end Stage

/-! ## The turn of a task -/

section

variable {dead : A → Prop} {host : Host S V E B A} {threads : List (TaskId × Thread S V E B A)} {me : TaskId}
  {pauses : TaskId → Option (Pause V)} {x : Play V E B} {s s' : Scheduler V E B} {dying : Bool}
  {p : Proc S V E B A (Turn B A)} {stack : List (Waiting S V E B A)}

theorem plays_steps (steps : s.Steps s') :
    Play.Does (.task me) ⟨s, some me, false, pauses⟩ ⟨s', some me, false, pauses⟩ := by
  induction steps with
  | refl => exact .refl
  | tail _ op ih => exact ih.tail (.operate rfl rfl op)

theorem plays_quits (quits : s.Quits s') :
    Play.Does (.task me) ⟨s, some me, dying, pauses⟩ ⟨s', some me, dying, pauses⟩ := by
  induction quits with
  | refl => exact .refl
  | tail _ op quits ih => exact ih.tail (.quit rfl op quits)

structure GoesAlong (dead : A → Prop) (pauses : TaskId → Option (Pause V)) (me : TaskId) (x : Play V E B) (dying : Bool)
    (p : Proc S V E B A (Turn B A)) (stack : List (Waiting S V E B A)) : Prop where
  plays : x.Does (.task me) ⟨p.world.sched, some me, dying, pauses⟩
  atEnd : dying = true → p.Over dead
  heeds : p.Heeds dead (Turn.Dead dead)
  frames : ∀ f ∈ stack, f.Heeds dead

/-- What follows a stage of a play by a step of a thread. -/
def ThreadStep.Plays (dead : A → Prop) (pauses : TaskId → Option (Pause V)) (me : TaskId) (x : Play V E B) :
    ThreadStep S V E B A → Prop
  | .go p stack => ∃ dying, GoesAlong dead pauses me x dying p stack
  | .stop (.ended w _) => ∃ dying, x = ⟨w.sched, some me, dying, pauses⟩
  | .stop (.parked w t) =>
    x.Does (.task me) ⟨w.sched.setCurrent none, none, false, update pauses me (some t.pause)⟩ ∧ t.Heeds dead
  | .stop (.exhausted _) => False

theorem goesAlong (before : x.Does (.task me) ⟨s, some me, false, pauses⟩) (process : p.Sound s)
    (heeds : p.Heeds dead (Turn.Dead dead)) (frames : ∀ f ∈ stack, f.Heeds dead) :
    GoesAlong dead pauses me x false p stack :=
  ⟨before.trans (plays_steps process.world), nofun, heeds, frames⟩

theorem goesAlong_dies (before : x.Does (.task me) ⟨s, some me, true, pauses⟩) (dies : p.Dies (Turn.Dead dead) s)
    (heeds : p.Heeds dead (Turn.Dead dead)) (frames : ∀ f ∈ stack, f.Heeds dead) :
    GoesAlong dead pauses me x true p stack := by
  cases p with
  | done w r =>
    obtain ⟨fatal, quits⟩ := dies
    exact ⟨before.trans (plays_quits quits), fun _ => fatal, heeds, frames⟩
  | ask | wait | block => exact dies.elim

/-- An activation gets its answer. -/
theorem plays_answer {f : Waiting S V E B A} {w : World S V E B} {a : A} (fatal : dying = true → dead a) (sound : f.Sound)
    (heeds : f.Heeds dead) (frames : ∀ g ∈ stack, g.Heeds dead) :
    ThreadStep.Plays dead pauses me ⟨w.sched, some me, dying, pauses⟩ (.go (f.answer w a) stack) := by
  have resumed (w' : World S V E B) (before : Play.Does (.task me) ⟨w.sched, some me, dying, pauses⟩ ⟨w'.sched, some me, dying, pauses⟩) :
      ∃ dying', GoesAlong dead pauses me ⟨w.sched, some me, dying, pauses⟩ dying' (f.resume w' a) stack := by
    cases dying with
    | false => exact ⟨false, goesAlong before (sound w' a) (heeds w' a).1 frames⟩
    | true => exact ⟨true, goesAlong_dies before ((heeds w' a).2 (fatal rfl)) (heeds w' a).1 frames⟩
  show ∃ dying', GoesAlong dead pauses me ⟨w.sched, some me, dying, pauses⟩ dying' (f.answer w a) stack
  unfold Waiting.answer
  split
  · exact resumed w .refl
  · exact resumed _ (.single (.leave rfl _))

theorem plays_enter (heeding : host.Heeds dead) (own : S) {lock : ObjectId} (request : B)
    {k : World S V E B → BlockEnd A → Proc S V E B A (Turn B A)}
    (before : x.Does (.task me) ⟨s.enterBlock lock, some me, false, pauses⟩) (heeds : (Suspended.enter lock request k).Heeds dead)
    (frames : ∀ f ∈ stack, f.Heeds dead) :
    GoesAlong dead pauses me x false (host.enter ⟨s, own⟩ lock request k stack).1
      (host.enter ⟨s, own⟩ lock request k stack).2 := by
  refine goesAlong before ((host.start request).sound ⟨s.enterBlock lock, own⟩) (heeding request _) ?_
  exact List.forall_mem_cons.mpr ⟨fun w a => heeds w (.left a), frames⟩

theorem plays_wait (own : S) (op : WaitOp V) {k : World S V E B → Option (Woken V) → Proc S V E B A (Turn B A)}
    (sound : ∀ w r, (k w r).Sound w.sched) (heeds : (Suspended.wait op k).Heeds dead) (frames : ∀ f ∈ stack, f.Heeds dead) :
    (host.step (.wait ⟨s, own⟩ op k) stack).Plays dead pauses me ⟨s, some me, false, pauses⟩ := by
  unfold Host.step
  dsimp only
  split
  · rename_i r s' done
    have attempt : Play.Step ⟨s, some me, false, pauses⟩ (.task me) ⟨s', some me, false, pauses⟩ := .attempt (.amid op) rfl rfl done
    exact ⟨false, goesAlong (.single attempt) (sound ⟨s', own⟩ (some r)) (heeds ⟨s', own⟩ (some r)).1 frames⟩
  · rename_i s' parked
    split
    · rename_i killed
      have stay : Play.Step ⟨s, some me, false, pauses⟩ (.task me) ⟨s', some me, true, pauses⟩ := .stay (.amid op) rfl rfl parked killed
      exact ⟨true, goesAlong_dies (.single stay) ((heeds ⟨s', own⟩ none).2 rfl) (heeds ⟨s', own⟩ none).1 frames⟩
    · rename_i spared
      rw [Bool.not_eq_true] at spared
      exact ⟨.single (.park (.amid op) rfl rfl parked spared), heeds, frames⟩

theorem plays_block (heeding : host.Heeds dead) (own : S) (lock : ObjectId) (request : B)
    {k : World S V E B → BlockEnd A → Proc S V E B A (Turn B A)} (sound : ∀ w r, (k w r).Sound w.sched)
    (heeds : (Suspended.enter lock request k).Heeds dead) (frames : ∀ f ∈ stack, f.Heeds dead) :
    (host.step (.block ⟨s, own⟩ lock request k) stack).Plays dead pauses me ⟨s, some me, false, pauses⟩ := by
  have door {r : Attempt (Option ScheduleFault)} {s' : Scheduler V E B} (taken : s.takeLock lock = (r, s')) :
      (Pause.door lock).start s = (r.woken, s') := by
    rw [Pause.start, taken]
    rfl
  unfold Host.step
  dsimp only
  split
  · rename_i f s' refused
    have attempt : Play.Step ⟨s, some me, false, pauses⟩ (.task me) ⟨s', some me, false, pauses⟩ :=
      .attempt (.door lock) rfl rfl (door refused)
    exact ⟨false, goesAlong (.single attempt) (sound ⟨s', own⟩ (.refused f)) (heeds ⟨s', own⟩ (.refused f)).1 frames⟩
  · rename_i s' taken
    have attempt : Play.Step ⟨s, some me, false, pauses⟩ (.task me) ⟨s', some me, false, pauses⟩ :=
      .attempt (.door lock) rfl rfl (door taken)
    exact ⟨false, plays_enter heeding own request (.tail (.single attempt) (.enter rfl lock)) heeds frames⟩
  · rename_i s' parked
    split
    · rename_i killed
      have stay : Play.Step ⟨s, some me, false, pauses⟩ (.task me) ⟨s', some me, true, pauses⟩ :=
        .stay (.door lock) rfl rfl (door parked) killed
      exact ⟨true, goesAlong_dies (.single stay) ((heeds ⟨s', own⟩ .killed).2 trivial) (heeds ⟨s', own⟩ .killed).1 frames⟩
    · rename_i spared
      rw [Bool.not_eq_true] at spared
      exact ⟨.single (.park (.door lock) rfl rfl (door parked) spared), heeds, frames⟩

/-- A task that has been killed dies where it wants to wait. -/
theorem dies_step {q : Pause V} (wants : p.pause? = some q) (parked : q.start p.world.sched = (.parked, s))
    (killed : s.currentKilled = true) (heeds : p.Heeds dead (Turn.Dead dead)) (frames : ∀ f ∈ stack, f.Heeds dead) :
    ∃ p' stack', host.step p stack = .go p' stack' ∧
      GoesAlong dead pauses me ⟨p.world.sched, some me, false, pauses⟩ true p' stack' := by
  have stay := Play.Step.stay (x := ⟨p.world.sched, some me, false, pauses⟩) q rfl rfl parked killed
  cases p with
  | done | ask => cases wants
  | wait w op k =>
    cases wants
    obtain ⟨s₀, own⟩ := w
    have parked : op.start s₀ = (.parked, s) := parked
    refine ⟨k ⟨s, own⟩ none, stack, ?_, ?_⟩
    · unfold Host.step
      simp only [parked, killed, if_true]
    · exact goesAlong_dies (.single stay) ((heeds ⟨s, own⟩ none).2 rfl) (heeds ⟨s, own⟩ none).1 frames
  | block w lock request k =>
    cases wants
    obtain ⟨s₀, own⟩ := w
    have parked : s₀.takeLock lock = (.parked, s) := by
      have parked : (s₀.takeLock lock).map (Attempt.woken (V := V)) id = (.parked, s) := parked
      generalize s₀.takeLock lock = taken at parked
      obtain ⟨r, s'⟩ := taken
      cases r with
      | done => cases parked
      | parked =>
        cases parked
        rfl
    refine ⟨k ⟨s, own⟩ .killed, stack, ?_, ?_⟩
    · unfold Host.step
      simp only [parked, killed, if_true]
    · exact goesAlong_dies (.single stay) ((heeds ⟨s, own⟩ .killed).2 trivial) (heeds ⟨s, own⟩ .killed).1 frames

theorem plays_step (heeding : host.Heeds dead) (process : p.Sound p.world.sched) (sound : ∀ f ∈ stack, f.Sound)
    (atEnd : dying = true → p.Over dead) (heeds : p.Heeds dead (Turn.Dead dead)) (frames : ∀ f ∈ stack, f.Heeds dead) :
    (host.step p stack).Plays dead pauses me ⟨p.world.sched, some me, dying, pauses⟩ := by
  have alive (other : ¬ p.Over dead) : dying = false := by
    rw [← Bool.not_eq_true]
    exact fun dying => other (atEnd dying)
  cases p with
  | done w r =>
    cases r with
    | answer a =>
      cases stack with
      | nil => exact ⟨dying, rfl⟩
      | cons f rest =>
        obtain ⟨heeds, frames⟩ := List.forall_mem_cons.mp frames
        exact plays_answer atEnd (List.forall_mem_cons.mp sound).1 heeds frames
    | become request =>
      obtain rfl := alive id
      exact ⟨false, goesAlong .refl ((host.start request).sound w) (heeding request w) frames⟩
  | ask w request k =>
    obtain rfl := alive id
    refine ⟨false, goesAlong .refl ((host.start request).sound w) (heeding request w) ?_⟩
    exact List.forall_mem_cons.mpr ⟨heeds, frames⟩
  | wait w op k =>
    obtain rfl := alive id
    obtain ⟨s, own⟩ := w
    exact plays_wait own op process.2 heeds frames
  | block w lock request k =>
    obtain rfl := alive id
    obtain ⟨s, own⟩ := w
    exact plays_block heeding own lock request process.2 heeds frames

end

/-! ## Between the turns -/

namespace Stage

variable {dead : A → Prop} {host : Host S V E B A} {stage stage' : Stage S V E B A} {dying : Bool}
  {m : Machine S V E B A} {me : TaskId} {s : Scheduler V E B}

def Plays (dead : A → Prop) (x : Play V E B) (a : Actor) (stage : Stage S V E B A) : Prop :=
  ∃ dying, x.Does a (stage.play dying) ∧ stage.Heeding dead dying

theorem plays_afterTurn (host : Host S V E B A) {threads : List (TaskId × Thread S V E B A)} {x : Play V E B}
    {e : TurnEnd S V E B A} (heeds : ∀ y ∈ threads, y.2.Heeds dead)
    (stops : (ThreadStep.stop e).Plays dead (threadPauses threads) me x) :
    (between (Machine.afterTurn host threads me e).2).Plays dead x (.task me) := by
  cases e with
  | ended w a =>
    obtain ⟨dying, rfl⟩ := stops
    refine ⟨false, .single ?_, ?_⟩
    · unfold Machine.afterTurn
      dsimp only
      split
      · rename_i done
        exact .rest rfl done
      · rename_i unfinished
        rw [Bool.not_eq_true] at unfinished
        exact .finish rfl unfinished _ _ _
    · unfold Machine.afterTurn
      dsimp only
      split <;> exact heeds
  | parked w t =>
    obtain ⟨plays, thread⟩ := stops
    refine ⟨false, ?_, List.forall_mem_cons.mpr ⟨thread, heeds⟩⟩
    show x.Does (.task me) ⟨w.sched.setCurrent none, none, false, threadPauses ((me, t) :: threads)⟩
    rw [threadPauses, threadRead_cons]
    exact plays
  | exhausted w => exact stops.elim

theorem plays_unwind (host : Host S V E B A) {rest : List TaskId} (first : m.world.sched.unwinding = me :: rest)
    (lawful : ((between m).play false).Lawful) (heeds : ∀ y ∈ m.threads, y.2.Heeds dead) :
    ((m.onSched fun s => { s with unwinding := rest }).opening host me).Plays dead ((between m).play false) (.task me) ∧
      ((m.onSched fun s => { s with unwinding := rest }).opening host me).hand = some me := by
  have due : me ∈ m.world.sched.unwinding := first ▸ List.mem_cons_self ..
  have reaped : (m.world.sched.view me).killed = true := (lawful.regular.stands me).reaped (decide_eq_true due)
  obtain ⟨q, paused⟩ := lawful.staffed.paused_of_mem due
  have paused : threadPauses m.threads me = some q := paused
  have taken := Play.Step.unwind (x := (between m).play false) rfl first paused
  let s : Scheduler V E B := { m.world.sched with unwinding := rest }.setCurrent (some me)
  have killed : s.currentKilled = true := (Scheduler.currentKilled_eq (s := s) rfl).trans reaped
  unfold Machine.opening
  dsimp only
  split
  · rename_i id t found
    have found : m.threads.find? (·.1 = me) = some (id, t) := found
    obtain ⟨-, others⟩ := threadPauses_found found
    have taken : ((between m).play false).Step (.task me) ⟨s, some me, true, update (threadPauses m.threads) me none⟩ := taken
    rw [others] at taken
    obtain ⟨suspended, stack⟩ := t
    obtain ⟨heed, frames⟩ := heeds (id, ⟨suspended, stack⟩) (List.mem_of_find?_eq_some found)
    have rests : ∀ y ∈ m.threads.filter (·.1 ≠ me), y.2.Heeds dead := fun y mem => heeds y (List.mem_filter.mp mem).1
    have goes : GoesAlong dead (threadPauses (m.threads.filter (·.1 ≠ me))) me ((between m).play false) true
        (host.goOn ⟨s, m.world.own⟩ ⟨suspended, stack⟩).1 (host.goOn ⟨s, m.world.own⟩ ⟨suspended, stack⟩).2 := by
      unfold Host.goOn
      cases suspended with
      | wait op k =>
        dsimp only
        rw [if_pos killed]
        exact goesAlong_dies (.single taken) ((heed ⟨s, m.world.own⟩ none).2 rfl) (heed ⟨s, m.world.own⟩ none).1 frames
      | enter lock request k =>
        dsimp only
        rw [if_pos killed]
        exact goesAlong_dies (.single taken) ((heed ⟨s, m.world.own⟩ .killed).2 trivial)
          (heed ⟨s, m.world.own⟩ .killed).1 frames
    exact ⟨⟨true, goes.plays, goes.atEnd, goes.heeds, goes.frames, rests⟩, rfl⟩
  · rename_i k absent _
    have absent : m.threads.find? (·.1 = me) = none := absent
    exact absurd ((threadRead_missing _ _ absent).symm.trans paused) (by simp)
  · rename_i absent _
    have absent : m.threads.find? (·.1 = me) = none := absent
    exact absurd ((threadRead_missing _ _ absent).symm.trans paused) (by simp)

/-- A ready task gets its turn. -/
theorem plays_dispatch (heeding : host.Heeds dead) (next : m.world.sched.nextReady = (some me, s))
    (lawful : ((between m).play false).Lawful) (sound : ∀ y ∈ m.threads, y.2.Sound)
    (heeds : ∀ y ∈ m.threads, y.2.Heeds dead) :
    ((m.onSched fun _ => s.setRunning me).opening host me).Plays dead ((between m).play false) (.task me) ∧
      ((m.onSched fun _ => s.setRunning me).opening host me).hand = some me := by
  have regular : m.world.sched.Regular none := lawful.regular
  let s₁ : Scheduler V E B := (s.setRunning me).setCurrent (some me)
  obtain ⟨k, before, -, life⟩ := Play.life_dispatch next
  have here : s₁.life.tasks me = some k.dispatched := by
    rw [life]
    exact Life.tasks_put ..
  have alive : s₁.currentKilled = false := Play.alive_dispatch regular next
  unfold Machine.opening
  dsimp only
  split
  · rename_i id t found
    have found : m.threads.find? (·.1 = me) = some (id, t) := found
    obtain ⟨paused, others⟩ := threadPauses_found found
    have goOn := Play.Step.goOn (x := (between m).play false) rfl next paused
    have goOn : ((between m).play false).Step (.task me)
        ⟨t.pause.finish s₁, some me, false, update (threadPauses m.threads) me none⟩ := goOn
    rw [others] at goOn
    obtain ⟨suspended, stack⟩ := t
    have mem := List.mem_of_find?_eq_some found
    obtain ⟨heed, frames⟩ := heeds (id, ⟨suspended, stack⟩) mem
    obtain ⟨sound, -⟩ := sound (id, ⟨suspended, stack⟩) mem
    have rests : ∀ y ∈ m.threads.filter (·.1 ≠ me), y.2.Heeds dead := fun y mem => heeds y (List.mem_filter.mp mem).1
    have goes : GoesAlong dead (threadPauses (m.threads.filter (·.1 ≠ me))) me ((between m).play false) false
        (host.goOn ⟨s₁, m.world.own⟩ ⟨suspended, stack⟩).1 (host.goOn ⟨s₁, m.world.own⟩ ⟨suspended, stack⟩).2 := by
      unfold Host.goOn
      cases suspended with
      | wait op k =>
        dsimp only
        rw [if_neg (by simp [alive])]
        exact goesAlong (.single goOn) (sound ⟨_, m.world.own⟩ _) (heed ⟨_, m.world.own⟩ _).1 frames
      | enter lock request k =>
        dsimp only
        rw [if_neg (by simp [alive])]
        exact plays_enter heeding m.world.own request (.single goOn) heed frames
    exact ⟨⟨false, goes.plays, goes.atEnd, goes.heeds, goes.frames, rests⟩, rfl⟩
  · rename_i k absent _
    have absent : m.threads.find? (·.1 = me) = none := absent
    have fresh : threadPauses m.threads me = none := threadRead_missing _ _ absent
    have start := Play.Step.start (x := (between m).play false) rfl next fresh
    have process := (host.start k.body).sound ⟨s₁, m.world.own⟩
    have goes : GoesAlong dead (threadPauses m.threads) me ((between m).play false) false _ [] :=
      goesAlong (.single start) process (heeding k.body _) nofun
    exact ⟨⟨false, goes.plays, goes.atEnd, goes.heeds, goes.frames, heeds⟩, rfl⟩
  · rename_i _ unknown
    have unknown : s₁.task? me = none := unknown
    obtain ⟨k₁, known, -⟩ := Scheduler.task?_of_tasks here
    exact absurd (unknown.symm.trans known) (by simp)

/-- Who may act between two stages: a task that is in turn in one of them, and the clock only while no task is ready. -/
structure Led (a : Actor) (stage stage' : Stage S V E B A) : Prop where
  mine : ∀ me, a = .task me → stage.hand = some me ∨ stage'.hand = some me
  idle : a = .clock → stage.hand = none ∧ stage.sched.ready = []

/-- Every step of a run is a part of a play. -/
theorem Heeding.goes (heeds : stage.Heeding dead dying) (heeding : host.Heeds dead) (sound : stage.Sound)
    (lawful : (stage.play dying).Lawful) (goes : Goes host stage stage') :
    ∃ a, stage'.Plays dead (stage.play dying) a ∧ Led a stage stage' := by
  have machine {m : Machine S V E B A} {s : Scheduler V E B} (heeds : (Stage.between m).Heeding dead dying)
      (step : ((Stage.between m).play dying).Step .machine ((Stage.between (m.onSched fun _ => s)).play dying)) :
      ∃ a, (Stage.between (m.onSched fun _ => s)).Plays dead ((Stage.between m).play dying) a ∧
        Led a (Stage.between m) (Stage.between (m.onSched fun _ => s)) :=
    ⟨.machine, ⟨dying, .single step, heeds⟩, nofun, nofun⟩
  cases goes with
  | advance idle later => exact ⟨.clock, ⟨dying, .single (.advance rfl idle later), heeds⟩, nofun, fun _ => ⟨rfl, idle⟩⟩
  | act acts =>
    cases acts with
    | unwind first =>
      obtain ⟨plays, turn⟩ := plays_unwind host first lawful heeds
      exact ⟨_, plays, fun _ same => .inr (by cases same; exact turn), nofun⟩
    | dispatch next =>
      obtain ⟨plays, turn⟩ := plays_dispatch heeding next lawful sound heeds
      exact ⟨_, plays, fun _ same => .inr (by cases same; exact turn), nofun⟩
    | idle nobody => exact machine heeds (.idle rfl nobody)
    | fire m n => exact machine heeds (.fire rfl n)
    | kill m id cause => exact machine heeds (.kill rfl id cause)
    | note m e => exact machine heeds (.note rfl e)
    | @step threads me p p' stack stack' goes =>
      obtain ⟨atEnd, heed, frames, others⟩ := heeds
      obtain ⟨-, -, process, sound⟩ := sound
      have step : (host.step p stack).Plays dead (threadPauses threads) me _ :=
        plays_step heeding process sound atEnd heed frames
      rw [goes] at step
      obtain ⟨dying', goes⟩ := step
      exact ⟨.task me, ⟨dying', goes.plays, goes.atEnd, goes.heeds, goes.frames, others⟩,
        fun _ same => .inl (by cases same; rfl), nofun⟩
    | @stop threads me p stack e stops =>
      obtain ⟨atEnd, heed, frames, others⟩ := heeds
      obtain ⟨-, -, process, sound⟩ := sound
      have step : (host.step p stack).Plays dead (threadPauses threads) me _ :=
        plays_step heeding process sound atEnd heed frames
      rw [stops] at step
      exact ⟨.task me, plays_afterTurn host others step, fun _ same => .inl (by cases same; rfl), nofun⟩

/-- A stage of a run that shows a stage of a play, in which all is in order. -/
structure Acting (dead : A → Prop) (dying : Bool) (stage : Stage S V E B A) : Prop where
  heeds : stage.Heeding dead dying
  sound : stage.Sound
  lawful : (stage.play dying).Lawful
  suspense : (stage.play dying).Suspense

/-- All stays in order. -/
theorem Acting.further {dying' : Bool} (acting : stage.Acting dead dying) (goes : Goes host stage stage')
    (plays : (stage.play dying).Steps (stage'.play dying')) (heeds : stage'.Heeding dead dying') :
    stage'.Acting dead dying' :=
  ⟨heeds, (acting.sound.next goes.next).1, acting.lawful.steps plays, acting.suspense.steps acting.lawful plays⟩

/-- A step of a run is what somebody does in a play. -/
theorem Acting.goes (acting : stage.Acting dead dying) (heeding : host.Heeds dead) (goes : Goes host stage stage') :
    ∃ a dying', stage'.Acting dead dying' ∧ (stage.play dying).Does a (stage'.play dying') ∧ Led a stage stage' := by
  obtain ⟨a, ⟨dying', does, heeds⟩, led⟩ := Heeding.goes acting.heeds heeding acting.sound acting.lawful goes
  exact ⟨a, dying', acting.further goes does.steps heeds, does, led⟩

theorem Acting.course (acting : stage.Acting dead dying) (heeding : host.Heeds dead) (course : Course host stage stage') :
    ∃ dying', stage'.Acting dead dying' ∧ (stage.play dying).Steps (stage'.play dying') := by
  induction course with
  | refl => exact ⟨dying, acting, .refl⟩
  | tail _ goes ih =>
    obtain ⟨dying', acting', plays⟩ := ih
    obtain ⟨a, dying'', acting'', does, -⟩ := acting'.goes heeding goes
    exact ⟨dying'', acting'', plays.trans does.steps⟩

end Stage

/-! ## Before the run -/

namespace Roster

/-- Nobody is there, and time has not begun. -/
def blank : Roster V E B :=
  ⟨⟨0, fun _ => none, 0, [], 0, [], []⟩, none, false, fun _ => none⟩

theorem staffed_blank : (blank : Roster V E B).Staffed :=
  fun _ => .away_of (Option.some_ne_none _).symm rfl rfl rfl

theorem timed_blank : (blank : Roster V E B).Timed := by
  have nobody {t : TaskId} {k : Task V E B} {P : Prop} (here : (blank : Roster V E B).life.tasks t = some k) : P :=
    absurd here (Option.some_ne_none _).symm
  have unarmed {x : Timer} {P : Prop} (armed : x ∈ (blank : Roster V E B).life.timers) : P :=
    absurd armed List.not_mem_nil
  have unused {u : Nat × Timer} {P : Prop} (used : u ∈ (blank : Roster V E B).life.timerUses) : P :=
    absurd used List.not_mem_nil
  exact ⟨⟨⟨.nil, .nil, fun _ => unarmed, fun _ => unarmed, .nil, fun _ => unused, fun _ => unused⟩,
    ⟨fun _ => unarmed, fun _ _ _ => nobody, fun _ _ _ => nobody, fun _ _ => nobody⟩⟩,
    fun _ => ⟨fun _ => nobody, fun _ _ => nobody⟩⟩

end Roster

/-- All that has happened before a scheduler is run has happened to an empty roster. -/
theorem Scheduler.Prepared.rosters {s : Scheduler V E B} (prepared : s.Prepared) :
    Roster.blank.Steps (Play.roster ⟨s, none, false, fun _ => none⟩) := by
  induction prepared with
  | new defaultDeadline picks journal =>
    have same : Roster.blank = Play.roster ⟨({ defaultDeadline, picks, journal } : Scheduler V E B), none, false, fun _ => none⟩ := by
      refine congrArg (Roster.mk · none false fun _ => none) (congrArg (Life.mk 0 · 0 [] 0 [] []) ?_)
      funext t
      simp [Scheduler.task?]
    exact same ▸ .refl
  | @operate s α before op ih =>
    exact ih.trans (Play.steps_run before.regular.2 op).steps
  | @attempt s before op ih =>
    have same : s.Same .still (op.start s).2 :=
      Scheduler.Same.start op (fun _ => trivial) (fun me runs => absurd (before.regular.2.symm.trans runs) (by simp)) (.refl s)
    have rosters : Play.roster ⟨(op.start s).2, none, false, fun _ => none⟩ = Play.roster ⟨s, none, false, fun _ => none⟩ := by
      unfold Play.roster
      rw [same.life]
    exact rosters ▸ ih

/-- Before the run no task has started, and all is in order. -/
theorem Scheduler.Prepared.lawful {s : Scheduler V E B} (prepared : s.Prepared) :
    Play.Lawful ⟨s, none, false, fun _ => none⟩ :=
  ⟨prepared.regular.1, prepared.regular.2, Roster.staffed_blank.steps prepared.rosters,
    Roster.Timed.steps Roster.timed_blank Roster.staffed_blank prepared.rosters⟩

/-- A machine that has not run yet shows a play. -/
theorem Machine.Fresh.acting {m : Machine S V E B A} (fresh : m.Fresh) (dead : A → Prop) :
    (Stage.between m).Acting dead false := by
  have lawful := fresh.prepared.lawful
  have pauses : threadPauses m.threads = fun _ => none := by
    rw [fresh.threads]
    rfl
  refine ⟨?_, fresh.sound, ?_, fun t p k paused => ?_⟩
  · show ∀ x ∈ m.threads, x.2.Heeds dead
    simp [fresh.threads]
  · show Play.Lawful ⟨m.world.sched, none, false, threadPauses m.threads⟩
    rw [pauses]
    exact lawful
  · exact absurd ((congrFun pauses t).symm.trans paused) (by simp)

end LedgerScript
