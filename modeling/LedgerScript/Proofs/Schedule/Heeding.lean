import LedgerScript.Proofs.Schedule.Bodies
import LedgerScript.Schedule.Script

/-!
# Killed tasks unwind

A task that finds itself killed where it waited comes to its end.  Its process has nothing to go on with, so it answers
that the task is over, and so does every activation that waits for the answer.  Blocks are left on the way, and locks and
permits are given back, but the task does not wait again, and does nothing else.

What the machine knows of an activation is what it answers.  A *dead* answer says that the task is over.  A process
*heeds* such answers, and the news that the task was killed, if it then *dies*: it is at its end, with a dead answer of
its own.
-/

namespace LedgerScript

variable {S V E B A R R' : Type}

/-- The task is over: it was killed at the door, or inside. -/
def BlockEnd.Dead (dead : A → Prop) : BlockEnd A → Prop
  | refused _ => False
  | killed => True
  | left a => dead a

/-- An activation ends with an answer that the task is over. -/
def Turn.Dead (dead : A → Prop) : Turn B A → Prop
  | answer a => dead a
  | become _ => False

/-! ## What a task may do at its end -/

/-- The operation gives something back, or does nothing to tasks at all. -/
def TaskOp.Quits {α : Type} : TaskOp V E B α → Prop
  | .read _ | .note .. | .unlock .. | .release .. => True
  | _ => False

/-- Locks and permits are given back. -/
inductive Scheduler.Quits : Scheduler V E B → Scheduler V E B → Prop where
  | refl (s : Scheduler V E B) : Quits s s
  | tail {s t : Scheduler V E B} {α : Type} (first : Quits s t) (op : TaskOp V E B α) (quits : op.Quits) :
    Quits s (op.run t).2

namespace Scheduler.Quits

variable {s t u : Scheduler V E B}

theorem trans (first : Quits s t) (second : Quits t u) : Quits s u := by
  induction second with
  | refl => exact first
  | tail _ op quits ih => exact .tail ih op quits

/-- There is no traffic, and the lives of tasks stay as they are. -/
theorem same {may : May} (quits : Quits s t) : s.Same may t := by
  induction quits with
  | refl => exact .refl s
  | tail _ op quits ih =>
    cases op with
    | read => exact ih
    | note e => exact ih.note e
    | unlock lock => exact ih.releaseLock lock
    | release id => exact ih.releasePermit id
    | _ => exact quits.elim

end Scheduler.Quits

/-! ## Processes -/

namespace Proc

/-- A process is at its end, and has only given things back. -/
def Dies (last : R → Prop) (s : Scheduler V E B) : Proc S V E B A R → Prop
  | done w r => last r ∧ s.Quits w.sched
  | _ => False

/-- A process dies whenever it learns that the task is over. -/
def Heeds (dead : A → Prop) (last : R → Prop) : Proc S V E B A R → Prop
  | done _ _ => True
  | ask _ _ k => ∀ w a, (k w a).Heeds dead last ∧ (dead a → (k w a).Dies last w.sched)
  | wait _ _ k => ∀ w r, (k w r).Heeds dead last ∧ (r = none → (k w r).Dies last w.sched)
  | block _ _ _ k => ∀ w r, (k w r).Heeds dead last ∧ (r.Dead dead → (k w r).Dies last w.sched)

variable {dead : A → Prop} {last : R → Prop} {last' : R' → Prop} {s : Scheduler V E B} {p : Proc S V E B A R}
  {f : World S V E B → R → Proc S V E B A R'}

theorem Dies.bind (dies : p.Dies last s) (rest : ∀ w r, last r → (f w r).Dies last' w.sched) : (p.bind f).Dies last' s := by
  cases p with
  | done w r =>
    obtain ⟨fatal, quits⟩ := dies
    have next := rest w r fatal
    show (f w r).Dies last' s
    cases same : f w r with
    | done w' r' =>
      rw [same] at next
      exact ⟨next.1, quits.trans next.2⟩
    | ask | wait | block =>
      rw [same] at next
      exact next.elim
  | ask | wait | block => exact dies.elim

theorem Heeds.bind (heeds : p.Heeds dead last) (goes : ∀ w r, (f w r).Heeds dead last')
    (rest : ∀ w r, last r → (f w r).Dies last' w.sched) : (p.bind f).Heeds dead last' := by
  induction p with
  | done w r => exact goes w r
  | ask w request k ih => exact fun w a => ⟨ih w a (heeds w a).1, fun fatal => ((heeds w a).2 fatal).bind rest⟩
  | wait w op k ih => exact fun w r => ⟨ih w r (heeds w r).1, fun fatal => ((heeds w r).2 fatal).bind rest⟩
  | block w lock request k ih => exact fun w r => ⟨ih w r (heeds w r).1, fun fatal => ((heeds w r).2 fatal).bind rest⟩

end Proc

/-! ## Work -/

namespace Act

/-- Work that is at its end, and only gives things back. -/
def Dies (last : R → Prop) (x : Act S V E B A R) : Prop :=
  ∀ w, (x.run w).Dies last w.sched

/-- Work that comes to an end when the task is over. -/
def Heeds (dead : A → Prop) (last : R → Prop) (x : Act S V E B A R) : Prop :=
  ∀ w, (x.run w).Heeds dead last

variable {dead : A → Prop} {last : R → Prop} {last' : R' → Prop} {x : Act S V E B A R} {f : R → Act S V E B A R'}

theorem run_bind (x : Act S V E B A R) (f : R → Act S V E B A R') (w : World S V E B) :
    (x >>= f).run w = (x.run w).bind fun w r => (f r).run w := by
  show (x.bind f).run w = _
  unfold Act.bind
  dsimp only
  cases x.run w <;> rfl

theorem dies_pure {r : R} (fatal : last r) : (pure r : Act S V E B A R).Dies last :=
  fun _ => ⟨fatal, .refl _⟩

theorem heeds_pure (r : R) : (pure r : Act S V E B A R).Heeds dead last :=
  fun _ => trivial

theorem Heeds.bind (heeds : x.Heeds dead last) (goes : ∀ r, (f r).Heeds dead last')
    (rest : ∀ r, last r → (f r).Dies last') : (x >>= f).Heeds dead last' := by
  intro w
  rw [run_bind]
  exact (heeds w).bind (fun w r => goes r w) fun w r fatal => rest r fatal w

/-- Work after work that never finds the task over. -/
theorem Heeds.andThen (heeds : x.Heeds dead fun _ => False) (goes : ∀ r, (f r).Heeds dead last') :
    (x >>= f).Heeds dead last' :=
  heeds.bind goes fun _ => False.elim

theorem heeds_wait (op : WaitOp V) : (wait op : Act S V E B A _).Heeds dead (· = none) :=
  fun _ _ _ => ⟨trivial, fun fatal => ⟨fatal, .refl _⟩⟩

theorem heeds_onSched (op : TaskOp V E B R) : (onSched op : Act S V E B A R).Heeds dead last :=
  fun _ => trivial

theorem heeds_onOwn (f : S → R × S) : (onOwn f : Act S V E B A R).Heeds dead last :=
  fun _ => trivial

end Act

def Host.Heeds (dead : A → Prop) (host : Host S V E B A) : Prop :=
  ∀ request, (host.start request).Heeds dead (Turn.Dead dead)

/-! ## Suspended tasks -/

section

variable (dead : A → Prop)

def Waiting.Heeds (f : Waiting S V E B A) : Prop :=
  ∀ w a, (f.resume w a).Heeds dead (Turn.Dead dead) ∧ (dead a → (f.resume w a).Dies (Turn.Dead dead) w.sched)

/-- A task that is about to do something heeds that it was killed. -/
def Suspended.Heeds : Suspended S V E B A → Prop
  | wait _ k => ∀ w r, (k w r).Heeds dead (Turn.Dead dead) ∧
    (r = none → (k w r).Dies (Turn.Dead dead) w.sched)
  | enter _ _ k => ∀ w r, (k w r).Heeds dead (Turn.Dead dead) ∧
    (r.Dead dead → (k w r).Dies (Turn.Dead dead) w.sched)

/-- A suspended task heeds that it was killed, all the way down. -/
structure Thread.Heeds (t : Thread S V E B A) : Prop where
  suspended : t.suspended.Heeds dead
  frames : ∀ f ∈ t.stack, f.Heeds dead

end

/-! ## Scripted tasks -/

namespace Script

variable {dead : ScriptEnd V → Prop} {last : R → Prop}

theorem heeds_own (f : ScriptState V → R) : (own f).Heeds dead last :=
  Act.heeds_onOwn _

theorem heeds_read (f : Sched V → R) : (read f).Heeds dead last :=
  Act.heeds_onSched _

/-- There is no result if the task was killed. -/
theorem heeds_waiting (op : WaitOp V) : (waiting op).Heeds dead (· = none) := by
  refine (Act.heeds_wait op).bind (fun r => Act.heeds_pure _) fun r fatal => Act.dies_pure ?_
  rw [fatal]
  rfl

theorem heeds_spawn (definition : Nat) : (spawn definition : Work V _).Heeds dead fun _ => False := by
  refine (heeds_own _).andThen fun name => (Act.heeds_onSched _).andThen fun id => ?_
  exact (Act.heeds_onOwn _).andThen fun _ => (heeds_read _).andThen fun _ => Act.heeds_pure _

/-- A step has no result if the task was killed in it. -/
theorem heeds_perform (step : ScriptStep V) : (perform step).Heeds dead (· = none) := by
  have found (i : Nat) : (taskOf i : Work V _).Heeds dead fun _ => False := heeds_own _
  cases step with
  | log | fail | crash | finish | unknown => exact Act.heeds_pure _
  | sleep | yield => exact heeds_waiting _
  | lock | acquire | send => exact (heeds_own _).andThen fun id => heeds_waiting _
  | spawn i => exact (heeds_spawn i).andThen fun r => Act.heeds_pure _
  | timers => exact (heeds_read _).andThen fun n => Act.heeds_pure _
  | interrupt => exact (Act.heeds_onSched _).andThen fun _ => Act.heeds_pure _
  | available | channel | barrier => exact (heeds_own _).andThen fun id => (heeds_read _).andThen fun r => Act.heeds_pure _
  | tryLock | unlock | tryAcquire | release | tryReceive | close =>
    exact (heeds_own _).andThen fun id => (Act.heeds_onSched _).andThen fun r => Act.heeds_pure _
  | await i =>
    refine (found i).andThen fun target => ?_
    cases target with
    | none => exact Act.heeds_pure _
    | some id =>
      refine (Act.heeds_wait _).bind (fun r => ?_) fun r fatal => ?_
      · split
        · exact Act.heeds_pure _
        · exact Act.heeds_pure _
        · exact (heeds_read _).andThen fun r => Act.heeds_pure _
      · cases fatal
        exact Act.dies_pure rfl
  | cancel i =>
    refine (found i).andThen fun target => ?_
    cases target with
    | none => exact Act.heeds_pure _
    | some id => exact (Act.heeds_onSched _).andThen fun _ => Act.heeds_pure _
  | deadline i ms =>
    refine (found i).andThen fun target => ?_
    cases target with
    | none => exact (heeds_read _).andThen fun n => Act.heeds_pure _
    | some id => exact (Act.heeds_onSched _).andThen fun _ => (heeds_read _).andThen fun n => Act.heeds_pure _
  | state i =>
    refine (found i).andThen fun target => (heeds_read _).andThen fun s => ?_
    split
    · exact Act.heeds_pure _
    · split <;> exact Act.heeds_pure _
  | locked i =>
    refine (heeds_own _).andThen fun id => (heeds_read _).andThen fun label => ?_
    split <;> exact Act.heeds_pure _
  | receive c =>
    refine (heeds_own _).andThen fun id => (Act.heeds_wait _).bind (fun r => ?_) fun r fatal => ?_
    · split <;> exact Act.heeds_pure _
    · cases fatal
      exact Act.dies_pure rfl
  | arrive b =>
    refine (heeds_own _).andThen fun id => (Act.heeds_wait _).bind (fun r => ?_) fun r fatal => ?_
    · split
      · exact Act.heeds_pure _
      · exact (heeds_read _).andThen fun n => Act.heeds_pure _
    · cases fatal
      exact Act.dies_pure rfl

theorem heeds_addRow (step : String) (result : StepResult V) : (addRow step result).Heeds dead fun _ => False :=
  (heeds_read _).andThen fun _ => Act.heeds_onOwn _

theorem heeds_performAll (steps : List (NamedStep V)) : (performAll steps).Heeds dead (· = .killed) := by
  induction steps with
  | nil => exact Act.heeds_pure _
  | cons s rest ih =>
    unfold performAll
    split
    · exact Act.heeds_pure _
    · exact Act.heeds_pure _
    · exact Act.heeds_pure _
    · refine (heeds_perform _).bind (fun r => ?_) fun r fatal => ?_
      · cases r with
        | none => exact Act.heeds_pure _
        | some r => exact (heeds_addRow s.name r).andThen fun _ => ih
      · cases fatal
        exact Act.dies_pure rfl

/-- Scripted tasks stop when they are killed. -/
theorem host_heeds : (host : Host (ScriptState V) V Bytes Nat (ScriptEnd V)).Heeds (· = .killed) := by
  intro definition
  refine (heeds_own _).andThen fun steps => (heeds_performAll steps).bind (fun r => Act.heeds_pure _) fun r fatal => ?_
  exact Act.dies_pure fatal

end Script

end LedgerScript
