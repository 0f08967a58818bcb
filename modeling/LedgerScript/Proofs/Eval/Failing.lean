import LedgerScript.Proofs.Eval.Logic
import LedgerScript.Proofs.Ledger.Commit
import LedgerScript.Proofs.Schedule.Shared
import Mathlib.Logic.Relation

/-!
# Failed transactions are rolled back

When a condition of a transaction does not hold, the working set is marked before the error is thrown.  The contract may do
with the error what it likes: the mark stays, whatever any task does, and a marked working set is not committed.  For a
transaction looks at the mark when its contract has run, and between this look and the commit nobody else has a turn.

So a deed is judged by what it does to a marked working set, and by what is so when it ends.  While its task is suspended
anything may happen, and nothing is taken for granted afterwards.
-/

namespace LedgerScript

namespace RunState

variable {s t u : RunState} {w : WorkingId}

/-- Why a transaction has failed, if a condition of it did not hold. -/
def failure? (s : RunState) (w : WorkingId) : Option LedgerFault :=
  (s.ledger.working w).failed

/-- One thing is done, and it is not the commit of the working set. -/
inductive Bypass (w : WorkingId) (s : RunState) : RunState → Prop where
  | aside {t : RunState} (same : ∃ made, t.ledger = { s.ledger with made }) : Bypass w s t
  | operate {α : Type} {op : LedgerOp α} (other : ¬ op.commits w) {sched : Scheduler Value Fault Request}
    {t : LedgerState Value Fault Request} {r : Except LedgerFault α}
    (done : LedgerM.exec op.run ⟨sched, s.heap, s.ledger⟩ = (r, t)) :
    Bypass w s { s with heap := t.heap, ledger := t.ledger }

/-- If the transaction has failed then it has still failed, and its working set is not committed in between. -/
def Forgoes (w : WorkingId) (s t : RunState) : Prop :=
  ∀ f, s.failure? w = some f → t.failure? w = some f ∧ Relation.ReflTransGen (Bypass w) s t

theorem Forgoes.refl (w : WorkingId) (s : RunState) : s.Forgoes w s :=
  fun _ failed => ⟨failed, .refl⟩

theorem Forgoes.trans (first : s.Forgoes w t) (second : t.Forgoes w u) : s.Forgoes w u := by
  intro f failed
  obtain ⟨failed, before⟩ := first f failed
  obtain ⟨failed, after⟩ := second f failed
  exact ⟨failed, before.trans after⟩

theorem forgoes_aside (same : ∃ made, t.ledger = { s.ledger with made }) : s.Forgoes w t := by
  intro f failed
  refine ⟨?_, .single (.aside same)⟩
  obtain ⟨made, same⟩ := same
  rw [failure?, same]
  exact failed

/-- A transaction that has not failed may be committed. -/
theorem forgoes_of_alive (alive : s.failure? w = none) : s.Forgoes w t := by
  intro f failed
  cases alive.symm.trans failed

theorem forgoes_operate {α : Type} {op : LedgerOp α} {sched : Scheduler Value Fault Request}
    {t : LedgerState Value Fault Request} {r : Except LedgerFault α}
    (done : LedgerM.exec op.run ⟨sched, s.heap, s.ledger⟩ = (r, t)) (other : op.commits w → s.failure? w = none) :
    s.Forgoes w { s with heap := t.heap, ledger := t.ledger } := by
  by_cases commits : op.commits w
  · exact forgoes_of_alive (other commits)
  · intro f failed
    have still := op.stillFailed ⟨sched, s.heap, s.ledger⟩ w f failed
    rw [show op.run.run.run ⟨sched, s.heap, s.ledger⟩ = (r, t) from done] at still
    exact ⟨still, .single (.operate commits done)⟩

end RunState

/-! ## Processes -/

namespace Proc

variable {R R' : Type} {moves : RunState → RunState → Prop} {s : RunState}
  {post post' : R → World RunState Value Fault Request → Prop} {mid : R' → World RunState Value Fault Request → Prop}
variable {q : Proc RunState Value Fault Request Answer R}

/-- However often a process is suspended, and whatever happens meanwhile, it is so at the end. -/
def Ends (post : R → World RunState Value Fault Request → Prop) : Proc RunState Value Fault Request Answer R → Prop
  | done y r => post r y
  | ask _ _ k => ∀ y a, (k y a).Ends post
  | wait _ _ k => ∀ y r, (k y r).Ends post
  | block _ _ _ k => ∀ y r, (k y r).Ends post

/-- Whenever a process works on the shared state, it goes from one state to a related one, and it is so at the end. -/
def Closes (moves : RunState → RunState → Prop) (post : R → World RunState Value Fault Request → Prop) (s : RunState) :
    Proc RunState Value Fault Request Answer R → Prop
  | done y r => moves s y.own ∧ post r y
  | ask y _ k => moves s y.own ∧ ∀ z a, (k z a).Closes moves post z.own
  | wait y _ k => moves s y.own ∧ ∀ z r, (k z r).Closes moves post z.own
  | block y _ _ k => moves s y.own ∧ ∀ z r, (k z r).Closes moves post z.own

theorem Closes.within (closes : q.Closes moves post s) : q.Within (sharedBy moves) fun y => moves s y.own := by
  induction q generalizing s with
  | done => exact closes.1
  | ask y request k ih => exact ⟨closes.1, fun z a => ih z a (closes.2 z a)⟩
  | wait y op k ih => exact ⟨closes.1, fun z r => ih z r (closes.2 z r)⟩
  | block y lock request k ih => exact ⟨closes.1, fun z r => ih z r (closes.2 z r)⟩

theorem Closes.ends (closes : q.Closes moves post s) : q.Ends post := by
  induction q generalizing s with
  | done => exact closes.2
  | ask y request k ih => exact fun z a => ih z a (closes.2 z a)
  | wait y op k ih => exact fun z r => ih z r (closes.2 z r)
  | block y lock request k ih => exact fun z r => ih z r (closes.2 z r)

theorem Closes.weaken (closes : q.Closes moves post s) (weaker : ∀ r y, post r y → post' r y) : q.Closes moves post' s := by
  induction q generalizing s with
  | done y r => exact closes.imp_right (weaker r y)
  | ask y request k ih => exact ⟨closes.1, fun z a => ih z a (closes.2 z a)⟩
  | wait y op k ih => exact ⟨closes.1, fun z r => ih z r (closes.2 z r)⟩
  | block y lock request k ih => exact ⟨closes.1, fun z r => ih z r (closes.2 z r)⟩

/-- Something has been done before. -/
theorem Closes.after {t : RunState} (closes : q.Closes moves post t)
    (trans : ∀ ⦃s t u⦄, moves s t → moves t u → moves s u) (before : moves s t) : q.Closes moves post s := by
  cases q with
  | done | ask | wait | block => exact ⟨trans before closes.1, closes.2⟩

theorem Closes.bind {q : Proc RunState Value Fault Request Answer R'}
    {f : World RunState Value Fault Request → R' → Proc RunState Value Fault Request Answer R}
    (closes : q.Closes moves mid s) (trans : ∀ ⦃s t u⦄, moves s t → moves t u → moves s u)
    (rest : ∀ y r, mid r y → (f y r).Closes moves post y.own) : (q.bind f).Closes moves post s := by
  induction q generalizing s with
  | done y r => exact (rest y r closes.2).after trans closes.1
  | ask y request k ih => exact ⟨closes.1, fun z a => ih z a (closes.2 z a)⟩
  | wait y op k ih => exact ⟨closes.1, fun z r => ih z r (closes.2 z r)⟩
  | block y lock request k ih => exact ⟨closes.1, fun z r => ih z r (closes.2 z r)⟩

end Proc

/-! ## Deeds -/

namespace Deed

open RunState (Forgoes)

variable {R α β : Type} {w : WorkingId} {pre : World RunState Value Fault Request → Prop}

/-- From the first condition on, a deed does not commit the working set if that has failed, and it ends with the second
condition. -/
def forgoing (w : WorkingId) : Deed.Logic (World RunState Value Fault Request → Prop) where
  Leads pre x post := ∀ y, pre y → (x.act.run y).Closes (Forgoes w) post y.own
  pure holds y before := ⟨.refl w y.own, holds y before⟩
  bind first rest y before := by
    rw [Deed.run_bind]
    exact (first y before).bind (fun _ _ _ => Forgoes.trans) fun z r holds => rest r z holds
  weaken leads stronger weaker y before := (leads y (stronger y before)).weaken fun r => weaker r

/-- Nothing is known before, and nothing afterwards. -/
abbrev Forgoing (w : WorkingId) (x : Deed R) : Prop :=
  (forgoing w).Leads (fun _ => True) x fun _ _ => True

theorem forgoing_ask (request : Request) : (ask request).Forgoing w :=
  fun y _ => ⟨.refl w y.own, fun z _ => ⟨.refl w z.own, trivial⟩⟩

theorem forgoing_wait (op : WaitOp Value) : (wait op).Forgoing w :=
  fun y _ => ⟨.refl w y.own, fun z _ => ⟨.refl w z.own, trivial⟩⟩

theorem forgoing_block (lock : ObjectId) (request : Request) : (block lock request).Forgoing w :=
  fun y _ => ⟨.refl w y.own, fun z _ => ⟨.refl w z.own, trivial⟩⟩

theorem forgoes_onSched {op : TaskOp Value Fault Request R} {post : R → World RunState Value Fault Request → Prop}
    (holds : ∀ sched own, pre ⟨sched, own⟩ → post (op.run sched).1 ⟨(op.run sched).2, own⟩) :
    (forgoing w).Leads pre (onSched op) post :=
  fun y before => ⟨.refl w y.own, holds y.sched y.own before⟩

theorem forgoing_onSched (op : TaskOp Value Fault Request R) : (onSched op).Forgoing w :=
  forgoes_onSched fun _ _ _ => trivial

theorem forgoes_read {f : RunState → R} {lawful : ∀ s : RunState, s.Moves (f s, s).2} :
    (forgoing w).Leads pre (onState (fun s => (f s, s)) lawful) fun _ => pre :=
  fun y before => ⟨.refl w y.own, before⟩

/-- The ledger is left alone. -/
theorem forgoing_onState {f : RunState → R × RunState} {lawful : ∀ s : RunState, s.Moves (f s).2}
    (aside : ∀ s : RunState, ∃ made, (f s).2.ledger = { s.ledger with made }) : (onState f lawful).Forgoing w :=
  fun y _ => ⟨RunState.forgoes_aside (aside y.own), trivial⟩

/-- An operation of the ledger, which commits the working set only if that has not failed. -/
theorem forgoes_ledger {op : LedgerOp α} {post : Except LedgerFault α → World RunState Value Fault Request → Prop}
    (other : op.commits w → ∀ y, pre y → y.own.failure? w = none)
    (holds : ∀ y r t, pre y → LedgerM.exec op.run ⟨y.sched, y.own.heap, y.own.ledger⟩ = (r, t) →
      post r ⟨t.sched, { y.own with heap := t.heap, ledger := t.ledger }⟩) :
    (forgoing w).Leads pre (ledger op) post := by
  intro ⟨sched, own⟩ before
  rcases done : LedgerM.exec op.run ⟨sched, own.heap, own.ledger⟩ with ⟨r, t⟩
  rw [Deed.run_ledger done]
  exact ⟨RunState.forgoes_operate done fun commits => other commits _ before, holds _ r t before done⟩

theorem forgoing_ledger {op : LedgerOp α} (other : ¬ op.commits w) : (ledger op).Forgoing w :=
  forgoes_ledger (fun commits => absurd commits other) fun _ _ _ _ _ => trivial

theorem forgoing_context : context.Forgoing w :=
  (forgoing w).bind (forgoing_onSched _) fun _ => forgoes_read

theorem forgoing_modifyContext (f : CallContext → CallContext) : (modifyContext f).Forgoing w :=
  (forgoing w).bind (forgoing_onSched _) fun _ => forgoing_onState fun _ => ⟨_, rfl⟩

theorem forgoing_byContext {f : CallContext → β ⊕ LedgerOp α} (allowed : ∀ c op, f c = .inr op → c.Allows op) :
    (byContext f).Forgoing w := by
  refine (forgoing w).bind forgoing_context fun c => ?_
  cases decided : f c with
  | inl b => exact (forgoing w).pure fun _ => id
  | inr op =>
    have other : ¬ op.commits w := by
      cases allowed c op decided with
      | load | code | balance | emit | fail | setValidating | store | transfer => exact id
    exact (forgoing w).bind (forgoing_ledger other) fun _ => (forgoing w).pure fun _ => id

end Deed

/-! ## Deeds with exits -/

open Deed (Forgoing forgoing)
open Deed.Logic (works_pure works_throw works_lift works_forM works_onLedger works_activate works_eval_throw works_eval_bind
  works_ofDeed)

section

variable {α β : Type} {w v : WorkingId} {pre : World RunState Value Fault Request → Prop}
  {post : α → World RunState Value Fault Request → Prop} {x : ExceptT Exit Deed α}
variable (tx : Transaction)

theorem calm_forgoing : (forgoing w).Calm fun _ => True where
  ask := Deed.forgoing_ask
  wait := Deed.forgoing_wait
  context := Deed.forgoing_context
  modifyContext := Deed.forgoing_modifyContext
  ledger _ other := Deed.forgoing_ledger (other w)

/-! ## Transactions -/

def Alive (v : WorkingId) (y : World RunState Value Fault Request) : Prop :=
  y.own.failure? v = none

/-- A transaction looks at its working set. -/
theorem forgoes_look : (forgoing w).Works pre (Deed.onLedger (.working v))
    (fun k y => pre y ∧ y.own.failure? v = k.failed) fun _ => pre := by
  refine works_onLedger (Deed.forgoes_ledger (fun commits => commits.elim) fun y r t before done => ?_)
  cases done
  exact ⟨before, rfl⟩

/-- A working set that is committed has not failed. -/
theorem forgoes_commit : (forgoing w).Works (Alive v) (Deed.onLedger (.commit v)) (fun _ => Alive v) fun _ => Alive v := by
  refine works_onLedger (Deed.forgoes_ledger ?_ fun y r t alive done => ?_)
  · rintro rfl y alive
    exact alive
  · cases LedgerM.commit_outcome done with
    | unbalanced | crashed | refused | done => exact alive

/-- The contract of a transaction that is performed to the end has not failed. -/
theorem forgoes_perform (call : Option ContractCall) :
    (forgoing w).Works (fun _ => True) (Deed.perform v tx call) (fun _ => Alive v) fun _ _ => True := by
  refine (works_forM (calm_forgoing.acquire v) _).bind fun _ => ?_
  refine Deed.Logic.Works.bind (calm_forgoing.onLedger (.prepare v tx) fun _ => id) fun _ => ?_
  extract_lets rest
  have concluded (result : Value) :
      (forgoing w).Works (fun _ => True) (rest result) (fun _ => Alive v) fun _ _ => True := by
    refine Deed.Logic.Works.bind forgoes_look fun k => ?_
    split
    · exact works_throw fun _ _ => trivial
    · rename_i alive
      have committed : (forgoing w).Works (fun y => True ∧ y.own.failure? v = k.failed) (Deed.onLedger (.commit v))
          (fun _ => Alive v) fun _ _ => True :=
        forgoes_commit.weaken (fun y seen => seen.2.trans alive) (fun _ _ => id) fun _ _ _ => trivial
      exact committed.bind fun b => works_pure fun _ => id
  split
  · exact Deed.Logic.Works.bind (calm_forgoing.activate _ v _) fun result => concluded result
  · exact (works_pure fun _ => id).bind concluded

theorem forgoes_rollBack (f : Fault) :
    (forgoing w).Works pre (Deed.rollBack tx f) (fun receipt _ => receipt.status = .rolledBack) fun _ _ => True := by
  refine Deed.Logic.Works.bind (works_lift Deed.forgoes_read) fun reason => ?_
  have noted : (forgoing w).Works pre (Deed.onLedger (.noteRollback tx reason)) (fun _ _ => True) fun _ _ => True :=
    (calm_forgoing.onLedger (.noteRollback tx reason) fun _ => id).weaken (fun _ _ => trivial) (fun _ _ => id) fun _ _ => id
  exact noted.bind fun _ => works_pure fun _ _ => rfl

/-- What holds at all times is given. -/
theorem forgoes_given {P : Prop} {fail : Exit → World RunState Value Fault Request → Prop}
    (works : P → (forgoing w).Works (fun _ => True) x post fail) : (forgoing w).Works (fun _ => P) x post fail :=
  fun y holds => works holds y trivial

/-- A working set that is given back is not marked by that. -/
theorem forgoes_release (receipt : Prop) : (forgoing w).Works (fun y => Alive v y ∨ receipt) (Deed.onLedger (.release v))
    (fun _ y => Alive v y ∨ receipt) fun _ _ => True := by
  refine works_onLedger (Deed.forgoes_ledger (fun commits => commits.elim) fun y r t before done => ?_)
  obtain ⟨sched, locks, released⟩ := LedgerM.exec_release v ⟨y.sched, y.own.heap, y.own.ledger⟩
  cases released.symm.trans done
  refine before.imp_left fun alive => ?_
  exact (Ledger.kept_modifyWorking (·.failed) (f := fun k => { k with held := [] }) (fun _ => rfl) v _ v).trans alive

/-- If the transaction has failed in the end, its receipt says that it was rolled back. -/
theorem forgoes_transact (n : Nat) (tx : Transaction) (call : Option ContractCall) :
    (forgoing w).Works (fun y => y.own.ledger.workings.size = n) (Deed.transact tx call)
      (fun receipt y => Alive n y ∨ receipt.status = .rolledBack) fun _ _ => True := by
  refine Deed.Logic.Works.bind (works_lift Deed.forgoes_read) fun isClosed => ?_
  split
  · exact (forgoes_rollBack tx _).weaken (fun _ => id) (fun _ _ => .inr) fun _ _ => id
  · have opened : (forgoing w).Works (fun y => y.own.ledger.workings.size = n) (Deed.onLedger (.newWorking tx false))
        (fun v _ => v = n) fun _ _ => True := by
      refine works_onLedger (Deed.forgoes_ledger (fun commits => commits.elim) fun y r t size done => ?_)
      cases done
      exact size
    refine opened.bind fun v => forgoes_given ?_
    rintro rfl
    refine Deed.Logic.Works.andFinally ?_ (fun receipt => forgoes_release (receipt.status = .rolledBack)) fun e =>
      calm_forgoing.onLedger (.release v) fun _ => id
    refine Deed.Logic.Works.bind (forgoes_perform tx call).outcome fun r => ?_
    split
    · have looked : (forgoing w).Works (Alive v) (Deed.onLedger (.working v)) (fun _ => Alive v) fun _ _ => True :=
        forgoes_look.weaken (fun _ => id) (fun _ _ => And.left) fun _ _ _ => trivial
      exact looked.bind fun k => works_pure fun _ => .inl
    · exact (forgoes_rollBack tx _).weaken (fun _ => id) (fun _ _ => .inr) fun _ _ => id
    · exact works_throw fun _ _ => trivial

theorem forgoing_transact (call : Option ContractCall) : (Deed.transact tx call).run.Forgoing w := by
  intro y _
  exact (forgoes_transact y.own.ledger.workings.size tx call y rfl).weaken fun _ _ _ => trivial

/-! ## Activations -/

/-- Whatever is composed forgoes the commit. -/
theorem Composed.forgoing {R : Type} {x : Deed R} (composed : Composed x) : x.Forgoing w := by
  induction composed with
  | pure r => exact (Deed.forgoing w).pure fun _ => id
  | bind _ _ first rest => exact (Deed.forgoing w).bind first rest
  | ask request plain => exact Deed.forgoing_ask request
  | wait op => exact Deed.forgoing_wait op
  | block lock request plain => exact Deed.forgoing_block lock request
  | onSched op plain => exact Deed.forgoing_onSched op
  | onState f lawful aside apart => exact Deed.forgoing_onState fun s => (aside s).ledger
  | onEnv op => exact Deed.forgoing_onState fun s => ⟨_, rfl⟩
  | byContext f allowed => exact Deed.forgoing_byContext allowed
  | credit keys => exact Deed.forgoing_ledger id
  | transact tx call => exact forgoing_transact tx call
  | view tx call => exact (calm_forgoing.view tx call).leads
  | callInside call amount readOnly => exact (calm_forgoing.callInside call amount readOnly).leads

theorem steady_forgoing : (forgoing w).Steady fun _ => True :=
  { calm_forgoing with composed := Composed.forgoing }

/-- Whatever the tasks of a program do, a transaction that has failed is not committed. -/
theorem host_forgoes : Eval.host.Abides (RunState.Forgoes w) :=
  fun request y => (steady_forgoing.turn request y trivial).within

/-! ## Conditions that do not hold -/

structure Runs (w : WorkingId) (y : World RunState Value Fault Request) : Prop where
  context : (y.own.contextOf (y.sched.current.getD 0)).working = some w
  bound : w < y.own.ledger.workings.size

def Marked (w : WorkingId) (y : World RunState Value Fault Request) : Prop :=
  y.own.failure? w ≠ none

theorem forgoes_context : (forgoing w).Leads (Runs w) Deed.context fun c y => c.working = some w ∧ Runs w y := by
  have current : (forgoing w).Leads (Runs w) Deed.current fun id y => id = y.sched.current.getD 0 ∧ Runs w y :=
    Deed.forgoes_onSched fun sched own runs => ⟨rfl, runs⟩
  refine (forgoing w).bind current fun id => ?_
  rintro y ⟨rfl, runs⟩
  exact ⟨.refl w y.own, runs.context, runs⟩

theorem forgoes_byContext {f : CallContext → β ⊕ LedgerOp α} {op : LedgerOp α}
    {post : Except LedgerFault α → World RunState Value Fault Request → Prop}
    (decides : ∀ c : CallContext, c.working = some w → f c = .inr op)
    (leads : (forgoing w).Leads (Runs w) (Deed.ledger op) post) :
    (forgoing w).Leads (Runs w) (Deed.byContext f) fun r y => ∃ a, r = .inr a ∧ post a y := by
  refine (forgoing w).bind forgoes_context fun c y here => ?_
  simp only [decides c here.1]
  exact (forgoing w).bind leads (fun a => (forgoing w).pure fun y holds => ⟨a, rfl, holds⟩) y here.2

/-- The working set is marked. -/
theorem forgoes_fail (f : LedgerFault) :
    (forgoing w).Leads (Runs w) (Deed.ledger (.fail w f)) fun r y => r = .ok () ∧ Marked w y := by
  refine Deed.forgoes_ledger (fun commits => commits.elim) fun y r t runs done => ?_
  cases done
  refine ⟨rfl, ?_⟩
  show (Ledger.working (Ledger.modifyWorking _ _ _) _).failed ≠ none
  rw [Ledger.working_modifyWorking runs.bound]
  simp

/-- A mark stays when an error is thrown. -/
theorem forgoes_throwAs (f : LedgerFault) (span : Span) :
    (forgoing w).Works (Marked w) (Eval.throwAs (.ledger f) span : Eval α).toDeed (fun _ _ => False) fun _ => Marked w := by
  have named (c : ErrorClass) (text : Bytes) :
      (forgoing w).Works (Marked w) (Eval.newError c text).toDeed (fun _ => Marked w) fun _ => Marked w :=
    works_ofDeed fun y marked => ⟨RunState.forgoes_aside ⟨_, rfl⟩, marked⟩
  have thrown :
      (forgoing w).Works (Marked w) (Eval.toThrown (.ledger f) span).toDeed (fun _ => Marked w) fun _ => Marked w := by
    refine works_eval_bind (works_ofDeed Deed.forgoes_read) fun text => ?_
    exact works_eval_bind (named _ text) fun v => works_pure fun _ => id
  exact works_eval_bind thrown fun r => works_eval_throw fun _ => id

/-- Whoever finds that a condition does not hold throws an error, and then the working set is marked. -/
theorem forgoes_failValidation (message : Bytes) (span : Span) :
    (forgoing w).Works (Runs w) (Eval.failValidation message span).toDeed (fun _ _ => False) fun _ => Marked w := by
  refine works_eval_bind ?_ fun _ => forgoes_throwAs _ span
  refine works_eval_bind (works_ofDeed (forgoes_byContext (fun c runs => ?_) (forgoes_fail (.validation message)))) fun r => ?_
  · rw [runs]
  rintro y ⟨_, rfl, rfl, marked⟩
  exact ⟨.refl w y.own, marked⟩

end

/-- Of every working set: from any stage of a run of any program on, if its transaction has failed then that stays one that
has failed, for the same reason, and the working set is not committed.  However the transaction goes that opens it, if it is
marked in the end then the receipt says that the transaction was rolled back.  And while a contract runs on it, whoever finds
that a condition does not hold throws an error and leaves it marked. -/
theorem failures_final (w : WorkingId) :
    (∀ {m : Machine RunState Value Fault Request Answer} {stage stage' : Stage RunState Value Fault Request Answer}
      (f : LedgerFault), m.threads = [] → Stage.Reaches Eval.host (.between m) stage →
      Stage.Reaches Eval.host stage stage' → stage.own.failure? w = some f →
        stage'.own.failure? w = some f ∧ Relation.ReflTransGen (RunState.Bypass w) stage.own stage'.own) ∧
    (∀ (tx : Transaction) (call : Option ContractCall) (y : World RunState Value Fault Request),
      y.own.ledger.workings.size = w → ((Deed.transact tx call).run.act.run y).Ends fun r z =>
        ∀ receipt, r = .ok receipt → z.own.failure? w ≠ none → receipt.status = .rolledBack) ∧
    (∀ (message : Bytes) (span : Span) (y : World RunState Value Fault Request), Runs w y →
      ((Eval.failValidation message span).toDeed.run.act.run y).Ends fun r z =>
        (∃ e, r = .error e) ∧ z.own.failure? w ≠ none) := by
  refine ⟨fun {m stage stage'} f new before later failed => ?_, fun tx call y opens => ?_, fun message span y runs => ?_⟩
  · have start : (Stage.between m).Abides (RunState.Forgoes w) := by simp [Stage.Abides, new]
    have left := (start.reaches (.refl w) host_forgoes .trans before).1
    exact (left.reaches (.refl w) host_forgoes .trans later).2 f failed
  · refine ((forgoes_transact (w := w) w tx call y opens).weaken fun r z ended => ?_).ends
    rintro receipt rfl marked
    exact ended.resolve_left marked
  · refine ((forgoes_failValidation message span y runs).weaken fun r z ended => ?_).ends
    cases r with
    | ok => exact ended.elim
    | error e => exact ⟨⟨e, rfl⟩, ended⟩

/-- A contract runs on a working set that is marked already. -/
def spoiled : Machine RunState Value Fault Request Answer where
  world := {
    sched := (({} : Scheduler Value Fault Request).spawn "main" (.topLevel [] 0 none)).2
    own := {
      heap := {}, env := {}, global := 0, builtins := [], messageClass := 0
      ledger := { workings := #[{ tx := default, isView := false, failed := some .readOnly }] }
      modules := { read := fun path => .error (.notFound path) }
      contexts := #[{ sender := [], working := some 0 }] } }

/-- The mark is still there when the task has ended, and it would also be made by a condition that does not hold. -/
theorem failures_final_spoiled : spoiled.world.own.failure? 0 = some .readOnly ∧
    (∃ m, spoiled.Turns Eval.host m ∧ m.world.sched.isDone 1 = true ∧ m.world.own.failure? 0 = some .readOnly) ∧
    ((Eval.failValidation [] {}).toDeed.run.act.run spoiled.world).Ends fun r z =>
      (∃ e, r = .error e) ∧ z.own.failure? 0 ≠ none := by
  obtain ⟨final, -, marks⟩ := failures_final 0
  have seen : (spoiled.after Eval.host 1).any fun m => m.world.sched.isDone 1 := by decide +kernel
  obtain ⟨m, later, ended⟩ := (Option.any_eq_true _ _).mp seen
  have turns := Machine.turns_of_after 1 spoiled later
  have still := (final .readOnly rfl .refl turns.reaches rfl).1
  exact ⟨rfl, ⟨m, turns, ended, still⟩, marks [] {} spoiled.world ⟨rfl, by decide⟩⟩

end LedgerScript
