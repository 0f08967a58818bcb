import LedgerScript.Proofs.Eval.Committed
import LedgerScript.Proofs.Eval.Logic
import LedgerScript.Proofs.Eval.Twins
import LedgerScript.Proofs.Schedule.Abreast
import LedgerScript.Run.Basic
import Mathlib.Order.CompleteBooleanAlgebra
import Mathlib.Order.CompletePartialOrder

/-!
# Each pass of a loop has its own variables

A `for` loop takes its frame over to the next pass, and only copies it if something else needs the variables of the pass that
is over.  Nothing can tell whether the frame was copied: a run stays abreast of the run that always copies.

The two runs have the same scheduler, heap, ledger and so on; only their environments are no more than twins.  This is kept by
whatever an activation does, since nothing of it depends on the environment but through its operations.
-/

namespace LedgerScript

/-- What the tasks share is the same but for the environments, which are twins. -/
inductive RunState.Twins (s : RunState) : RunState → Prop where
  | mk {env : Env} {β : FrameId → FrameId} (twin : Env.Twin β s.env env) : Twins s { s with env }

namespace Deed

open RunState (Twins)

variable {R α β : Type}

def abreast : Deed.Logic Unit where
  Leads _ x _ := ∀ y y' : World RunState Value Fault Request, y.Alike Twins y' → (x.act.run y).Alike Twins (x.act.run y')
  pure _ _ _ worlds := .done worlds _
  bind first rest y y' worlds := by
    rw [Deed.run_bind, Deed.run_bind]
    exact (first y y' worlds).bind fun z z' r worlds => rest r z z' worlds
  weaken leads _ _ y y' worlds := leads y y' worlds

/-- A deed does the same in worlds that only differ by twins. -/
abbrev Even (x : Deed R) : Prop :=
  abreast.Leads () x fun _ => ()

theorem even_ask (request : Request) : (ask request).Even :=
  fun _ _ worlds => .ask worlds request fun _ _ _ worlds => .done worlds _

theorem even_wait (op : WaitOp Value) : (wait op).Even :=
  fun _ _ worlds => .wait worlds op fun _ _ _ worlds => .done worlds _

theorem even_block (lock : ObjectId) (request : Request) : (block lock request).Even :=
  fun _ _ worlds => .block worlds lock request fun _ _ _ worlds => .done worlds _

/-- What is over at once does the same if it has the same result and leaves twins. -/
theorem even_of_done {x : Deed R} (atOnce : ∀ sched own env β, Env.Twin β own.env env → ∃ r sched' own' env' β',
      x.act.run ⟨sched, own⟩ = .done ⟨sched', own'⟩ r ∧ x.act.run ⟨sched, { own with env }⟩ = .done ⟨sched', { own' with env := env' }⟩ r ∧
        Env.Twin β' own'.env env') : x.Even := by
  rintro ⟨sched, own⟩ ⟨_, _⟩ ⟨same, @⟨env, β, twin⟩⟩
  cases same
  obtain ⟨r, sched', own', env', β', here, there, twin⟩ := atOnce sched own env β twin
  dsimp only at here there ⊢
  rw [here, there]
  have worlds : World.Alike Twins ⟨sched', own'⟩ ⟨sched', { own' with env := env' }⟩ := ⟨rfl, ⟨twin⟩⟩
  exact .done worlds r

theorem even_onSched (op : TaskOp Value Fault Request R) : (onSched op).Even :=
  even_of_done fun _ own env β twin => ⟨_, _, own, env, β, rfl, rfl, twin⟩

/-- What has nothing to do with the environment is the same whatever the environment is. -/
theorem even_onState {f : RunState → R × RunState} {lawful : ∀ s : RunState, s.Moves (f s).2} (apart : RunState.Apart f) :
    (onState f lawful).Even := by
  refine even_of_done fun sched own env β twin => ⟨(f own).1, sched, (f own).2, env, β, rfl, ?_, ?_⟩
  · show Proc.done ⟨sched, (f { own with env }).2⟩ (f { own with env }).1 = _
    rw [apart own env]
  · have kept : (f own).2.env = own.env := congrArg (·.2.env) (apart own own.env)
    exact kept ▸ twin

theorem even_onEnv (op : EnvOp R) : (onEnv op).Even := by
  refine even_of_done fun sched own env β twin => ?_
  obtain ⟨same, β', twin⟩ := op.twin twin
  exact ⟨(op.run own.env).1, sched, _, _, β', rfl, by rw [← same]; rfl, twin⟩

theorem even_ledger (op : LedgerOp α) : (ledger op).Even := by
  refine even_of_done fun sched own env β twin => ?_
  rcases done : op.run.run.run ⟨sched, own.heap, own.ledger⟩ with ⟨r, t⟩
  have done' : op.run.run.run ⟨sched, { own with env }.heap, { own with env }.ledger⟩ = (r, t) := done
  exact ⟨r, _, _, env, β, run_ledger done, run_ledger done', twin⟩

theorem even_context : context.Even :=
  abreast.bind (even_onSched _) fun _ => even_onState fun _ _ => rfl

theorem even_modifyContext (f : CallContext → CallContext) : (modifyContext f).Even :=
  abreast.bind (even_onSched _) fun _ => even_onState fun _ _ => rfl

theorem even_byContext (f : CallContext → β ⊕ LedgerOp α) : (byContext f).Even := by
  refine abreast.bind even_context fun c => ?_
  cases f c with
  | inl b => exact abreast.pure (le_refl ())
  | inr op => exact abreast.bind (even_ledger op) fun _ => abreast.pure (le_refl ())

end Deed

open Deed (Even abreast)
open Deed.Logic (works_pure works_throw works_lift works_forM works_activate)

section

variable {α : Type}

/-- Work that does the same in worlds that only differ by twins. -/
abbrev Evenly (x : ExceptT Exit Deed α) : Prop :=
  abreast.Stays () x

theorem calm_abreast : abreast.Calm () where
  ask := Deed.even_ask
  wait := Deed.even_wait
  context := Deed.even_context
  modifyContext := Deed.even_modifyContext
  ledger op _ := Deed.even_ledger op

theorem evenly_onLedger (op : LedgerOp α) : Evenly (Deed.onLedger op) :=
  Deed.Logic.works_onLedger (Deed.even_ledger op)

theorem evenly_perform (w : WorkingId) (tx : Transaction) (call : Option ContractCall) : Evenly (Deed.perform w tx call) := by
  refine (works_forM (calm_abreast.acquire w) _).bind fun _ => ?_
  refine Deed.Logic.Works.bind (evenly_onLedger _) fun _ => ?_
  extract_lets rest
  have concluded (result : Value) : Evenly (rest result) := by
    refine Deed.Logic.Works.bind (evenly_onLedger _) fun k => ?_
    split
    · exact works_throw (le_refl ())
    · exact Deed.Logic.Works.bind (evenly_onLedger _) fun b => works_pure (le_refl ())
  split
  · exact Deed.Logic.Works.bind (calm_abreast.activate _ w _) concluded
  · exact Deed.Logic.Works.bind (works_pure (le_refl ())) concluded

theorem evenly_rollBack (tx : Transaction) (f : Fault) : Evenly (Deed.rollBack tx f) := by
  refine Deed.Logic.Works.bind (works_lift (Deed.even_onState fun _ _ => rfl)) fun reason => ?_
  exact Deed.Logic.Works.bind (evenly_onLedger _) fun _ => works_pure (le_refl ())

theorem evenly_transact (tx : Transaction) (call : Option ContractCall) : Evenly (Deed.transact tx call) := by
  refine Deed.Logic.Works.bind (works_lift (Deed.even_onState fun _ _ => rfl)) fun isClosed => ?_
  split
  · exact evenly_rollBack tx _
  · refine Deed.Logic.Works.bind (evenly_onLedger _) fun w => ?_
    refine Deed.Logic.Works.andFinally ?_ (fun _ => evenly_onLedger _) fun _ => evenly_onLedger _
    refine Deed.Logic.Works.bind (evenly_perform w tx call).outcome fun r => ?_
    split
    · exact Deed.Logic.Works.bind (evenly_onLedger _) fun k => works_pure (le_refl ())
    · exact evenly_rollBack tx _
    · exact works_throw (le_refl ())

/-- Whatever is composed does the same in worlds that only differ by twins. -/
theorem Composed.even {R : Type} {x : Deed R} (composed : Composed x) : x.Even := by
  induction composed with
  | pure r => exact abreast.pure (le_refl ())
  | bind _ _ first rest => exact abreast.bind first rest
  | ask request plain => exact Deed.even_ask request
  | wait op => exact Deed.even_wait op
  | block lock request plain => exact Deed.even_block lock request
  | onSched op plain => exact Deed.even_onSched op
  | onState f lawful aside apart => exact Deed.even_onState apart
  | onEnv op => exact Deed.even_onEnv op
  | byContext f allowed => exact Deed.even_byContext f
  | credit keys => exact Deed.even_ledger _
  | transact tx call => exact evenly_transact tx call
  | view tx call => exact calm_abreast.view tx call
  | callInside call amount readOnly => exact calm_abreast.callInside call amount readOnly

theorem steady_abreast : abreast.Steady () :=
  { calm_abreast with composed := Composed.even }

/-- The evaluator does the same in worlds that only differ by twins. -/
theorem host_even : Eval.host.Even RunState.Twins where
  start := steady_abreast.turn
  errorText s s' f twins := by
    cases twins
    rfl

end

/-! ## Runs -/

namespace RunState

variable {s t : RunState}

/-- What all operations on the environment keep is kept by whatever tasks do. -/
theorem Moves.env {kept : Env → Prop} (keeps : ∀ {α : Type} (op : EnvOp α) (e : Env), kept e → kept (op.run e).2)
    (moves : s.Moves t) (holds : kept s.env) : kept t.env := by
  induction moves with
  | refl => exact holds
  | tail _ move ih =>
    cases move with
    | env op => exact keeps op _ ih
    | _ => exact ih

/-- Everything is the same, but from now on the frames of loops are always copied. -/
def copying (s : RunState) : RunState :=
  { s with env := { s.env with copies := true } }

end RunState

theorem EnvOp.copies_eq {α : Type} (op : EnvOp α) (e : Env) : (op.run e).2.copies = e.copies := by
  have change (id : FrameId) (may : Scope → Bool) (f : Scope → Scope) : (e.change id may f).2.copies = e.copies := by
    unfold Env.change
    split <;> rfl
  cases op with
  | find | look | enter | share | release => rfl
  | declare | store => exact change _ _ _
  | renew h =>
    unfold EnvOp.run Env.renew
    dsimp only
    split <;> rfl

namespace Run

/-- No hold and no frame is forgotten at the start. -/
theorem counted_firstEnv : firstEnv.Counted := by
  have empty : ({} : Env).Counted := by
    refine ⟨by decide, fun id f there => ?_, by decide, fun id f some there => ?_⟩
    · obtain ⟨bound, rfl⟩ := Array.getElem?_eq_some_iff.mp there
      obtain rfl : id = 0 := Nat.lt_one_iff.mp bound
      exact Nat.le_refl 0
    · simp [some] at there
  have declared (cs : List ErrorClass) {e : Env} (counted : e.Counted) :
      (cs.foldl (fun e c => (e.declare (e.held globalFrame) c.name .constDecl (.ref .classRef c.ref)).2) e).Counted :=
    List.foldlRecOn cs _ counted fun e counted c _ => counted.change _ _ _
  exact declared _ (empty.enter (.inl rfl) { isFunction := true })

theorem env_firstState (heap : Heap) (ledger : Ledger) (modules : Modules) :
    (firstState heap ledger modules).env = firstEnv := by
  unfold firstState
  generalize firstEnv = env
  rfl

theorem env_firstWorld (p : Program) (s : LedgerState Value Fault Request) (files : FileSet) (items : List Stmt) :
    (firstWorld p s files items).own.env = firstEnv := by
  unfold firstWorld
  dsimp only
  exact env_firstState _ _ _

def firstMachine (p : Program) (s : LedgerState Value Fault Request) (files : FileSet) (items : List Stmt) :
    Machine RunState Value Fault Request Answer :=
  { world := firstWorld p s files items }

end Run

namespace Machine

/-- The same machine, but from now on the frames of loops are always copied. -/
def copying (m : Machine RunState Value Fault Request Answer) : Machine RunState Value Fault Request Answer :=
  { m with world := { m.world with own := m.world.own.copying } }

/-- The schedulers with their journals are the same, and so is everything that the tasks share, but for the environments. -/
structure LooksLike (m m' : Machine RunState Value Fault Request Answer) : Prop where
  sched : m'.world.sched = m.world.sched
  own : ∃ env, m'.world.own = { m.world.own with env }

theorem Alike.looksLike {m m' : Machine RunState Value Fault Request Answer} (alikes : m.Alike RunState.Twins m') :
    m.LooksLike m' := by
  obtain ⟨⟨same, owns⟩, -⟩ := alikes
  refine ⟨same, ?_⟩
  generalize m'.world.own = own' at owns
  cases owns
  exact ⟨_, rfl⟩

theorem reaches_env {kept : Env → Prop} (keeps : ∀ {α : Type} (op : EnvOp α) (e : Env), kept e → kept (op.run e).2)
    {m : Machine RunState Value Fault Request Answer} (new : m.threads = []) (holds : kept m.world.own.env)
    {stage : Stage RunState Value Fault Request Answer} (reaches : Stage.Reaches Eval.host (.between m) stage) :
    kept stage.own.env := by
  have start : (Stage.between m).Abides RunState.Moves := by simp [Stage.Abides, new]
  exact (start.reaches (fun _ => .refl) Eval.host_abides .trans reaches).2.env keeps holds

end Machine

/-- For every program and every schedule: the run looks the same, after any number of turns and at its end, as the run in which
the next pass of a loop always has a new frame with a copy of the bindings.  And whenever a pass takes over from the one before,
no hold that there was before, be it that of a function or of a task, leads to its frame, then or later; these holds and
the frames that they lead to stay as they are. -/
theorem passes_have_own_variables (p : Program) (s : LedgerState Value Fault Request) (files : FileSet) (items : List Stmt) :
    let m := Run.firstMachine p s files items
    (∀ n, Option.Rel Machine.LooksLike (m.after Eval.host n) (m.copying.after Eval.host n)) ∧
    (m.copying.run Eval.host).1 = (m.run Eval.host).1 ∧ (m.run Eval.host).2.LooksLike (m.copying.run Eval.host).2 ∧
    (∀ {stage : Stage RunState Value Fault Request Answer} {h : HoldId}, Stage.Reaches Eval.host (.between m.copying) stage →
      stage.own.env.held h ≠ 0 → stage.own.env.renew h = stage.own.env.afresh h) ∧
    ∀ {stage : Stage RunState Value Fault Request Answer} {h h' : HoldId} {e : Env}, Stage.Reaches Eval.host (.between m) stage →
      stage.own.env.held h ≠ 0 → stage.own.env.renew h = (h', e) →
        stage.own.env.Renewed h h' e ∧ ∀ t, ({ stage.own with env := e } : RunState).Moves t → e.Keeps t.env := by
  intro m
  have env : m.world.own.env = Run.firstEnv := Run.env_firstWorld p s files items
  have counted : m.world.own.env.Counted := env ▸ Run.counted_firstEnv
  have alikes : m.Alike RunState.Twins m.copying := ⟨⟨rfl, ⟨counted.twin⟩⟩, .nil⟩
  have ended := host_even.run alikes
  refine ⟨fun n => ?_, ended.same, ended.machines.looksLike, fun reaches some => ?_,
    fun {stage h h' e} reaches some next => ⟨?_, fun t moves => ?_⟩⟩
  · have later := host_even.after n alikes
    revert later
    generalize m.after Eval.host n = later
    generalize m.copying.after Eval.host n = later'
    rintro (⟨alikes⟩ | _)
    · exact .some alikes.looksLike
    · exact .none
  · have copies := Machine.reaches_env (fun op e (copies : e.copies = true) => (op.copies_eq e).trans copies) rfl rfl reaches
    exact Env.renew_eq_afresh copies some
  · have renewed := (Machine.reaches_env (fun op _ => op.counted) rfl counted reaches).renewed some
    rwa [next] at renewed
  · exact moves.env (fun op _ keeps => keeps.trans (op.keeps _)) (Env.Keeps.refl e)

/-- Tasks that are spawned in the passes of a loop print its variable when the loop is over. -/
def spawning : Machine RunState Value Fault Request Answer :=
  Run.firstMachine { text := [], readModule := fun path => .error (.notFound path) } ⟨{}, Run.firstHeap, {}⟩ {} items
where
  i : Expr := .ident {} "i"
  items : List Stmt := [.for {} (some (.declare .letDecl ⟨{}, "i", none, some (.literal {} [] (.int 0)), {}, []⟩))
    (some (.binary {} .lt i (.literal {} [] (.int 2)))) (some (.stepAfter {} .increment i))
    (.expr {} (.spawn {} (.paren {} (.call {} (.ident {} "println") [i] false))))]

/-- Each task prints what the variable was in its pass, and this is so too if the frame is copied for every pass. -/
theorem passes_have_own_variables_spawning : ∃ m m', spawning.after Eval.host 3 = some m ∧
    spawning.copying.after Eval.host 3 = some m' ∧ m.world.own.output = [utf8 "1\n", utf8 "0\n"] ∧
    m'.world.own.output = m.world.own.output := by
  have both : Option.Rel Machine.LooksLike (spawning.after Eval.host 3) (spawning.copying.after Eval.host 3) :=
    (passes_have_own_variables _ _ _ _).1 3
  have seen : (spawning.after Eval.host 3).any fun m => m.world.own.output = [utf8 "1\n", utf8 "0\n"] := by decide +kernel
  obtain ⟨m, later, printed⟩ := (Option.any_eq_true _ _).mp seen
  rw [later] at both
  generalize spawning.copying.after Eval.host 3 = later' at both
  cases both with
  | @some _ m' alike =>
    obtain ⟨env, same⟩ := alike.own
    exact ⟨m, m', later, rfl, of_decide_eq_true printed, by rw [same]⟩

end LedgerScript
