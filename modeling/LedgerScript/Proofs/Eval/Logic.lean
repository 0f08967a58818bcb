import LedgerScript.Eval.Activation
import Mathlib.Order.Basic

/-!
# Judging deeds

A deed is judged by what holds before it and by what holds of its result afterwards.  What can be said depends on what is to
be shown, and so does what a deed may rely on after its task was suspended.  But any judgement that goes along with one
deed after another is good for deeds with exits as well, and for whatever these are put together with.
-/

namespace LedgerScript

def LedgerOp.commits {α : Type} (w : WorkingId) : LedgerOp α → Prop
  | commit v => v = w
  | _ => False

/-- Judgements of deeds by a condition before, and by a condition on the result afterwards. -/
structure Deed.Logic (C : Type) [Preorder C] where
  Leads {R : Type} (pre : C) (x : Deed R) (post : R → C) : Prop
  protected pure {R : Type} {r : R} {pre : C} {post : R → C} : pre ≤ post r → Leads pre (Deed.pure r) post
  protected bind {R R' : Type} {x : Deed R'} {f : R' → Deed R} {pre : C} {mid : R' → C} {post : R → C} :
    Leads pre x mid → (∀ r, Leads (mid r) (f r) post) → Leads pre (x.bind f) post
  weaken {R : Type} {x : Deed R} {pre pre' : C} {post post' : R → C} :
    Leads pre x post → pre' ≤ pre → (∀ r, post r ≤ post' r) → Leads pre' x post'

namespace Deed.Logic

variable {C : Type} [Preorder C] {L : Deed.Logic C} {α β : Type} {pre pre' : C} {post post' : α → C} {m : β → C}
  {fail fail' : Exit → C}
variable {x : ExceptT Exit Deed α}

def ending (post : α → C) (fail : Exit → C) : Except Exit α → C
  | .ok a => post a
  | .error e => fail e

/-- Work that may end with an exit is judged by a condition on the result and by one on the exit. -/
def Works (L : Deed.Logic C) (pre : C) (x : ExceptT Exit Deed α) (post : α → C) (fail : Exit → C) : Prop :=
  L.Leads pre x.run (ending post fail)

theorem works_pure {a : α} (holds : pre ≤ post a) : L.Works pre (pure a) post fail :=
  L.pure holds

theorem works_throw {e : Exit} (holds : pre ≤ fail e) : L.Works pre (throw e) post fail :=
  L.pure (r := Except.error e) holds

theorem Works.bind {x : ExceptT Exit Deed β} {f : β → ExceptT Exit Deed α} (first : L.Works pre x m fail)
    (rest : ∀ b, L.Works (m b) (f b) post fail) : L.Works pre (x >>= f) post fail := by
  refine L.bind (f := ExceptT.bindCont f) first fun r => ?_
  cases r with
  | ok b => exact rest b
  | error e => exact works_throw (le_refl (fail e))

theorem Works.weaken (works : L.Works pre x post fail) (stronger : pre' ≤ pre)
    (weaker : ∀ a, post a ≤ post' a) (weaker' : ∀ e, fail e ≤ fail' e) : L.Works pre' x post' fail' := by
  refine L.weaken works stronger fun r => ?_
  cases r with
  | ok a => exact weaker a
  | error e => exact weaker' e

theorem works_lift {x : Deed α} (leads : L.Leads pre x post) : L.Works pre (ExceptT.lift x) post fail :=
  L.bind (f := fun a => Deed.pure (Except.ok a : Except Exit α)) leads fun a => L.pure (le_refl (post a))

/-- The exit of work becomes a result. -/
theorem Works.outcome {x : ExceptT Exit Deed α} (works : L.Works pre x post fail) :
    L.Works pre (outcome x) (ending post fail) fail' :=
  works_lift works

/-- What has to be done is done however work ends. -/
theorem Works.andFinally {x : ExceptT Exit Deed α} {tidy : ExceptT Exit Deed Unit} (works : L.Works pre x post fail)
    (well : ∀ a, L.Works (post a) tidy (fun _ => post' a) fail')
    (ill : ∀ e, L.Works (fail e) tidy (fun _ => fail' e) fail') : L.Works pre (andFinally x tidy) post' fail' := by
  refine Works.bind (works_lift works) fun r => ?_
  cases r with
  | ok a => exact (well a).bind fun _ => works_pure (le_refl (post' a))
  | error e => exact (ill e).bind fun _ => works_throw (le_refl (fail' e))

theorem works_forM {f : β → ExceptT Exit Deed PUnit} (each : ∀ b, L.Works pre (f b) (fun _ => pre) fail) (bs : List β) :
    L.Works pre (forM bs f) (fun _ => pre) fail := by
  induction bs with
  | nil => exact works_pure (le_refl pre)
  | cons b bs ih => exact (each b).bind fun _ => ih

/-- An operation of the ledger whose failure is an exit. -/
theorem works_onLedger {op : LedgerOp α} (leads : L.Leads pre (Deed.ledger op) fun r => match r with
      | .ok a => post a
      | .error f => fail f.exit) : L.Works pre (Deed.onLedger op) post fail := by
  refine Works.bind (works_lift leads) fun r => ?_
  cases r with
  | ok a => exact works_pure (le_refl (post a))
  | error f => exact works_throw (le_refl (fail f.exit))

theorem works_activate {call : ContractCall} {w : WorkingId} {message : Message} {after : C}
    (leads : L.Leads pre (Deed.ask (call.request w message)) (ending (fun _ => after) fail)) :
    L.Works pre (Deed.activate call w message) (fun _ => after) fail := by
  refine Works.bind (works_lift leads) fun r => ?_
  split
  · exact works_pure (le_refl after)
  · exact works_pure (le_refl after)
  · exact works_throw (le_refl (fail _))

/-! ## The work of a task -/

theorem works_eval_throw {e : Exit} (holds : pre ≤ fail e) : L.Works pre (throw e : Eval α).toDeed post fail :=
  L.pure (r := Except.error e) holds

theorem works_eval_bind {x : Eval β} {f : β → Eval α} (first : L.Works pre x.toDeed m fail)
    (rest : ∀ b, L.Works (m b) (f b).toDeed post fail) : L.Works pre (x >>= f).toDeed post fail := by
  refine L.bind (f := fun r => (ExceptT.bindCont f r).deed) first fun r => ?_
  cases r with
  | ok b => exact rest b
  | error e => exact works_eval_throw (le_refl (fail e))

theorem works_ofDeed {x : Deed α} {composed : Composed x} (leads : L.Leads pre x post) :
    L.Works pre (Eval.ofDeed x composed).toDeed post fail :=
  works_lift leads

/-! ## What stays -/

/-- What holds before some work holds after it, however it ends. -/
abbrev Stays (L : Deed.Logic C) (c : C) (x : ExceptT Exit Deed α) : Prop :=
  L.Works c x (fun _ => c) fun _ => c

theorem stays_of_leads {c : C} (leads : L.Leads c x.run fun _ => c) : L.Stays c x :=
  L.weaken leads (le_refl c) fun r => by cases r <;> exact le_refl c

theorem Works.leads {c : C} (stays : L.Stays c x) : L.Leads c x.run fun _ => c :=
  L.weaken stays (le_refl c) fun r => by cases r <;> exact le_refl c

/-- A condition that the pieces of transactions leave alone, unless they commit. -/
structure Calm (L : Deed.Logic C) (c : C) : Prop where
  ask (request : Request) : L.Leads c (Deed.ask request) fun _ => c
  wait (op : WaitOp Value) : L.Leads c (Deed.wait op) fun _ => c
  context : L.Leads c Deed.context fun _ => c
  modifyContext (f : CallContext → CallContext) : L.Leads c (Deed.modifyContext f) fun _ => c
  ledger {α : Type} (op : LedgerOp α) (other : ∀ w, ¬ op.commits w) : L.Leads c (Deed.ledger op) fun _ => c

namespace Calm

variable {c : C} (calm : L.Calm c)

include calm

theorem onLedger (op : LedgerOp α) (other : ∀ w, ¬ op.commits w) : L.Stays c (Deed.onLedger op) :=
  works_onLedger (L.weaken (calm.ledger op other) (le_refl c) fun r => by cases r <;> exact le_refl c)

theorem activate (call : ContractCall) (w : WorkingId) (message : Message) : L.Stays c (Deed.activate call w message) :=
  works_activate (L.weaken (calm.ask _) (le_refl c) fun r => by cases r <;> exact le_refl c)

theorem acquire (w : WorkingId) (address : Address) : L.Stays c (Deed.acquire w address) := by
  refine Works.bind (calm.onLedger (.lockNeeded w address) fun _ => id) fun lock? => ?_
  cases lock? with
  | none => exact calm.onLedger (.hold w address none) fun _ => id
  | some lock =>
    refine Works.bind (works_lift (calm.wait (.lock lock))) fun r => ?_
    split
    · exact works_throw (le_refl c)
    · exact works_throw (le_refl c)
    · exact calm.onLedger (.hold w address (some lock)) fun _ => id

theorem view (tx : Transaction) (call : ContractCall) : L.Stays c (Deed.view tx call) :=
  Works.bind (calm.onLedger (.newWorking tx true) fun _ => id) fun w => calm.activate call w _

theorem callInside (call : ContractCall) (amount : Int) (readOnly : Bool) :
    L.Stays c (Deed.callInside call amount readOnly) := by
  refine Works.bind (works_lift calm.context) fun k => ?_
  split
  · exact works_pure (le_refl c)
  · exact calm.activate call _ _

end Calm

/-- A condition that stays whatever the evaluator does. -/
structure Steady (L : Deed.Logic C) (c : C) : Prop extends L.Calm c where
  composed {R : Type} {x : Deed R} : Composed x → L.Leads c x fun _ => c

namespace Steady

variable {c : C} (steady : L.Steady c)

include steady

theorem eval (x : Eval α) : L.Stays c x.toDeed :=
  stays_of_leads (steady.composed x.run.composed)

theorem initSlots (w : WorkingId) (address : Address) (frame : HoldId) (span : Span) (slots : List ContractSlot) :
    L.Stays c (Eval.initSlots w address frame span slots) := by
  induction slots with
  | nil => exact works_pure (le_refl c)
  | cons s rest ih =>
    refine Works.bind (steady.eval _) fun value => ?_
    refine Works.bind (works_lift (steady.ledger _ fun _ => id)) fun r => ?_
    exact Works.bind (steady.eval _) fun _ => ih

theorem runContract (cls : Ref) (address : Address) (method : Option Closure) (args : List Value) (w : WorkingId)
    (message : Message) (span : Span) : L.Stays c (Eval.runContract cls address method args w message span) := by
  refine Works.bind (steady.eval _) fun c? => ?_
  split
  · exact works_pure (le_refl c)
  · refine Works.bind (works_lift steady.context) fun saved => ?_
    refine Works.bind (works_lift (steady.modifyContext _)) fun _ => ?_
    refine Works.andFinally ?_ (fun _ => works_lift (steady.modifyContext _)) fun _ => works_lift (steady.modifyContext _)
    refine Works.bind (steady.eval _) fun frame => ?_
    refine Works.andFinally ?_ (fun _ => steady.eval _) fun _ => steady.eval _
    extract_lets invoked
    have invokes (r : PUnit) : L.Stays c (invoked r) := by
      dsimp only [invoked]
      split
      · exact works_pure (le_refl c)
      · exact steady.eval _
    split
    · exact Works.bind (steady.initSlots w address frame span _) invokes
    · exact invokes ()

theorem activation (request : Request) : L.Stays c (Eval.activate request) := by
  cases request with
  | contract cls address method args w message span =>
    exact Works.bind (steady.runContract cls address method args w message span) fun _ => works_pure (le_refl c)
  | _ => exact steady.eval _

theorem turn (request : Request) : L.Leads c (do return Eval.turnOf (← (Eval.activate request).run)) fun _ => c :=
  L.bind (steady.activation request).leads fun _ => L.pure (le_refl c)

end Steady

end Deed.Logic

end LedgerScript

/-!
## Work as processes

The work of a task on a world is a process, which may be suspended again and again.  What happens to the shared state
meanwhile is done by other tasks, and so it is moves as well.  A condition that moves do not end holds as long as the
process goes on, and what a process does next may be found out from what it did before.

Two processes *match* if they do the same as long as nothing but moves happens in between.
-/

namespace LedgerScript

open Deed.Logic (works_pure works_throw works_lift works_eval_bind works_eval_throw)

namespace Proc

variable {R R' R'' : Type} {s : RunState} {post post' : R → World RunState Value Fault Request → Prop}
  {mid : R' → World RunState Value Fault Request → Prop}
variable {p : Proc RunState Value Fault Request Answer R}

theorem bind_assoc (p : Proc RunState Value Fault Request Answer R)
    (f : World RunState Value Fault Request → R → Proc RunState Value Fault Request Answer R')
    (g : World RunState Value Fault Request → R' → Proc RunState Value Fault Request Answer R'') :
    (p.bind f).bind g = p.bind fun w r => (f w r).bind g := by
  induction p with
  | done w r => rfl
  | ask w request k ih => exact congrArg (ask w request) (funext fun z => funext fun a => ih z a)
  | wait w op k ih => exact congrArg (wait w op) (funext fun z => funext fun r => ih z r)
  | block w lock request k ih => exact congrArg (block w lock request) (funext fun z => funext fun r => ih z r)

/-- However often a process is suspended, it is so at the end, as long as only moves happen meanwhile. -/
def Comes (post : R → World RunState Value Fault Request → Prop) : Proc RunState Value Fault Request Answer R → Prop
  | done y r => post r y
  | ask y _ k => ∀ z a, y.own.Moves z.own → (k z a).Comes post
  | wait y _ k => ∀ z r, y.own.Moves z.own → (k z r).Comes post
  | block y _ _ k => ∀ z r, y.own.Moves z.own → (k z r).Comes post

theorem Comes.mono (comes : p.Comes post) (weaker : ∀ r y, post r y → post' r y) : p.Comes post' := by
  induction p with
  | done y r => exact weaker r y comes
  | ask y request k ih => exact fun z a moves => ih z a (comes z a moves)
  | wait y op k ih => exact fun z r moves => ih z r (comes z r moves)
  | block y lock request k ih => exact fun z r moves => ih z r (comes z r moves)

theorem Comes.bind {p : Proc RunState Value Fault Request Answer R'}
    {f : World RunState Value Fault Request → R' → Proc RunState Value Fault Request Answer R} (comes : p.Comes mid)
    (rest : ∀ y r, mid r y → (f y r).Comes post) : (p.bind f).Comes post := by
  induction p with
  | done y r => exact rest y r comes
  | ask y request k ih => exact fun z a moves => ih z a (comes z a moves)
  | wait y op k ih => exact fun z r moves => ih z r (comes z r moves)
  | block y lock request k ih => exact fun z r moves => ih z r (comes z r moves)

/-- Whatever happens is moves, from the beginning to the end. -/
theorem comes_of_within
    (within : p.Within (fun w w' => w.own.Moves w'.own) fun y => s.Moves y.own) : p.Comes fun _ y => s.Moves y.own := by
  induction p generalizing s with
  | done y r => exact within
  | ask y request k ih =>
    exact fun z a moves => (ih z a (within.2 z a)).mono fun _ _ later => (within.1.trans moves).trans later
  | wait y op k ih =>
    exact fun z r moves => (ih z r (within.2 z r)).mono fun _ _ later => (within.1.trans moves).trans later
  | block y lock request k ih =>
    exact fun z r moves => (ih z r (within.2 z r)).mono fun _ _ later => (within.1.trans moves).trans later

/-- Two processes do the same, as long as only moves happen while they are suspended. -/
def Matches : Proc RunState Value Fault Request Answer R → Proc RunState Value Fault Request Answer R → Prop
  | done y r, q => q = done y r
  | ask y request k, q => ∃ k', q = ask y request k' ∧ ∀ z a, y.own.Moves z.own → (k z a).Matches (k' z a)
  | wait y op k, q => ∃ k', q = wait y op k' ∧ ∀ z r, y.own.Moves z.own → (k z r).Matches (k' z r)
  | block y lock request k, q =>
    ∃ k', q = block y lock request k' ∧ ∀ z r, y.own.Moves z.own → (k z r).Matches (k' z r)

theorem Matches.refl (p : Proc RunState Value Fault Request Answer R) : p.Matches p := by
  induction p with
  | done => rfl
  | ask y request k ih => exact ⟨k, rfl, fun z a _ => ih z a⟩
  | wait y op k ih => exact ⟨k, rfl, fun z r _ => ih z r⟩
  | block y lock request k ih => exact ⟨k, rfl, fun z r _ => ih z r⟩

theorem Matches.eq_done {y : World RunState Value Fault Request} {r : R}
    (same : p.Matches (.done y r)) : p = .done y r := by
  cases p with
  | done => exact same.symm
  | ask | wait | block =>
    obtain ⟨_, other, -⟩ := same
    cases other

/-- Processes match that begin in the same way, if what comes then matches after moves. -/
theorem matches_bind {p : Proc RunState Value Fault Request Answer R'}
    {f g : World RunState Value Fault Request → R' → Proc RunState Value Fault Request Answer R}
    (within : p.Within (fun w w' => w.own.Moves w'.own) fun y => s.Moves y.own)
    (rest : ∀ z r, s.Moves z.own → (f z r).Matches (g z r)) : (p.bind f).Matches (p.bind g) := by
  induction p generalizing s with
  | done y r => exact rest y r within
  | ask y request k ih =>
    exact ⟨_, rfl, fun z a moves => ih z a (within.2 z a) fun u r later => rest u r ((within.1.trans moves).trans later)⟩
  | wait y op k ih =>
    exact ⟨_, rfl, fun z a moves => ih z a (within.2 z a) fun u r later => rest u r ((within.1.trans moves).trans later)⟩
  | block y lock request k ih =>
    exact ⟨_, rfl, fun z a moves => ih z a (within.2 z a) fun u r later => rest u r ((within.1.trans moves).trans later)⟩

end Proc

namespace Deed

variable {R : Type} {pre : RunState → Prop}

/-- From the first condition on, a deed ends with the second one, as long as only moves happen meanwhile. -/
def meanwhile : Deed.Logic (World RunState Value Fault Request → Prop) where
  Leads pre x post := ∀ y, pre y → (x.act.run y).Comes post
  pure holds y before := holds y before
  bind first rest y before := by
    rw [Deed.run_bind]
    exact (first y before).bind fun z r holds => rest r z holds
  weaken leads stronger weaker y before := (leads y (stronger y before)).mono fun r => weaker r

/-- A condition that moves do not end. -/
def Lasts (pre : RunState → Prop) : Prop :=
  ∀ ⦃s t : RunState⦄, s.Moves t → pre s → pre t

/-- Whatever a deed does, what moves do not end is so afterwards. -/
theorem meanwhile_lasts (lasts : Lasts pre) (x : Deed R) : meanwhile.Leads (fun y => pre y.own) x fun _ y => pre y.own :=
  fun y holds => (Proc.comes_of_within (x.lawful y)).mono fun _ _ moves => lasts moves holds

end Deed

namespace Eval

variable {α β : Type} {y : World RunState Value Fault Request}
variable {x : Eval α}

def proc (x : Eval α) (y : World RunState Value Fault Request) : Proc RunState Value Fault Request Answer (Except Exit α) :=
  x.toDeed.run.act.run y

theorem within (x : Eval α) (y : World RunState Value Fault Request) :
    (x.proc y).Within (fun w w' => w.own.Moves w'.own) fun z => y.own.Moves z.own :=
  x.toDeed.run.lawful y

/-- What comes after work that has ended in some way. -/
def andThen (f : α → Eval β) (z : World RunState Value Fault Request) :
    Except Exit α → Proc RunState Value Fault Request Answer (Except Exit β)
  | .ok a => (f a).proc z
  | .error e => .done z (.error e)

theorem proc_bind (x : Eval α) (f : α → Eval β) (y : World RunState Value Fault Request) :
    (x >>= f).proc y = (x.proc y).bind (andThen f) := by
  have bound : (x >>= f).proc y = (x.toDeed.run.act.run y).bind fun z r => (ExceptT.bindCont f r).deed.act.run z :=
    Deed.run_bind _ _ y
  rw [bound]
  congr 1
  funext z r
  cases r <;> rfl

@[simp] theorem proc_pure (a : α) : (pure a : Eval α).proc y = .done y (.ok a) := rfl

@[simp] theorem proc_throw (e : Exit) : (throw e : Eval α).proc y = .done y (.error e) := rfl

@[simp] theorem proc_ofState (f : RunState → α) (apart : RunState.Apart fun s => (f s, s)) :
    (ofState f apart).proc y = .done y (.ok (f y.own)) := rfl

/-- Work of which the beginning is over at once. -/
theorem proc_bind_done {a : α} {z : World RunState Value Fault Request} (ends : x.proc y = .done z (.ok a))
    (f : α → Eval β) : (x >>= f).proc y = (f a).proc z := by
  rw [proc_bind, ends]
  rfl

/-- Work of which the beginning fails at once. -/
theorem proc_bind_error {e : Exit} {z : World RunState Value Fault Request} (ends : x.proc y = .done z (.error e))
    (f : α → Eval β) : (x >>= f).proc y = .done z (.error e) := by
  rw [proc_bind, ends]
  rfl

theorem proc_assoc {γ : Type} (x : Eval α) (f : α → Eval β) (g : β → Eval γ) (y : World RunState Value Fault Request) :
    (x >>= f >>= g).proc y = (x >>= fun a => f a >>= g).proc y := by
  rw [proc_bind, proc_bind, proc_bind, Proc.bind_assoc]
  congr 1
  funext z r
  cases r with
  | ok a => exact (proc_bind (f a) g z).symm
  | error e => rfl

/-- Work that begins in the same way matches, if what comes then matches after moves. -/
theorem matches_bind (x : Eval α) {f g : α → Eval β}
    (rest : ∀ z a, y.own.Moves z.own → ((f a).proc z).Matches ((g a).proc z)) :
    ((x >>= f).proc y).Matches ((x >>= g).proc y) := by
  rw [proc_bind, proc_bind]
  refine Proc.matches_bind (x.within y) fun z r moves => ?_
  cases r with
  | ok a => exact rest z a moves
  | error e => exact .refl _

/-! ## Work that ends normally -/

variable {pre pre' : World RunState Value Fault Request → Prop} {post post' : α → World RunState Value Fault Request → Prop}

/-- From the first condition on, work that ends normally ends with the second one. -/
abbrev Settles (pre : World RunState Value Fault Request → Prop) (x : Eval α)
    (post : α → World RunState Value Fault Request → Prop) : Prop :=
  Deed.meanwhile.Works pre x.toDeed post fun _ _ => True

theorem settles_pure {a : α} (holds : ∀ y, pre y → post a y) : Settles pre (pure a) post :=
  works_pure (L := Deed.meanwhile) holds

theorem Settles.bind {x : Eval β} {f : β → Eval α} {mid : β → World RunState Value Fault Request → Prop}
    (first : Settles pre x mid) (rest : ∀ b, Settles (mid b) (f b) post) : Settles pre (x >>= f) post :=
  works_eval_bind first rest

theorem Settles.weaken (settles : Settles pre x post) (weaker : ∀ a y, post a y → post' a y) : Settles pre x post' :=
  Deed.Logic.Works.weaken settles (fun _ => id) weaker fun _ _ => id

/-- Work that is over at once. -/
theorem settles_of_done (ends : ∀ y, pre y → ∃ z r, x.proc y = .done z r ∧ ∀ a, r = .ok a → post a z) :
    Settles pre x post := by
  intro y holds
  obtain ⟨z, r, done, good⟩ := ends y holds
  have done : x.toDeed.run.act.run y = .done z r := done
  rw [done]
  cases r with
  | ok a => exact good a rfl
  | error e => trivial

/-- What moves do not end is so after any work. -/
theorem settles_lasting {last : RunState → Prop} (lasts : Deed.Lasts last) (x : Eval α) :
    Settles (fun y => last y.own) x fun _ y => last y.own :=
  Deed.meanwhile.weaken (Deed.meanwhile_lasts lasts x.toDeed.run) (fun _ => id) fun r y holds => by
    cases r with
    | ok a => exact holds
    | error e => trivial

/-- What has to be done is done at the end. -/
theorem Settles.andFinally {x : Eval α} {tidy : Eval Unit} (settles : Settles pre x post)
    (tidies : ∀ a, Settles (post a) tidy fun _ => post' a) : Settles pre (andFinally x tidy) post' := by
  have first : Deed.meanwhile.Works pre (outcome x.toDeed) (Deed.Logic.ending post fun _ _ => True) fun _ _ => True :=
    works_lift settles
  refine Settles.bind first fun r => ?_
  cases r with
  | ok a => exact (tidies a).bind fun _ => settles_pure fun _ => id
  | error e =>
    have lasts : Deed.Lasts fun _ : RunState => True := fun _ _ _ => id
    have tidied : Settles (fun _ => True) tidy fun _ _ => True := settles_lasting lasts tidy
    exact tidied.bind fun _ => works_eval_throw fun _ _ => trivial

/-- Work that begins with an error never ends normally. -/
theorem settles_raiseText (span : Span) (c : ErrorClass) (message : String) :
    Settles pre (raiseText span c message : Eval α) post :=
  settles_of_done fun _ _ => ⟨_, .error _, rfl, nofun⟩

end Eval

end LedgerScript
