import LedgerScript.Proofs.Eval.Logic
import LedgerScript.Proofs.Ledger.Locking

/-!
# What a transaction does to locks

A transaction is carried out by a process that stops where its contract is activated and where it waits for a lock.  At
each of these places it is known how far the task has come, and this is all that the process relies on when it goes on,
whatever has happened meanwhile.  `Proc.Abides` says so of a process, and `Deed.Leads` of the work that makes it.

A transaction begins with nothing and ends with nothing, however it ends.
-/

namespace LedgerScript

/-- What is said about the world, and about how far the other tasks have come. -/
abbrev Condition :=
  World RunState Value Fault Request → (TaskId → Progress) → Prop

variable {R R' α β : Type} {me : TaskId} {w : WorkingId} {p : Progress} {pre pre' fail : Condition}
variable (tx : Transaction)

/-- The task in turn has come so far. -/
def Reached (me : TaskId) (p : Progress) : Condition :=
  fun x others => AtWork me x.sched x.own.ledger others p

/-- The working set of the transaction that an activation belongs to. -/
def Request.working? : Request → Option WorkingId
  | contract _ _ _ _ w _ _ => some w
  | _ => none

/-! ## Processes -/

namespace Proc

variable {post post' : R → Condition} {mid : R' → Condition} {others : TaskId → Progress}

/-- What a process relies on when it goes on after a wait for the lock of an address. -/
structure GoesOn (w : WorkingId) (address : Address) (lock : ObjectId) (rest : List Address) (me : TaskId)
    (k : World RunState Value Fault Request → Option (Woken Value) → (TaskId → Progress) → Prop) : Prop where
  killed : ∀ x others, Reached me (.holding w none) x others → k x none others
  woken : ∀ x others r, r.fault = none → Reached me (.reaching w lock address (some rest)) x others → k x (some r) others

/-- A process asks for nothing but activations of its contract, waits for nothing but locks, and these in order. -/
def Abides (me : TaskId) (post : R → Condition) :
    Proc RunState Value Fault Request Answer R → (TaskId → Progress) → Prop
  | done x r, others => post r x others
  | ask x request k, others => ∃ w, request.working? = some w ∧ Reached me (.holding w none) x others ∧
    ∀ y others a, Reached me (.holding w none) y others → Abides me post (k y a) others
  | wait x op k, others => ∃ w address lock rest, op = .lock lock ∧ (address, lock) ∈ x.own.ledger.locks ∧
    (address, w) ∉ x.own.ledger.holders ∧ Reached me (.holding w (some (address :: rest))) x others ∧
    GoesOn w address lock rest me fun y r others => Abides me post (k y r) others
  | block .., _ => False

theorem GoesOn.mono {address : Address} {lock : ObjectId} {rest : List Address}
    {k k' : World RunState Value Fault Request → Option (Woken Value) → (TaskId → Progress) → Prop}
    (goesOn : GoesOn w address lock rest me k) (weaker : ∀ x r others, k x r others → k' x r others) :
    GoesOn w address lock rest me k' :=
  ⟨fun x others here => weaker x none others (goesOn.killed x others here),
    fun x others r well here => weaker x (some r) others (goesOn.woken x others r well here)⟩

theorem Abides.mono {q : Proc RunState Value Fault Request Answer R} (abides : q.Abides me post others)
    (weaker : ∀ r x others, post r x others → post' r x others) : q.Abides me post' others := by
  induction q generalizing others with
  | done x r => exact weaker r x others abides
  | ask x request k ih =>
    obtain ⟨w, mine, here, rest⟩ := abides
    exact ⟨w, mine, here, fun y others a here => ih y a (rest y others a here)⟩
  | wait x op k ih =>
    obtain ⟨w, address, lock, rest, op, locking, free, here, goesOn⟩ := abides
    exact ⟨w, address, lock, rest, op, locking, free, here, goesOn.mono fun y r others => ih y r⟩
  | block => exact abides

theorem Abides.bind {q : Proc RunState Value Fault Request Answer R'}
    {f : World RunState Value Fault Request → R' → Proc RunState Value Fault Request Answer R}
    (abides : q.Abides me mid others) (rest : ∀ x r others, mid r x others → (f x r).Abides me post others) :
    (q.bind f).Abides me post others := by
  induction q generalizing others with
  | done x r => exact rest x r others abides
  | ask x request k ih =>
    obtain ⟨w, mine, here, later⟩ := abides
    exact ⟨w, mine, here, fun y others a here => ih y a (later y others a here)⟩
  | wait x op k ih =>
    obtain ⟨w, address, lock, todo, op, locking, free, here, goesOn⟩ := abides
    exact ⟨w, address, lock, todo, op, locking, free, here, goesOn.mono fun y r others => ih y r⟩
  | block => exact abides

/-- At every stage it is known how far the task has come. -/
theorem Abides.reached {q : Proc RunState Value Fault Request Answer R} (abides : q.Abides me (fun _ => Reached me p) others) :
    ∃ p, Reached me p q.world others := by
  cases q with
  | done => exact ⟨_, abides⟩
  | ask =>
    obtain ⟨w, -, here, -⟩ := abides
    exact ⟨_, here⟩
  | wait =>
    obtain ⟨w, address, lock, rest, -, -, -, here, -⟩ := abides
    exact ⟨_, here⟩
  | block => exact abides.elim

/-- It does not matter what is said about the task itself. -/
theorem Abides.forget {q : Proc RunState Value Fault Request Answer R} (abides : q.Abides me (fun _ => Reached me p) others)
    (p' : Progress) : q.Abides me (fun _ => Reached me p) (Function.update others me p') := by
  have forget {p : Progress} {x : World RunState Value Fault Request} (here : Reached me p x others) :
      Reached me p x (Function.update others me p') := by
    obtain ⟨regular, current, order⟩ := here
    exact ⟨regular, current, by rwa [Function.update_idem]⟩
  cases q with
  | done => exact forget abides
  | ask =>
    obtain ⟨w, mine, here, rest⟩ := abides
    exact ⟨w, mine, forget here, rest⟩
  | wait =>
    obtain ⟨w, address, lock, rest, op, locking, free, here, goesOn⟩ := abides
    exact ⟨w, address, lock, rest, op, locking, free, forget here, goesOn⟩
  | block => exact abides.elim

end Proc

/-! ## Deeds -/

/-- From the first condition on, the process of a deed abides, and it ends with the second one. -/
def Deed.inOrder (me : TaskId) : Deed.Logic Condition where
  Leads pre x post := ∀ y others, pre y others → (x.act.run y).Abides me post others
  pure holds := holds
  bind first rest y others holds := by
    rw [Deed.run_bind]
    exact (first y others holds).bind fun y r others holds => rest r y others holds
  weaken leads stronger weaker y others holds := (leads y others (stronger y others holds)).mono weaker

namespace Deed

variable {post : R → Condition}

theorem leads_read {f : RunState → R} {lawful : ∀ s : RunState, s.Moves (f s, s).2} :
    (inOrder me).Leads pre (onState (fun s => (f s, s)) lawful) fun _ => pre :=
  fun _ _ holds => holds

/-- The contract is activated. -/
theorem leads_ask {request : Request} (mine : request.working? = some w) :
    (inOrder me).Leads (Reached me (.holding w none)) (ask request) fun _ => Reached me (.holding w none) :=
  fun _ _ here => ⟨w, mine, here, fun _ _ _ => id⟩

/-- A task waits for a lock that is next. -/
theorem leads_wait {address : Address} {lock : ObjectId} {rest : List Address} :
    (inOrder me).Leads
      (fun x others => (address, lock) ∈ x.own.ledger.locks ∧ (address, w) ∉ x.own.ledger.holders ∧
        Reached me (.holding w (some (address :: rest))) x others)
      (wait (.lock lock)) fun r x others => match r with
        | none => Reached me (.holding w none) x others
        | some r => r.fault = none ∧ Reached me (.reaching w lock address (some rest)) x others :=
  fun _ _ ⟨locking, free, here⟩ =>
    ⟨w, address, lock, rest, rfl, locking, free, here, fun _ _ => id, fun _ _ _ well here => ⟨well, here⟩⟩

/-- An operation of the ledger is carried out. -/
theorem leads_ledger {op : LedgerOp α} {post : Except LedgerFault α → Condition}
    (holds : ∀ sched (own : RunState) others r t, pre ⟨sched, own⟩ others →
      LedgerM.exec op.run ⟨sched, own.heap, own.ledger⟩ = (r, t) →
        post r ⟨t.sched, { own with heap := t.heap, ledger := t.ledger }⟩ others) :
    (inOrder me).Leads pre (ledger op) post := by
  intro ⟨sched, own⟩ others before
  rcases done : LedgerM.exec op.run ⟨sched, own.heap, own.ledger⟩ with ⟨r, t⟩
  rw [Deed.run_ledger done]
  exact holds sched own others r t before done

end Deed

/-! ## The operations of a transaction -/

open Deed.Logic (works_pure works_throw works_lift works_activate)

/-- Work that ends with the second condition, or with an exit and the third one. -/
abbrev Works (me : TaskId) (pre : Condition) (x : ExceptT Exit Deed α) (post : α → Condition) (fail : Condition) : Prop :=
  (Deed.inOrder me).Works pre x post fun _ => fail

theorem works_onLedger {op : LedgerOp α} {post : α → Condition}
    (holds : ∀ sched (own : RunState) others r t, pre ⟨sched, own⟩ others →
      LedgerM.exec op.run ⟨sched, own.heap, own.ledger⟩ = (r, t) →
        (match r with
          | .ok a => post a
          | .error _ => fail) ⟨t.sched, { own with heap := t.heap, ledger := t.ledger }⟩ others) :
    Works me pre (Deed.onLedger op) post fail := by
  refine Deed.Logic.works_onLedger (Deed.leads_ledger fun sched own others r t before done => ?_)
  cases r <;> exact holds sched own others _ t before done

/-- An operation that takes locks only if they are free. -/
theorem works_gentle {op : LedgerOp α} (keeps : (op.run : LedgerM Value Fault Request α).Within (LedgerM.Keeps me w)) :
    Works me (Reached me (.holding w none)) (Deed.onLedger op) (fun _ => Reached me (.holding w none))
      (Reached me (.holding w none)) := by
  refine works_onLedger fun sched own others r t here done => ?_
  have kept := keeps ⟨sched, own.heap, own.ledger⟩ others here
  rw [show op.run.run.run ⟨sched, own.heap, own.ledger⟩ = (r, t) from done] at kept
  cases r <;> exact kept

/-- What a transaction knows when it has asked for the lock of the next address: it has a lock to wait for. -/
def Asked (me : TaskId) (w : WorkingId) (address : Address) (rest : List Address) : Option ObjectId → Condition
  | none => fun _ _ => False
  | some lock => fun x others => (address, lock) ∈ x.own.ledger.locks ∧ (address, w) ∉ x.own.ledger.holders ∧
    Reached me (.holding w (some (address :: rest))) x others

/-- A transaction holds the next address, or it waits for no further lock. -/
theorem works_acquire {address : Address} {rest : List Address} :
    Works me (Reached me (.holding w (some (address :: rest)))) (Deed.acquire w address)
      (fun _ => Reached me (.holding w (some rest))) (Reached me (.holding w none)) := by
  refine Deed.Logic.Works.bind (m := Asked me w address rest) ?_ fun lock? => ?_
  · refine works_onLedger fun sched own others r t here done => ?_
    obtain ⟨here, ⟨rfl, mine⟩ | ⟨lock, rfl, locking, other⟩⟩ :=
      LedgerM.lockNeeded_order (s := ⟨sched, own.heap, own.ledger⟩) here done
    · -- it does not hold what comes later
      obtain ⟨h, held, rfl⟩ := List.mem_map.mp (here.order.holders address w (Ledger.mem_holders_of_holder? mine))
      exact absurd ((here.fits.ascends _ rfl).above h held h.1 List.mem_cons_self) (Address.Before.irrefl h.1)
    · exact ⟨locking, fun mine => other (here.holder?_eq mine), here⟩
  · cases lock? with
    | none => exact fun _ _ => False.elim
    | some lock =>
      refine Deed.Logic.Works.bind (works_lift Deed.leads_wait) fun r => ?_
      cases r with
      | none => exact works_throw fun _ _ => id
      | some r =>
        obtain ⟨_ | f, received⟩ := r
        · refine works_onLedger fun sched own others r t ⟨_, here⟩ done => ?_
          have held := LedgerM.hold_order (s := ⟨sched, own.heap, own.ledger⟩) here done
          cases r with
          | ok => exact held
          | error => exact held.settle
        · exact works_throw fun _ _ ⟨well, _⟩ => nomatch well

theorem works_acquireAll (addresses : List Address) :
    Works me (Reached me (.holding w (some addresses))) (addresses.forM (Deed.acquire w))
      (fun _ => Reached me (.holding w none)) (Reached me (.holding w none)) := by
  induction addresses with
  | nil => exact works_pure fun _ _ => AtWork.settle
  | cons address rest ih => exact Deed.Logic.Works.bind works_acquire fun _ => ih

/-- However a transaction ends, it has a working set and waits for no lock. -/
theorem works_perform (call : Option ContractCall) :
    Works me (Reached me (.holding w (some (LedgerM.lockOrder tx)))) (Deed.perform w tx call)
      (fun _ => Reached me (.holding w none)) (Reached me (.holding w none)) := by
  have gentle := LedgerM.gentle_keeps (V := Value) (E := Fault) (B := Request) me w
  refine (works_acquireAll _).bind fun _ => (works_gentle (gentle.prepare tx)).bind fun _ => ?_
  extract_lets rest
  have concluded (v : Value) : Works me (Reached me (.holding w none)) (rest v) (fun _ => Reached me (.holding w none))
      (Reached me (.holding w none)) := by
    refine (works_gentle (gentle.working w)).bind fun k => ?_
    split
    · exact works_throw fun _ _ => id
    · have committed := gentle.commit (fun same _ => LedgerM.keeps_of_sameLocks same) w
      exact (works_gentle committed).bind fun b => works_pure fun _ _ => id
  split
  · rename_i call
    refine Deed.Logic.Works.bind (works_activate ((Deed.inOrder me).weaken (Deed.leads_ask (w := w) rfl) (fun _ _ => id)
      fun r _ _ here => ?_)) concluded
    cases r <;> exact here
  · exact (works_pure fun _ _ => id).bind concluded

theorem works_rollBack (f : Fault) :
    Works me (Reached me p) (Deed.rollBack tx f) (fun _ => Reached me p) (Reached me p) := by
  refine (works_lift Deed.leads_read).bind fun reason => ?_
  refine Deed.Logic.Works.bind (m := fun _ => Reached me p) (works_onLedger fun sched own others r t here done => ?_) fun _ =>
    works_pure fun _ _ => id
  cases done
  exact here.note _

/-- A transaction begins with nothing, and ends with nothing. -/
theorem works_transact (call : Option ContractCall) :
    Works me (Reached me .idle) (Deed.transact tx call) (fun _ => Reached me .idle) (Reached me .idle) := by
  refine (works_lift Deed.leads_read).bind fun isClosed => ?_
  split
  · exact works_rollBack tx _
  · refine Deed.Logic.Works.bind (m := fun w => Reached me (.holding w (some (LedgerM.lockOrder tx)))) ?_ fun w => ?_
    · refine works_onLedger fun sched own others r t here done => ?_
      cases done
      exact here.begin tx false
    · have released : Works me (Reached me (.holding w none)) (Deed.onLedger (.release w)) (fun _ => Reached me .idle)
          (Reached me .idle) := by
        refine works_onLedger fun sched own others r t here done => ?_
        obtain ⟨rfl, left⟩ := LedgerM.release_order (s := ⟨sched, own.heap, own.ledger⟩) here done
        exact left
      refine Deed.Logic.Works.andFinally ((works_perform tx call).outcome.bind fun r => ?_) (fun _ => released) fun _ =>
        released
      have gentle := LedgerM.gentle_keeps (V := Value) (E := Fault) (B := Request) me w
      split
      · exact (works_gentle (gentle.working w)).bind fun k => works_pure fun _ _ => id
      · exact works_rollBack tx _
      · exact works_throw fun _ _ => id

/-- The process of a transaction takes locks in order. -/
theorem leads_transact (call : Option ContractCall) :
    (Deed.inOrder me).Leads (Reached me .idle) (Deed.transact tx call).run fun _ => Reached me .idle := by
  refine (Deed.inOrder me).weaken (works_transact tx call) (fun _ _ => id) fun r _ _ here => ?_
  cases r <;> exact here

end LedgerScript
