import LedgerScript.Eval.State

/-!
# Deeds

The work of a task is a *deed*: it may suspend its task and ask for an activation, and whatever it does to the state that
the tasks share are moves, which a deed carries the proof of.

Some deeds have to do with transactions.  A transaction gets a working set and takes the locks of its two addresses,
waiting for its turn; then it runs its contract as an activation; however that ends, the addresses become free again.
A view runs on committed state.  While a contract runs, the context of its task has the working set, and says which
operations on it are allowed; a call from inside a contract belongs to the transaction that runs.
-/

namespace LedgerScript

/-- Work of a task, which does nothing but moves. -/
structure Deed (R : Type) where
  act : Act RunState Value Fault Request Answer R
  lawful : ∀ w, (act.run w).Within (fun w w' => w.own.Moves w'.own) fun w' => w.own.Moves w'.own

namespace Deed

variable {R R' α β : Type}

/-- No work. -/
@[inline] protected def pure (r : R) : Deed R where
  act := Act.pure r
  lawful _ := .refl

/-- One piece of work after another. -/
@[inline] protected def bind (x : Deed R) (f : R → Deed R') : Deed R' where
  act := x.act.bind fun r => (f r).act
  lawful w := by
    have whole := (x.lawful w).bind .trans .trans fun w r => (f r).lawful w
    unfold Act.bind
    dsimp only
    revert whole
    cases x.act.run w <;> exact fun whole => whole

instance : Monad Deed where
  pure := Deed.pure
  bind := Deed.bind

theorem run_bind (x : Deed R) (f : R → Deed R') (w : World RunState Value Fault Request) :
    (x.bind f).act.run w = (x.act.run w).bind fun w r => (f r).act.run w := by
  unfold Deed.bind Act.bind
  dsimp only
  cases x.act.run w <;> rfl

def ask (request : Request) : Deed Answer where
  act := Act.ask request
  lawful _ := ⟨.refl, fun _ _ => .refl⟩

/-- An operation that may suspend.  There is no result if the task was killed. -/
def wait (op : WaitOp Value) : Deed (Option (Woken Value)) where
  act := Act.wait op
  lawful _ := ⟨.refl, fun _ _ => .refl⟩

def block (lock : ObjectId) (request : Request) : Deed (BlockEnd Answer) where
  act := Act.block lock request
  lawful _ := ⟨.refl, fun _ _ => .refl⟩

/-- Something of the world, which changes by moves and by operations of tasks. -/
@[inline] def onWorld (f : World RunState Value Fault Request → R × World RunState Value Fault Request)
    (lawful : ∀ w : World RunState Value Fault Request, w.sched.Steps (f w).2.sched ∧ w.own.Moves (f w).2.own) :
    Deed R where
  act := Act.onWorld f fun w => (lawful w).1
  lawful w := (lawful w).2

/-- An operation of the scheduler that is over at once. -/
@[inline] def onSched (op : TaskOp Value Fault Request R) : Deed R where
  act := Act.onSched op
  lawful _ := .refl

/-- Something of the shared state, which may change by moves. -/
@[inline] def onState (f : RunState → R × RunState) (lawful : ∀ s : RunState, s.Moves (f s).2) : Deed R where
  act := Act.onOwn f
  lawful w := lawful w.own

@[inline] def onEnv (op : EnvOp R) : Deed R :=
  onState (fun s => match s with
    | { heap, env, ledger, global, builtins, messageClass, contracts, modules, output, receipts, observed, contexts } =>
      let (a, env) := op.run env
      (a, { heap, env, ledger, global, builtins, messageClass, contracts, modules, output, receipts, observed,
            contexts })) fun _ => (RunState.Move.env op).moves

/-! ## The ledger -/

def ledger (op : LedgerOp α) : Deed (Except LedgerFault α) :=
  let step (w : World RunState Value Fault Request) : Except LedgerFault α × World RunState Value Fault Request :=
    match w with
    | ⟨sched, own⟩ =>
      match own with
      | { heap, env, ledger, global, builtins, messageClass, contracts, modules, output, receipts, observed,
          contexts } =>
        match op.run.run.run ⟨sched, heap, ledger⟩ with
        | (r, ⟨sched, heap, ledger⟩) =>
          (r, ⟨sched, { heap, env, ledger, global, builtins, messageClass, contracts, modules, output, receipts,
                        observed, contexts }⟩)
  have lawful (w : World RunState Value Fault Request) :
      w.sched.Steps (step w).2.sched ∧ w.own.Moves (step w).2.own :=
    ⟨op.lawful ⟨w.sched, w.own.heap, w.own.ledger⟩, (RunState.Move.ledger op rfl).moves⟩
  onWorld step lawful

theorem run_ledger {op : LedgerOp α} {sched : Scheduler Value Fault Request} {own : RunState} {r : Except LedgerFault α}
    {t : LedgerState Value Fault Request} (done : op.run.run.run ⟨sched, own.heap, own.ledger⟩ = (r, t)) :
    (ledger op).act.run ⟨sched, own⟩ = .done ⟨t.sched, { own with heap := t.heap, ledger := t.ledger }⟩ r := by
  simp only [ledger, onWorld, Act.onWorld, done]

def current : Deed TaskId :=
  onSched (.read (·.current.getD 0))

/-- The context of the running task. -/
def context : Deed CallContext := do
  let id ← current
  onState (fun s => (s.contextOf id, s)) fun _ => .refl

/-- A change to the context of the running task. -/
def modifyContext (f : CallContext → CallContext) : Deed Unit := do
  let id ← current
  onState (fun s => ((), { s with contexts := s.contexts.modify (id - 1) f })) fun _ =>
    (RunState.Move.context (id - 1) f).moves

/-- The operation of the ledger that the context of the running task decides on, if it does. -/
def byContext (f : CallContext → β ⊕ LedgerOp α) : Deed (β ⊕ Except LedgerFault α) := do
  match f (← context) with
  | .inl b => return .inl b
  | .inr op => return .inr (← ledger op)

end Deed

/-- What the context of a call allows a task to do with the working set of the transaction that runs.  Only the storage
of the contract that runs can be written, and only the contract and whoever called it can send value. -/
inductive CallContext.Allows (c : CallContext) : {α : Type} → LedgerOp α → Prop where
  | load {w : WorkingId} (runs : c.working = some w) (address : Address) (key : Bytes) : Allows c (.load w address key)
  | code {w : WorkingId} (runs : c.working = some w) (address : Address) : Allows c (.code w address)
  | balance {w : WorkingId} (runs : c.working = some w) (address : Address) : Allows c (.balance w address)
  | emit {w : WorkingId} (runs : c.working = some w) (e : LedgerEvent) : Allows c (.emit w e)
  | fail {w : WorkingId} (runs : c.working = some w) (f : LedgerFault) : Allows c (.fail w f)
  | setValidating {w : WorkingId} (runs : c.working = some w) (on : Bool) : Allows c (.setValidating w on)
  | store {w : WorkingId} (runs : c.working = some w) (writes : c.readOnly = false) (key : Bytes) (v : Value) :
    Allows c (.store w c.self key v)
  | transfer {w : WorkingId} (runs : c.working = some w) (writes : c.readOnly = false) {sender : Address}
    (mine : sender = c.self ∨ sender = c.messageSender) (receiver : Address) (amount : Int) :
    Allows c (.transfer w sender receiver amount)

/-! ## Exits -/

section

variable {m : Type → Type} [Monad m] {α : Type}

/-- Work, and then something that has to be done however it ends. -/
@[inline] def andFinally (x : ExceptT Exit m α) (tidy : ExceptT Exit m Unit) : ExceptT Exit m α := do
  let r ← ExceptT.lift x.run
  tidy
  match r with
  | .ok a => return a
  | .error e => throw e

/-- Work whose exit becomes a result. -/
@[inline] def outcome (x : ExceptT Exit m α) : ExceptT Exit m (Except Exit α) :=
  ExceptT.lift x.run

end

def LedgerFault.exit : LedgerFault → Exit
  | crash c => .crash (utf8 c.text)
  | f => .fault (.ledger f)

/-! ## Transactions -/

/-- A call of a contract; without a method it is deployed. -/
structure ContractCall where
  cls : Ref
  address : Address
  method : Option Closure
  args : List Value
  span : Span

def ContractCall.request (call : ContractCall) (w : WorkingId) (message : Message) : Request :=
  .contract call.cls call.address call.method call.args w message call.span

namespace Deed

variable {α : Type}

/-- An operation of the ledger whose failure is an exit. -/
def onLedger (op : LedgerOp α) : ExceptT Exit Deed α := do
  match ← ExceptT.lift (ledger op) with
  | .ok a => return a
  | .error f => throw f.exit

def activate (call : ContractCall) (w : WorkingId) (message : Message) : ExceptT Exit Deed Value := do
  match ← ExceptT.lift (ask (call.request w message)) with
  | .ok (.result v) => return v
  | .ok _ => return .null
  | .error e => throw e

/-- A transaction holds an address as soon as it is its turn. -/
def acquire (w : WorkingId) (address : Address) : ExceptT Exit Deed Unit := do
  match ← onLedger (.lockNeeded w address) with
  | none => onLedger (.hold w address none)
  | some lock =>
    match ← ExceptT.lift (wait (.lock lock)) with
    | none => throw .killed
    | some { fault := some f, .. } => throw (.fault (.schedule f))
    | some { fault := none, .. } => onLedger (.hold w address (some lock))

/-- What a transaction does on its working set: the result of its contract and the number of its block. -/
def perform (w : WorkingId) (tx : Transaction) (call : Option ContractCall) : ExceptT Exit Deed (Value × Nat) := do
  (LedgerM.lockOrder tx).forM (acquire w)
  onLedger (.prepare w tx)
  let v ← match call with
    | some call => activate call w { sender := tx.sender, value := tx.amount }
    | none => pure .null
  match (← onLedger (.working w)).failed with
  | some f => throw (.fault (.ledger f))
  | none => return (v, ← onLedger (.commit w))

def rollBack (tx : Transaction) (f : Fault) : ExceptT Exit Deed (Receipt Fault) := do
  let reason ← ExceptT.lift (onState (fun s => (f.reason s.heap, s)) fun _ => .refl)
  onLedger (.noteRollback tx reason)
  return .rolledBack tx reason f

def transact (tx : Transaction) (call : Option ContractCall) : ExceptT Exit Deed (Receipt Fault) := do
  if ← ExceptT.lift (onState (fun s => (s.ledger.isClosed, s)) fun _ => .refl) then rollBack tx (.ledger .closed)
  else
    let w ← onLedger (.newWorking tx false)
    andFinally
      (do
        match ← outcome (perform w tx call) with
        | .ok (result, block) =>
          return .committed tx (← onLedger (.working w)).events result block
        | .error (.fault f) => rollBack tx f
        | .error e => throw e)
      (onLedger (.release w))

/-- A contract runs on committed state. -/
def view (tx : Transaction) (call : ContractCall) : ExceptT Exit Deed Value := do
  let w ← onLedger (.newWorking tx true)
  activate call w { sender := tx.sender, value := 0, readOnly := true }

/-- A contract is called from inside a contract, as the context of the running task has it.  The contract that calls is
the sender, unless it calls itself. -/
def callInside (call : ContractCall) (amount : Int) (readOnly : Bool) : ExceptT Exit Deed Value := do
  let c ← ExceptT.lift context
  match c.working with
  | none => return .null
  | some w =>
    activate call w {
      sender := if call.address == c.self then c.messageSender else c.self
      value := amount, readOnly := c.readOnly || readOnly }

end Deed

end LedgerScript
