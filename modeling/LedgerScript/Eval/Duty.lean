import LedgerScript.Eval.Deed

/-!
# What the work of a task is made of

Deeds that touch transactions are only right in their place: a working set is for those who have opened it, and a contract
for those who may send as its caller.  So the evaluator is not written with deeds as such but with *duties*.  A duty is
a deed together with the way in which it is composed, and `Composed` lists the pieces: steps of the scheduler and of
the state that have nothing to do with transactions that run, operations of the environment and such of the ledger as the
context of the task allows, and whole transactions.  What holds of all these pieces, and of one after another, holds of all that the evaluator
does.

Work on the state of a run is `Eval`: a duty that may end with an exit.
-/

namespace LedgerScript

/-- Contracts are activated by transactions.  Everything else can be asked for by anybody. -/
def Request.isPlain : Request → Bool
  | contract .. => false
  | _ => true

/-- An activation that anybody can ask for. -/
abbrev PlainRequest := { request : Request // request.isPlain = true }

/-- If a task is spawned, anybody could ask for its body. -/
def TaskOp.isPlain {α : Type} : TaskOp Value Fault Request α → Bool
  | .spawn _ body _ => body.isPlain
  | _ => true

/-- What duties are made of. -/
inductive Composed : {R : Type} → Deed R → Prop where
  | pure {R : Type} (r : R) : Composed (Deed.pure r)
  | bind {R R' : Type} {x : Deed R} {f : R → Deed R'} (first : Composed x) (rest : ∀ r, Composed (f r)) :
    Composed (x.bind f)
  | ask (request : Request) (plain : request.isPlain = true) : Composed (Deed.ask request)
  | wait (op : WaitOp Value) : Composed (Deed.wait op)
  | block (lock : ObjectId) (request : Request) (plain : request.isPlain = true) : Composed (Deed.block lock request)
  | onSched {R : Type} (op : TaskOp Value Fault Request R) (plain : op.isPlain = true) : Composed (Deed.onSched op)
  | onState {R : Type} (f : RunState → R × RunState) (lawful : ∀ s : RunState, s.Moves (f s).2)
    (aside : ∀ s : RunState, s.Aside (f s).2) (apart : RunState.Apart f) : Composed (Deed.onState f lawful)
  | onEnv {R : Type} (op : EnvOp R) : Composed (Deed.onEnv op)
  | byContext {α β : Type} (f : CallContext → β ⊕ LedgerOp α) (allowed : ∀ c op, f c = .inr op → c.Allows op) :
    Composed (Deed.byContext f)
  | credit {balances : List (Address × Int)} (keys : (balances.map (·.1)).Nodup) :
    Composed (Deed.ledger (.genesis balances))
  | transact (tx : Transaction) (call : Option ContractCall) : Composed (Deed.transact tx call).run
  | view (tx : Transaction) (call : ContractCall) : Composed (Deed.view tx call).run
  | callInside (call : ContractCall) (amount : Int) (readOnly : Bool) :
    Composed (Deed.callInside call amount readOnly).run

/-- A deed and the way in which it is composed. -/
structure Duty (R : Type) where
  deed : Deed R
  composed : Composed deed

namespace Duty

variable {R R' : Type}

/-- No work. -/
@[inline] protected def pure (r : R) : Duty R :=
  ⟨.pure r, .pure r⟩

/-- One piece of work after another. -/
@[inline] protected def bind (x : Duty R) (f : R → Duty R') : Duty R' :=
  ⟨x.deed.bind fun r => (f r).deed, .bind x.composed fun r => (f r).composed⟩

instance : Monad Duty where
  pure := Duty.pure
  bind := Duty.bind

end Duty

/-- Work of a task that may end with an exit. -/
abbrev Eval := ExceptT Exit Duty

namespace Eval

/-- The deed behind the work. -/
@[inline] def toDeed {α : Type} (x : Eval α) : ExceptT Exit Deed α :=
  ExceptT.mk x.run.deed

instance : MonadLift Eval (ExceptT Exit Deed) where
  monadLift := toDeed

@[inline] def ofDeed {R : Type} (x : Deed R) (composed : Composed x) : Eval R :=
  ExceptT.lift ⟨x, composed⟩

/-! ## The state -/

/-- Something of the shared state, which may change by a move that has nothing to do with transactions that run. -/
@[inline] def onState {α : Type} (f : RunState → α × RunState) (move : ∀ s : RunState, s.Move (f s).2)
    (aside : ∀ s : RunState, s.Aside (f s).2 := by exact fun _ => ⟨⟨_, rfl⟩, fun _ => rfl⟩)
    (apart : RunState.Apart f := by exact fun _ _ => rfl) : Eval α :=
  ofDeed _ (.onState f (fun s => (move s).moves) aside apart)

/-- Something of the shared state. -/
@[inline] def ofState {α : Type} (f : RunState → α)
    (apart : RunState.Apart fun s => (f s, s) := by exact fun _ _ => rfl) : Eval α :=
  ofDeed _ (.onState (fun s => (f s, s)) (fun _ => .refl) (fun _ => ⟨⟨_, rfl⟩, fun _ => rfl⟩) apart)

/-- An operation of the scheduler that is over at once. -/
@[inline] def onSched {α : Type} (op : TaskOp Value Fault Request α) (plain : op.isPlain = true := by rfl) : Eval α :=
  ofDeed _ (.onSched op plain)

/-- A lock is given back, whoever holds it. -/
def unlock (id : ObjectId) : Eval Unit :=
  onSched (.unlock id ())

/-- A permit of a semaphore is given back. -/
def release (id : ObjectId) : Eval Unit :=
  onSched (.release id ())

@[inline] def ofSched {α : Type} (f : Scheduler Value Fault Request → α) : Eval α :=
  onSched (.read f)

@[inline] def ofHeap {α : Type} (f : Heap → α) : Eval α :=
  ofState fun s => f s.heap

/-- Something of the heap, which may change. -/
@[inline] def onHeap {α : Type} (f : Heap → α × Heap) : Eval α :=
  onState (fun s => match s with
    | { heap, env, ledger, global, builtins, messageClass, contracts, modules, output, receipts, observed, contexts } =>
      let (a, heap) := f heap
      (a, { heap, env, ledger, global, builtins, messageClass, contracts, modules, output, receipts, observed,
            contexts })) fun s => .heap (f s.heap).2

@[inline] def onEnv {α : Type} (op : EnvOp α) : Eval α :=
  ofDeed _ (.onEnv op)

/-- A name is bound in a frame, or so far out from it; the result says whether it could be. -/
def bind (frame : HoldId) (name : String) (kind : DeclKind) (v : Value) (out : Nat := 0) : Eval Bool :=
  onEnv (.declare frame out name kind v)

def share (frame : HoldId) : Eval HoldId :=
  onEnv (.share frame)

def giveUp (frame : HoldId) : Eval Unit :=
  onEnv (.release frame)

/-- Work in a new frame inside another one, which is held as long as that. -/
def inside {α : Type} (parent : HoldId) (s : Scope) (x : HoldId → Eval α) : Eval α := do
  let frame ← onEnv (.enter parent s)
  andFinally (x frame) (giveUp frame)

def print (text : Bytes) : Eval Unit :=
  onState (fun s => ((), { s with output := text :: s.output })) fun _ => .print text

/-! ## Exits -/

def fail {α : Type} (f : Fault) : Eval α :=
  throw (.fault f)

/-- The task breaks down. -/
def crash {α : Type} (c : Crash) : Eval α :=
  throw (.crash (utf8 c.text))

/-- The result of a step that may break down. -/
def sound {α : Type} : Except Crash α → Eval α
  | .ok a => pure a
  | .error c => crash c

/-- Something of the heap that may break down. -/
def readHeap {α : Type} (f : Heap → Except Crash α) : Eval α := do
  sound (← ofHeap f)

def stepHeap {α : Type} (f : Heap → Except Crash (α × Heap)) : Eval α := do
  let r ← onHeap fun h => match f h with
    | .ok (a, h) => (.ok a, h)
    | .error c => (.error c, h)
  sound r

/-- A step on the heap that leaves its mark even if it breaks down. -/
def changeHeap {α : Type} (f : Heap → Heap × Except Crash α) : Eval α := do
  sound (← onHeap fun h => (f h).swap)

def plain (v : Value) : Eval Bytes :=
  readHeap (·.plain v)

def quoted (v : Value) : Eval Bytes :=
  readHeap (·.quoted v)

def typeName (v : Value) : Eval String :=
  ofHeap (·.typeName v)

def className (cls : Ref) : Eval String :=
  ofHeap (·.className cls)

def newError (c : ErrorClass) (message : Bytes) : Eval Value :=
  onHeap (·.newObject { cls := c.ref, fields := [("message", .str message)] })

def raise {α : Type} (span : Span) (c : ErrorClass) (message : Bytes) : Eval α := do
  throw (.fault (.thrown (← newError c message) span none))

/-- An error is thrown whose message is made of plain text. -/
def raiseText {α : Type} (span : Span) (c : ErrorClass) (message : String) : Eval α :=
  raise span c (utf8 message)

def typeError {α : Type} (span : Span) (message : String) : Eval α :=
  raiseText span .type message

/-- A fault as a thrown value.  A thrown value stays what it is and gets a place if it has none. -/
def toThrown (f : Fault) (span : Span) : Eval (Value × Fault) := do
  match f with
  | .thrown v at' cause => return (v, .thrown v (if at'.isEmpty then span else at') cause)
  | f =>
    let v ← newError f.errorClass (← ofHeap f.errorMessage)
    return (v, .thrown v span (some f))

def throwAs {α : Type} (f : Fault) (span : Span) : Eval α := do
  throw (.fault (← toThrown f span).2)

/-- The result of an operation on values. -/
def operand {α : Type} (span : Span) : Except OperandFault α → Eval α
  | .ok a => pure a
  | .error (.crash c) => crash c
  | .error f => throwAs (.operand f) span

def scheduled (span : Span) : Option ScheduleFault → Eval Unit
  | none => pure ()
  | some f => throwAs (.schedule f) span

/-! ## Activations and waiting -/

/-- The answer of an activation. -/
def ask (request : Request) (plain : request.isPlain = true := by rfl) : Eval Control := do
  match ← ofDeed _ (.ask request plain) with
  | .ok c => return c
  | .error e => throw e

/-- The value that an activation gives. -/
def askValue (request : Request) (plain : request.isPlain = true := by rfl) : Eval Value := do
  match ← ask request plain with
  | .result v => return v
  | _ => return .null

/-- An operation of the scheduler that may suspend the task. -/
def waitFor (op : WaitOp Value) : Eval (Woken Value) := do
  match ← ofDeed _ (.wait op) with
  | some r => return r
  | none => throw .killed

/-- An operation of the scheduler that may suspend the task, and whose fault is thrown. -/
def waitUntil (span : Span) (op : WaitOp Value) : Eval Unit := do
  scheduled span (← waitFor op).fault

/-- The answer of an activation under a lock. -/
def askUnder (lock : ObjectId) (request : Request) (span : Span) (plain : request.isPlain = true := by rfl) :
    Eval Control := do
  match ← ofDeed _ (.block lock request plain) with
  | .refused f => throwAs (.schedule f) span
  | .killed => throw .killed
  | .left (.ok c) => return c
  | .left (.error e) => throw e

/-! ## Contexts -/

/-- The context of the running task. -/
def context : Eval CallContext := do
  let id ← ofSched (·.current.getD 0)
  ofState (·.contextOf id)

/-- A change to the context of the running task, which does not change what the task may do with the ledger. -/
def modifyContext (f : CallContext → CallContext) (same : ∀ c, (f c).badge = c.badge := by exact fun _ => rfl) :
    Eval Unit := do
  let id ← ofSched (·.current.getD 0)
  onState (fun s => ((), { s with contexts := s.contexts.modify (id - 1) f })) (fun _ => .context (id - 1) f)
    fun s => s.aside_context (id - 1) same

/-- The amount that the next contract call sends along, which is thereby used up. -/
def takeValue : Eval Int := do
  let c ← context
  modifyContext fun c => { c with pendingValue := none }
  return c.pendingValue.getD 0

/-- A new task; it sends as the running one does. -/
def spawn (name : String) (body : Request) (plain : body.isPlain = true := by rfl) : Eval Value := do
  let sender := (← context).sender
  let id ← onSched (.spawn name body id) plain
  onState (fun s => ((), { s with contexts := s.contexts.push { sender } })) (fun _ => .newContext { sender })
    fun s => s.aside_newContext sender
  return .task id name

/-! ## The ledger -/

/-- What an operation of the ledger gives; its failure is thrown. -/
def settled {α : Type} (span : Span) : Except LedgerFault α → Eval α
  | .ok a => return a
  | .error (.crash c) => crash c
  | .error f => throwAs (.ledger f) span

/-- The context of the running task decides on something else, or on an operation of the ledger that it allows. -/
def byContext {α : Type} (span : Span) (f : CallContext → Eval α ⊕ LedgerOp α)
    (allowed : ∀ c op, f c = .inr op → c.Allows op) : Eval α := do
  match ← ofDeed _ (.byContext f allowed) with
  | .inl x => x
  | .inr r => settled span r

/-- An operation on the working set of the transaction that runs, or something else if there is none. -/
def inTransaction {α : Type} (span : Span) (op : WorkingId → LedgerOp α)
    (allowed : ∀ (c : CallContext) w, c.working = some w → c.Allows (op w)) (otherwise : Eval α) : Eval α :=
  byContext span (fun c => match c.working with
    | some w => .inr (op w)
    | none => .inl otherwise) fun c _ decided => by
      cases runs : c.working with
      | none =>
        rw [runs] at decided
        cases decided
      | some w =>
        rw [runs] at decided
        cases decided
        exact allowed c w runs

end Eval

end LedgerScript
