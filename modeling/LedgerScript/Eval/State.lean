import LedgerScript.Eval.Env
import LedgerScript.Eval.Fault
import LedgerScript.Ledger.Lawful
import LedgerScript.Schedule.Machine

/-!
# The state of a run

The tasks of a run share a heap, an environment, the ledger, the modules and the output.  Each task has a context of
its own for calls: who sends transactions, and inside a contract the working set and the message.

Whatever a task does to this state are *moves*, of which `RunState.Move` has the list.  `Request` lists the activations
there are.  The recursion of the evaluator follows the syntax, and whatever leaves it is an activation: the body of
a function that is called, a pass of a loop, the fields of a new object, the top level of a module.
-/

namespace LedgerScript

/-- What a contract method knows about the call: its sender, the value sent along, and whether it may write. -/
structure Message where
  sender : Address
  value : Int
  readOnly : Bool := false
  deriving Inhabited

/-- An activation of the evaluator. -/
inductive Request where
  /-- The top level of a module.  Exported names go to the map, if there is one. -/
  | topLevel (items : List Stmt) (frame : HoldId) (exports : Option Ref)
  | apply (callee : Value) (args : List Value) (span : Span)
  | invoke (c : Closure) (args : List Value) (span : Span)
  /-- A call in a task of its own; a task that it returns is awaited. -/
  | detached (callee : Value) (args : List Value) (span : Span)
  | expression (x : Expr) (frame : HoldId)
  | whilePass (cond : Expr) (body : Stmt) (frame : HoldId)
  | doPass (body : Stmt) (cond : Expr) (frame : HoldId)
  | forPass (cond post : Option Expr) (body : Stmt) (frame : HoldId)
  | eachPass (kind : DeclKind) (name : String) (body : Stmt) (frame : HoldId) (items : List Value)
  | drainPass (kind : DeclKind) (name : String) (body : Stmt) (frame : HoldId) (channel : ObjectId) (span : Span)
  /-- A block under a lock or with a permit of a semaphore. -/
  | block (body : Block) (frame : HoldId)
  /-- The fields of one class of a new object. -/
  | fields (cls : Ref) (object : Ref)
  | contract (cls : Ref) (address : Address) (method : Option Closure) (args : List Value) (working : WorkingId)
    (message : Message) (span : Span)
  deriving Inhabited

/-- What an activation answers: how it ended.  A call answers with a result. -/
abbrev Answer := Except Exit Control

structure CallContext where
  sender : Address
  /-- The amount that the next contract call sends along. -/
  pendingValue : Option Int := none
  /-- The transaction or view that runs. -/
  working : Option WorkingId := none
  readOnly : Bool := false
  /-- How deeply calls are nested. -/
  depth : Nat := 0
  /-- The address of the contract that runs. -/
  self : Address := []
  /-- Who called it. -/
  messageSender : Address := []
  deriving Inhabited

/-- The part of a context that says what a task may do with the ledger. -/
structure Badge where
  working : Option WorkingId
  self : Address
  messageSender : Address
  readOnly : Bool

/-- What a task may do with the ledger. -/
def CallContext.badge (c : CallContext) : Badge where
  working := c.working
  self := c.self
  messageSender := c.messageSender
  readOnly := c.readOnly

inductive ModuleState where
  | loading
  | done (exports : Ref)
  deriving Inhabited

/-- Where modules come from, and what has been read. -/
structure Modules where
  /-- The text of a module. -/
  read : Bytes → Except ImportFault Bytes
  files : FileSet := {}
  states : List (Bytes × ModuleState) := []
  /-- The trees of modules by path and text. -/
  parsed : List (Bytes × Bytes × SyntaxFile) := []

/-- What the tasks of a run share. -/
structure RunState where
  heap : Heap
  env : Env
  ledger : Ledger
  /-- The frame of the main file. -/
  global : HoldId
  /-- The built-in functions. -/
  builtins : List (String × Value)
  messageClass : Ref
  contracts : List (Bytes × Ref) := []
  modules : Modules
  output : List Bytes := []
  /-- The receipts, the latest first. -/
  receipts : List (Receipt Fault) := []
  /-- The tasks whose failure somebody has taken notice of. -/
  observed : List TaskId := []
  /-- The contexts of the tasks in the order of their numbers. -/
  contexts : Array CallContext := #[]

namespace RunState

def contextOf (s : RunState) (id : TaskId) : CallContext :=
  (s.contexts[id - 1]?).getD default

/-- One thing that a task does to what the tasks share. -/
inductive Move (s : RunState) : RunState → Prop where
  | heap (heap : Heap) : Move s { s with heap }
  | env {α : Type} (op : EnvOp α) : Move s { s with env := (op.run s.env).2 }
  /-- Something is done with the ledger.  What the scheduler is like then does not matter here. -/
  | ledger {α : Type} (op : LedgerOp α) {sched sched' : Scheduler Value Fault Request} {heap : Heap} {ledger : Ledger}
    {r : Except LedgerFault α} (done : op.run.run.run ⟨sched, s.heap, s.ledger⟩ = (r, ⟨sched', heap, ledger⟩)) :
    Move s { s with heap, ledger }
  | newTransaction (sender receiver : Address) (amount : Int) (method : Bytes) (args : List Value) (code : Bytes) :
    Move s { s with ledger := (s.ledger.newTransaction sender receiver amount method args code).2 }
  | receipt (r : Receipt Fault) : Move s { s with receipts := r :: s.receipts }
  | contract (name : Bytes) (cls : Ref) : Move s { s with contracts := (name, cls) :: s.contracts.filter (·.1 != name) }
  | modules (modules : Modules) : Move s { s with modules }
  | print (text : Bytes) : Move s { s with output := text :: s.output }
  | observe (id : TaskId) : Move s { s with observed := id :: s.observed }
  | newContext (c : CallContext) : Move s { s with contexts := s.contexts.push c }
  | context (i : Nat) (f : CallContext → CallContext) : Move s { s with contexts := s.contexts.modify i f }

inductive Moves (s : RunState) : RunState → Prop where
  | refl : Moves s s
  | tail {t u : RunState} (first : Moves s t) (move : t.Move u) : Moves s u

theorem Move.moves {s t : RunState} (move : s.Move t) : s.Moves t :=
  .tail .refl move

theorem Moves.trans {s t u : RunState} (first : s.Moves t) (second : t.Moves u) : s.Moves u := by
  induction second with
  | refl => exact first
  | tail _ move ih => exact .tail ih move

/-- Nothing is done to transactions that run: of the ledger only the number of transactions made may change, and no task
may do anything with the ledger that it could not do before. -/
structure Aside (s t : RunState) : Prop where
  ledger : ∃ made, t.ledger = { s.ledger with made }
  badge : ∀ id, (t.contextOf id).badge = (s.contextOf id).badge

/-- Something is done that has nothing to do with the environment. -/
def Apart {α : Type} (f : RunState → α × RunState) : Prop :=
  ∀ (s : RunState) (env : Env), f { s with env } = ((f s).1, { (f s).2 with env })

/-- A new task runs no transaction. -/
theorem aside_newContext (s : RunState) (sender : Address) : s.Aside { s with contexts := s.contexts.push { sender } } := by
  refine ⟨⟨_, rfl⟩, fun id => ?_⟩
  unfold contextOf
  dsimp only
  rw [Array.getElem?_push]
  split
  · rename_i last
    rw [last, Array.getElem?_eq_none (Nat.le_refl _)]
    rfl
  · rfl

/-- Contexts may change otherwise. -/
theorem aside_context (s : RunState) (i : Nat) {f : CallContext → CallContext} (same : ∀ c, (f c).badge = c.badge) :
    s.Aside { s with contexts := s.contexts.modify i f } := by
  refine ⟨⟨_, rfl⟩, fun id => ?_⟩
  unfold contextOf
  dsimp only
  rw [Array.getElem?_modify]
  split
  · cases s.contexts[id - 1]? with
    | none => rfl
    | some c => exact same c
  · rfl

end RunState

end LedgerScript
