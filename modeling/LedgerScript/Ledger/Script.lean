import LedgerScript.Ledger.Engine
import LedgerScript.Schedule.Script
import LedgerScript.Value.Container

/-!
# Scripts for the ledger

A scripted transaction has a body of steps that work on its working set directly, and a body may contain transactions
of its own.  No task runs, so addresses are held without locks and nothing waits.
-/

namespace LedgerScript

mutual

/-- A step of a scripted contract. -/
inductive BodyStep where
  | load (address : Address) (key : Bytes)
  | store (address : Address) (key : Bytes) (v : Value)
  | mapSet (address : Address) (key : Bytes) (k v : Value)
  | balance (address : Address)
  /-- A transfer; its failure ends the body if it is strict. -/
  | transfer (sender receiver : Address) (amount : Int) (strict : Bool)
  | validate (holds : Bool) (message : Bytes)
  | validating (on : Bool)
  | emit (address : Address) (name : Bytes) (fields : List (Bytes × Value))
  | code (address : Address)
  | transaction
  | nested (call : LedgerCall)
  | fail (message : Bytes)
  | finish (v : Value)
  | unknown

/-- A scripted transaction. -/
structure LedgerCall where
  sender : Address
  receiver : Address
  amount : Int
  method : Bytes
  args : List Value
  code : Bytes
  /-- The steps of the contract, each under the name that it has in the log; none for a plain transfer. -/
  body : Option (List (String × BodyStep))
  /-- The run has been called off before the transaction. -/
  interrupted : Bool

end

/-- Something a step reports. -/
inductive LedgerItem where
  | value (v : Heap.ShownValue)
  | receipt (r : ReceiptReport)
  deriving Inhabited

/-- Why a scripted contract fails. -/
inductive BodyFault where
  | ledger (f : LedgerFault)
  | message (m : Bytes)
  deriving Inhabited

namespace BodyFault

/-- What is said about a failure. -/
def text : BodyFault → Bytes
  | ledger f => f.text
  | message m => m

/-- Why a transaction with this failure was rolled back. -/
def reason : BodyFault → Bytes
  | ledger f => f.reason
  | message m => m

end BodyFault

/-- What scripted transactions work on. -/
structure LedgerScriptState where
  state : LedgerState Unit Unit Unit
  /-- The rows of the log, the latest first. -/
  log : List (String × StepResult LedgerItem) := []

/-- Work of a scripted transaction. -/
abbrev LedgerScriptM := ExceptT BodyFault (StateM LedgerScriptState)

namespace LedgerScriptM

def lift {α : Type} (x : LedgerM Unit Unit Unit α) : LedgerScriptM α := fun s =>
  let (r, state) := x.run.run s.state
  (match r with
    | .ok a => .ok a
    | .error f => .error (.ledger f), { s with state })

/-- An operation of the ledger whose failure is a result. -/
def attempt {α : Type} (x : LedgerM Unit Unit Unit α) : LedgerScriptM (Except LedgerFault α) := fun s =>
  let (r, state) := x.run.run s.state
  (.ok r, { s with state })

def heap : LedgerScriptM Heap := do
  return (← get).state.heap

def faultResult {α : Type} : Except LedgerFault α → StepResult LedgerItem
  | .ok _ => .nothing
  | .error f => .text f.text

def valueResult (v : Value) : LedgerScriptM (StepResult LedgerItem) := do
  return .value (.value ((← heap).report v))

def addRow (name : String) (r : StepResult LedgerItem) : LedgerScriptM Unit :=
  modify fun s => { s with log := (name, r) :: s.log }

/-! ## Transactions -/

/-- What a contract does on the working set of a transaction. -/
abbrev Contract := WorkingId → LedgerScriptM Value

def rollback (tx : Transaction) (f : BodyFault) : LedgerScriptM (Receipt BodyFault) := do
  lift (LedgerM.noteRollback tx f.reason)
  return .rolledBack tx f.reason f

/-- What the contract of a transaction gives, if there is one.  A failed validation counts even if the contract has
recovered from it. -/
def runContract (w : WorkingId) : Option Contract → LedgerScriptM Value
  | none => return .null
  | some contract => do
    let v ← contract w
    match (← lift (LedgerM.working w)).failed with
    | some f => throw (.ledger f)
    | none => return v

/-- What a transaction does on its working set before it commits.  `interrupted` says that the run has been called off
by the time the contract is done. -/
def work (w : WorkingId) (tx : Transaction) (interrupted : Bool) (contract : Option Contract) : LedgerScriptM Value := do
  (LedgerM.lockOrder tx).forM fun address => lift (LedgerM.tryHold w address)
  lift (LedgerM.prepare w tx)
  let result ← runContract w contract
  if interrupted then throw (.ledger .interrupted) else return result

def perform (w : WorkingId) (tx : Transaction) (interrupted : Bool) (contract : Option Contract) :
    LedgerScriptM (Receipt BodyFault) := do
  let result ← work w tx interrupted contract
  let block ← lift (LedgerM.commit w)
  return .committed tx (← lift (LedgerM.working w)).events result block

/-- A transaction is carried out.  The run may have been called off before it, or while its contract runs. -/
def transact (tx : Transaction) (before after : Bool) (contract : Option Contract) :
    LedgerScriptM (Receipt BodyFault) := do
  if (← lift LedgerM.ledger).isClosed then rollback tx (.ledger .closed)
  else if before then rollback tx (.ledger .interrupted)
  else
    let w ← lift (LedgerM.newWorking tx false)
    let r ← (tryCatch (perform w tx after contract) (rollback tx) : LedgerScriptM _)
    lift (LedgerM.release w)
    return r

/-! ## Scripts -/

def newTransaction (sender receiver : Address) (amount : Int) (method : Bytes) (args : List Value) (code : Bytes) :
    LedgerScriptM Transaction :=
  lift (do
    let (tx, l) := (← LedgerM.ledger).newTransaction sender receiver amount method args code
    LedgerM.modifyLedger fun _ => l
    return tx)

mutual

def apply : LedgerCall → LedgerScriptM (Receipt BodyFault)
  | ⟨sender, receiver, amount, method, args, code, body, interrupted⟩ => do
    let tx ← newTransaction sender receiver amount method args code
    match body with
    | none => transact tx interrupted interrupted none
    | some steps => transact tx interrupted interrupted (some fun w => runBody w steps)

/-- A step; a value means that the body ends with it. -/
def runStep (w : WorkingId) (name : String) : BodyStep → LedgerScriptM (Option Value)
  | .load address key => do
    let r ← attempt (LedgerM.load w address key)
    addRow name (.row [← valueResult (r.toOption.getD .null), faultResult r])
    return none
  | .store address key v => do
    addRow name (faultResult (← attempt (LedgerM.store w address key v)))
    return none
  | .mapSet address key k v => do
    let r ← attempt (LedgerM.load w address key)
    if let .ok (.ref .map m) := r then
      lift (LedgerM.onHeap fun h => do return ((), ← h.mapInsert m k v))
    addRow name (.row [← valueResult (r.toOption.getD .null), faultResult r])
    return none
  | .balance address => do
    let r ← attempt (LedgerM.balance w address)
    let shown := match r with
      | .ok n => Text.decimalInt n
      | .error _ => utf8 "<nil>"
    addRow name (.row [.text shown, faultResult r])
    return none
  | .transfer sender receiver amount strict => do
    let r ← attempt (LedgerM.transfer w sender receiver amount)
    if let (true, .error f) := (strict, r) then throw (.ledger f)
    addRow name (faultResult r)
    return none
  | .validate holds message => do
    let f := if holds then none else some (LedgerFault.validation message)
    if let some f := f then lift (LedgerM.fail w f)
    let shown (f : Option LedgerFault) : StepResult LedgerItem := match f with
      | some f => .text f.text
      | none => .nothing
    addRow name (.row [shown f, shown (← lift (LedgerM.working w)).failed])
    return none
  | .validating on => do
    addRow name (.flag (← lift (LedgerM.setValidating w on)))
    return none
  | .emit address event fields => do
    let r ← attempt (LedgerM.emit w { contract := address, name := event, fields })
    addRow name (.row [faultResult r, .count (← lift (LedgerM.working w)).events.length])
    return none
  | .code address => do
    addRow name (.text (← lift (LedgerM.code w address)))
    return none
  | .transaction => do
    let k ← lift (LedgerM.working w)
    addRow name (.row [.text k.tx.text, .flag k.isView, .text (utf8 k.tx.status.name)])
    return none
  | .nested call => do
    let r ← apply call
    addRow name (.value (.receipt (r.report (← heap))))
    return none
  | .fail message => throw (.message message)
  | .finish v => return some v
  | .unknown => do
    addRow name (.text (utf8 "unknown step"))
    return none

/-- Steps one after another, until one ends the body. -/
def runBody (w : WorkingId) : List (String × BodyStep) → LedgerScriptM Value
  | [] => return .null
  | (name, step) :: rest => do
    match ← runStep w name step with
    | some v => return v
    | none => runBody w rest

end

def view (call : LedgerCall) : LedgerScriptM Value := do
  let tx ← newTransaction call.sender call.receiver call.amount call.method call.args call.code
  let w ← lift (LedgerM.newWorking tx true)
  runBody w (call.body.getD [])

end LedgerScriptM

end LedgerScript
