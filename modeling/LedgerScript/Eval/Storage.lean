import LedgerScript.Eval.Duty

/-!
# Names and storage

A name is looked up from the innermost frame outwards and then among the built-in functions.  The slots of a contract
frame stand for the storage of the contract, which is read and written through the transaction that runs.

Storage may only be written inside a transaction, by a method that is no view, and only by the contract whose storage
it is.  Containers in storage are changed in place, so assignments into them are checked in advance by looking at
what the target is read from.
-/

namespace LedgerScript

structure BoundSlot where
  /-- How far out the frame is. -/
  out : Nat
  position : Nat
  slot : Slot
  /-- The address whose storage the slot stands for, if it does. -/
  contract : Address
  deriving Inhabited

namespace Eval

/-- A slot of contract storage as the running task sees it. -/
def loadStorage (address : Address) (name : String) (span : Span) : Eval Value :=
  inTransaction span (.load · address (utf8 name)) (fun _ _ runs => .load runs _ _) do
    match ← ofState (·.ledger.account? address) with
    | some a => stepHeap (·.deepCopy (a.slot (utf8 name)))
    | none => return .null

/-- What a context says about writing a slot of contract storage. -/
def storing (address : Address) (name : String) (v : Value) (span : Span) (c : CallContext) : Eval Unit ⊕ LedgerOp Unit :=
  match c.working with
  | none => .inl (typeError span ("ledger field " ++ name ++ " can only change inside a transaction"))
  | some w =>
    if c.readOnly then .inl (typeError span ("cannot modify ledger field " ++ name ++ " in a view method"))
    else if c.self != address then
      .inl (raise span .type (utf8 "storage of " ++ address ++ utf8 " can only change inside its own methods"))
    else .inr (.store w address (utf8 name) v)

theorem storing_allowed {address : Address} {name : String} {v : Value} {span : Span} (c : CallContext)
    (op : LedgerOp Unit) (decided : storing address name v span c = .inr op) : c.Allows op := by
  unfold storing at decided
  split at decided
  · cases decided
  · rename_i w runs
    split at decided
    · cases decided
    · rename_i writes
      split at decided
      · cases decided
      · rename_i mine
        cases decided
        have self : c.self = address := by simpa using mine
        exact self ▸ .store runs (by simpa using writes) (utf8 name) v

def storeStorage (address : Address) (name : String) (v : Value) (span : Span) : Eval Unit :=
  byContext span (storing address name v span) storing_allowed

def refuseStore {α : Type} (s : Slot) (span : Span) : Eval α :=
  raiseText span .immutableAssignment ("cannot assign to " ++ s.kind.word ++ " " ++ s.name)

def boundSlot? (name : String) (frame : HoldId) : Eval (Option BoundSlot) := do
  let found ← onEnv (.find frame fun s => (s.position? name).map fun i => (i, s.slot i, s.contract))
  return found.map fun (out, position, slot, contract) => { out, position, slot, contract }

def loadSlot (frame : HoldId) (p : BoundSlot) (span : Span) : Eval Value :=
  if p.slot.onLedger then loadStorage p.contract p.slot.name span
  else onEnv (.look frame p.out fun s => (s.slot p.position).value)

def storeSlot (frame : HoldId) (p : BoundSlot) (v : Value) (span : Span) : Eval Unit := do
  if p.slot.onLedger then storeStorage p.contract p.slot.name v span
  else if !(← onEnv (.store frame p.out p.position v)) then refuseStore p.slot span

def builtin? (name : String) : Eval (Option Value) :=
  ofState fun s => lookupName name s.builtins

def lookup (name : String) (frame : HoldId) (span : Span) : Eval Value := do
  match ← boundSlot? name frame with
  | some p => loadSlot frame p span
  | none =>
    match ← builtin? name with
    | some v => return v
    | none => raiseText span .undefinedVariable (name ++ " is not defined")

def lookup? (name : String) (frame : HoldId) : Eval (Option Value) := do
  match ← outcome (lookup name frame {}) with
  | .ok v => return some v
  | .error (.fault _) => return none
  | .error e => throw e

/-- The value that is kept in the slot of a name, even if the slot stands for storage. -/
def boundValue? (name : String) (frame : HoldId) : Eval (Option Value) := do
  return (← boundSlot? name frame).map (·.slot.value)

/-- What the method that runs in a frame knows about its receiver. -/
def receiver? (frame : HoldId) : Eval (Option Receiver) := do
  return (← onEnv (.find frame Scope.receiver)).map (·.2)

def functionFrame (frame : HoldId) : Eval Nat := do
  match ← onEnv (.find frame fun s => if s.isFunction then some () else none) with
  | some (out, _) => return out
  | none => return 0

def namedAccount? (frame : HoldId) : Expr → Eval (Option Address)
  | .this _ => do
    match ← receiver? frame with
    | some { this := .text .account address, .. } => return some address
    | _ => return none
  | .ident _ name => do
    match ← lookup? name frame with
    | some (.text .account address) => return some address
    | _ => return none
  | _ => return none

/-- The address of the contract from whose storage an expression reads. -/
def storageRoot? (frame : HoldId) : Expr → Eval (Option Address)
  | .paren _ x => storageRoot? frame x
  | .index _ x _ => storageRoot? frame x
  | .ident _ name => do
    match ← boundSlot? name frame with
    | some p => return if p.slot.onLedger then some p.contract else none
    | none => return none
  | .member _ x _ _ => do
    match ← namedAccount? frame x with
    | some address => return some address
    | none => storageRoot? frame x
  | _ => return none

/-- An assignment into something that is read from an expression is refused if it would change storage without the
right to do so. -/
def guardStorage (frame : HoldId) (x : Expr) (span : Span) : Eval Unit := do
  match ← storageRoot? frame x with
  | none => return ()
  | some address =>
    let c ← context
    if c.readOnly then typeError span "cannot modify ledger state in a view method"
    else if c.working.isNone || c.self != address then
      raise span .type (utf8 "storage of " ++ address ++ utf8 " can only change inside its own methods")

/-- The balance of an address as the running task sees it. -/
def balance (address : Address) (span : Span) : Eval Int :=
  inTransaction span (.balance · address) (fun _ _ runs => .balance runs _) (ofState (·.ledger.balance address))

/-- An amount as a value: a `long`, or its digits when it does not fit. -/
def amountValue (n : Int) : Value :=
  if WholeKind.long.wrap n = n then .whole .long n else .str (Text.decimalInt n)

def addressOf (v : Value) (span : Span) : Eval Address := do
  match v with
  | .text _ s => return s
  | v => typeError span ("expected an address, got " ++ (← typeName v))

def amountOf (v : Value) (span : Span) : Eval Int := do
  let refuse : Eval Int := do
    raise span .type (utf8 "expected an integer amount, got " ++ (← quoted v))
  match v with
  | .whole .char _ => refuse
  | .whole _ n => return n
  | .text .string s =>
    match readWhole? s with
    | some n => return n
    | none => refuse
  | _ => refuse

end Eval

end LedgerScript
