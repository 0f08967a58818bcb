import LedgerScript.Eval.Member

/-!
# Transactions of a program

A contract is deployed, and its methods are called, by transactions.  Every transaction leaves a receipt.  A view runs on
committed state.  A call from inside a contract belongs to the transaction that runs.
-/

namespace LedgerScript.Eval

def newTransaction (sender receiver : Address) (amount : Int) (method : Bytes) (args : List Value) (code : Bytes := []) :
    Eval Transaction :=
  onState (fun s =>
    let (tx, ledger) := s.ledger.newTransaction sender receiver amount method args code
    (tx, { s with ledger })) fun _ => .newTransaction sender receiver amount method args code

def transact (tx : Transaction) (call : Option ContractCall) : Eval (Receipt Fault) :=
  ExceptT.mk ⟨_, .transact tx call⟩

/-- A transaction is carried out, and its receipt is kept; a failure is thrown. -/
def apply (tx : Transaction) (call : Option ContractCall) (span : Span) : Eval Value := do
  let r ← transact tx call
  onState (fun s => ((), { s with receipts := r :: s.receipts })) fun _ => .receipt r
  match r.fault with
  | some f => throwAs f span
  | none => return r.result

def deploy (cls : Ref) (args : List Value) (span : Span) : Eval Value := do
  let c ← context
  let name ← className cls
  if c.working.isSome then
    raiseText span .ledger ("contract " ++ name ++ " cannot be deployed inside a transaction")
  else
    let address ← ofState (·.ledger.contractAddress c.sender)
    let amount ← takeValue
    let tx ← newTransaction c.sender address amount (utf8 "constructor") args (utf8 name)
    let _ ← apply tx (some { cls, address, method := none, args, span }) span
    return .text .account address

def view (name : String) (call : ContractCall) : Eval Value := do
  let sender := (← context).sender
  let tx ← newTransaction sender call.address 0 (utf8 name) call.args
  match ← outcome (ExceptT.mk ⟨_, .view tx call⟩) with
  | .ok v => return v
  | .error (.fault f) => throwAs f call.span
  | .error e => throw e

def sendingAlong (receiver : Address) (amount : Int) (span : Span) (c : CallContext) : Eval Unit ⊕ LedgerOp Unit :=
  match c.working with
  | none => .inl (return ())
  | some w =>
    if c.readOnly then .inl (typeError span "cannot send value from a view method")
    else .inr (.transfer w c.self receiver amount)

theorem sendingAlong_allowed {receiver : Address} {amount : Int} {span : Span} (c : CallContext) (op : LedgerOp Unit)
    (decided : sendingAlong receiver amount span c = .inr op) : c.Allows op := by
  unfold sendingAlong at decided
  split at decided
  · cases decided
  · rename_i w runs
    split at decided
    · cases decided
    · rename_i writes
      cases decided
      exact .transfer runs (by simpa using writes) (.inl rfl) receiver amount

/-- A call from inside a contract, which belongs to the transaction that runs. -/
def callInside (call : ContractCall) (readOnly : Bool) (amount : Int) : Eval Value := do
  if amount != 0 then byContext call.span (sendingAlong call.address amount call.span) sendingAlong_allowed
  ExceptT.mk ⟨_, .callInside call amount readOnly⟩

def callContract (address : Address) (name : String) (args : List Value) (span : Span) : Eval Value := do
  let c ← context
  let cls ← contractAt address span
  let unknown : Eval Value := do typeError span ("contract " ++ (← className cls) ++ " has no method " ++ name)
  match ← ofHeap (·.method? cls name) with
  | none => unknown
  | some m =>
    if m.isStatic then unknown
    else
      match ← ofHeap fun h => m.fn?.bind h.function? with
      | some (.closure method) =>
        let amount ← takeValue
        if amount > 0 && !method.mods.isPayable then
          typeError span ("method " ++ (← className cls) ++ "." ++ name ++ " is not payable")
        else
          let call : ContractCall := { cls, address, method := some method, args, span }
          if c.working.isSome then callInside call m.isReadOnly amount
          else if m.isReadOnly then view name call
          else
            let tx ← newTransaction c.sender address amount (utf8 name) args
            apply tx (some call) span
      | _ => throw (.crash (utf8 "interface conversion: value.Function is nil, not *interp.Closure"))

/-- A transaction that only moves native value. -/
def payOut (sender receiver : Address) (amount : Int) (span : Span) : Eval Unit := do
  let tx ← newTransaction sender receiver amount [] []
  let _ ← apply tx none span

/-- What a context says about moving native value. -/
def moving (sender receiver : Address) (amount : Int) (span : Span) (c : CallContext) : Eval Unit ⊕ LedgerOp Unit :=
  match c.working with
  | some w =>
    if c.readOnly then .inl (typeError span "cannot move value from a view method")
    else if sender != c.self && sender != c.messageSender then
      .inl (raise span .type
        (utf8 "transaction from " ++ sender ++ utf8 ": only the contract or msg.sender may send"))
    else .inr (.transfer w sender receiver amount)
  | none =>
    if sender != c.sender then
      .inl (raise span .type (utf8 "transaction from " ++ sender ++ utf8 ": the current sender is " ++ c.sender))
    else .inl (payOut sender receiver amount span)

theorem moving_allowed {sender receiver : Address} {amount : Int} {span : Span} (c : CallContext) (op : LedgerOp Unit)
    (decided : moving sender receiver amount span c = .inr op) : c.Allows op := by
  unfold moving at decided
  split at decided
  · rename_i w runs
    split at decided
    · cases decided
    · rename_i writes
      split at decided
      · cases decided
      · rename_i mine
        cases decided
        refine .transfer runs (by simpa using writes) ?_ receiver amount
        by_cases self : sender = c.self
        · exact .inl self
        · exact .inr (by simpa [self] using mine)
  · split at decided <;> cases decided

/-- Native value moves from one address to another. -/
def transferValue (sender receiver : Address) (amount : Int) (span : Span) : Eval Unit :=
  byContext span (moving sender receiver amount span) moving_allowed

end LedgerScript.Eval
