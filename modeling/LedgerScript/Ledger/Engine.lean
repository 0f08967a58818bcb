import LedgerScript.Ledger.Store
import LedgerScript.Schedule.Sync

/-!
# The ledger

The ledger holds the committed accounts, the chain of blocks and the store behind them.  A transaction works on
copies of the accounts that it touches, its *working set*, and nobody else may touch those accounts meanwhile: each
working set holds the addresses that it has reached.  At the end the copies replace the committed accounts all at
once, or they are dropped.

Inside tasks an address also has a lock of the scheduler.  A transaction first takes the locks of its sender and its
receiver, in the order of addresses and waiting for its turn; whatever it reaches later it takes only if it is free,
and a conflict rolls it back.  A view works on committed state, takes no locks and writes nothing.

Failures leave the state as it is at that moment, so the operations are a state monad under exceptions.
-/

namespace LedgerScript

-- Sums start from the numeral zero, whatever algebra is at hand.
attribute [local instance (high)] Zero.ofOfNat0

/-- Why an operation of the ledger fails. -/
inductive LedgerFault where
  | conflict (address : Address)
  | readOnly
  | closed
  | validation (message : Bytes)
  | conservation (before after : Int)
  | occupied (address : Address) (code : Bytes)
  | store (f : StoreFault)
  | persist (block : Nat) (f : StoreFault)
  | loadBlocks (f : StoreFault)
  | loadAccounts (f : StoreFault)
  /-- The run as a whole was called off. -/
  | interrupted
  | crash (c : Crash)
  deriving DecidableEq, Repr, Inhabited

namespace LedgerFault

/-- What is said about a failure. -/
def text : LedgerFault → Bytes
  | conflict address => utf8 "concurrency conflict: account " ++ address
  | readOnly => utf8 "write to ledger state in a read-only call"
  | closed => utf8 "ledger closed"
  | validation message => utf8 "validation failed: " ++ message
  | conservation before after =>
    utf8 "balance not conserved: " ++ Text.decimalInt before ++ utf8 " before, " ++ Text.decimalInt after ++
      utf8 " after"
  | occupied address code => utf8 "address " ++ address ++ utf8 " already holds contract " ++ code
  | store f => utf8 f.text
  | persist block f => utf8 ("persist block " ++ toString block ++ ": " ++ f.text)
  | loadBlocks f => utf8 ("load blocks: " ++ f.text)
  | loadAccounts f => utf8 ("load accounts: " ++ f.text)
  | interrupted => utf8 "context canceled"
  | crash c => utf8 c.text

/-- Why a transaction with this failure was rolled back: of a failed validation the message alone. -/
def reason : LedgerFault → Bytes
  | validation message => message
  | f => f.text

end LedgerFault

abbrev WorkingId := Nat

structure Working where
  tx : Transaction
  isView : Bool
  /-- Reads go to committed state. -/
  validating : Bool := false
  /-- Copies of the accounts touched so far. -/
  accounts : List Account := []
  /-- The addresses held, the latest first, and whether the lock of the address was taken. -/
  held : List (Address × Bool) := []
  events : List LedgerEvent := []
  /-- The first failed validation: it rolls the transaction back even if the contract recovers from it. -/
  failed : Option LedgerFault := none
  deriving Inhabited

def Working.copy? (k : Working) (address : Address) : Option Account :=
  k.accounts.find? (·.address == address)

structure Ledger where
  accounts : List Account := []
  chain : Chain := { blockSize := 16 }
  store : Store := {}
  isClosed : Bool := false
  holders : List (Address × WorkingId) := []
  locks : List (Address × ObjectId) := []
  workings : Array Working := #[]
  made : Nat := 0
  deriving Inhabited

/-- What operations of the ledger work on. -/
structure LedgerState (V E B : Type) where
  sched : Scheduler V E B
  heap : Heap
  ledger : Ledger

abbrev LedgerM (V E B : Type) := ExceptT LedgerFault (StateM (LedgerState V E B))

namespace Ledger

/-! ## Committed state -/

def account? (l : Ledger) (address : Address) : Option Account :=
  l.accounts.find? (·.address == address)

def balance (l : Ledger) (address : Address) : Int :=
  match l.account? address with
  | some a => a.balance
  | none => 0

def working (l : Ledger) (w : WorkingId) : Working :=
  l.workings[w]?.getD default

/-- A change to a working set. -/
def modifyWorking (l : Ledger) (w : WorkingId) (f : Working → Working) : Ledger :=
  { l with workings := l.workings.modify w f }

def holder? (l : Ledger) (address : Address) : Option WorkingId :=
  (l.holders.find? (·.1 == address)).map (·.2)

/-- The committed accounts in the order of their addresses. -/
def sortedAccounts (l : Ledger) : List Account :=
  l.accounts.mergeSort fun a b => Text.lexLe a.address b.address

def total (l : Ledger) : Int :=
  (l.accounts.map (·.balance)).sum

def putAccount (accounts : List Account) (a : Account) : List Account :=
  if accounts.any (·.address == a.address) then accounts.map fun b => if b.address == a.address then a else b
  else accounts ++ [a]

/-- The address of the next contract that an account deploys. -/
def contractAddress (l : Ledger) (sender : Address) : Address :=
  let nonce := match l.account? sender with
    | some a => a.nonce
    | none => 0
  utf8 "0x" ++ Text.hex ((Digest.ofBytes (sender ++ Text.decimal nonce)).drop 12)

/-- A ledger on a store, or why it cannot be read. -/
def load (blockSize : Int) (store : Store) (h : Heap) : Except LedgerFault (Ledger × Heap) :=
  let blockSize := if blockSize ≤ 0 then 16 else blockSize.toNat
  match store.loadBlocks h with
  | .error f => .error (.loadBlocks f)
  | .ok (blocks, h) =>
    match store.loadAccounts h with
    | .error f => .error (.loadAccounts f)
    | .ok (accounts, h) => .ok ({ accounts, chain := .restore blockSize blocks, store }, h)

def newTransaction (l : Ledger) (sender receiver : Address) (amount : Int) (method : Bytes) (args : List Value)
    (code : Bytes) : Transaction × Ledger :=
  ({ id := transactionId (l.made + 1), sender, receiver, amount, method, args, code }, { l with made := l.made + 1 })

end Ledger

namespace LedgerM

variable {V E B : Type}

def ledger : LedgerM V E B Ledger := do
  return (← get).ledger

@[inline] def modifyLedger (f : Ledger → Ledger) : LedgerM V E B Unit :=
  modify fun s => match s with
    | ⟨sched, heap, ledger⟩ => ⟨sched, heap, f ledger⟩

@[inline] def modifySched (f : Scheduler V E B → Scheduler V E B) : LedgerM V E B Unit :=
  modify fun s => match s with
    | ⟨sched, heap, ledger⟩ => ⟨f sched, heap, ledger⟩

def onHeap {α : Type} (f : Heap → Except Crash (α × Heap)) : LedgerM V E B α := do
  match f (← get).heap with
  | .ok (a, heap) =>
    modify fun s => { s with heap }
    return a
  | .error c => throw (.crash c)

/-- A point of the ledger enters the journal. -/
def note (name : String) (detail : Bytes) (attrs : List (String × Bytes)) : LedgerM V E B Unit :=
  modifySched (·.note { scope := .ledger, name, detail, attrs })

/-! ## Working sets -/

def newWorking (tx : Transaction) (isView : Bool) : LedgerM V E B WorkingId := do
  let id := (← ledger).workings.size
  modifyLedger fun l => { l with workings := l.workings.push { tx, isView } }
  return id

def working (w : WorkingId) : LedgerM V E B Working := do
  return (← ledger).working w

/-- A change to a working set. -/
def modifyWorking (w : WorkingId) (f : Working → Working) : LedgerM V E B Unit :=
  modifyLedger (·.modifyWorking w f)

def holder? (address : Address) : LedgerM V E B (Option WorkingId) := do
  return (← ledger).holder? address

def inTask : LedgerM V E B Bool := do
  return (← get).sched.current.isSome

/-- The lock of an address, which is made when it is first asked for. -/
def lockOf (address : Address) : LedgerM V E B ObjectId := do
  match (← ledger).locks.find? (·.1 == address) with
  | some (_, id) => return id
  | none =>
    let s ← get
    let (id, sched) := s.sched.newLock
    set { s with sched, ledger := { s.ledger with locks := (address, id) :: s.ledger.locks } }
    return id

/-- The lock that has to be taken before an address can be held; none if it is held already or no task runs. -/
def lockNeeded (w : WorkingId) (address : Address) : LedgerM V E B (Option ObjectId) := do
  if (← holder? address) == some w then return none
  else if ← inTask then return some (← lockOf address)
  else return none

/-- An address is held from now on, unless another working set holds it. -/
def hold (w : WorkingId) (address : Address) (lock? : Option ObjectId) : LedgerM V E B Unit := do
  match ← holder? address with
  | some other =>
    if other == w then return ()
    if let some lock := lock? then modifySched (·.releaseLock lock)
    throw (.conflict address)
  | none =>
    modifyLedger fun l => { l with holders := (address, w) :: l.holders }
    modifyWorking w fun k => { k with held := (address, lock?.isSome) :: k.held }

/-- An address is held if nobody else is at it. -/
def tryHold (w : WorkingId) (address : Address) : LedgerM V E B Unit := do
  match ← lockNeeded w address with
  | none => hold w address none
  | some lock =>
    let s ← get
    let (taken, sched) := s.sched.tryLock lock
    set { s with sched }
    if taken then hold w address (some lock) else throw (.conflict address)

/-- An address that a working set holds becomes free, and so does its lock if it was taken. -/
def letGo (w : WorkingId) (h : Address × Bool) : LedgerM V E B Unit := do
  if (← holder? h.1) == some w then
    modifyLedger fun l => { l with holders := l.holders.filter (·.1 != h.1) }
  if h.2 then
    let lock ← lockOf h.1
    modifySched (·.releaseLock lock)

/-- All addresses that a working set holds become free. -/
def release (w : WorkingId) : LedgerM V E B Unit := do
  (← working w).held.forM (letGo w)
  modifyWorking w fun k => { k with held := [] }

/-- The copy of an account in a working set, which is made when the account is first touched. -/
def touch (w : WorkingId) (address : Address) : LedgerM V E B Account := do
  match (← working w).copy? address with
  | some a => return a
  | none =>
    tryHold w address
    let a ← match (← ledger).account? address with
      | some committed => onHeap fun h => committed.clone h
      | none => pure { address }
    modifyWorking w fun k => { k with accounts := k.accounts ++ [a] }
    return a

/-- The copy of an account changes. -/
def update (w : WorkingId) (a : Account) : LedgerM V E B Unit :=
  modifyWorking w fun k => { k with accounts := Ledger.putAccount k.accounts a }

/-- A storage slot as a transaction sees it; a missing one reads as null. -/
def load (w : WorkingId) (address : Address) (key : Bytes) : LedgerM V E B Value := do
  let k ← working w
  if k.isView || k.validating then
    match k.copy? address, k.validating with
    | some a, false => return a.slot key
    | _, _ =>
      match (← ledger).account? address with
      | some a => onHeap fun h => h.deepCopy (a.slot key)
      | none => return .null
  else return (← touch w address).slot key

/-- A storage slot is written. -/
def store (w : WorkingId) (address : Address) (key : Bytes) (v : Value) : LedgerM V E B Unit := do
  if (← working w).isView then throw .readOnly
  let a ← touch w address
  update w (a.setSlot key v)

/-- The contract installed at an address as a transaction sees it. -/
def code (w : WorkingId) (address : Address) : LedgerM V E B Bytes := do
  match (← working w).copy? address with
  | some a => return a.code
  | none =>
    match (← ledger).account? address with
    | some a => return a.code
    | none => return []

def balance (w : WorkingId) (address : Address) : LedgerM V E B Int := do
  let k ← working w
  if k.isView || k.validating then return (← ledger).balance address
  else return (← touch w address).balance

/-- Native value moves between two accounts. -/
def transfer (w : WorkingId) (sender receiver : Address) (amount : Int) : LedgerM V E B Unit := do
  if (← working w).isView then throw .readOnly
  if amount < 0 then throw (.validation (utf8 "Negative amount"))
  let _ ← touch w sender
  let _ ← touch w receiver
  let source ← touch w sender
  if source.balance < amount then throw (.validation (utf8 "Insufficient balance"))
  update w { source with balance := source.balance - amount }
  let target ← touch w receiver
  update w { target with balance := target.balance + amount }

def emit (w : WorkingId) (e : LedgerEvent) : LedgerM V E B Unit := do
  if (← working w).isView then throw .readOnly
  modifyWorking w fun k => { k with events := k.events ++ [e] }

/-- The first failure of a working set is kept. -/
def fail (w : WorkingId) (f : LedgerFault) : LedgerM V E B Unit :=
  modifyWorking w fun k => { k with failed := k.failed.or (some f) }

/-- Reads go to committed state or not; the result is the setting before. -/
def setValidating (w : WorkingId) (on : Bool) : LedgerM V E B Bool := do
  let before := (← working w).validating
  modifyWorking w fun k => { k with validating := on }
  return before

/-- A contract is installed, and its sender counts it. -/
def deploy (w : WorkingId) (sender address : Address) (code : Bytes) : LedgerM V E B Unit := do
  let a ← touch w address
  if a.code != [] then throw (.occupied address a.code)
  update w { a with code }
  let s ← touch w sender
  update w { s with nonce := s.nonce + 1 }

/-! ## Transactions -/

def lockOrder (tx : Transaction) : List Address :=
  let addresses := [tx.sender, tx.receiver].filter (· != [])
  (addresses.mergeSort Text.lexLe).eraseDups

/-- What a transaction does before its contract runs: the deployment and the transfer. -/
def prepare (w : WorkingId) (tx : Transaction) : LedgerM V E B Unit := do
  if tx.code != [] then deploy w tx.sender tx.receiver tx.code
  if tx.amount != 0 then transfer w tx.sender tx.receiver tx.amount

/-- A step of the store that may be refused. -/
def onStore (f : Store → Heap → Except StoreFault (Store × Heap)) : LedgerM V E B (Option StoreFault) := do
  let s ← get
  match f s.ledger.store s.heap with
  | .ok (store, heap) =>
    set { s with heap, ledger := { s.ledger with store } }
    return none
  | .error e => return some e

def putBlock (b : ChainBlock) : LedgerM V E B (Option StoreFault) :=
  onStore fun s h => do return (← s.putBlock h b, h)

/-- A block, the block behind it if it is sealed, and then the changed accounts are written to the store. -/
def persist (b : ChainBlock) (next : Option ChainBlock) (changed : List Account) : LedgerM V E B (Option StoreFault) := do
  if let some f ← putBlock b then return some f
  if let some n := next then
    if let some f ← putBlock n then return some f
  onStore fun s h => s.putAccounts h changed

def dropBehind (b : ChainBlock) (sealing : Bool) : LedgerM V E B (Option StoreFault) :=
  if sealing then onStore fun s h => do return (← s.deleteBlock (b.number + 1), h) else pure none

/-- The store goes back to the block as it was before; what it refuses is noted. -/
def unpersist (b : ChainBlock) (sealing : Bool) : LedgerM V E B Unit := do
  let first ← putBlock b
  let second ← dropBehind b sealing
  let texts := [first, second].filterMap fun f => f.map (utf8 ·.text)
  if !texts.isEmpty then note "ledger.store_error" (Text.join (utf8 "\n") texts) []

/-- The chain as it was before its last transaction.  The hash of the open block is made anew, since the arguments of
earlier transactions may have changed. -/
def takeBack (before : Chain) : LedgerM V E B Chain := do
  match before.head.rehash (← get).heap with
  | .ok head => return { before with head }
  | .error _ => return before

/-- The working set replaces the committed accounts, and the transaction enters the chain and the store; the result
is the number of its block.  If the store refuses, no account has changed. -/
def commit (w : WorkingId) : LedgerM V E B Nat := do
  let k ← working w
  let l ← ledger
  let before := (k.accounts.map fun a => l.balance a.address).sum
  let after := (k.accounts.map (·.balance)).sum
  if before != after then throw (.conservation before after)
  let tx := { k.tx with status := .committed }
  let (chain, block, isSealed) ← onHeap fun h => do return (← l.chain.append h tx, h)
  modifyLedger fun l => { l with chain }
  let next := if isSealed then some chain.head else none
  if let some f ← persist block next k.accounts then
    let undone ← takeBack l.chain
    modifyLedger fun l => { l with chain := undone }
    unpersist undone.head isSealed
    throw (.persist block.number f)
  modifyLedger fun l => { l with accounts := k.accounts.foldl Ledger.putAccount l.accounts }
  note "ledger.commit" tx.text [("block", Text.decimal block.number), ("hash", Digest.short block.hash)]
  if isSealed then
    note "ledger.seal" (Digest.text block.hash)
      [("block", Text.decimal block.number), ("txs", Text.decimal block.txs.length)]
  return block.number

def noteRollback (tx : Transaction) (reason : Bytes) : LedgerM V E B Unit :=
  note "ledger.rollback" reason [("tx", tx.id)]

/-- Initial balances of addresses that have no account yet. -/
def genesis (balances : List (Address × Int)) : LedgerM V E B Unit := do
  let l ← ledger
  let sorted := balances.mergeSort fun x y => Text.lexLe x.1 y.1
  let fresh := (sorted.filter fun b => (l.account? b.1).isNone).map fun b =>
    ({ address := b.1, balance := b.2 } : Account)
  if fresh.isEmpty then return ()
  modifyLedger fun l => { l with accounts := l.accounts ++ fresh }
  if let some f ← onStore fun s h => s.putAccounts h fresh then throw (.store f)

/-- The ledger is closed; closing it again does nothing. -/
def close : LedgerM V E B Unit := do
  if (← ledger).isClosed then return ()
  modifyLedger fun l => { l with isClosed := true }
  match (← ledger).store.close with
  | .ok store => modifyLedger fun l => { l with store }
  | .error f => throw (.store f)

end LedgerM

/-!
## What is told about a ledger

Receipts, accounts and blocks with all their values shown, as they stand at one moment.
-/

/-- A receipt with its values shown. -/
structure ReceiptReport where
  id : Bytes
  status : String
  isOk : Bool
  reason : Bytes
  events : List (Address × Bytes)
  result : Heap.ShownValue
  block : Nat
  deriving Inhabited

def Receipt.report {E : Type} (h : Heap) (r : Receipt E) : ReceiptReport :=
  { id := r.id, status := r.status.name, isOk := r.status == .committed, reason := r.reason
    events := r.events.map fun e => (e.contract, e.text h), result := h.report r.result, block := r.block }

/-- An account with its storage shown. -/
structure AccountReport where
  address : Address
  balance : Int
  nonce : Nat
  code : Bytes
  storage : List (Bytes × Heap.ShownValue)
  deriving Inhabited

def Account.report (h : Heap) (a : Account) : AccountReport :=
  { address := a.address, balance := a.balance, nonce := a.nonce, code := a.code
    storage := a.sortedStorage.map fun s => (s.1, h.report s.2) }

/-- A transaction with its arguments shown. -/
structure TransactionReport where
  text : Bytes
  method : Bytes
  args : List Heap.ShownValue
  code : Bytes
  status : String
  deriving Inhabited

def Transaction.report (h : Heap) (tx : Transaction) : TransactionReport :=
  { text := tx.text, method := tx.method, args := tx.args.map h.report, code := tx.code, status := tx.status.name }

/-- A block with its transactions shown. -/
structure BlockReport where
  number : Nat
  prev : Digest
  hash : Digest
  isSealed : Bool
  txs : List TransactionReport
  deriving Inhabited

def ChainBlock.report (h : Heap) (b : ChainBlock) : BlockReport :=
  { number := b.number, prev := b.prevHash, hash := b.hash, isSealed := b.isSealed, txs := b.txs.map (·.report h) }

structure LedgerReport where
  accounts : List AccountReport
  blocks : List BlockReport
  total : Int
  fault : Option ChainFault
  txs : Nat
  deriving Inhabited

def Ledger.report (h : Heap) (l : Ledger) : LedgerReport :=
  { accounts := l.sortedAccounts.map (·.report h), blocks := l.chain.blocks.map (·.report h), total := l.total
    fault := l.chain.verify h, txs := l.chain.length }

end LedgerScript
