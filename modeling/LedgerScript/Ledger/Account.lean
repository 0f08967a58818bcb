import LedgerScript.Ledger.Transaction
import LedgerScript.Value.Copy

/-!
# Accounts

An account has a native balance, a count of the contracts it has deployed, the name of the contract installed at it,
if any, and that contract's storage.
-/

namespace LedgerScript

structure Account where
  address : Address
  balance : Int := 0
  nonce : Nat := 0
  /-- The contract installed here; empty for a plain account. -/
  code : Bytes := []
  storage : List (Bytes × Value) := []
  deriving Inhabited

namespace Account

/-- The value of a storage slot; a missing one reads as null. -/
def slot (a : Account) (key : Bytes) : Value :=
  match a.storage.find? (·.1 == key) with
  | some (_, v) => v
  | none => .null

def setSlot (a : Account) (key : Bytes) (v : Value) : Account :=
  if a.storage.any (·.1 == key) then
    { a with storage := a.storage.map fun s => if s.1 == key then (key, v) else s }
  else { a with storage := a.storage ++ [(key, v)] }

/-- The storage in the order of its keys. -/
def sortedStorage (a : Account) : List (Bytes × Value) :=
  a.storage.mergeSort fun s t => Text.lexLe s.1 t.1

/-- A copy that shares nothing changeable with the account. -/
def clone (h : Heap) (a : Account) : Except Crash (Account × Heap) := do
  let (storage, h) ← a.storage.foldlM (fun (slots, h) s => do
    let (v, h) ← Heap.deepCopy h s.2
    return (slots ++ [(s.1, v)], h)) ([], h)
  return ({ a with storage }, h)

def pack (h : Heap) (a : Account) : Except Crash Bytes := do
  let slots ← a.sortedStorage.mapM fun s => do
    return Pack.record [("k", Pack.text s.1), ("v", ← h.pack s.2)]
  return Pack.record (
    [("address", Pack.text a.address), ("balance", Pack.text (Text.decimalInt a.balance)),
      ("nonce", Pack.word a.nonce)] ++
    (if a.code = [] then [] else [("code", Pack.text a.code)]) ++
    [("storage", if slots.isEmpty then Pack.absent else Pack.list slots)])

structure Stored where
  account : Account
  balance : Bytes := []

/-- Reading a stored slot. -/
def unpackSlot : UnpackHeap (Bytes × Value) :=
  unpackRecord ([], .null) [
    ("k", fun s => do return (← liftUnpack Unpack.text, s.2)),
    ("v", fun s => do return (s.1, ← UnpackValue.value packDepth))]

def unpackSlots : Nat → UnpackHeap (List (Bytes × Value))
  | 0 => pure []
  | n + 1 => do
    let first ← unpackSlot
    return first :: (← unpackSlots n)

def unpack : UnpackHeap Stored :=
  unpackRecord { account := { address := [] } } [
    ("address", fun s => do return { s with account := { s.account with address := ← liftUnpack Unpack.text } }),
    ("balance", fun s => do return { s with balance := ← liftUnpack Unpack.text }),
    ("nonce", fun s => do return { s with account := { s.account with nonce := ← liftUnpack (Unpack.natMod 64) } }),
    ("code", fun s => do return { s with account := { s.account with code := ← liftUnpack Unpack.text } }),
    ("storage", fun s => do
      let n ← liftUnpack Unpack.listLength
      let slots ← unpackSlots (n.getD 0)
      let account := slots.foldl (fun a e => a.setSlot e.1 e.2) { s.account with storage := [] }
      return { s with account })]

def ofBytes? (h : Heap) (bytes : Bytes) : Option (Account × Heap) := do
  let ((s, h), _) ← unpack h bytes
  return ({ s.account with balance := ← readWhole? s.balance }, h)

end Account

end LedgerScript
