import LedgerScript.Value.Wire

/-!
# Transactions

A transaction moves native value from one address to another and may carry a call of a contract method or the
deployment of a contract.  Its identifier is a text of 36 characters, made from the number of transactions made
before it.
-/

namespace LedgerScript

abbrev Address := Bytes

/-- What became of a transaction. -/
inductive TxStatus where
  | pending
  | committed
  | rolledBack
  /-- A stored number that stands for none of these. -/
  | other (n : Nat)
  deriving DecidableEq, Repr, Inhabited

namespace TxStatus

def name : TxStatus → String
  | pending => "pending"
  | committed => "committed"
  | rolledBack => "rolled back"
  | other n => "Status(" ++ toString n ++ ")"

def number : TxStatus → Nat
  | pending => 0
  | committed => 1
  | rolledBack => 2
  | other n => n

def ofNumber : Nat → TxStatus
  | 0 => pending
  | 1 => committed
  | 2 => rolledBack
  | n => other n

end TxStatus

def transactionId (n : Nat) : Bytes :=
  utf8 "00000000-0000-4000-8000-" ++ Text.hexFixed 12 (n % Nat.pow 2 32)

/-- The value of a hexadecimal digit. -/
def hexValue? (b : UInt8) : Option Nat :=
  if 48 ≤ b && b ≤ 57 then some (b.toNat - 48)
  else if 97 ≤ b && b ≤ 102 then some (b.toNat - 87)
  else if 65 ≤ b && b ≤ 70 then some (b.toNat - 55)
  else none

/-- Hexadecimal digits in groups, with dashes between them. -/
def dashed : List Nat → Bytes → Option Bytes
  | [], [] => some []
  | [], _ => none
  | [n], digits => if digits.length = n then some digits else none
  | n :: rest, digits => do
    let dash :: more := digits.drop n | none
    if dash != ascii '-' then none
    return digits.take n ++ (← dashed rest more)

/-- The written form of an identifier given by 32 hexadecimal digits. -/
def idOfDigits? (digits : Bytes) : Option Bytes := do
  if digits.length != 32 then none
  let lower ← digits.mapM fun b => (hexValue? b).map Text.hexDigit
  return Text.join [ascii '-']
    [lower.take 8, (lower.drop 8).take 4, (lower.drop 12).take 4, (lower.drop 16).take 4, lower.drop 20]

/-- An identifier as it may be stored: plain, after a marker, in braces, or without dashes. -/
def readId? (text : Bytes) : Option Bytes :=
  let plain (t : Bytes) : Option Bytes := do idOfDigits? (← dashed [8, 4, 4, 4, 12] t)
  match text.length with
  | 32 => idOfDigits? text
  | 36 => plain text
  | 38 => plain ((text.drop 1).take 36)
  | 45 => if lowerAscii (text.take 9) == utf8 "urn:uuid:" then plain (text.drop 9) else none
  | _ => none

structure Transaction where
  id : Bytes
  sender : Address
  receiver : Address
  amount : Int
  /-- The contract method; empty for a plain transfer. -/
  method : Bytes
  args : List Value
  /-- The contract that a deployment installs; empty for other transactions. -/
  code : Bytes
  status : TxStatus := .pending
  deriving Inhabited

namespace Transaction

def text (tx : Transaction) : Bytes :=
  tx.id ++ utf8 " " ++ tx.sender ++ utf8 " -> " ++ tx.receiver ++ utf8 " : " ++ Text.decimalInt tx.amount ++
    utf8 " (" ++ (if tx.method = [] then utf8 "transfer" else tx.method) ++ utf8 ")"

/-- The stored form.  Empty methods, arguments and codes are left out. -/
def pack (h : Heap) (tx : Transaction) : Except Crash Bytes := do
  let args ← tx.args.mapM h.pack
  return Pack.record (
    [("id", Pack.text tx.id), ("from", Pack.text tx.sender), ("to", Pack.text tx.receiver),
      ("amount", Pack.text (Text.decimalInt tx.amount))] ++
    (if tx.method = [] then [] else [("method", Pack.text tx.method)]) ++
    (if tx.args.isEmpty then [] else [("args", Pack.list args)]) ++
    (if tx.code = [] then [] else [("code", Pack.text tx.code)]) ++
    [("status", Pack.byte tx.status.number)])

/-- A stored transaction before its identifier and amount are read. -/
structure Stored where
  id : Bytes := []
  sender : Bytes := []
  receiver : Bytes := []
  amount : Bytes := []
  method : Bytes := []
  args : List Value := []
  code : Bytes := []
  status : Nat := 0

def unpackValues : StateT Heap (StateT Bytes Option) (List Value) := do
  match ← (Unpack.listLength : StateT Bytes Option _) with
  | none => return []
  | some n => UnpackValue.times (UnpackValue.value packDepth) n

def ofStored? (s : Stored) : Option Transaction := do
  let id ← readId? s.id
  let amount ← readWhole? s.amount
  return {
    id, sender := s.sender, receiver := s.receiver, amount, method := s.method, args := s.args, code := s.code
    status := .ofNumber s.status }

end Transaction

/-- Reading records whose fields may hold values: the heap grows along the way. -/
abbrev UnpackHeap (α : Type) := StateT Heap (StateT Bytes Option) α

def unpackRecord {α : Type} (start : α) (fields : List (String × (α → UnpackHeap α))) : UnpackHeap α := fun h bytes => do
  let step (f : α → UnpackHeap α) : (α × Heap) → Unpack (α × Heap) := fun s bytes => f s.1 s.2 bytes
  Unpack.record (start, h) (fields.map fun f => (f.1, step f.2)) bytes

/-- Something that needs no heap. -/
def liftUnpack {α : Type} (x : Unpack α) : UnpackHeap α := fun h bytes => do
  let (a, rest) ← x bytes
  return ((a, h), rest)

def Transaction.unpack : UnpackHeap Transaction.Stored :=
  unpackRecord {} [
    ("id", fun s => do return { s with id := ← liftUnpack Unpack.text }),
    ("from", fun s => do return { s with sender := ← liftUnpack Unpack.text }),
    ("to", fun s => do return { s with receiver := ← liftUnpack Unpack.text }),
    ("amount", fun s => do return { s with amount := ← liftUnpack Unpack.text }),
    ("method", fun s => do return { s with method := ← liftUnpack Unpack.text }),
    ("args", fun s => do return { s with args := ← Transaction.unpackValues }),
    ("code", fun s => do return { s with code := ← liftUnpack Unpack.text }),
    ("status", fun s => do return { s with status := ← liftUnpack (Unpack.natMod 8) })]

structure LedgerEvent where
  contract : Address
  name : Bytes
  fields : List (Bytes × Value)
  deriving Inhabited

def LedgerEvent.text (h : Heap) (e : LedgerEvent) : Bytes :=
  e.name ++ utf8 "(" ++ Value.commas (e.fields.map fun f => f.1 ++ utf8 ": " ++ h.shownQuoted f.2) ++ utf8 ")"

/-- The outcome of a transaction; `E` is the type of what made it fail. -/
structure Receipt (E : Type) where
  /-- The transaction with the status that it ended with. -/
  tx : Transaction
  status : TxStatus := .rolledBack
  /-- Why it was rolled back. -/
  reason : Bytes := []
  fault : Option E := none
  events : List LedgerEvent := []
  result : Value := .null
  block : Nat := 0
  deriving Inhabited

namespace Receipt

variable {E : Type}

/-- The identifier of the transaction. -/
def id (r : Receipt E) : Bytes :=
  r.tx.id

def committed (tx : Transaction) (events : List LedgerEvent) (result : Value) (block : Nat) : Receipt E :=
  { tx := { tx with status := .committed }, status := .committed, events, result, block }

def rolledBack (tx : Transaction) (reason : Bytes) (f : E) : Receipt E :=
  { tx := { tx with status := .rolledBack }, reason, fault := some f }

end Receipt

end LedgerScript
