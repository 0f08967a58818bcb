import LedgerScript.Files.Tree
import LedgerScript.Ledger.Account
import LedgerScript.Ledger.Block

/-!
# Stores

A store keeps the stored form of every block, and the accounts.  A store in memory keeps copies of the accounts; a
store on disk keeps their stored form, so that it can outlive the heap.  Once a store on disk is closed it refuses
everything.
-/

namespace LedgerScript

/-- Where a store keeps its records. -/
inductive StoreKind where
  | memory
  | disk
  deriving DecidableEq, Repr, Inhabited

/-- Why a store refuses. -/
inductive StoreFault where
  | closed
  | full
  | unreadable
  | crash (c : Crash)
  deriving DecidableEq, Repr, Inhabited

/-- What is said about a refusal. -/
def StoreFault.text : StoreFault → String
  | closed => "leveldb: closed"
  | full => "disk full"
  | unreadable => "unreadable record"
  | crash c => c.text

inductive StoreWrite where
  | block (b : ChainBlock)
  | deletion (number : Nat)
  | accounts (as : List Account)

/-- The records of a ledger. -/
structure Store where
  kind : StoreKind := .memory
  blocks : List (Nat × Bytes) := []
  accounts : List Account := []
  /-- Stored accounts of a store on disk, by address. -/
  records : List (Address × Bytes) := []
  isClosed : Bool := false
  refusesBlocks : Bool := false
  refusesAccounts : Bool := false
  refuses : StoreWrite → Bool := fun _ => false
  deriving Inhabited

namespace Store

def isShut (s : Store) : Bool :=
  s.isClosed && s.kind == .disk

/-- A block is written over the one of the same number. -/
def putBlock (s : Store) (h : Heap) (b : ChainBlock) : Except StoreFault Store :=
  if s.refusesBlocks || s.refuses (.block b) then .error .full
  else
    match b.pack h with
    | .error c => .error (.crash c)
    | .ok bytes =>
      if s.isShut then .error .closed
      else .ok { s with blocks := (b.number, bytes) :: s.blocks.filter (·.1 ≠ b.number) }

def deleteBlock (s : Store) (number : Nat) : Except StoreFault Store :=
  if s.refuses (.deletion number) then .error .full
  else if s.isShut then .error .closed
  else .ok { s with blocks := s.blocks.filter (·.1 ≠ number) }

/-- Accounts are written over those of the same addresses. -/
def putAccounts (s : Store) (h : Heap) (accounts : List Account) : Except StoreFault (Store × Heap) := do
  if s.refusesAccounts || s.refuses (.accounts accounts) then .error .full
  match s.kind with
  | .memory =>
    accounts.foldlM (fun (s, h) a =>
      match a.clone h with
      | .error c => .error (.crash c)
      | .ok (copy, h) =>
        .ok ({ s with accounts := copy :: s.accounts.filter (·.address != a.address) }, h)) (s, h)
  | .disk =>
    let records ← accounts.mapM fun a =>
      match a.pack h with
      | .error c => .error (.crash c)
      | .ok bytes => .ok (a.address, bytes)
    if s.isShut then .error .closed
    let kept := s.records.filter fun r => !records.any (·.1 == r.1)
    return ({ s with records := records ++ kept }, h)

/-- All blocks in the order of their numbers. -/
def loadBlocks (s : Store) (h : Heap) : Except StoreFault (List ChainBlock × Heap) := do
  if s.isShut then .error .closed
  let sorted := s.blocks.mergeSort fun x y => x.1 ≤ y.1
  sorted.foldlM (fun (bs, h) r =>
    match ChainBlock.ofBytes? h r.2 with
    | some (b, h) => .ok (bs ++ [b], h)
    | none => .error .unreadable) ([], h)

/-- All accounts in the order of their addresses. -/
def loadAccounts (s : Store) (h : Heap) : Except StoreFault (List Account × Heap) := do
  if s.isShut then .error .closed
  match s.kind with
  | .memory =>
    let sorted := s.accounts.mergeSort fun x y => Text.lexLe x.address y.address
    sorted.foldlM (fun (as, h) a =>
      match a.clone h with
      | .ok (copy, h) => .ok (as ++ [copy], h)
      | .error c => .error (.crash c)) ([], h)
  | .disk =>
    let sorted := s.records.mergeSort fun x y => Text.lexLe x.1 y.1
    sorted.foldlM (fun (as, h) r =>
      match Account.ofBytes? h r.2 with
      | some (a, h) => .ok (as ++ [a], h)
      | none => .error .unreadable) ([], h)

def close (s : Store) : Except StoreFault Store :=
  if s.isShut then .error .closed else .ok { s with isClosed := true }

end Store

end LedgerScript

/-!
## A ledger in a folder

A store on disk is a folder of records.  Each block lies in a file that is named after its number, and each account in
one that is named after its address, both in hexadecimal digits.
-/

namespace LedgerScript.Store

-- Powers are those of the numbers themselves, whatever algebra is at hand.
attribute [local instance (high)] instPowNat

/-- How the name of a block's file starts. -/
def blockMark : Bytes := utf8 "block-"

/-- How the name of an account's file starts. -/
def accountMark : Bytes := utf8 "account-"

def keyIn? (mark name : Bytes) : Option Bytes :=
  if mark.isPrefixOf name then Text.unhex? (name.drop mark.length) else none

def numberKey (n : Nat) : Bytes :=
  (List.range 8).map fun i => (n / 256 ^ (7 - i)).toUInt8

def keyNumber (key : Bytes) : Nat :=
  key.foldl (fun n b => n * 256 + b.toNat) 0

/-- The store that a folder holds; one that is not there holds nothing. -/
def ofFolder (t : FileTree) (path : Bytes) : Store :=
  let place := t.place path
  let records (mark : Bytes) : List (Bytes × Bytes) :=
    t.files.filterMap fun f =>
      if f.1.dropLast = place then (keyIn? mark (f.1.getLastD [])).map fun key => (key, f.2) else none
  { kind := .disk, blocks := (records blockMark).map fun r => (keyNumber r.1, r.2), records := records accountMark }

def toFolder (s : Store) (t : FileTree) (path : Bytes) : FileTree :=
  let place := t.place path
  let file (mark key content : Bytes) : List Bytes × Bytes := (place ++ [mark ++ Text.hex key], content)
  { t with
    files := t.files.filter (·.1.dropLast ≠ place) ++ s.blocks.map (fun b => file blockMark (numberKey b.1) b.2) ++
      s.records.map fun r => file accountMark r.1 r.2
    folders := place :: t.folders }

end LedgerScript.Store
