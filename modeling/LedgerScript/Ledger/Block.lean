import LedgerScript.Ledger.Transaction

/-!
# Blocks and the chain

Committed transactions are gathered in numbered blocks.  The hash of a block is the digest of the hash before it
followed by the stored form of its transactions, so a chain of blocks is fixed by its last hash.  The last block is
open; it is sealed when it is full, and a new one opens behind it.

The arguments of a transaction may be changed by the program after the transaction was made, and the stored form of
the transaction is then another.  That is what `verify` finds out.
-/

/-!
## Digests

The 256-bit digest of a text: a sponge over a state of 25 words of 64 bits.  A block of 136 bytes is absorbed at a
time, and the last one is padded with a one bit at its start and a one bit at its end; the digest is the first 32
bytes of the state.
-/

namespace LedgerScript

abbrev Digest := Bytes

namespace Digest

/-- How many bytes are absorbed at a time. -/
def rate : Nat := 136

/-- The constants that the rounds add to the first word. -/
def roundConstants : List UInt64 :=
  [0x0000000000000001, 0x0000000000008082, 0x800000000000808A, 0x8000000080008000, 0x000000000000808B,
    0x0000000080000001, 0x8000000080008081, 0x8000000000008009, 0x000000000000008A, 0x0000000000000088,
    0x0000000080008009, 0x000000008000000A, 0x000000008000808B, 0x800000000000008B, 0x8000000000008089,
    0x8000000000008003, 0x8000000000008002, 0x8000000000000080, 0x000000000000800A, 0x800000008000000A,
    0x8000000080008081, 0x8000000000008080, 0x0000000080000001, 0x8000000080008008]

/-- How far each word is turned. -/
def turns : Array UInt64 :=
  #[0, 1, 62, 28, 27, 36, 44, 6, 55, 20, 3, 10, 43, 25, 39, 41, 45, 15, 21, 8, 18, 2, 61, 56, 14]

def word (s : Array UInt64) (i : Nat) : UInt64 :=
  s[i]?.getD 0

/-- A word turned to the left. -/
def turn (x n : UInt64) : UInt64 :=
  if n = 0 then x else (x <<< n) ||| (x >>> (64 - n))

/-- Every word takes in the parities of two neighbouring columns. -/
def mixColumns (s : Array UInt64) : Array UInt64 :=
  let parity := Array.ofFn fun x : Fin 5 =>
    word s x ^^^ word s (x + 5) ^^^ word s (x + 10) ^^^ word s (x + 15) ^^^ word s (x + 20)
  Array.ofFn fun i : Fin 25 =>
    word s i ^^^ word parity ((i.val + 4) % 5) ^^^ turn (word parity ((i.val + 1) % 5)) 1

/-- Every word is turned and moves to another place. -/
def turnAndMove (s : Array UInt64) : Array UInt64 :=
  Array.ofFn fun i : Fin 25 =>
    let x := i.val % 5
    let y := i.val / 5
    let source := (x + 3 * y) % 5 + 5 * x
    turn (word s source) (word turns source)

/-- Every word takes in a product of the two next ones in its row. -/
def mixRows (s : Array UInt64) : Array UInt64 :=
  Array.ofFn fun i : Fin 25 =>
    let row := i.val / 5 * 5
    let x := i.val % 5
    word s i ^^^ ((word s (row + (x + 1) % 5) ^^^ 0xFFFFFFFFFFFFFFFF) &&& word s (row + (x + 2) % 5))

def round (s : Array UInt64) (constant : UInt64) : Array UInt64 :=
  let s := mixRows (turnAndMove (mixColumns s))
  s.modify 0 (· ^^^ constant)

def permute (s : Array UInt64) : Array UInt64 :=
  roundConstants.foldl round s

/-- A word from up to eight bytes, the least one first. -/
def littleEndian (bytes : Bytes) : UInt64 :=
  bytes.foldr (fun b n => n * 256 + b.toUInt64) 0

def wordsOf : Nat → Bytes → List UInt64
  | 0, _ => []
  | n + 1, bytes => littleEndian (bytes.take 8) :: wordsOf n (bytes.drop 8)

/-- A block enters the state. -/
def absorb (s : Array UInt64) (block : Bytes) : Array UInt64 :=
  let words := (wordsOf (rate / 8) block).toArray
  permute (Array.ofFn fun i : Fin 25 => word s i ^^^ word words i)

def padded (last : Bytes) : Bytes :=
  let zeros := rate - last.length
  if zeros = 1 then last ++ [0x81]
  else last ++ 0x01 :: List.replicate (zeros - 2) 0 ++ [0x80]

/-- All blocks enter the state, with a bound on their number. -/
def absorbAll : Nat → Array UInt64 → Bytes → Array UInt64
  | 0, s, bytes => absorb s (padded bytes)
  | n + 1, s, bytes => absorbAll n (absorb s (bytes.take rate)) (bytes.drop rate)

/-- The bytes of a word, the least one first. -/
def bytesOf : Nat → UInt64 → Bytes
  | 0, _ => []
  | n + 1, x => x.toUInt8 :: bytesOf n (x >>> 8)

def ofBytes (bytes : Bytes) : Digest :=
  let s := absorbAll (bytes.length / rate) (Array.replicate 25 0) bytes
  (List.range 4).flatMap fun i => bytesOf 8 (word s i)

def zero : Digest :=
  List.replicate 32 0

def isZero (d : Digest) : Bool :=
  d.all (· == 0)

def text (d : Digest) : Bytes :=
  utf8 "0x" ++ Text.hex d

/-- The digits of the first four bytes. -/
def short (d : Digest) : Bytes :=
  utf8 "0x" ++ Text.hex (d.take 4)

/-- Exactly 32 bytes: cut, or filled up with zeros. -/
def ofStored (bytes : Bytes) : Digest :=
  bytes.take 32 ++ List.replicate (32 - bytes.length) 0

end Digest

end LedgerScript

/-! ## Blocks -/

namespace LedgerScript

-- Sums start from the numeral zero, whatever algebra is at hand.
attribute [local instance (high)] Zero.ofOfNat0

/-- A batch of committed transactions. -/
structure ChainBlock where
  number : Nat
  prevHash : Digest
  txs : List Transaction
  hash : Digest
  isSealed : Bool := false
  deriving Inhabited

namespace ChainBlock

def hashOf (h : Heap) (prev : Digest) (txs : List Transaction) : Except Crash Digest := do
  let packed ← txs.mapM (·.pack h)
  return Digest.ofBytes (prev ++ Pack.list packed)

def rehash (h : Heap) (b : ChainBlock) : Except Crash ChainBlock := do
  return { b with hash := ← hashOf h b.prevHash b.txs }

def emptyHash (prev : Digest) : Digest :=
  Digest.ofBytes (prev ++ Pack.list [])

/-- The open block behind another one. -/
def after (b : ChainBlock) : ChainBlock :=
  { number := b.number + 1, prevHash := b.hash, txs := [], hash := emptyHash b.hash }

def first : ChainBlock :=
  { number := 0, prevHash := Digest.zero, txs := [], hash := emptyHash Digest.zero }

/-- The stored form. -/
def pack (h : Heap) (b : ChainBlock) : Except Crash Bytes := do
  let txs ← b.txs.mapM (·.pack h)
  return Pack.record [
    ("number", Pack.word b.number), ("prev", Pack.raw b.prevHash), ("txs", Pack.list txs),
    ("hash", Pack.raw b.hash), ("sealed", Pack.bool b.isSealed)]

/-- A stored block before its transactions are read. -/
structure Stored where
  number : Nat := 0
  prev : Bytes := []
  txs : List Transaction.Stored := []
  hash : Bytes := []
  isSealed : Bool := false

def unpackTxs : Nat → UnpackHeap (List Transaction.Stored)
  | 0 => pure []
  | n + 1 => do
    let tx ← Transaction.unpack
    return tx :: (← unpackTxs n)

/-- Reading a stored block. -/
def unpack : UnpackHeap Stored :=
  unpackRecord {} [
    ("number", fun s => do return { s with number := ← liftUnpack (Unpack.natMod 64) }),
    ("prev", fun s => do return { s with prev := ← liftUnpack Unpack.text }),
    ("txs", fun s => do
      let n ← liftUnpack Unpack.listLength
      return { s with txs := ← unpackTxs (n.getD 0) }),
    ("hash", fun s => do return { s with hash := ← liftUnpack Unpack.text }),
    ("sealed", fun s => do return { s with isSealed := ← liftUnpack Unpack.bool })]

/-- The block of stored bytes.  Its hash is taken as stored. -/
def ofBytes? (h : Heap) (bytes : Bytes) : Option (ChainBlock × Heap) := do
  let ((s, h), _) ← unpack h bytes
  let txs ← s.txs.mapM Transaction.ofStored?
  return ({
    number := s.number, prevHash := .ofStored s.prev, txs, hash := .ofStored s.hash, isSealed := s.isSealed }, h)

end ChainBlock

/-- A block that does not fit its contents or its predecessor. -/
structure ChainFault where
  block : Nat
  reason : Bytes
  deriving DecidableEq, Repr, Inhabited

/-- What is said about a block that does not fit. -/
def ChainFault.text (f : ChainFault) : Bytes :=
  utf8 ("block " ++ toString f.block ++ ": ") ++ f.reason

/-- The first fault of a sequence of blocks behind another block, if there is one. -/
def verifyAfter (h : Heap) (prev : Option ChainBlock) : List ChainBlock → Option ChainFault
  | [] => none
  | b :: rest =>
    match ChainBlock.hashOf h b.prevHash b.txs with
    | .error c => some ⟨b.number, utf8 c.text⟩
    | .ok hash =>
      if hash != b.hash then
        some ⟨b.number,
          utf8 "hash mismatch: stored " ++ Digest.short b.hash ++ utf8 ", computed " ++ Digest.short hash⟩
      else
        match prev with
        | none =>
          if Digest.isZero b.prevHash then verifyAfter h (some b) rest
          else some ⟨b.number, utf8 "first block has a parent hash"⟩
        | some p =>
          if b.number != p.number + 1 then some ⟨b.number, utf8 ("expected block " ++ toString (p.number + 1))⟩
          else if b.prevHash != p.hash then
            some ⟨b.number, utf8 ("prevHash does not link to block " ++ toString p.number)⟩
          else verifyAfter h (some b) rest

def verifyBlocks (h : Heap) (blocks : List ChainBlock) : Option ChainFault :=
  verifyAfter h none blocks

/-- The blocks so far: the sealed ones and the open one. -/
structure Chain where
  earlier : List ChainBlock := []
  head : ChainBlock := .first
  /-- How many transactions seal a block. -/
  blockSize : Nat
  deriving Inhabited

namespace Chain

def blocks (c : Chain) : List ChainBlock :=
  c.earlier ++ [c.head]

/-- How many transactions the chain holds. -/
def length (c : Chain) : Nat :=
  (c.blocks.map (·.txs.length)).sum

/-- A chain of stored blocks.  There is always an open block at the end. -/
def restore (blockSize : Nat) (blocks : List ChainBlock) : Chain :=
  match blocks.getLast? with
  | none => { blockSize }
  | some last =>
    if last.isSealed then { earlier := blocks, head := last.after, blockSize }
    else { earlier := blocks.dropLast, head := last, blockSize }

/-- The chain with one more transaction, the block that it landed in, and whether that block is now sealed. -/
def append (h : Heap) (c : Chain) (tx : Transaction) : Except Crash (Chain × ChainBlock × Bool) := do
  let b ← { c.head with txs := c.head.txs ++ [tx] }.rehash h
  if b.txs.length < c.blockSize then return ({ c with head := b }, b, false)
  else
    let b := { b with isSealed := true }
    return ({ c with earlier := c.earlier ++ [b], head := b.after }, b, true)

def verify (h : Heap) (c : Chain) : Option ChainFault :=
  verifyBlocks h c.blocks

/-- A change to the block at a position. -/
def modifyBlock (c : Chain) (i : Nat) (f : ChainBlock → ChainBlock) : Chain :=
  if i < c.earlier.length then { c with earlier := c.earlier.modify i f }
  else if i = c.earlier.length then { c with head := f c.head }
  else c

end Chain

end LedgerScript
