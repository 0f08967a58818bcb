import LedgerScript.Text.Utf8

/-!
# Packed records

A compact binary form for records: every item starts with a byte that gives its type and, for small items, its
value or length; larger ones have a big-endian number after it.  Counts, lengths and whole numbers take the
shortest form.  Two fixed forms are used where a record has a field of a fixed width: `byte` and `word`.

`Unpack` reads the form back.  It is lenient where a form has more than one writing: any writing of a whole number
will do, an absent item counts as zero, false or empty, and a text may be written as raw bytes.
-/

namespace LedgerScript

-- Powers are those of the numbers themselves, whatever algebra is at hand.
attribute [local instance (high)] instPowNat

namespace Pack

/-- A number as big-endian bytes of a fixed count. -/
def bigEndian : Nat → Nat → Bytes
  | 0, _ => []
  | width + 1, n => (n / 256 ^ width % 256).toUInt8 :: bigEndian width n

/-- The number that big-endian bytes stand for. -/
def ofBigEndian (bytes : Bytes) : Nat :=
  bytes.foldl (fun n b => n * 256 + b.toNat) 0

def absent : Bytes := [0xc0]

/-- A truth value. -/
def bool (b : Bool) : Bytes := [if b then 0xc3 else 0xc2]

/-- A natural number below 2^64 in its shortest form. -/
def nat (n : Nat) : Bytes :=
  if n < 0x80 then [n.toUInt8]
  else if n < 0x100 then 0xcc :: bigEndian 1 n
  else if n < 0x10000 then 0xcd :: bigEndian 2 n
  else if n < 0x100000000 then 0xce :: bigEndian 4 n
  else 0xcf :: bigEndian 8 n

/-- An integer of 64 bits in its shortest form. -/
def int : Int → Bytes
  | .ofNat n => nat n
  | .negSucc m =>
    let code (width : Nat) : Bytes := bigEndian width (256 ^ width - (m + 1))
    if m < 32 then code 1
    else if m < 0x80 then 0xd0 :: code 1
    else if m < 0x8000 then 0xd1 :: code 2
    else if m < 0x80000000 then 0xd2 :: code 4
    else 0xd3 :: code 8

def byte (n : Nat) : Bytes := [0xcc, n.toUInt8]

/-- A field of 64 bits. -/
def word (n : Nat) : Bytes := 0xcf :: bigEndian 8 n

def double (bits : Nat) : Bytes := 0xcb :: bigEndian 8 bits

def textHead (n : Nat) : Bytes :=
  if n < 32 then [0xa0 + n.toUInt8]
  else if n < 0x100 then 0xd9 :: bigEndian 1 n
  else if n < 0x10000 then 0xda :: bigEndian 2 n
  else 0xdb :: bigEndian 4 n

def text (s : Bytes) : Bytes := textHead s.length ++ s

def rawHead (n : Nat) : Bytes :=
  if n < 0x100 then 0xc4 :: bigEndian 1 n
  else if n < 0x10000 then 0xc5 :: bigEndian 2 n
  else 0xc6 :: bigEndian 4 n

def raw (s : Bytes) : Bytes := rawHead s.length ++ s

/-- The start of a list of so many items. -/
def listHead (n : Nat) : Bytes :=
  if n < 16 then [0x90 + n.toUInt8]
  else if n < 0x10000 then 0xdc :: bigEndian 2 n
  else 0xdd :: bigEndian 4 n

def list (items : List Bytes) : Bytes := listHead items.length ++ items.flatten

/-- The start of a record of so many fields. -/
def recordHead (n : Nat) : Bytes :=
  if n < 16 then [0x80 + n.toUInt8]
  else if n < 0x10000 then 0xde :: bigEndian 2 n
  else 0xdf :: bigEndian 4 n

def record (fields : List (String × Bytes)) : Bytes :=
  recordHead fields.length ++ fields.flatMap fun f => text (utf8 f.1) ++ f.2

end Pack

/-- Reading packed records from the front of some bytes. -/
abbrev Unpack (α : Type) := StateT Bytes Option α

namespace Unpack

def byte : Unpack UInt8 := fun bytes =>
  match bytes with
  | b :: rest => some (b, rest)
  | [] => none

/-- The next bytes of a count. -/
def take (n : Nat) : Unpack Bytes := fun bytes =>
  let front := bytes.take n
  if front.length = n then some (front, bytes.drop n) else none

def number (width : Nat) : Unpack Nat := do
  return Pack.ofBigEndian (← take width)

/-- A big-endian number of some bytes in two's complement. -/
def signed (width : Nat) : Unpack Int := do
  return Int.bmod (← number width) (256 ^ width)

/-- The whole number that starts with a given byte. -/
def intOf (c : UInt8) : Unpack Int :=
  if c == 0xc0 then pure 0
  else if c < 0x80 || 0xe0 ≤ c then pure (Int.bmod c.toNat 256)
  else
    match c with
    | 0xcc => do return (← number 1)
    | 0xcd => do return (← number 2)
    | 0xce => do return (← number 4)
    | 0xcf => do return (← number 8)
    | 0xd0 => signed 1
    | 0xd1 => signed 2
    | 0xd2 => signed 4
    | 0xd3 => signed 8
    | _ => failure

/-- A whole number as an integer of 64 bits. -/
def int : Unpack Int := do
  return Int.bmod (← intOf (← byte)) (Nat.pow 2 64)

/-- A whole number modulo a power of two. -/
def natMod (bits : Nat) : Unpack Nat := do
  return ((← intOf (← byte)) % (2 ^ bits : Nat)).toNat

/-- A floating-point number; a whole number will do. -/
def double : Unpack Float := do
  let c ← byte
  if c == 0xca then return (Float32.ofBits (← number 4).toUInt32).toFloat
  else if c == 0xcb then return Float.ofBits (← number 8).toUInt64
  else return Float.ofInt (Int.bmod (← intOf c) (Nat.pow 2 64))

/-- A truth value. -/
def bool : Unpack Bool := do
  match ← byte with
  | 0xc3 => return true
  | 0xc2 | 0xc0 => return false
  | _ => failure

def absent : Unpack Unit := do
  if (← byte) != 0xc0 then failure

/-- The length of a text or of raw bytes that starts with a given byte; none for the absent item. -/
def textLength (c : UInt8) : Unpack (Option Nat) := do
  if c == 0xc0 then return none
  else if 0xa0 ≤ c && c < 0xc0 then return some (c.toNat - 0xa0)
  else
    match c with
    | 0xd9 | 0xc4 => return some (← number 1)
    | 0xda | 0xc5 => return some (← number 2)
    | 0xdb | 0xc6 => return some (← number 4)
    | _ => failure

def text : Unpack Bytes := do
  take ((← textLength (← byte)).getD 0)

/-- The length of a list that starts with a given byte; none for the absent item. -/
def listLengthOf (c : UInt8) : Unpack (Option Nat) := do
  if c == 0xc0 then return none
  else if 0x90 ≤ c && c < 0xa0 then return some (c.toNat - 0x90)
  else
    match c with
    | 0xdc => return some (← number 2)
    | 0xdd => return some (← number 4)
    | _ => failure

def listLength : Unpack (Option Nat) := do
  listLengthOf (← byte)

/-- The number of fields of a record that starts with a given byte; none for the absent item. -/
def recordLengthOf (c : UInt8) : Unpack (Option Nat) := do
  if c == 0xc0 then return none
  else if 0x80 ≤ c && c < 0x90 then return some (c.toNat - 0x80)
  else
    match c with
    | 0xde => return some (← number 2)
    | 0xdf => return some (← number 4)
    | _ => failure

def times {α : Type} (item : Unpack α) : Nat → Unpack (List α)
  | 0 => pure []
  | n + 1 => do
    let first ← item
    return first :: (← times item n)

/-- How many items follow the one that starts with a given byte as parts of it, after its own bytes are passed over. -/
def passHead (c : UInt8) : Unpack Nat := do
  if c < 0x80 || 0xe0 ≤ c || c == 0xc0 || c == 0xc2 || c == 0xc3 then return 0
  else if c < 0x90 then return 2 * (c.toNat - 0x80)
  else if c < 0xa0 then return c.toNat - 0x90
  else if c < 0xc0 then let _ ← take (c.toNat - 0xa0); return 0
  else
    match c with
    | 0xcc | 0xd0 => let _ ← take 1; return 0
    | 0xcd | 0xd1 => let _ ← take 2; return 0
    | 0xce | 0xd2 | 0xca => let _ ← take 4; return 0
    | 0xcf | 0xd3 | 0xcb => let _ ← take 8; return 0
    | 0xd9 | 0xc4 => let _ ← take (← number 1); return 0
    | 0xda | 0xc5 => let _ ← take (← number 2); return 0
    | 0xdb | 0xc6 => let _ ← take (← number 4); return 0
    | 0xdc => number 2
    | 0xdd => number 4
    | 0xde => return 2 * (← number 2)
    | 0xdf => return 2 * (← number 4)
    | 0xd4 => let _ ← take 2; return 0
    | 0xd5 => let _ ← take 3; return 0
    | 0xd6 => let _ ← take 5; return 0
    | 0xd7 => let _ ← take 9; return 0
    | 0xd8 => let _ ← take 17; return 0
    | 0xc7 => let _ ← take ((← number 1) + 1); return 0
    | 0xc8 => let _ ← take ((← number 2) + 1); return 0
    | 0xc9 => let _ ← take ((← number 4) + 1); return 0
    | _ => failure

/-- Items passed over; every one takes at least a byte, so the bytes bound the rounds. -/
def skipItems : Nat → Nat → Unpack Unit
  | _, 0 => pure ()
  | 0, _ + 1 => failure
  | fuel + 1, n + 1 => do
    let parts ← passHead (← byte)
    skipItems fuel (n + parts)

def skip : Unpack Unit := fun bytes => skipItems bytes.length 1 bytes

/-- The next field of a record, read by its name.  An unknown field is passed over. -/
def nextField {α : Type} (fields : List (String × (α → Unpack α))) (a : α) : Unpack α := do
  let name ← text
  match fields.find? fun f => utf8 f.1 == name with
  | some f => f.2 a
  | none => skip; return a

/-- The fields of a record that is folded over its contents, each field read by name.  A record may also be written as
a list of all its fields in order, or be absent. -/
def record {α : Type} (start : α) (fields : List (String × (α → Unpack α))) : Unpack α := do
  let c ← byte
  if c == 0xc0 then return start
  else if (0x90 ≤ c && c < 0xa0) || c == 0xdc || c == 0xdd then
    match ← listLengthOf c with
    | none | some 0 => return start
    | some n => if n = fields.length then fields.foldlM (fun a f => f.2 a) start else failure
  else
    match ← recordLengthOf c with
    | none => return start
    | some n => (List.range n).foldlM (fun a _ => nextField fields a) start

end Unpack

end LedgerScript
