import LedgerScript.Text.Utf8

/-!
# Values

A value is a small immutable tree.  What a program can change lies in the cells of a heap, and a value refers to
such a cell by its number; two references are the same exactly if the numbers are.  Tuples cannot be changed and
are told apart by their items, so they are part of the tree.

Whole numbers are kept as integers within the range of their kind: `WholeKind.wrap` brings any integer into it.
A `float` is kept as the double that is equal to it.
-/

/-!
## Kinds of values

Every value has a kind.  The kinds fall into families that share a payload: whole numbers, reals, texts,
references to cells of the heap, and handles of the scheduler's objects.  Each family is a type of its own, and
`Kind` is their sum together with the kinds that stand alone, in the order in which they are numbered when a value
is stored.
-/

namespace LedgerScript

inductive WholeKind where
  | short
  | int
  | long
  | char
  deriving DecidableEq, Repr, Inhabited

/-- The kinds whose payload is a binary floating-point number. -/
inductive RealKind where
  | float
  | double
  deriving DecidableEq, Repr, Inhabited

inductive TextKind where
  | string
  | address
  | account
  deriving DecidableEq, Repr, Inhabited

/-- The kinds whose payload is a cell of the heap. -/
inductive RefKind where
  | array
  | map
  | set
  | function
  | object
  | classRef
  deriving DecidableEq, Repr, Inhabited

/-- The kinds of the scheduler's objects apart from tasks. -/
inductive HandleKind where
  | lock
  | semaphore
  | barrier
  | channel
  deriving DecidableEq, Repr, Inhabited

inductive Kind where
  | null
  | bool
  | whole (k : WholeKind)
  | real (k : RealKind)
  | text (k : TextKind)
  | tuple
  | ref (k : RefKind)
  | task
  | handle (k : HandleKind)
  deriving DecidableEq, Repr, Inhabited

namespace Kind

def all : List Kind :=
  [null, bool, whole .short, whole .int, whole .long, real .float, real .double, whole .char, text .string, ref .array,
    ref .map, ref .set, tuple, ref .function, ref .object, ref .classRef, task, handle .lock, handle .semaphore,
    handle .barrier, handle .channel, text .address, text .account]

def name : Kind → String
  | null => "null"
  | bool => "bool"
  | whole .short => "short"
  | whole .int => "int"
  | whole .long => "long"
  | whole .char => "char"
  | real .float => "float"
  | real .double => "double"
  | text .string => "string"
  | text .address => "address"
  | text .account => "account"
  | tuple => "tuple"
  | ref .array => "array"
  | ref .map => "map"
  | ref .set => "set"
  | ref .function => "function"
  | ref .object => "object"
  | ref .classRef => "class"
  | task => "Task"
  | handle .lock => "Mutex"
  | handle .semaphore => "Semaphore"
  | handle .barrier => "Barrier"
  | handle .channel => "Channel"

def number (k : Kind) : Nat :=
  all.idxOf k

def ofNumber? (n : Nat) : Option Kind :=
  all[n]?

def ofName? (s : String) : Option Kind :=
  if s = "boolean" then some bool
  else if s = "Lock" then some (handle .lock)
  else all.find? (·.name = s)

/-- Numbers one can count or measure with; characters are not among them. -/
def isNumeric : Kind → Bool
  | whole .char => false
  | whole _ | real _ => true
  | _ => false

def isIntegral : Kind → Bool
  | whole .char => false
  | whole _ => true
  | _ => false

/-- Binary floating-point numbers. -/
def isFloating : Kind → Bool
  | real _ => true
  | _ => false

def isHandle : Kind → Bool
  | task | handle _ => true
  | _ => false

/-- Values that are told apart by what they refer to. -/
def isRef : Kind → Bool
  | ref _ | task | handle _ => true
  | _ => false

theorem ofNumber?_number (k : Kind) : ofNumber? k.number = some k := by
  rcases k with _ | _ | k | k | k | _ | k | _ | k <;> first | rfl | (cases k <;> rfl)

end Kind

end LedgerScript

/-! ## The values themselves -/

namespace LedgerScript

-- Powers are those of the numbers themselves, whatever algebra is at hand.
attribute [local instance (high)] instPowNat

/-- The number of a cell of the heap. -/
abbrev Ref := Nat

inductive Value where
  | null
  | bool (b : Bool)
  | whole (k : WholeKind) (n : Int)
  | real (k : RealKind) (x : Float)
  | text (k : TextKind) (s : Bytes)
  | tuple (items : List Value)
  | ref (k : RefKind) (r : Ref)
  | task (id : Nat) (name : String)
  | handle (k : HandleKind) (id : Nat)
  deriving Inhabited

def WholeKind.bits : WholeKind → Nat
  | short => 16
  | int => 32
  | long => 64
  | char => 32

/-- The representative of an integer in the range of a kind, modulo a power of two. -/
def WholeKind.wrap (k : WholeKind) (n : Int) : Int :=
  n.bmod (2 ^ k.bits)

/-- The nearest number that a kind can hold. -/
def RealKind.round : RealKind → Float → Float
  | float, x => x.toFloat32.toFloat
  | double, x => x

namespace Value

/-- A whole number of a kind, brought into its range. -/
def ofInt (k : WholeKind) (n : Int) : Value :=
  .whole k (k.wrap n)

def ofReal (k : RealKind) (x : Float) : Value :=
  .real k (k.round x)

def int (n : Int) : Value := ofInt .int n

def long (n : Int) : Value := ofInt .long n

def str (s : Bytes) : Value := .text .string s

/-- A count or a position: an `int`, or a `long` when it does not fit. -/
def count (n : Int) : Value :=
  if WholeKind.int.wrap n = n then .whole .int n else ofInt .long n

def kind : Value → Kind
  | null => .null
  | bool _ => .bool
  | whole k _ => .whole k
  | real k _ => .real k
  | text k _ => .text k
  | tuple _ => .tuple
  | ref k _ => .ref k
  | task _ _ => .task
  | handle k _ => .handle k

/-- Null, false, zero, not-a-number and the empty string count as false. -/
def truthy : Value → Bool
  | null => false
  | bool b => b
  | whole _ n => n != 0
  | real _ x => x != 0 && !x.isNaN
  | text .string s => !s.isEmpty
  | _ => true

/-- The largest magnitude of a 64-bit integer. -/
def longLimit : Int := 9223372036854775808

/-- A number cut to its whole part.  What does not fit into 64 bits becomes the least integer that does. -/
def truncate (x : Float) : Int :=
  if x.isNaN || x >= 9223372036854775808.0 || x < -9223372036854775808.0 then -longLimit
  else x.toInt64.toInt

/-- The payload as an integer; anything that has no number counts as zero. -/
def toInt : Value → Int
  | bool b => if b then 1 else 0
  | whole _ n => n
  | real _ x => truncate x
  | _ => 0

/-- The payload as a floating-point number. -/
def toFloat : Value → Float
  | real _ x => x
  | v => Float.ofInt v.toInt

def isNumberLike : Value → Bool
  | whole _ _ | real _ _ => true
  | _ => false

/-- A code point as a character; codes that are none show as the replacement character. -/
def shownCode (n : Int) : Char :=
  match n with
  | .ofNat code => (Text.charOfCode? code).getD '\uFFFD'
  | .negSucc _ => '\uFFFD'

mutual

/-- Equality as the language sees it: numbers by what they measure, texts by their bytes, tuples item by item, and
everything else by reference. -/
def equal : Value → Value → Bool
  | whole _ m, whole _ n => m == n
  | whole _ m, real _ y => Float.ofInt m == y
  | real _ x, whole _ n => x == Float.ofInt n
  | real _ x, real _ y => x == y
  | null, null => true
  | text _ s, text _ t => s == t
  | bool a, bool b => a == b
  | tuple xs, tuple ys => equalItems xs ys
  | ref k r, ref l s => k == l && r == s
  | task a _, task b _ => a == b
  | handle k a, handle l b => k == l && a == b
  | _, _ => false

/-- Two lists of the same length with equal items. -/
def equalItems : List Value → List Value → Bool
  | [], [] => true
  | x :: xs, y :: ys => equal x y && equalItems xs ys
  | _, _ => false

end

end Value

end LedgerScript
