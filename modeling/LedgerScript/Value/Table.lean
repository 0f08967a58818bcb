import LedgerScript.Value.Basic

/-!
# Maps and sets

A map keeps its keys and values in the order of insertion, and beside them an index from the *key form* of a key to
its position.  The key form forgets what equality forgets: which of `short`, `int` and `long` a number is, and
whether a text is a string or an address.  A tuple enters the index as the text it is shown with, since tuples are
told apart by their contents.

That text may change after the insertion, when a tuple holds an array.  The index then still has the old text, and
an erasure that moves the positions leaves that entry behind.  A position that lies outside the values is a
`Crash`, which ends the task that ran into it.  For keys that cannot change the index and the keys agree.
-/

namespace LedgerScript

/-- A position outside a sequence, found in an index that no longer fits. -/
inductive Crash where
  /-- A single position at or after the end. -/
  | position (index length : Nat)
  | cut (start length : Nat)
  | tooLong
  /-- A size that no memory has. -/
  | noRoom
  /-- A value shown through itself without end. -/
  | endless
  deriving DecidableEq, Repr, Inhabited

def Crash.text : Crash → String
  | position i n => "runtime error: index out of range [" ++ toString i ++ "] with length " ++ toString n
  | cut i n => "runtime error: slice bounds out of range [" ++ toString i ++ ":" ++ toString n ++ "]"
  | tooLong => "strings: Repeat output length overflow"
  | noRoom => "runtime error: makeslice: len out of range"
  | endless => "stack overflow"

/-- The key form of a value. -/
inductive Key where
  | null
  | bool (b : Bool)
  | whole (n : Int)
  | char (n : Int)
  | real (k : RealKind) (x : Float)
  | text (s : Bytes)
  | account (s : Bytes)
  | ref (k : RefKind) (r : Ref)
  | task (id : Nat)
  | handle (k : HandleKind) (id : Nat)
  deriving Inhabited

/-- Two keys reach the same slot.  Not-a-number is never the same as anything. -/
def Key.same : Key → Key → Bool
  | null, null => true
  | bool a, bool b => a == b
  | whole m, whole n => m == n
  | char m, char n => m == n
  | real k x, real l y => k == l && x == y
  | text s, text t => s == t
  | account s, account t => s == t
  | ref k r, ref l s => k == l && r == s
  | task a, task b => a == b
  | handle k a, handle l b => k == l && a == b
  | _, _ => false

def Key.value : Key → Value
  | null => .null
  | bool b => .bool b
  | whole n => .whole .long n
  | char n => .whole .char n
  | real k x => .real k x
  | text s => .text .string s
  | account s => .text .account s
  | ref k r => .ref k r
  | task id => .task id ""
  | handle k id => .handle k id

def Value.keptKey : Value → Value
  | .text .address s => .text .string s
  | v => v

structure MapTable where
  keys : Array Value := #[]
  vals : Array Value := #[]
  index : List (Key × Nat) := []
  /-- What a missing key reads as. -/
  zero : Value := .null
  deriving Inhabited

namespace MapTable

def size (m : MapTable) : Nat :=
  m.keys.size

def find? (m : MapTable) (k : Key) : Option Nat :=
  (m.index.find? fun e => e.1.same k).map (·.2)

def get? (m : MapTable) (k : Key) : Except Crash (Option Value) :=
  match m.find? k with
  | none => .ok none
  | some i =>
    match m.vals[i]? with
    | some v => .ok (some v)
    | none => .error (.position i m.vals.size)

def assign (index : List (Key × Nat)) (k : Key) (i : Nat) : List (Key × Nat) :=
  match index with
  | [] => [(k, i)]
  | (k', j) :: rest => if k'.same k then (k', i) :: rest else (k', j) :: assign rest k i

/-- A key gets a value: in its place if it is there, else at the end. -/
def insert (m : MapTable) (k : Key) (kept : Value) (v : Value) : Except Crash MapTable :=
  match m.find? k with
  | some i =>
    if i < m.vals.size then .ok { m with vals := m.vals.setIfInBounds i v }
    else .error (.position i m.vals.size)
  | none =>
    .ok { m with
      index := m.index ++ [(k, m.keys.size)], keys := m.keys.push kept.keptKey, vals := m.vals.push v }

/-- The index after the keys from a position on have moved. -/
def reindex (keyOf : Value → Except Crash Key) (index : List (Key × Nat)) (i : Nat) :
    List Value → Except Crash (List (Key × Nat))
  | [] => .ok index
  | v :: rest => do reindex keyOf (assign index (← keyOf v) i) (i + 1) rest

/-- The map without a key, and whether it was there.  The entry of the index goes first, so that it is gone even
if the rest fails. -/
def erase (keyOf : Value → Except Crash Key) (m : MapTable) (k : Key) : MapTable × Except Crash Bool :=
  match m.find? k with
  | none => (m, .ok false)
  | some i =>
    let m := { m with index := m.index.filter fun e => !e.1.same k }
    if i < m.keys.size then
      let m := { m with
        keys := (m.keys.toList.eraseIdx i).toArray, vals := (m.vals.toList.eraseIdx i).toArray }
      match reindex keyOf m.index i (m.keys.toList.drop i) with
      | .ok index => ({ m with index }, .ok true)
      | .error c => (m, .error c)
    else (m, .error (.cut (i + 1) m.keys.size))

end MapTable

/-- A set: the key forms of its members, and the members in the order of insertion. -/
structure SetTable where
  members : List Key := []
  order : List Value := []
  deriving Inhabited

namespace SetTable

def size (s : SetTable) : Nat :=
  s.members.length

def has (s : SetTable) (k : Key) : Bool :=
  s.members.any (·.same k)

/-- The set with one more member, and whether it is new. -/
def add (s : SetTable) (k : Key) (v : Value) : Bool × SetTable :=
  if s.has k then (false, s)
  else (true, { members := s.members ++ [k], order := s.order ++ [v.keptKey] })

def dropFirst (keyOf : Value → Except Crash Key) (k : Key) : List Value → Except Crash (List Value)
  | [] => .ok []
  | v :: rest => do
    if (← keyOf v).same k then return rest
    return v :: (← dropFirst keyOf k rest)

def remove (keyOf : Value → Except Crash Key) (s : SetTable) (k : Key) : SetTable × Except Crash Bool :=
  if s.has k then
    let s := { s with members := s.members.filter fun m => !m.same k }
    match dropFirst keyOf k s.order with
    | .ok order => ({ s with order }, .ok true)
    | .error c => (s, .error c)
  else (s, .ok false)

def ofList (keyOf : Value → Except Crash Key) (vs : List Value) (s : SetTable := {}) : Except Crash SetTable :=
  vs.foldlM (fun s v => do return (s.add (← keyOf v) v).2) s

/-- All members of the first set whose being in the second is as asked. -/
def restrict (keyOf : Value → Except Crash Key) (inOther : Bool) (s other : SetTable) : Except Crash SetTable :=
  s.order.foldlM (fun out v => do
    let k ← keyOf v
    return if other.has k == inOther then (out.add k v).2 else out) {}

def subset (s other : SetTable) : Bool :=
  s.size ≤ other.size && s.members.all other.has

end SetTable

end LedgerScript
