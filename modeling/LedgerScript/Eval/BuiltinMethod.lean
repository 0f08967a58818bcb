import LedgerScript.Eval.Member

/-!
# What built-in methods do

A missing argument is null.  Functions that are given as arguments are called by an activation, and an array that is
walked is read once at the start.
-/

/-!
## Sorting

A stable sort that works in place: blocks of twenty items are sorted by insertion, and then neighbouring blocks are
merged by rotations, doubling the size of the blocks each time.  The comparison may be a function of the program,
which can see the array while it is being sorted and can fail, so the order of comparisons and exchanges is part of
what the sort does.  After a failure the items stay where they are.

Merging splits the two blocks at places found by bisection so that a rotation puts everything that belongs to the
first half in front of everything that belongs to the second; each half is then merged by itself.
-/

namespace LedgerScript.Eval

/-- What is sorted: an array, and how two values compare; the result says that the first comes before the second. -/
structure Sorting where
  array : Ref
  before : Value → Value → Eval Bool

namespace Sorting

def itemAt (s : Sorting) (i : Nat) : Eval Value :=
  ofState fun st => ((st.heap.items s.array)[i]?).getD .null

/-- The item at one position comes before the one at another. -/
def less (s : Sorting) (i j : Nat) : Eval Bool := do
  s.before (← s.itemAt i) (← s.itemAt j)

/-- Two items change places. -/
def swap (s : Sorting) (i j : Nat) : Eval Unit :=
  modifyHeap (·.modifyItems s.array (·.swapIfInBounds i j))

/-- The item at a position moves to the front as long as it comes before its neighbour, but not over `lo`. -/
def sinkTo (s : Sorting) (lo : Nat) : Nat → Eval Unit
  | 0 => return ()
  | j + 1 => do
    if lo < j + 1 then
      if ← s.less (j + 1) j then
        s.swap (j + 1) j
        s.sinkTo lo j

/-- The items from `lo` on are sorted by insertion; `n` of them, from `i` on, are still to be inserted. -/
def insertion (s : Sorting) (lo : Nat) : Nat → Nat → Eval Unit
  | 0, _ => return ()
  | n + 1, i => do
    s.sinkTo lo i
    s.insertion lo n (i + 1)

/-- The first position from `i` below `j` at which `holds` fails, found by bisection. -/
def bisect (holds : Nat → Eval Bool) : Nat → Nat → Nat → Eval Nat
  | 0, i, _ => return i
  | fuel + 1, i, j => do
    if i < j then
      let h := (i + j) / 2
      if ← holds h then bisect holds fuel (h + 1) j else bisect holds fuel i h
    else return i

/-- `n` items from `a` change places with those from `b`. -/
def swapRange (s : Sorting) (a b : Nat) : Nat → Eval Unit
  | 0 => return ()
  | n + 1 => do
    s.swap a b
    s.swapRange (a + 1) (b + 1) n

/-- The blocks of `i` items in front of `m` and of `j` items from `m` on change places. -/
def rotate (s : Sorting) (m : Nat) : Nat → Nat → Nat → Eval Unit
  | 0, _, _ => return ()
  | fuel + 1, i, j => do
    if i = j then s.swapRange (m - i) m i
    else if j < i then
      s.swapRange (m - i) m j
      s.rotate m fuel (i - j) j
    else
      s.swapRange (m - i) (m + j - i) i
      s.rotate m fuel i (j - i)

/-- `n` items from `k` on move one place to the front, over the item at `k`. -/
def carryUp (s : Sorting) (k : Nat) : Nat → Eval Unit
  | 0 => return ()
  | n + 1 => do
    s.swap k (k + 1)
    s.carryUp (k + 1) n

/-- The item at `k` moves `n` places to the front. -/
def carryDown (s : Sorting) (k : Nat) : Nat → Eval Unit
  | 0 => return ()
  | n + 1 => do
    s.swap k (k - 1)
    s.carryDown (k - 1) n

/-- The sorted blocks from `a` to `m` and from `m` to `b` are merged. -/
def merge (s : Sorting) : Nat → Nat → Nat → Nat → Eval Unit
  | 0, _, _, _ => return ()
  | fuel + 1, a, m, b => do
    if m - a = 1 then
      let i ← bisect (fun h => s.less h a) b m b
      s.carryUp a (i - 1 - a)
    else if b - m = 1 then
      let i ← bisect (fun h => do return !(← s.less m h)) b a m
      s.carryDown m (m - i)
    else
      let mid := (a + b) / 2
      let n := mid + m
      let (first, last) := if mid < m then (n - b, mid) else (a, m)
      let start ← bisect (fun c => do return !(← s.less (n - 1 - c) c)) b first last
      let stop := n - start
      if start < m && m < stop then s.rotate m b (m - start) (stop - m)
      if a < start && start < mid then s.merge fuel a start mid
      if mid < stop && stop < b then s.merge fuel mid stop b

/-- Blocks of a size are sorted one after another; `n` items are left from `a` on. -/
def blocks (s : Sorting) (size : Nat) : Nat → Nat → Nat → Eval Unit
  | 0, _, _ => return ()
  | fuel + 1, a, n => do
    if size ≤ n then
      s.insertion a (size - 1) (a + 1)
      s.blocks size fuel (a + size) (n - size)
    else s.insertion a (n - 1) (a + 1)

def mergePairs (s : Sorting) (size n : Nat) : Nat → Nat → Eval Unit
  | 0, _ => return ()
  | fuel + 1, a => do
    if a + 2 * size ≤ n then
      s.merge n a (a + size) (a + 2 * size)
      s.mergePairs size n fuel (a + 2 * size)
    else if a + size < n then s.merge n a (a + size) n

/-- Sorted blocks of a size are merged until there is only one. -/
def mergeAll (s : Sorting) (n : Nat) : Nat → Nat → Eval Unit
  | 0, _ => return ()
  | fuel + 1, size => do
    if size < n then
      s.mergePairs size n n 0
      s.mergeAll n fuel (2 * size)

/-- How many items are sorted by insertion. -/
def blockSize : Nat := 20

/-- The first `n` items of the array are sorted. -/
def run (s : Sorting) (n : Nat) : Eval Unit := do
  s.blocks blockSize (n + 1) 0 n
  s.mergeAll n n blockSize

end Sorting

end LedgerScript.Eval

/-! ## The methods -/

namespace LedgerScript.Eval

def arg (args : List Value) (i : Nat) : Value :=
  (args[i]?).getD .null

def callBack (fn : Value) (args : List Value) (span : Span) : Eval Value :=
  askValue (.apply fn args span)

def wholeArg (args : List Value) (i : Nat) (span : Span) : Eval Int := do
  let v := arg args i
  if v.kind.isIntegral then return v.toInt
  else typeError span ("argument " ++ toString (i + 1) ++ " must be an integer, got " ++ (← typeName v))

/-- The ends of a range inside a sequence: a negative one counts from the end, and both are brought into the
sequence. -/
def cutRange (length : Nat) (args : List Value) : Nat × Nat :=
  let fix (v : Value) (default : Nat) : Nat :=
    if v.kind.isIntegral then
      let i := if v.toInt < 0 then v.toInt + length else v.toInt
      (max 0 (min i length)).toNat
    else default
  let lo := fix (arg args 0) 0
  (lo, max lo (fix (arg args 1) length))

def itemsOf (r : Ref) : Eval (List Value) :=
  ofState fun s => (s.heap.items r).toList

/-! ## Arrays -/

/-- The results of a function on items, after those that are done, the latest first. -/
def mapItems (fn : Value) (span : Span) (done : List Value) : Nat → List Value → Eval (List Value)
  | _, [] => return done.reverse
  | i, v :: rest => do
    let r ← callBack fn [v, .count i] span
    mapItems fn span (r :: done) (i + 1) rest

/-- The items for which a function holds, after those that are kept, the latest first. -/
def filterItems (fn : Value) (span : Span) (kept : List Value) : Nat → List Value → Eval (List Value)
  | _, [] => return kept.reverse
  | i, v :: rest => do
    let r ← callBack fn [v, .count i] span
    filterItems fn span (if r.truthy then v :: kept else kept) (i + 1) rest

/-- The first item for which a function gives what is looked for. -/
def findItem? (fn : Value) (wanted : Bool) (span : Span) : Nat → List Value → Eval (Option Value)
  | _, [] => return none
  | i, v :: rest => do
    let r ← callBack fn [v, .count i] span
    if r.truthy == wanted then return some v else findItem? fn wanted span (i + 1) rest

def walkItems (w : ArrayWalk) (items : List Value) (fn : Value) (span : Span) : Eval Value := do
  match w with
  | .map => newArray (← mapItems fn span [] 0 items)
  | .filter => newArray (← filterItems fn span [] 0 items)
  | .forEach =>
    let _ ← mapItems fn span [] 0 items
    return .null
  | .find => return (← findItem? fn true span 0 items).getD .null
  | .some => return .bool (← findItem? fn true span 0 items).isSome
  | .every => return .bool (← findItem? fn false span 0 items).isNone

def foldItems (fn : Value) (span : Span) (acc : Value) : List Value → Eval Value
  | [] => return acc
  | v :: rest => do foldItems fn span (← callBack fn [acc, v] span) rest

/-- How two values compare when an array is sorted. -/
def comesBefore (comparison : Value) (span : Span) (x y : Value) : Eval Bool := do
  match comparison with
  | .null => return (← operand span (x.compare y)) == .lt
  | fn => return (← callBack fn [x, y] span).toInt < 0

def arrayMethod (m : ArrayMethod) (r : Ref) (args : List Value) (span : Span) : Eval Value := do
  match m with
  | .push =>
    modifyHeap (·.modifyItems r (· ++ args.toArray))
    return .count (← ofState fun s => (s.heap.items r).size)
  | .pop =>
    let last ← ofState fun s => (s.heap.items r).back?
    modifyHeap (·.modifyItems r (·.pop))
    return last.getD .null
  | .shift =>
    let first ← ofState fun s => (s.heap.items r)[0]?
    modifyHeap (·.modifyItems r fun xs => xs.extract 1 xs.size)
    return first.getD .null
  | .unshift =>
    modifyHeap (·.modifyItems r (args.toArray ++ ·))
    return .count (← ofState fun s => (s.heap.items r).size)
  | .slice =>
    let items ← itemsOf r
    let (lo, hi) := cutRange items.length args
    newArray ((items.take hi).drop lo)
  | .concat =>
    let items ← itemsOf r
    let more ← args.mapM fun a => match a with
      | .ref .array s => itemsOf s
      | a => return [a]
    newArray (items ++ more.flatten)
  | .join =>
    let separator := match arg args 0 with
      | .text .string s => s
      | _ => utf8 ","
    return .str (Text.join separator (← (← itemsOf r).mapM plain))
  | .indexOf =>
    let i := (← itemsOf r).findIdx? (Value.equal · (arg args 0))
    return .count (match i with
      | some i => i
      | none => -1)
  | .includes => return .bool ((← itemsOf r).any (Value.equal · (arg args 0)))
  | .reverse =>
    modifyHeap (·.modifyItems r (·.reverse))
    return .ref .array r
  | .walk w => walkItems w (← itemsOf r) (arg args 0) span
  | .reduce =>
    match args, ← itemsOf r with
    | fn :: start :: _, items => foldItems fn span start items
    | _, [] => typeError span "reduce of empty array with no initial value"
    | args, first :: rest => foldItems (arg args 0) span first rest
  | .sort =>
    let n ← ofState fun s => (s.heap.items r).size
    Sorting.run { array := r, before := comesBefore (arg args 0) span } n
    return .ref .array r

/-! ## Strings -/

def charValue (c : Char) : Value :=
  .whole .char c.toNat

def stringMethod (m : StringMethod) (s : Bytes) (args : List Value) (span : Span) : Eval Value := do
  match m with
  | .substring =>
    let chars := Text.shownChars s
    let (lo, hi) := cutRange chars.length args
    return .str (Text.encode ((chars.take hi).drop lo))
  | .charAt => item (.str s) (arg args 0) span
  | .repeat => do
    let r ← onHeap fun h => match h.arith .mul (.str s) (arg args 0) with
      | .ok (v, h) => (.ok v, h)
      | .error f => (.error f, h)
    operand span r
  | .replace => return .str (Text.replaceAll (← plain (arg args 0)) (← plain (arg args 1)) s)
  | m =>
    let part ← plain (arg args 0)
    match m with
    | .upper => return .str (Text.upper s)
    | .lower => return .str (Text.lower s)
    | .trim => return .str (Text.trim s)
    | .contains => return .bool (Text.occursIn part s)
    | .startsWith => return .bool (Text.startsWith s part)
    | .endsWith => return .bool (part.isSuffixOf s)
    | .indexOf =>
      return .count (match Text.indexOf? part s with
        | some i => (Text.glyphs (s.take i)).length
        | none => -1)
    | .split => newArray ((Text.splitAt part s).map .str)
    | _ => newArray ((Text.shownChars s).map charValue)

/-! ## Maps and sets -/

def mapMethod (m : MapMethod) (r : Ref) (args : List Value) : Eval Value := do
  let table : Eval MapTable := ofState (·.heap.mapTable r)
  match m with
  | .keys => newArray (← table).keys.toList
  | .values => newArray (← table).vals.toList
  | .entries =>
    let t ← table
    newArray ((t.keys.toList.zip t.vals.toList).map fun (k, v) => .tuple [k, v])
  | .has => return .bool (← readHeap (·.mapHas r (arg args 0)))
  | .get => return (← readHeap (·.mapGet? r (arg args 0))).getD (arg args 1)
  | .set =>
    stepHeap fun h => do return ((), ← h.mapInsert r (arg args 0) (arg args 1))
    return .ref .map r
  | .remove => return .bool (← changeHeap (·.mapErase r (arg args 0)))

def setMethod (m : SetMethod) (r : Ref) (args : List Value) (span : Span) : Eval Value := do
  let withOther (f : Ref → Eval Value) : Eval Value := do
    match arg args 0 with
    | .ref .set other => f other
    | v => typeError span ("expected a set, got " ++ (← typeName v))
  let newSet (f : Heap → Ref → Ref → Except Crash SetTable) : Eval Value :=
    withOther fun other => stepHeap fun h => do return h.newSet (← f h r other)
  match m with
  | .add => return .bool (← stepHeap (·.setAdd r (arg args 0)))
  | .remove => return .bool (← changeHeap (·.setRemove r (arg args 0)))
  | .has => return .bool (← readHeap (·.setHas r (arg args 0)))
  | .values => newArray (← ofState fun s => (s.heap.setTable r).order)
  | .union => newSet Heap.setUnion
  | .intersect => newSet Heap.setIntersect
  | .difference => newSet Heap.setDifference
  | .isSubsetOf => withOther fun other => ofHeap fun h => .bool ((h.setTable r).subset (h.setTable other))

/-! ## Tasks and what they wait for -/

def notice (id : TaskId) : Eval Unit :=
  onState (fun s => ((), { s with observed := id :: s.observed })) fun _ => .observe id

/-- A value is received from a channel, or nothing from one that is closed and drained. -/
def receive (channel : ObjectId) (span : Span) : Eval (Option Value) := do
  let r ← waitFor (.receive channel)
  scheduled span r.fault
  return if r.received.2 then some (r.received.1.getD .null) else none

/-- A method of tasks, locks, semaphores, channels and barriers. -/
def handleMethod (m : HandleMethod) (id : Nat) (args : List Value) (span : Span) : Eval Value := do
  let done (x : Eval Unit) : Eval Value := do
    x
    return .null
  let task (f : Task Value Fault Request → Bool) : Eval Value :=
    ofSched fun s => .bool ((s.task? id).any f)
  match m with
  | .cancel =>
    notice id
    done (onSched (.cancel id ()))
  | .isDone => task (·.isDone)
  | .isCancelled => task (·.killed)
  | .lock => done (waitUntil span (.lock id))
  | .unlock => done (unlock id)
  | .tryLock => onSched (.tryLock id .bool)
  | .isLocked => ofSched fun s => .bool (s.lockHolder id).isSome
  | .acquire => done (waitUntil span (.permit id))
  | .release => done (release id)
  | .tryAcquire => onSched (.tryAcquire id .bool)
  | .available => return .long (← ofSched (·.permits id))
  | .send => done (waitUntil span (.send id (arg args 0)))
  | .receive => return (← receive id span).getD .null
  | .tryReceive => onSched (.tryReceive id (·.getD .null))
  | .close => done (onSched (.close id ()))
  | .isClosed => ofSched fun s => .bool (s.channel id).isClosed
  | .wait => done (waitUntil span (.barrier id))

def callMethod (receiver : Value) (name : String) (args : List Value) (span : Span) : Eval Value := do
  match BuiltinMethod.find? receiver.kind name, receiver with
  | some (.array m), .ref _ r => arrayMethod m r args span
  | some (.string m), .text _ s => stringMethod m s args span
  | some (.map m), .ref _ r => mapMethod m r args
  | some (.set m), .ref _ r => setMethod m r args span
  | some (.handle m), .task id _ => handleMethod m id args span
  | some (.handle m), .handle _ id => handleMethod m id args span
  | _, _ => return .null

end LedgerScript.Eval
