import LedgerScript.Eval.BuiltinMethod

/-!
# Built-in functions

The functions that every program can call without declaring them, and what they do.
-/

namespace LedgerScript

inductive Builtin where
  | print
  | len
  | str
  | typeof
  | sleep
  | yield
  | now
  | mutex
  | semaphore
  | channel
  | barrier
  | withDeadline
  | address
  | setSender
  | balanceOf
  | withValue
  | genesis
  | keccak
  | normalize
  | range
  | set
  | assert
  | convert (k : Kind)
  deriving DecidableEq, Repr, Inhabited

/-- The built-in functions with their names. -/
def Builtin.table : List (String × Builtin) :=
  [("print", .print), ("println", .print), ("len", .len), ("str", .str), ("typeof", .typeof), ("sleep", .sleep),
    ("yield", .yield), ("now", .now), ("Mutex", .mutex), ("Semaphore", .semaphore), ("Channel", .channel),
    ("Barrier", .barrier), ("withDeadline", .withDeadline), ("address", .address), ("setSender", .setSender),
    ("balanceOf", .balanceOf), ("withValue", .withValue), ("genesis", .genesis), ("keccak256", .keccak),
    ("normalize", .normalize), ("range", .range), ("set", .set), ("assert", .assert),
    ("short", .convert (.whole .short)), ("int", .convert (.whole .int)), ("long", .convert (.whole .long)),
    ("float", .convert (.real .float)), ("double", .convert (.real .double)), ("char", .convert (.whole .char))]

namespace Eval

/-- What a `for` over a value or a spread of it goes through, read once. -/
def iterate (v : Value) (span : Span) : Eval (List Value) := do
  match v with
  | .ref .array r => itemsOf r
  | .tuple items => return items
  | .ref .set r => ofHeap fun h => (h.setTable r).order
  | .ref .map r => ofHeap fun h => (h.mapTable r).keys.toList
  | .text .string s => return (Text.shownChars s).map charValue
  | v => typeError span ((← typeName v) ++ " is not iterable")

/-- A time in milliseconds as nanoseconds. -/
def nanoseconds (v : Value) (span : Span) : Eval Int := do
  if v.kind.isNumeric then return Value.truncate (v.toFloat * 1000000.0)
  else typeError span ("expected milliseconds, got " ++ (← typeName v))

/-- The time since the start in milliseconds, as far as nanoseconds of 64 bits can tell it. -/
def millisecondsNow : Eval Int :=
  ofSched fun s => (WholeKind.long.wrap (s.now * 1000000)).tdiv 1000000

/-- The counter of a range has not arrived yet. -/
def isUnderway (hi step i : Int) : Bool :=
  if 0 < step then i < hi else hi < i

/-- What the counter of a range meets from `i` on until it arrives.  It is a word of 64 bits, and one that has not arrived after more
steps than there are words never does. -/
def count (hi step : Int) : Nat → Int → Array Int → Option (Array Int)
  | 0, _, _ => none
  | fuel + 1, i, met =>
    if isUnderway hi step i then count hi step fuel (WholeKind.long.wrap (i + step)) (met.push i) else some met

def rangeOf (lo hi step : Int) : Option (Array Int) :=
  count hi step (0x10000000000000000 + 1) lo #[]

def wholeArgs (args : List Value) (span : Span) : Eval (List Int) :=
  (List.range args.length).mapM fun i => wholeArg args i span

/-- An array of whole numbers of the kind of the first bound.  A range without an end fills all memory. -/
def newRange (first : Value) (lo hi step : Int) (span : Span) : Eval Value := do
  if step = 0 then typeError span "range step must not be zero"
  else
    let kind := match first with
      | .whole k _ => k
      | _ => .long
    match rangeOf lo hi step with
    | none => crash .noRoom
    | some ns => newArray (ns.toList.map (.ofInt kind))

/-- The number that a size argument names, or the default if there is none. -/
def sizeArg (args : List Value) (default : Int) (span : Span) : Eval Int := do
  if args.isEmpty then return default else wholeArg args 0 span

/-- A number that fits into 32 bits. -/
def fits32 (n : Int) : Bool :=
  WholeKind.int.wrap n == n

def normalForm (name : Value) : Text.NormalForm :=
  match name with
  | .text .string s =>
    let s := Text.upper s
    if s == utf8 "NFD" then { composed := false }
    else if s == utf8 "NFKC" then { composed := true, compatible := true }
    else if s == utf8 "NFKD" then { composed := false, compatible := true }
    else { composed := true }
  | _ => { composed := true }

/-- Initial balances from the entries of a map. -/
def balancesOf (span : Span) : List (Value × Value) → Eval (List (Address × Int))
  | [] => return []
  | (k, v) :: rest => do
    let address ← addressOf k span
    let amount ← amountOf v span
    return (address, amount) :: (← balancesOf span rest)

/-- Of several entries for one address the last one counts. -/
def lastOfEach (balances : List (Address × Int)) : List (Address × Int) :=
  balances.foldl (fun out b => out.filter (·.1 != b.1) ++ [b]) []

theorem nodup_lastOfEach (balances : List (Address × Int)) : ((lastOfEach balances).map (·.1)).Nodup := by
  have all (out : List (Address × Int)) (unique : (out.map (·.1)).Nodup) :
      ((balances.foldl (fun out b => out.filter (·.1 != b.1) ++ [b]) out).map (·.1)).Nodup := by
    induction balances generalizing out with
    | nil => exact unique
    | cons b rest ih =>
      refine ih _ ?_
      rw [List.map_append, List.map_cons, List.map_nil, List.nodup_append]
      refine ⟨unique.sublist (List.Sublist.map _ List.filter_sublist), by simp, fun address old address' new => ?_⟩
      rw [List.mem_singleton.mp new]
      obtain ⟨entry, kept, rfl⟩ := List.mem_map.mp old
      simpa using (List.mem_filter.mp kept).2
  exact all [] List.nodup_nil

/-- A value as another kind of number; a string is read as a whole number. -/
def convertValue (k : Kind) (v : Value) (span : Span) : Eval Value := do
  match v with
  | .text .string s =>
    match (readWhole? (Text.trim s)).filter fun n => WholeKind.long.wrap n == n with
    | some n => operand span ((Value.long n).convert k)
    | none => raise span .type (utf8 "cannot convert " ++ (← quoted v) ++ utf8 (" to " ++ k.name))
  | v => operand span (v.convert k)

def callBuiltin (b : Builtin) (args : List Value) (span : Span) : Eval Value := do
  let first := arg args 0
  match b with
  | .print =>
    let parts ← args.mapM plain
    print (Text.join (utf8 " ") parts ++ utf8 "\n")
    return .null
  | .len =>
    match first with
    | .ref .map r => return .count (← ofHeap fun h => (h.mapTable r).size)
    | v =>
      match ← property? v "length" with
      | some n => return .count n
      | none => typeError span ("len of " ++ (← typeName v))
  | .str => return .str (← plain first)
  | .typeof => return .str (utf8 (← typeName first))
  | .sleep =>
    let ns ← nanoseconds first span
    waitUntil span (.sleep ns)
    return .null
  | .yield =>
    waitUntil span .yield
    return .null
  | .now => return .long (← millisecondsNow)
  | .mutex => return .handle .lock (← onSched (.newLock id))
  | .semaphore =>
    let n ← sizeArg args 1 span
    if n < 0 then typeError span "Semaphore permits must be >= 0"
    else return .handle .semaphore (← onSched (.newSemaphore n id))
  | .channel =>
    let n ← sizeArg args 0 span
    if n < 0 then typeError span "Channel capacity must be >= 0"
    else if !fits32 n then typeError span ("Channel capacity " ++ toString n ++ " is out of range")
    else return .handle .channel (← onSched (.newChannel n id))
  | .barrier =>
    let n ← wholeArg args 0 span
    if n < 1 then typeError span "Barrier needs at least one party"
    else if !fits32 n then typeError span ("Barrier parties " ++ toString n ++ " is out of range")
    else return .handle .barrier (← onSched (.newBarrier n id))
  | .withDeadline =>
    match first with
    | .task id _ =>
      let ns ← nanoseconds (arg args 1) span
      onSched (.setDeadline id ns ())
      return first
    | v => typeError span ("withDeadline expects a Task, got " ++ (← typeName v))
  | .address => return .text .address (← addressOf first span)
  | .setSender =>
    let sender ← addressOf first span
    if (← context).working.isSome then typeError span "setSender inside a transaction"
    else
      modifyContext fun c => { c with sender }
      return .null
  | .balanceOf => return amountValue (← balance (← addressOf first span) span)
  | .withValue =>
    let amount ← amountOf first span
    if amount < 0 then typeError span "withValue amount must be >= 0"
    else
      modifyContext fun c => { c with pendingValue := some amount }
      return .null
  | .genesis =>
    match first with
    | .ref .map r =>
      if (← context).working.isSome then typeError span "genesis inside a transaction"
      else
        let t ← ofHeap (·.mapTable r)
        let balances ← balancesOf span (t.keys.toList.zip t.vals.toList)
        settled span (← ofDeed _ (.credit (nodup_lastOfEach balances)))
        return .null
    | _ => typeError span "genesis expects a map of balances"
  | .keccak => return .str (Digest.text (Digest.ofBytes (← plain first)))
  | .normalize =>
    match first with
    | .text .string s => return .str ((normalForm (arg args 1)).apply s)
    | v => typeError span ("normalize expects a string, got " ++ (← typeName v))
  | .range =>
    match ← wholeArgs args span with
    | [hi] => newRange first 0 hi 1 span
    | [lo, hi] => newRange first lo hi 1 span
    | [lo, hi, step] => newRange first lo hi step span
    | _ => typeError span "range takes 1 to 3 arguments"
  | .set =>
    let items ← match args with
      | [.ref .array r] => itemsOf r
      | [.tuple items] => pure items
      | [.ref .set r] => ofHeap fun h => (h.setTable r).order
      | args => pure args
    stepHeap fun h => do return h.newSet (← h.setOf items)
  | .assert =>
    if first.truthy then return .null
    else
      match args with
      | _ :: message :: _ => raise span .runtime (utf8 "assertion failed: " ++ (← plain message))
      | _ => raiseText span .runtime "assertion failed"
  | .convert k => convertValue k first span

end Eval

end LedgerScript
