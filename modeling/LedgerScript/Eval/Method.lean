import LedgerScript.Value.Basic

/-!
# Built-in methods

The methods that values of the built-in kinds have.  Some have two names.
-/

namespace LedgerScript

inductive ArrayWalk where
  | map
  | filter
  | forEach
  | find
  | some
  | every
  deriving DecidableEq, Repr, Inhabited

inductive ArrayMethod where
  | push
  | pop
  | shift
  | unshift
  | slice
  | concat
  | join
  | indexOf
  | includes
  | reverse
  | walk (w : ArrayWalk)
  | reduce
  | sort
  deriving DecidableEq, Repr, Inhabited

inductive StringMethod where
  | upper
  | lower
  | trim
  | contains
  | startsWith
  | endsWith
  | indexOf
  | split
  | chars
  | replace
  | substring
  | charAt
  | repeat
  deriving DecidableEq, Repr, Inhabited

inductive MapMethod where
  | keys
  | values
  | entries
  | has
  | get
  | set
  | remove
  deriving DecidableEq, Repr, Inhabited

inductive SetMethod where
  | add
  | remove
  | has
  | values
  | union
  | intersect
  | difference
  | isSubsetOf
  deriving DecidableEq, Repr, Inhabited

/-- Methods of tasks, locks, semaphores, channels and barriers. -/
inductive HandleMethod where
  | cancel
  | isDone
  | isCancelled
  | lock
  | unlock
  | tryLock
  | isLocked
  | acquire
  | release
  | tryAcquire
  | available
  | send
  | receive
  | tryReceive
  | close
  | isClosed
  | wait
  deriving DecidableEq, Repr, Inhabited

inductive BuiltinMethod where
  | array (m : ArrayMethod)
  | string (m : StringMethod)
  | map (m : MapMethod)
  | set (m : SetMethod)
  | handle (m : HandleMethod)
  deriving DecidableEq, Repr, Inhabited

def ArrayMethod.ofName? : String → Option ArrayMethod
  | "push" => some push
  | "pop" => some pop
  | "shift" => some shift
  | "unshift" => some unshift
  | "slice" => some slice
  | "concat" => some concat
  | "join" => some join
  | "indexOf" => some indexOf
  | "includes" | "contains" => some includes
  | "reverse" => some reverse
  | "map" => some (walk .map)
  | "filter" => some (walk .filter)
  | "forEach" => some (walk .forEach)
  | "find" => some (walk .find)
  | "some" => some (walk .some)
  | "every" => some (walk .every)
  | "reduce" => some reduce
  | "sort" => some sort
  | _ => none

def StringMethod.ofName? : String → Option StringMethod
  | "upper" | "toUpperCase" => some upper
  | "lower" | "toLowerCase" => some lower
  | "trim" => some trim
  | "contains" | "includes" => some contains
  | "startsWith" => some startsWith
  | "endsWith" => some endsWith
  | "indexOf" => some indexOf
  | "split" => some split
  | "chars" => some chars
  | "replace" => some replace
  | "substring" | "slice" => some substring
  | "charAt" => some charAt
  | "repeat" => some StringMethod.repeat
  | _ => none

def MapMethod.ofName? : String → Option MapMethod
  | "keys" => some keys
  | "values" => some values
  | "entries" => some entries
  | "has" => some has
  | "get" => some get
  | "set" => some MapMethod.set
  | "remove" | "delete" => some remove
  | _ => none

def SetMethod.ofName? : String → Option SetMethod
  | "add" => some add
  | "remove" | "delete" => some remove
  | "has" | "contains" => some has
  | "values" | "toArray" => some values
  | "union" => some union
  | "intersect" => some intersect
  | "difference" => some difference
  | "isSubsetOf" => some isSubsetOf
  | _ => none

def HandleMethod.ofTask? : String → Option HandleMethod
  | "cancel" => some cancel
  | "isDone" => some isDone
  | "isCancelled" => some isCancelled
  | _ => none

/-- The method of locks, semaphores, channels and barriers of a name. -/
def HandleMethod.ofHandle? (k : HandleKind) (name : String) : Option HandleMethod :=
  match k, name with
  | .lock, "lock" => some lock
  | .lock, "unlock" => some unlock
  | .lock, "tryLock" => some tryLock
  | .lock, "isLocked" => some isLocked
  | .semaphore, "acquire" => some acquire
  | .semaphore, "release" => some release
  | .semaphore, "tryAcquire" => some tryAcquire
  | .semaphore, "available" => some available
  | .channel, "send" => some send
  | .channel, "receive" | .channel, "recv" => some receive
  | .channel, "tryReceive" => some tryReceive
  | .channel, "close" => some close
  | .channel, "isClosed" => some isClosed
  | .barrier, "wait" => some wait
  | _, _ => none

def BuiltinMethod.find? (k : Kind) (name : String) : Option BuiltinMethod :=
  match k with
  | .ref .array => (ArrayMethod.ofName? name).map array
  | .text .string => (StringMethod.ofName? name).map string
  | .ref .map => (MapMethod.ofName? name).map map
  | .ref .set => (SetMethod.ofName? name).map set
  | .task => (HandleMethod.ofTask? name).map handle
  | .handle k => (HandleMethod.ofHandle? k name).map handle
  | _ => none

end LedgerScript
