import LedgerScript.Ledger.Engine
import LedgerScript.Parser.Basic
import LedgerScript.Value.Arith

/-!
# How programs fail

A statement of a program ends normally, or by a control transfer: it leaves a loop, goes on with the next pass, or
returns a value.

Work ends with an *exit* instead of a result when something goes wrong.  A *fault* is what a program can catch.  A
killed task and a crash cannot be caught; they only run what has to be tidied up on the way out.

Most faults are thrown values.  The others arise in the scheduler, in the ledger, in arithmetic or in a module, and
become a thrown error object of a built-in class as soon as they reach the program; the object then remembers its
cause.  A control transfer out of the block of a match arm travels as a fault too, up to the enclosing statement,
even through the failure of a task that another task awaits.
-/

namespace LedgerScript

/-- The classes of errors that the language brings with it. -/
inductive ErrorClass where
  | error
  | runtime
  | type
  | divisionByZero
  | immutableAssignment
  | abstractMethod
  | undefinedVariable
  | malformed
  | concurrency
  | cancelled
  | deadlockTimeout
  | channelClosed
  | ledger
  | validationFailed
  | concurrencyConflict
  deriving DecidableEq, Repr, Inhabited

namespace ErrorClass

def all : List ErrorClass :=
  [error, runtime, type, divisionByZero, immutableAssignment, abstractMethod, undefinedVariable, malformed, concurrency,
    cancelled, deadlockTimeout, channelClosed, ledger, validationFailed, concurrencyConflict]

def name : ErrorClass → String
  | error => "Error"
  | runtime => "RuntimeError"
  | type => "TypeError"
  | divisionByZero => "DivisionByZeroError"
  | immutableAssignment => "ImmutableAssignmentError"
  | abstractMethod => "AbstractMethodError"
  | undefinedVariable => "UndefinedVariableError"
  | malformed => "SyntaxError"
  | concurrency => "ConcurrencyError"
  | cancelled => "CancelledError"
  | deadlockTimeout => "DeadlockTimeout"
  | channelClosed => "ChannelClosedError"
  | ledger => "LedgerError"
  | validationFailed => "ValidationFailed"
  | concurrencyConflict => "ConcurrencyConflict"

def super? : ErrorClass → Option ErrorClass
  | error => none
  | runtime | concurrency | ledger => some error
  | type | divisionByZero | immutableAssignment | abstractMethod | undefinedVariable | malformed => some runtime
  | cancelled | deadlockTimeout | channelClosed => some concurrency
  | validationFailed | concurrencyConflict => some ledger

/-- The cell that holds a class: the classes of errors are the first cells of the heap of a run. -/
def ref : ErrorClass → Ref
  | error => 0
  | runtime => 1
  | type => 2
  | divisionByZero => 3
  | immutableAssignment => 4
  | abstractMethod => 5
  | undefinedVariable => 6
  | malformed => 7
  | concurrency => 8
  | cancelled => 9
  | deadlockTimeout => 10
  | channelClosed => 11
  | ledger => 12
  | validationFailed => 13
  | concurrencyConflict => 14

/-- The class as it stands in its cell. -/
def toClass (c : ErrorClass) : Class :=
  { name := c.name, super? := c.super?.map ref, isErrorRoot := c == error }

theorem ref_eq_idxOf (c : ErrorClass) : c.ref = all.idxOf c := by
  cases c <;> rfl

end ErrorClass

/-- How a statement ends. -/
inductive Control where
  | next
  | leaveLoop
  | nextPass
  | result (v : Value)
  deriving Inhabited

/-- Why a module cannot be used. -/
inductive ImportFault where
  | notFound (path : Bytes)
  | escapes (path root : Bytes)
  | unreadable (path : Bytes) (problem : Bytes)
  | cycle (path : Bytes)
  deriving DecidableEq, Repr, Inhabited

def ImportFault.text : ImportFault → Bytes
  | notFound path => utf8 "module " ++ Text.quoted path ++ utf8 " not found"
  | escapes path root => utf8 "module " ++ Text.quoted path ++ utf8 " escapes " ++ root
  | unreadable path problem => utf8 "load module " ++ Text.quoted path ++ utf8 ": " ++ problem
  | cycle path => utf8 "import cycle through " ++ Text.quoted path

/-- What a program can catch. -/
inductive Fault where
  /-- A value in flight, with the fault that it was made from, if any. -/
  | thrown (v : Value) (span : Span) (cause : Option Fault)
  /-- A control transfer on its way to the enclosing statement. -/
  | escape (c : Control) (span : Span)
  | schedule (f : ScheduleFault)
  | ledger (f : LedgerFault)
  | operand (f : OperandFault)
  | source (f : SourceFault)
  | importing (f : ImportFault)
  deriving Inhabited

namespace Fault

/-- What is said about a fault; the text of a thrown value is that of the moment. -/
def text (h : Heap) : Fault → Bytes
  | thrown v _ _ => h.shown v
  | escape _ _ => utf8 "control transfer outside a statement"
  | schedule f => f.text
  | ledger f => f.text
  | operand f => utf8 f.text
  | source f => f.text
  | importing f => f.text

/-- The control transfer that a fault is or was made from. -/
def escape? : Fault → Option (Control × Span)
  | escape c span => some (c, span)
  | thrown _ _ (some cause) => cause.escape?
  | _ => none

/-- The failure of the ledger that a fault is or was made from. -/
def ledger? : Fault → Option LedgerFault
  | ledger f => some f
  | thrown _ _ (some cause) => cause.ledger?
  | _ => none

/-- Why a transaction with this fault was rolled back: of a failed validation the message alone. -/
def reason (h : Heap) (f : Fault) : Bytes :=
  match f.ledger? with
  | some (.validation message) => message
  | _ => f.text h

/-- The class of the error object that a fault becomes. -/
def errorClass : Fault → ErrorClass
  | operand .divisionByZero => .divisionByZero
  | operand _ => .type
  | schedule (.deadline ..) => .deadlockTimeout
  | schedule .cancelled => .cancelled
  | schedule .channelClosed => .channelClosed
  | ledger (.validation _) => .validationFailed
  | ledger (.conflict _) => .concurrencyConflict
  | ledger .readOnly => .type
  | ledger .closed => .ledger
  | ledger (.conservation ..) => .ledger
  | _ => .runtime

/-- The message of the error object that a fault becomes. -/
def errorMessage (h : Heap) : Fault → Bytes
  | ledger (.validation message) => message
  | f => f.text h

def code (h : Heap) : Fault → DiagnosticCode
  | thrown (.ref .object r) _ cause =>
    match h.object? r with
    | none => .uncaught
    | some o =>
      if h.hasAncestor o.cls "ValidationFailed" then .validationFailed
      else if h.hasAncestor o.cls "ConcurrencyConflict" then .conflict
      else if h.hasAncestor o.cls "DeadlockTimeout" then .deadlineHit
      else if h.hasAncestor o.cls "CancelledError" then .taskCancelled
      else
        match cause.bind ledger? with
        | some (.conservation ..) => .conservation
        | _ => .uncaught
  | thrown .. => .uncaught
  | source f => f.code
  | _ => .unknown

/-- Where an uncaught fault is reported. -/
def span : Fault → Span
  | thrown _ span _ => span
  | source f => f.span
  | _ => {}

end Fault

/-- How work ends that has no result. -/
inductive Exit where
  | fault (f : Fault)
  | killed
  /-- The task breaks down. -/
  | crash (message : Bytes)
  deriving Inhabited

end LedgerScript
