import LedgerScript.Source.File

/-!
# Diagnostics

What is said about a program: the codes, and the diagnostics that carry them.
-/

/-!
## Codes and severities

A diagnostic has a severity and a numeric code.  The thousands of a code name its area: lexical, grammatical, run
time, ledger and configuration.  A code outside these areas is shown as unknown, and a code of an area without a
meaning of its own has the title of an unknown error.
-/

namespace LedgerScript

/-- How serious a diagnostic is: 0 for information, 1 for a warning, 2 for an error. -/
structure Severity where
  rank : Nat
  deriving DecidableEq, Repr, Inhabited

namespace Severity

def info : Severity := ⟨0⟩

def warning : Severity := ⟨1⟩

def error : Severity := ⟨2⟩

def name (s : Severity) : String :=
  match s.rank with
  | 0 => "INFO"
  | 1 => "WARNING"
  | 2 => "ERROR"
  | _ => "UNKNOWN"

end Severity

structure DiagnosticCode where
  number : Nat
  deriving DecidableEq, Repr, Inhabited

namespace DiagnosticCode

def unknown : DiagnosticCode := ⟨0⟩

/-- A character that no token starts with, or a malformed token. -/
def invalidCharacter : DiagnosticCode := ⟨1001⟩

/-- A literal without an end. -/
def unterminatedString : DiagnosticCode := ⟨1002⟩

def unterminatedComment : DiagnosticCode := ⟨1003⟩

/-- A remark on the form of a program. -/
def syntaxInfo : DiagnosticCode := ⟨2000⟩

def unexpectedToken : DiagnosticCode := ⟨2001⟩

/-- A number that its kind cannot hold. -/
def literalOverflow : DiagnosticCode := ⟨2002⟩

/-- An arm after the one that takes all. -/
def catchAllNotLast : DiagnosticCode := ⟨2003⟩

def unknownNamedArgument : DiagnosticCode := ⟨2004⟩

/-- An assignment to what is no place. -/
def invalidTarget : DiagnosticCode := ⟨2005⟩

/-- A second default arm. -/
def duplicateDefault : DiagnosticCode := ⟨2006⟩

/-- An error that no handler took. -/
def uncaught : DiagnosticCode := ⟨3001⟩

/-- Tasks that wait for each other for ever. -/
def stalled : DiagnosticCode := ⟨3002⟩

/-- A module that cannot be used. -/
def importFailed : DiagnosticCode := ⟨3003⟩

/-- A task that ran out of time. -/
def deadlineHit : DiagnosticCode := ⟨3005⟩

def taskCancelled : DiagnosticCode := ⟨3006⟩

/-- A condition of a transaction that does not hold. -/
def validationFailed : DiagnosticCode := ⟨4001⟩

/-- Two transactions on one account. -/
def conflict : DiagnosticCode := ⟨4002⟩

/-- A sum of balances that changed. -/
def conservation : DiagnosticCode := ⟨4003⟩

def area? (c : DiagnosticCode) : Option String :=
  match c.number / 1000 with
  | 1 => some "LEX"
  | 2 => some "SYN"
  | 3 => some "RUN"
  | 4 => some "LED"
  | 5 => some "CFG"
  | _ => none

def id (c : DiagnosticCode) : String :=
  match c.area? with
  | some letters => letters ++ Nat.repr c.number
  | none => "E0000"

def title (c : DiagnosticCode) : String :=
  match c.number with
  | 1000 => "Lexical information"
  | 1001 => "Invalid character"
  | 1002 => "Unterminated string literal"
  | 1003 => "Unterminated block comment"
  | 2000 => "Syntax information"
  | 2001 => "Unexpected token"
  | 2002 => "Numeric literal out of range"
  | 2003 => "Catch-all arm must be last"
  | 2004 => "Unknown named argument"
  | 2005 => "Invalid assignment target"
  | 2006 => "Duplicate default arm"
  | 3000 => "Runtime information"
  | 3001 => "Uncaught error"
  | 3002 => "Scheduler stalled"
  | 3003 => "Import failed"
  | 3004 => "Entrypoint failed"
  | 3005 => "Deadline exceeded"
  | 3006 => "Task cancelled"
  | 4000 => "Ledger information"
  | 4001 => "Validation failed"
  | 4002 => "Concurrency conflict"
  | 4003 => "Balance conservation violated"
  | 4004 => "Block chain verification failed"
  | 5000 => "Configuration information"
  | 5001 => "Invalid configuration"
  | _ => "Unknown error"

def text (c : DiagnosticCode) : String :=
  "[" ++ c.id ++ "]: " ++ c.title

end DiagnosticCode

/-!
## Diagnostics and bags

A diagnostic says what is wrong and where, with notes on related places.  A bag collects diagnostics up to a
limit; it can be sorted by place, thinned out and merged with another one.
-/

/-- A remark on a related place. -/
structure Note where
  span : Span
  message : Bytes
  deriving DecidableEq, Repr, Inhabited

/-- What is wrong, and where. -/
structure Diagnostic where
  severity : Severity := .error
  code : DiagnosticCode := .unknown
  message : Bytes := []
  span : Span := {}
  notes : List Note := []
  deriving DecidableEq, Repr, Inhabited

def Diagnostic.text (d : Diagnostic) : Bytes :=
  utf8 d.severity.name ++ utf8 " " ++ utf8 d.code.id ++ utf8 ": " ++ d.message

/-- Diagnostics in the order they came, with a limit on their number; 0 is no limit. -/
structure Bag where
  items : List Diagnostic := []
  limit : Nat := 0
  deriving Repr, Inhabited

namespace Bag

/-- One more diagnostic, unless the bag is full; also says whether it was taken. -/
def add (b : Bag) (d : Diagnostic) : Bool × Bag :=
  if b.limit > 0 && b.limit ≤ b.items.length then (false, b) else (true, { b with items := b.items ++ [d] })

def has (b : Bag) (s : Severity) : Bool :=
  b.items.any (·.severity == s)

/-- All diagnostics of both; the limit gives way. -/
def merge (b other : Bag) : Bag :=
  let items := b.items ++ other.items
  ⟨items, if b.limit > 0 then max b.limit items.length else b.limit⟩

/-- The order of diagnostics: by file, place, severity from high to low, and code. -/
def precedes (x y : Diagnostic) : Bool :=
  let key (d : Diagnostic) := (d.span.file, d.span.start)
  if (key x).1 ≠ (key y).1 then (key x).1 < (key y).1
  else if (key x).2 ≠ (key y).2 then (key x).2 < (key y).2
  else if x.severity.rank ≠ y.severity.rank then y.severity.rank < x.severity.rank
  else x.code.number ≤ y.code.number

/-- The diagnostics in order; equal ones stay as they came. -/
def sort (b : Bag) : Bag :=
  { b with items := b.items.mergeSort precedes }

def same (x y : Diagnostic) : Bool :=
  x.code == y.code && x.span == y.span

/-- Of several diagnostics of one code and span only the first. -/
def dedup (b : Bag) : Bag :=
  { b with items := (b.items.foldl (fun kept d => if kept.any (same · d) then kept else d :: kept) []).reverse }

end Bag

end LedgerScript
