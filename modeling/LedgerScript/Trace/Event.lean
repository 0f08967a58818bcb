import LedgerScript.Text.Case
import LedgerScript.Text.Quoted

/-!
# Trace events

A run leaves a trail of events: spans that begin and end, and points in between.  The scope of an event says which
part of the program it comes from, from the coarsest to the finest, and the level of a trace admits the scopes down
to some fineness.
-/

namespace LedgerScript

/-- What an event marks. -/
inductive TraceKind where
  | spanBegin
  | spanEnd
  | point
  | heartbeat
  /-- A number that stands for no kind. -/
  | other
  deriving DecidableEq, Repr, Inhabited

namespace TraceKind

/-- How a kind of event is called. -/
def name : TraceKind → String
  | spanBegin => "begin"
  | spanEnd => "end"
  | point => "point"
  | heartbeat => "heartbeat"
  | other => "unknown"

/-- The sign that marks a kind of event in a listing. -/
def sign : TraceKind → String
  | spanBegin => ">"
  | spanEnd => "<"
  | point => "*"
  | heartbeat => "~"
  | other => "?"

def ofNumber (n : Nat) : TraceKind :=
  [other, spanBegin, spanEnd, point, heartbeat].getD n other

end TraceKind

/-- The part of the program that an event comes from. -/
inductive TraceScope where
  | driver
  | phase
  | ledger
  | task
  /-- A number that stands for no scope. -/
  | other
  deriving DecidableEq, Repr, Inhabited

namespace TraceScope

def name : TraceScope → String
  | driver => "driver"
  | phase => "phase"
  | ledger => "ledger"
  | task => "task"
  | other => "unknown"

def fineness? : TraceScope → Option Nat
  | driver => some 1
  | phase => some 2
  | ledger => some 3
  | task => some 4
  | other => none

def ofNumber (n : Nat) : TraceScope :=
  [other, driver, phase, ledger, task].getD n other

end TraceScope

structure RunEvent where
  kind : TraceKind := .point
  scope : TraceScope
  /-- The span that the event begins or ends. -/
  span : Nat := 0
  /-- The span around that span. -/
  parent : Nat := 0
  name : String
  detail : Bytes := []
  attrs : List (String × Bytes) := []
  deriving DecidableEq, Repr, Inhabited

end LedgerScript

/-!
## Traced events

How much of a run is traced is a matter of choice, and so is the form in which a traced event is written.
-/

namespace LedgerScript

/-!
## How much is traced, where and how

The level of a trace admits the scopes down to some fineness.  Events are written as they come, or kept in a ring, or
both; and they are written as plain lines or as JSON.  Each choice has names, which are read in any case.
-/

inductive TraceLevel where
  | off
  /-- Everything is kept in case the run fails. -/
  | error
  | phase
  | detail
  | debug
  /-- A number that stands for no level; nothing is admitted. -/
  | other
  deriving DecidableEq, Repr, Inhabited

namespace TraceLevel

def named : List TraceLevel := [off, error, phase, detail, debug]

def name : TraceLevel → String
  | off => "off"
  | error => "error"
  | phase => "phase"
  | detail => "detail"
  | debug => "debug"
  | other => "unknown"

def ofNumber (n : Nat) : TraceLevel :=
  named.getD n other

def finest : TraceLevel → Nat
  | phase => 2
  | detail => 3
  | debug => 4
  | _ => 0

def admits (l : TraceLevel) (s : TraceScope) : Bool :=
  match s.fineness? with
  | some n => n ≤ l.finest
  | none => false

def isOn (l : TraceLevel) : Bool :=
  l ≠ off

end TraceLevel

/-- How events are written. -/
inductive TraceFormat where
  | text
  | json
  deriving DecidableEq, Repr, Inhabited

/-- Where events go. -/
inductive TraceMode where
  | stream
  | ring
  | both
  deriving DecidableEq, Repr, Inhabited

def TraceMode.name : TraceMode → String
  | stream => "stream"
  | ring => "ring"
  | both => "both"

def TraceMode.number : TraceMode → Nat
  | stream => 1
  | ring => 2
  | both => 3

/-- A choice about tracing that cannot be read. -/
inductive TraceFault where
  | level (given : Bytes)
  | format (given : Bytes)
  | mode (given : Bytes)
  deriving DecidableEq, Repr, Inhabited

/-- What is said about a choice that cannot be read. -/
def TraceFault.text : TraceFault → Bytes
  | level s => utf8 "invalid trace level: " ++ Text.quoted s ++ utf8 " (expected: off|error|phase|detail|debug)"
  | format s => utf8 "invalid trace format: " ++ Text.quoted s ++ utf8 " (expected: text|ndjson)"
  | mode s => utf8 "invalid storage mode: " ++ Text.quoted s ++ utf8 " (expected: stream|ring|both)"

/-- The level that a text names; blanks around it do not count, and nothing at all is off. -/
def TraceLevel.read (text : Bytes) : Except TraceFault TraceLevel :=
  let s := Text.lower (Text.trim text)
  if s = [] then .ok off
  else
    match named.find? (utf8 ·.name == s) with
    | some l => .ok l
    | none => .error (.level s)

/-- The format that a text names; nothing at all is plain text. -/
def TraceFormat.read (given : Bytes) : Except TraceFault TraceFormat :=
  let s := Text.lower given
  if s = [] || s = utf8 "text" then .ok text
  else if s = utf8 "ndjson" || s = utf8 "json" then .ok json
  else .error (.format given)

/-- The mode that a text names; nothing at all is a stream. -/
def TraceMode.read (given : Bytes) : Except TraceFault TraceMode :=
  let s := Text.lower given
  if s = [] then .ok stream
  else
    match [stream, ring, both].find? (utf8 ·.name == s) with
    | some m => .ok m
    | none => .error (.mode s)

/-!
## Traced events as lines

An event that is traced has a time and a number.  As a plain line it shows its number, its scope and what it marks; an
event inside of a span is indented.  As JSON it is one object on a line.
-/

structure CalendarDay where
  year : Int
  month : Nat
  day : Nat
  deriving DecidableEq, Repr, Inhabited

/-- The day that lies so many days after the first of January 1970.  Years are counted from March on here, so that the
leap day comes last, and in eras of four hundred years, which all have the same number of days. -/
def CalendarDay.ofDays (days : Int) : CalendarDay :=
  let shifted := days + 719468
  let era := shifted.fdiv 146097
  let dayOfEra := (shifted.fmod 146097).toNat
  let yearOfEra := (dayOfEra - dayOfEra / 1460 + dayOfEra / 36524 - dayOfEra / 146096) / 365
  let dayOfYear := dayOfEra - (365 * yearOfEra + yearOfEra / 4 - yearOfEra / 100)
  let shiftedMonth := (5 * dayOfYear + 2) / 153
  let month := if shiftedMonth < 10 then shiftedMonth + 3 else shiftedMonth - 9
  { year := era * 400 + yearOfEra + (if month ≤ 2 then 1 else 0), month
    day := dayOfYear - (153 * shiftedMonth + 2) / 5 + 1 }

/-- A number with at least so many digits. -/
def paddedNumber (places n : Nat) : Bytes :=
  let ds := Text.decimal n
  List.replicate (places - ds.length) (ascii '0') ++ ds

/-- A time, counted from the start of 1970 in seconds and nanoseconds, down to microseconds. -/
def timeText (seconds nanos : Int) : Bytes :=
  let seconds := seconds + nanos.fdiv 1000000000
  let nanos := (nanos.fmod 1000000000).toNat
  let d := CalendarDay.ofDays (seconds.fdiv 86400)
  let s := (seconds.fmod 86400).toNat
  let year := (if d.year < 0 then utf8 "-" else []) ++ paddedNumber 4 d.year.natAbs
  year ++ utf8 "-" ++ paddedNumber 2 d.month ++ utf8 "-" ++ paddedNumber 2 d.day ++ utf8 "T" ++
    paddedNumber 2 (s / 3600) ++ utf8 ":" ++ paddedNumber 2 (s / 60 % 60) ++ utf8 ":" ++ paddedNumber 2 (s % 60) ++
    utf8 "." ++ paddedNumber 6 (nanos / 1000) ++ utf8 "Z"

structure TraceRecord where
  seconds : Int := 0
  nanos : Int := 0
  number : Nat := 0
  event : RunEvent
  deriving DecidableEq, Repr, Inhabited

namespace TraceRecord

/-- The value of an attribute; nothing at all if there is none. -/
def attr (r : TraceRecord) (key : String) : Bytes :=
  ((r.event.attrs.find? (·.1 == key)).map (·.2)).getD []

def padRight (columns : Nat) (text : Bytes) : Bytes :=
  text ++ List.replicate (columns - text.length) 32

def padLeft (columns : Nat) (text : Bytes) : Bytes :=
  List.replicate (columns - text.length) 32 ++ text

/-- The plain line of an event without its number. -/
def body (r : TraceRecord) : Bytes :=
  let e := r.event
  padRight 6 (utf8 e.scope.name) ++ utf8 " " ++ (if e.parent ≠ 0 then utf8 "  " else []) ++
    utf8 (e.kind.sign ++ " " ++ e.name) ++ (if e.detail ≠ [] then utf8 " (" ++ e.detail ++ utf8 ")" else []) ++
    e.attrs.flatMap fun (k, v) => utf8 (" " ++ k ++ "=") ++ v

/-- The plain line of an event. -/
def line (r : TraceRecord) : Bytes :=
  padLeft 6 (Text.decimal r.number) ++ utf8 " " ++ r.body ++ utf8 "\n"

/-- The attributes by key; of several values the last one stands. -/
def attrsByKey (r : TraceRecord) : List (String × Bytes) :=
  let last := r.event.attrs.foldl (fun kept (k, v) => (k, v) :: kept.filter (·.1 ≠ k)) []
  last.mergeSort fun a b => Text.lexLe (utf8 a.1) (utf8 b.1)

def jsonLine (r : TraceRecord) : Bytes :=
  let e := r.event
  let number (name : String) (n : Nat) : List (String × Text.Json) := if n = 0 then [] else [(name, .number n)]
  let fields : List (String × Text.Json) :=
    [("time", .text (timeText r.seconds r.nanos)), ("seq", .number r.number), ("kind", .text (utf8 e.kind.name)),
      ("scope", .text (utf8 e.scope.name))] ++ number "span" e.span ++ number "parent" e.parent ++
      [("name", .text (utf8 e.name))] ++ (if e.detail = [] then [] else [("detail", .text e.detail)]) ++
      (if e.attrs.isEmpty then [] else [("attrs", .object (r.attrsByKey.map fun (k, v) => (k, .text v)))])
  (Text.Json.object fields).compact ++ utf8 "\n"

def format (r : TraceRecord) : TraceFormat → Bytes
  | .text => r.line
  | .json => r.jsonLine

end TraceRecord

end LedgerScript
