import LedgerScript.Files.Tree
import LedgerScript.Trace.Event

/-!
# Where traced events go

A stream writes the events that its level admits as they come, and signs of life whatever the level.  A ring keeps the
latest events that its level admits, and counts how many it has forgotten; at the level of errors it keeps events of
every scope.  A tracer is nothing at all, a stream, a ring, or both.
-/

namespace LedgerScript

/-- The latest events.  There is a slot for each event until all the slots are taken; from then on an event takes the
slot of the oldest one. -/
structure TraceRing where
  capacity : Nat
  level : TraceLevel
  slots : Array TraceRecord := #[]
  /-- How many events came so far. -/
  written : Nat := 0
  deriving Inhabited

namespace TraceRing

variable (r : TraceRing)

/-- How many events are kept if nothing is said about it. -/
def usualCapacity : Nat := 4096

def empty (capacity : Int) (level : TraceLevel) : TraceRing :=
  { capacity := if capacity ≤ 0 then usualCapacity else capacity.toNat, level }

/-- The ring takes the event: at the level of errors it takes everything. -/
def admits (r : TraceRing) (e : RunEvent) : Bool :=
  r.level = .error || r.level.admits e.scope

/-- An event takes a new slot, or the slot of the oldest event. -/
def store (r : TraceRing) (e : TraceRecord) : TraceRing :=
  let slots :=
    if r.slots.size < r.capacity then r.slots.push e else r.slots.setIfInBounds (r.written % r.capacity) e
  { r with slots, written := r.written + 1 }

def add (r : TraceRing) (e : TraceRecord) : TraceRing :=
  if r.admits e.event then r.store e else r

/-- The ring takes an event and gives it the number after the last one, or leaves it; and the last number then. -/
def emit (r : TraceRing) (last : Nat) (e : TraceRecord) : TraceRing × Nat :=
  if r.admits e.event then (r.store { e with number := last + 1 }, last + 1) else (r, last)

/-- The events that are kept, the oldest first.  Once all the slots are taken, the oldest event is the one whose slot
is the next to be taken. -/
def kept (r : TraceRing) : List TraceRecord :=
  if r.slots.size < r.capacity then r.slots.toList
  else
    let oldest := r.written % r.capacity
    r.slots.toList.drop oldest ++ r.slots.toList.take oldest

/-- How many events are forgotten. -/
def dropped (r : TraceRing) : Nat :=
  r.written - r.slots.size

/-- The events that are kept as lines. -/
def dump (r : TraceRing) (f : TraceFormat) : Bytes :=
  let note := if r.dropped > 0 && f = .text then utf8 s!"({r.dropped} earlier events dropped)\n" else []
  note ++ r.kept.flatMap (·.format f)

@[simp] theorem capacity_store (e : TraceRecord) : (r.store e).capacity = r.capacity := rfl

@[simp] theorem written_store (e : TraceRecord) : (r.store e).written = r.written + 1 := rfl

@[simp] theorem admits_store (e : TraceRecord) (event : RunEvent) :
    (r.store e).admits event = r.admits event := rfl

end TraceRing

/-- What is written as it comes. -/
structure TraceStream where
  level : TraceLevel
  format : TraceFormat
  /-- The lines that it wrote, the newest first. -/
  lines : List Bytes := []
  deriving Inhabited

/-- The stream writes the event: a sign of life is always written. -/
def TraceStream.admits (s : TraceStream) (e : RunEvent) : Bool :=
  e.kind = .heartbeat || s.level.admits e.scope

def TraceStream.add (s : TraceStream) (e : TraceRecord) : TraceStream :=
  if s.admits e.event then { s with lines := e.format s.format :: s.lines } else s

/-- Everything that the stream wrote. -/
def TraceStream.written (s : TraceStream) : Bytes :=
  s.lines.reverse.flatten

structure TraceRequest where
  level : TraceLevel
  /-- The number of a mode, counted from one; zero is the usual one. -/
  mode : Nat := 0
  format : TraceFormat := .text
  /-- The file that a stream is written to; nothing at all and `-` are no files. -/
  output : Bytes := []
  ringSize : Int := 0

/-- The stream is written to a file. -/
def TraceRequest.hasFile (r : TraceRequest) : Bool :=
  r.output ≠ [] && r.output ≠ utf8 "-"

inductive TracerFault where
  | mode
  | output (f : FileFault)
  deriving Inhabited

def TracerFault.text : TracerFault → Bytes
  | mode => utf8 "unknown storage mode: unknown"
  | output f => utf8 "failed to open trace output: " ++ f.text

structure Tracer where
  level : TraceLevel := .off
  stream : Option TraceStream := none
  ring : Option TraceRing := none
  deriving Inhabited

namespace Tracer

def modeOf? (level : TraceLevel) (n : Nat) : Option TraceMode :=
  if level = .error then some .ring
  else if n = 0 then some .stream
  else [TraceMode.stream, .ring, .both][n - 1]?

/-- The format of a stream: the ending of its file may ask for JSON. -/
def formatOf (r : TraceRequest) : TraceFormat :=
  if (utf8 ".ndjson").isSuffixOf r.output then .json else r.format

/-- A tracer as it is wanted, or nothing if there is no such mode. -/
def ofRequest? (r : TraceRequest) : Option Tracer :=
  if r.level = .off then some {}
  else
    (modeOf? r.level r.mode).map fun mode =>
      { level := r.level
        stream := if mode = .ring then none else some { level := r.level, format := formatOf r }
        ring := if mode = .stream then none else some (.empty r.ringSize r.level) }

/-- A tracer as it is wanted; the file of a stream is emptied. -/
def create (t : FileTree) (r : TraceRequest) : Except TracerFault (Tracer × FileTree) :=
  match ofRequest? r with
  | none => .error .mode
  | some tracer =>
    if tracer.stream.isSome && r.hasFile then
      match t.write r.output [] with
      | .ok t => .ok (tracer, t)
      | .error f => .error (.output f)
    else .ok (tracer, t)

def add (t : Tracer) (e : TraceRecord) : Tracer :=
  { t with stream := t.stream.map (·.add e), ring := t.ring.map (·.add e) }

/-- Events are traced one after the other.  Whoever takes an event gives it the next number, the stream first. -/
def follow (t : Tracer) (number : Nat) : List RunEvent → Tracer
  | [] => t
  | event :: rest =>
    let inStream := if t.stream.any (·.admits event) then number + 1 else number
    let stream := t.stream.map fun s => s.add { number := inStream, event }
    match t.ring with
    | none => follow { t with stream } inStream rest
    | some ring =>
      let (ring, inRing) := ring.emit inStream { event }
      follow { t with stream, ring := some ring } inRing rest

end Tracer

end LedgerScript
