import LedgerScript.Text.Utf8

/-!
# Source files

Spans of files, the paths that name them, and the files themselves.
-/

/-!
## Spans

A span is a stretch of one source file, from a first byte offset up to a second one.  Offsets are 32-bit words, so
the length of an inverted span wraps around.
-/

namespace LedgerScript

/-- A stretch of a file: the bytes from `start` up to, and without, `stop`. -/
structure Span where
  /-- Index of the file in its file set. -/
  file : Nat := 0
  start : Nat := 0
  /-- Offset just after the last byte. -/
  stop : Nat := 0
  deriving DecidableEq, Repr, Inhabited

namespace Span

/-- No byte lies between the ends. -/
def isEmpty (s : Span) : Bool :=
  s.start == s.stop

/-- The number of bytes, modulo 2³². -/
def length (s : Span) : Nat :=
  (s.stop + (Nat.pow 2 32 - s.start % Nat.pow 2 32)) % Nat.pow 2 32

/-- The least span of the same file that holds both; a span of another file is ignored. -/
def cover (s other : Span) : Span :=
  if s.file = other.file then ⟨s.file, min s.start other.start, max s.stop other.stop⟩ else s

/-- The offset lies inside. -/
def contains (s : Span) (off : Nat) : Bool :=
  s.start ≤ off && off < s.stop

def text (s : Span) : Bytes :=
  Text.decimal s.file ++ utf8 ":" ++ Text.decimal s.start ++ utf8 "-" ++ Text.decimal s.stop

end Span

end LedgerScript

/-!
## Paths

Paths of files are texts whose components are divided by slashes.  `clean` gives the shortest path that names the
same file by text alone: empty components and `.` go, and `..` removes the component before it unless the path
climbs above its start.  A rooted path cannot climb above the root.
-/

namespace LedgerScript.Path

def slash : UInt8 := ascii '/'

/-- The path starts at the root. -/
def isRooted (p : Bytes) : Bool :=
  p.head? == some slash

/-- One component added to the reversed list of the components kept so far. -/
def cleanStep (rooted : Bool) (kept : List Bytes) (component : Bytes) : List Bytes :=
  if component = [] ∨ component = utf8 "." then kept
  else if component = utf8 ".." then
    match kept with
    | [] => if rooted then [] else [component]
    | last :: rest => if last = utf8 ".." then component :: last :: rest else rest
  else component :: kept

def cleanComponents (p : Bytes) : List Bytes :=
  ((Text.splitOn slash p).foldl (cleanStep (isRooted p)) []).reverse

/-- The shortest path of the same meaning; the empty path is `.`. -/
def clean (p : Bytes) : Bytes :=
  let body := Text.join [slash] (cleanComponents p)
  if isRooted p then slash :: body else if body = [] then utf8 "." else body

/-- Several paths one below the other, cleaned; empty ones are left out, and none at all is the empty path. -/
def join (parts : List Bytes) : Bytes :=
  match parts.filter (· ≠ []) with
  | [] => []
  | kept => clean (Text.join [slash] kept)

/-- The path from the working directory: a relative path is put below it. -/
def absolute (workDir p : Bytes) : Bytes :=
  if isRooted p then clean p else join [workDir, p]

def dropTrailingSlashes (p : Bytes) : Bytes :=
  (p.reverse.dropWhile (· == slash)).reverse

/-- The last component: `.` of the empty path and `/` of the root. -/
def base (p : Bytes) : Bytes :=
  if p = [] then utf8 "."
  else
    let trimmed := dropTrailingSlashes p
    if trimmed = [] then [slash]
    else (trimmed.reverse.takeWhile (· != slash)).reverse

/-- All but the last component, cleaned. -/
def dir (p : Bytes) : Bytes :=
  clean (p.reverse.dropWhile (· != slash)).reverse

/-- The ending of the last component from its last dot on, the dot included; empty without a dot. -/
def extension (p : Bytes) : Bytes :=
  let tail := p.reverse.takeWhile (· != slash)
  if tail.contains (ascii '.') then ((tail.takeWhile (· != ascii '.')) ++ [ascii '.']).reverse else []

/-- The components that two lists of components start with alike are dropped from both. -/
def dropCommon : List Bytes → List Bytes → List Bytes × List Bytes
  | a :: as, b :: bs => if a = b then dropCommon as bs else (a :: as, b :: bs)
  | as, bs => (as, bs)

/-- The path that leads from `from` to `target`, or nothing if text alone cannot tell: when one is rooted and the
other is not, or when the way leads through a `..` of the start. -/
def relative? (start target : Bytes) : Option Bytes :=
  let s := clean start
  let t := clean target
  if s = t then some (utf8 ".")
  else
    let s := if s = utf8 "." then [] else s
    if isRooted s ≠ isRooted t then none
    else
      let (up, down) := dropCommon (cleanComponents s) (cleanComponents t)
      match up with
      | first :: _ =>
        if first = utf8 ".." then none
        else some (Text.join [slash] (up.map (fun _ => utf8 "..") ++ down))
      | [] => some (Text.join [slash] down)

end LedgerScript.Path

/-!
## Source files

A source file keeps its text without a byte order mark and with every `\r\n` turned into `\n`, the offsets of its
newlines, and flags that say what was changed.  Lines and columns count from 1, and a column counts bytes.

A file set is the list of files read so far.  A path names the file of that path that came last.
-/

namespace LedgerScript

def newline : UInt8 := 10

/-- A place in a file as line and column. -/
structure LineCol where
  line : Nat
  col : Nat
  deriving DecidableEq, Repr, Inhabited

/-- How the text of a file was obtained. -/
structure SourceFlags where
  /-- The text was given directly and not read from a disk. -/
  inMemory : Bool := false
  /-- A byte order mark was removed. -/
  hadMark : Bool := false
  /-- Some `\r\n` became `\n`. -/
  hadCrLf : Bool := false
  deriving DecidableEq, Repr, Inhabited

/-- The flags as a number: 1, 2 and 4 in order. -/
def SourceFlags.toNat (f : SourceFlags) : Nat :=
  f.inMemory.toNat + 2 * f.hadMark.toNat + 4 * f.hadCrLf.toNat

/-- The text with every `\r\n` turned into `\n`. -/
def unifyNewlines : Bytes → Bytes
  | 13 :: 10 :: rest => 10 :: unifyNewlines rest
  | b :: rest => b :: unifyNewlines rest
  | [] => []

/-- The text contains `\r\n`. -/
def hasCrLf : Bytes → Bool
  | 13 :: 10 :: _ => true
  | _ :: rest => hasCrLf rest
  | [] => false

/-- The text as the language reads it, and what was changed. -/
def normalizeSource (content : Bytes) : Bytes × SourceFlags :=
  let (content, flags) :=
    match Text.dropStart? content [0xEF, 0xBB, 0xBF] with
    | some rest => (rest, { hadMark := true : SourceFlags })
    | none => (content, {})
  if hasCrLf content then (unifyNewlines content, { flags with hadCrLf := true }) else (content, flags)

def newlineOffsets (off : Nat) : Bytes → List Nat
  | [] => []
  | b :: rest => if b = newline then off :: newlineOffsets (off + 1) rest else newlineOffsets (off + 1) rest

structure SourceFile where
  /-- Index in its file set. -/
  id : Nat := 0
  /-- Cleaned path. -/
  path : Bytes
  content : Bytes
  /-- Offsets of the newlines, ascending. -/
  newlines : List Nat
  flags : SourceFlags := {}
  deriving DecidableEq, Repr, Inhabited

namespace SourceFile

def ofContent (id : Nat) (path content : Bytes) (flags : SourceFlags) : SourceFile :=
  { id, path := Path.clean path, content, newlines := newlineOffsets 0 content, flags }

/-- The first index from `i` up to `j` at which offsets in ascending order are not below `off`.  The stretch is halved
until nothing is left of it. -/
def searchFrom (offsets : List Nat) (off i j : Nat) : Nat :=
  if i < j then
    let middle := (i + j) / 2
    if offsets.getD middle 0 < off then searchFrom offsets off (middle + 1) j else searchFrom offsets off i middle
  else i
termination_by j - i

/-- How many newlines lie strictly before an offset. -/
def newlinesBefore (f : SourceFile) (off : Nat) : Nat :=
  searchFrom f.newlines off 0 f.newlines.length

def lineStart (f : SourceFile) (number : Nat) : Nat :=
  if 1 < number then f.newlines.getD (number - 2) 0 + 1 else 0

/-- Where a line stops, if there is such a line: at its newline, or at the end of the text. -/
def lineStop (f : SourceFile) (number : Nat) : Nat :=
  if number ≤ f.newlines.length then f.newlines.getD (number - 1) 0 else f.content.length

/-- The line and column of an offset; a newline belongs to the line that it ends. -/
def lineCol (f : SourceFile) (off : Nat) : LineCol :=
  let line := f.newlinesBefore off + 1
  ⟨line, off - f.lineStart line + 1⟩

def line (f : SourceFile) (number : Nat) : Bytes :=
  if number = 0 ∨ f.newlines.length + 1 < number then []
  else f.content.extract (f.lineStart number) (f.lineStop number)

end SourceFile

/-- The files read so far. -/
structure FileSet where
  files : List SourceFile := []
  deriving Repr, Inhabited

namespace FileSet

def add (fs : FileSet) (path content : Bytes) (flags : SourceFlags) : FileSet × SourceFile :=
  let file := SourceFile.ofContent fs.files.length path content flags
  (⟨fs.files ++ [file]⟩, file)

def addRead (fs : FileSet) (path content : Bytes) : FileSet × SourceFile :=
  let (content, flags) := normalizeSource content
  fs.add path content flags

/-- A text given directly, added after normalisation. -/
def addInMemory (fs : FileSet) (path content : Bytes) : FileSet × SourceFile :=
  let (content, flags) := normalizeSource content
  fs.add path content { flags with inMemory := true }

def get? (fs : FileSet) (id : Nat) : Option SourceFile :=
  fs.files[id]?

def lookup? (fs : FileSet) (path : Bytes) : Option SourceFile :=
  fs.files.reverse.find? (·.path == Path.clean path)

/-- The two ends of a span as lines and columns. -/
def resolve? (fs : FileSet) (span : Span) : Option (LineCol × LineCol) :=
  (fs.get? span.file).map fun f => (f.lineCol span.start, f.lineCol span.stop)

/-- The place where a span starts as `path:line:col`; the bare span if its file is unknown. -/
def position (fs : FileSet) (span : Span) : Bytes :=
  match fs.get? span.file with
  | none => span.text
  | some f =>
    let at' := f.lineCol span.start
    f.path ++ utf8 ":" ++ Text.decimal at'.line ++ utf8 ":" ++ Text.decimal at'.col

end FileSet

end LedgerScript
