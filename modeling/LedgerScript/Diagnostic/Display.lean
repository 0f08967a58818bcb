import LedgerScript.Diagnostic.Basic
import LedgerScript.Text.Quoted
import LedgerScript.Text.Width

/-!
# Diagnostics for readers and for tools

For readers a diagnostic is a headline, the line of the source it points at with a marker below, and the notes.
For tools it is a JSON document.  In both a path is shown as it was given, made absolute, made relative to a base,
or cut to its last component.
-/

namespace LedgerScript

inductive PathMode where
  | asGiven
  | absolute
  | relative
  | base
  deriving DecidableEq, Repr, Inhabited

namespace PathMode

def name : PathMode → String
  | asGiven => "auto"
  | absolute => "absolute"
  | relative => "relative"
  | base => "basename"

def ofName? (s : Bytes) : Option PathMode :=
  [asGiven, absolute, relative, base].find? fun m => utf8 m.name == s

/-- What is said of a name that is no mode. -/
def unknownText (s : Bytes) : Bytes :=
  utf8 "unknown path mode " ++ Text.quoted s ++ utf8 " (expected auto|absolute|relative|basename)"

/-- A path as it is shown.  An empty base is the working directory; a path that has no relative form is shown as
given. -/
def render (m : PathMode) (workDir base path : Bytes) : Bytes :=
  match m with
  | asGiven => path
  | absolute => Path.absolute workDir path
  | relative => (Path.relative? (if base = [] then workDir else base) path).getD path
  | .base => Path.base path

end PathMode

/-- How diagnostics are shown. -/
structure DisplayOptions where
  workDir : Bytes := []
  pathMode : PathMode := .asGiven
  baseDir : Bytes := []
  notes : Bool := false
  deriving Repr, Inhabited

/-- A span points at something: its file is known, and it is not the empty span at the start of a file with
content, which stands for no place. -/
def FileSet.locate? (fs : FileSet) (span : Span) : Option SourceFile :=
  match fs.get? span.file with
  | none => none
  | some f => if span.start ≠ 0 || span.stop ≠ 0 || f.content.isEmpty then some f else none

/-! ## For readers -/

/-- Marks that switch a style of a terminal on and off. -/
structure Style where
  on : Bytes := []
  off : Bytes := []

namespace Style

def paint (s : Style) (text : Bytes) : Bytes :=
  s.on ++ text ++ s.off

/-- A sequence that switches attributes of a terminal. -/
def sequence (codes : String) : Bytes :=
  27 :: utf8 "[" ++ utf8 codes ++ utf8 "m"

def bright (color : String) : Style :=
  ⟨sequence (color ++ ";1"), sequence "0;22"⟩

end Style

structure Palette where
  error : Style := {}
  warning : Style := {}
  info : Style := {}
  gutter : Style := {}
  bold : Style := {}

namespace Palette

/-- Red, yellow and cyan for severities, blue for line numbers. -/
def colored : Palette where
  error := .bright "31"
  warning := .bright "33"
  info := .bright "36"
  gutter := ⟨Style.sequence "34", Style.sequence "0"⟩
  bold := ⟨Style.sequence "1", Style.sequence "22"⟩

def ofSeverity (p : Palette) (s : Severity) : Style :=
  if s = .error then p.error else if s = .warning then p.warning else p.info

end Palette

/-- Blanks as wide as a text, tabs kept. -/
def padding (text : Bytes) : Bytes :=
  (Text.shownChars text).flatMap fun c => if c = '\t' then [9] else List.replicate (Text.charWidth c) 32

def marker (text : Bytes) : Bytes :=
  utf8 "^" ++ List.replicate (Text.width text - 1) (ascii '~')

def rightAligned (columns : Nat) (text : Bytes) : Bytes :=
  List.replicate (columns - text.length) 32 ++ text

/-- The lines around the start of a span, with a marker below the first. -/
def snippet (f : SourceFile) (span : Span) (context : Nat) (gutter mark : Style) : Bytes :=
  let start := f.lineCol span.start
  let stop := f.lineCol span.stop
  let first := if context < start.line then start.line - context else 1
  let last := min (start.line + context) (f.newlines.length + 1)
  let columns := (Text.decimal last).length
  let lines := (List.range (last + 1 - first)).map (· + first)
  lines.flatMap fun n =>
    let text := f.line n
    let shownLine :=
      gutter.paint (rightAligned columns (Text.decimal n) ++ utf8 " |") ++ utf8 " " ++ text ++ utf8 "\n"
    if n ≠ start.line then shownLine
    else
      let finish := if stop.line = start.line then min (stop.col - 1) text.length else text.length
      let upTo := min (start.col - 1) text.length
      let marked := (text.take (max upTo finish)).drop upTo
      shownLine ++ gutter.paint (rightAligned columns [] ++ utf8 " |") ++ utf8 " " ++ padding (text.take upTo) ++
        mark.paint (marker marked) ++ utf8 "\n"

namespace DisplayOptions

/-- The place where a span starts, with the path as it is shown. -/
def location (o : DisplayOptions) (f : SourceFile) (span : Span) : Bytes :=
  let place := f.lineCol span.start
  o.pathMode.render o.workDir o.baseDir f.path ++ utf8 ":" ++ Text.decimal place.line ++ utf8 ":" ++
    Text.decimal place.col

def showOne (o : DisplayOptions) (palette : Palette) (context : Nat) (fs : FileSet) (d : Diagnostic) : Bytes :=
  let style := palette.ofSeverity d.severity
  let place := fs.locate? d.span
  let headStart := match place with
    | some f => palette.bold.paint (o.location f d.span) ++ utf8 ": "
    | none => []
  let headline := headStart ++ style.paint (utf8 d.severity.name) ++ utf8 " " ++ style.paint (utf8 d.code.id) ++
    utf8 ": " ++ d.message ++ utf8 "\n"
  let lines := match place with
    | some f => snippet f d.span context palette.gutter style
    | none => []
  let notes := if o.notes then
      d.notes.flatMap fun n =>
        let start := utf8 "  " ++ palette.info.paint (utf8 "note:") ++ utf8 " "
        match fs.locate? n.span with
        | some f => start ++ o.location f n.span ++ utf8 ": " ++ n.message ++ utf8 "\n" ++
            snippet f n.span 0 palette.gutter palette.info
        | none => start ++ n.message ++ utf8 "\n"
    else []
  headline ++ lines ++ notes

/-- Diagnostics for readers, with a blank line between them. -/
def showAll (o : DisplayOptions) (palette : Palette) (context : Nat) (fs : FileSet) (ds : List Diagnostic) : Bytes :=
  Text.join (utf8 "\n") (ds.map (o.showOne palette context fs))

end DisplayOptions

/-! ## For tools -/

/-- One end of a range: an offset, and the line and column if they are asked for. -/
structure RangeEnd where
  offset : Nat
  place : Option LineCol
  deriving DecidableEq, Repr, Inhabited

/-- A stretch of a named file. -/
structure FileRange where
  file : Bytes
  start : RangeEnd
  stop : RangeEnd
  deriving DecidableEq, Repr, Inhabited

/-- A diagnostic with its places worked out. -/
structure ReportEntry where
  severity : String
  code : String
  title : String
  message : Bytes
  range : Option FileRange
  notes : List (Bytes × Option FileRange)
  deriving Repr, Inhabited

/-- The document for tools: the entries, and how many diagnostics there are. -/
structure Report where
  total : Nat
  entries : List ReportEntry
  deriving Repr, Inhabited

namespace DisplayOptions

def rangeOf (o : DisplayOptions) (positions : Bool) (fs : FileSet) (span : Span) : Option FileRange :=
  (fs.locate? span).map fun f =>
    let stopAt (off : Nat) : RangeEnd := ⟨off, if positions then some (f.lineCol off) else none⟩
    ⟨o.pathMode.render o.workDir o.baseDir f.path, stopAt span.start, stopAt span.stop⟩

/-- The document of a bag, cut to a number of entries; 0 keeps all. -/
def report (o : DisplayOptions) (positions : Bool) (most : Nat) (fs : FileSet) (b : Bag) : Report :=
  let kept := if most > 0 then b.items.take most else b.items
  { total := b.items.length
    entries := kept.map fun d =>
      { severity := d.severity.name
        code := d.code.id
        title := d.code.title
        message := d.message
        range := o.rangeOf positions fs d.span
        notes := if o.notes then d.notes.map fun n => (n.message, o.rangeOf positions fs n.span) else [] } }

end DisplayOptions

namespace Report

/-- An end of a range as JSON; lines and columns of 0 are left out. -/
def endJson (e : RangeEnd) : Text.Json :=
  let places : List (String × Nat) := match e.place with
    | some p => [("line", p.line), ("col", p.col)].filter (·.2 ≠ 0)
    | none => []
  .object (("offset", .number e.offset) :: places.map fun (k, n) => (k, .number n))

def rangeJson (r : FileRange) : Text.Json :=
  .object [("file", .text r.file), ("start", endJson r.start), ("end", endJson r.stop)]

def rangeField (r : Option FileRange) : List (String × Text.Json) :=
  match r with
  | some r => [("range", rangeJson r)]
  | none => []

def entryJson (e : ReportEntry) : Text.Json :=
  .object ([("severity", .text (utf8 e.severity)), ("code", .text (utf8 e.code)), ("title", .text (utf8 e.title)),
    ("message", .text e.message)] ++ rangeField e.range ++
    (if e.notes.isEmpty then []
     else [("notes", .list (e.notes.map fun (m, r) => .object (("message", .text m) :: rangeField r)))]))

def json (r : Report) : Text.Json :=
  .object [("count", .number r.entries.length), ("total", .number r.total),
    ("diagnostics", .list (r.entries.map entryJson))]

end Report

end LedgerScript
