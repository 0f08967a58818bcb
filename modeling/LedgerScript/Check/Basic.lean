import LedgerScript.Eval.Fault
import LedgerScript.Printer.Basic
import LedgerScript.Syntax.View

/-!
# Checking files

A file is checked by parsing it and by looking for the modules that it imports; if asked for, also by printing and
parsing it again.  Results can be kept, in memory by path and content, or on a disk by content alone.  A result on a
disk has no tree, belongs to one path, and is of use only for that path.  A result without the check on the printed
form is of no use if that check is asked for.
-/

/-!
## Formatting a source

A source is formatted by parsing and printing it.  The check on a formatted file parses the printed text again and
compares the kinds of the items and the text printed from the second tree.
-/

namespace LedgerScript

def formatSource (style : IndentStyle) (f : SourceFile) : Except SourceFault Bytes :=
  (parse f).map (·.print style)

/-- What the check on a printed file can find. -/
inductive FormatCheck where
  | same
  | unreadable (fault : SourceFault)
  | otherItems
  | unstable
  deriving Inhabited

namespace FormatCheck

/-- Nothing was found. -/
def isOk : FormatCheck → Bool
  | same => true
  | _ => false

/-- What is said of a finding. -/
def message : FormatCheck → Bytes
  | same => utf8 "fmt-check: OK"
  | unreadable fault => utf8 "fmt-check: reparse failed: " ++ fault.text
  | otherItems => utf8 "fmt-check: top-level item kinds differ after round-trip"
  | unstable => utf8 "fmt-check: printer is not idempotent"

end FormatCheck

/-- Prints a tree, parses the text, and compares. -/
def checkFormat (path : Bytes) (tree : SyntaxFile) : FormatCheck :=
  let out := tree.print {}
  let (_, f) := ({} : FileSet).addInMemory path out
  match parse f with
  | .error fault => .unreadable fault
  | .ok second =>
    if tree.items.map Stmt.kindName ≠ second.items.map Stmt.kindName then .otherItems
    else if second.print {} ≠ out then .unstable
    else .same

end LedgerScript

/-!
## Source files

Programs import modules by name, and commands are given paths.  Both stand for source files of a tree.
-/

namespace LedgerScript

/-!
## Modules in files

A module is named by a path below a folder.  The path may not lead out of the folder, and an ending of its own takes
the place of the usual one.
-/

def sourceEnding : Bytes := utf8 ".gard"

def FileTree.readModule (t : FileTree) (root path : Bytes) : Except ImportFault Bytes :=
  let clean := Path.clean path
  if Path.isRooted clean || Text.startsWith clean (utf8 "..") then .error (.escapes path root)
  else
    let full := Path.join [root, clean]
    let full := if Path.extension full = [] then full ++ sourceEnding else full
    (t.read full).mapError fun f => .unreadable path f.text

def readNamedModule (modules : List (Bytes × Bytes)) (path : Bytes) : Except ImportFault Bytes :=
  match modules.find? (·.1 == path) with
  | some m => .ok m.2
  | none => .error (.notFound path)

/-!
## The source files below some paths

A path of a file stands for itself, whatever its ending.  A folder stands for the source files in it and below it, but
for the folder in which programs keep their chain.
-/

def chainFolder : Bytes := utf8 ".gard"

def FileTree.sourcesAt (t : FileTree) (path : Bytes) : Except FileFault (List Bytes) := do
  match ← t.inspect path with
  | .file _ => return [path]
  | .folder => return (t.walk chainFolder path).filter (Path.extension · = sourceEnding)

/-- The files that paths stand for, each once and in order. -/
def FileTree.sources (t : FileTree) (paths : List Bytes) : Except FileFault (List Bytes) := do
  let found ← paths.mapM t.sourcesAt
  return found.flatten.eraseDups.mergeSort Text.lexLe

end LedgerScript

/-! ## Checks -/

namespace LedgerScript

structure CheckedFile where
  path : Bytes
  files : FileSet
  bag : Bag
  imports : List Bytes := []
  formatChecked : Bool := false
  /-- The result was kept from an earlier check. -/
  isKept : Bool := false
  hasTree : Bool := false
  deriving Inhabited

/-- How far the check of a file is. -/
inductive CheckStage where
  | queued
  | parse
  | imports
  | format
  deriving DecidableEq, Repr, Inhabited

def CheckStage.number : CheckStage → Nat
  | queued => 0
  | parse => 1
  | imports => 2
  | format => 3

/-- What happens to a file in its stage. -/
inductive CheckStatus where
  | queued
  | working
  | done
  | error
  deriving DecidableEq, Repr, Inhabited

def CheckStatus.number : CheckStatus → Nat
  | queued => 0
  | working => 1
  | done => 2
  | error => 3

/-- A step in the check of a file. -/
structure CheckEvent where
  path : Bytes
  stage : CheckStage := .queued
  status : CheckStatus
  deriving DecidableEq, Repr, Inhabited

/-- Which results are kept. -/
structure CheckCache where
  inMemory : Bool := false
  onDisk : Bool := false
  memory : List ((Bytes × Bytes) × CheckedFile) := []
  /-- Results by content. -/
  disk : List (Bytes × CheckedFile) := []
  deriving Inhabited

structure CheckOptions where
  /-- The printed form is checked too. -/
  format : Bool := false
  /-- The limit on the diagnostics of a file; 0 is no limit. -/
  limit : Nat := 0
  deriving DecidableEq, Repr, Inhabited

namespace CheckCache

/-- The result is of use. -/
def suits (o : CheckOptions) (r : CheckedFile) : Bool :=
  r.formatChecked || !o.format

/-- The diagnostics of a result that was kept on a disk: without notes, and up to the limit of now. -/
def storedBag (limit : Nat) (b : Bag) : Bag :=
  b.items.foldl (fun kept d => (kept.add { d with notes := [] }).2) { limit }

/-- The result that was kept for a file, if it is of use. -/
def find? (c : CheckCache) (o : CheckOptions) (path : Bytes) (files : FileSet) (content : Bytes) : Option CheckedFile :=
  let kept := if c.inMemory then (c.memory.find? (·.1 == (path, content))).filter (suits o ·.2) else none
  match kept with
  | some (_, r) => some { r with isKept := true }
  | none =>
    let stored := if c.onDisk then (c.disk.find? (·.1 == content)).filter fun e => e.2.path == path && suits o e.2
      else none
    stored.map fun (_, r) => { r with files, bag := storedBag o.limit r.bag, isKept := true, hasTree := false }

/-- A result is kept. -/
def keep (c : CheckCache) (content : Bytes) (r : CheckedFile) : CheckCache :=
  { c with
    memory := if c.inMemory then ((r.path, content), r) :: c.memory.filter (·.1 != (r.path, content)) else c.memory
    disk := if c.onDisk then (content, r) :: c.disk.filter (·.1 != content) else c.disk }

end CheckCache

def unreadableFile (f : FileFault) : Diagnostic :=
  { code := .importFailed, message := utf8 "failed to load file: " ++ f.text }

def unresolvedImport (path : Bytes) (span : Span) (f : ImportFault) : Diagnostic :=
  { severity := .warning, code := .importFailed, span
    message := utf8 "import " ++ Text.quoted path ++ utf8 " does not resolve: " ++ f.text }

def SyntaxFile.imports (tree : SyntaxFile) : List (Bytes × Span) :=
  tree.items.filterMap fun
    | .import span _ path => some (path, span)
    | _ => none

/-- The imports of a file in a folder that lead nowhere go to a bag. -/
def Bag.addUnresolved (b : Bag) (t : FileTree) (folder : Bytes) (imports : List (Bytes × Span)) : Bag :=
  imports.foldl (fun b (i, span) =>
    match t.readModule folder i with
    | .ok _ => b
    | .error f => (b.add (unresolvedImport i span f)).2) b

/-- A file is parsed and looked into. -/
def checkTree (t : FileTree) (o : CheckOptions) (path : Bytes) (files : FileSet) (file : SourceFile) :
    CheckedFile × List CheckEvent :=
  let bag : Bag := { limit := o.limit }
  let working (stage : CheckStage) : CheckEvent := { path, stage, status := .working }
  match parse file with
  | .error f =>
    ({ path, files, bag := (bag.add { code := f.code, message := f.text, span := f.span }).2 }, [working .parse])
  | .ok tree =>
    let bag := bag.addUnresolved t (Path.dir path) tree.imports
    let result : CheckedFile := { path, files, bag, imports := tree.imports.map (·.1), hasTree := true }
    if !o.format then (result, [working .parse, working .imports])
    else
      let c := checkFormat file.path tree
      let bag := if c.isOk then bag else (bag.add { code := .syntaxInfo, message := c.message }).2
      ({ result with bag, formatChecked := true }, [working .parse, working .imports, working .format])

def checkFile (t : FileTree) (o : CheckOptions) (cache : CheckCache) (path : Bytes) :
    CheckedFile × List CheckEvent × CheckCache :=
  match t.read path with
  | .error f => ({ path, files := {}, bag := (({ limit := o.limit } : Bag).add (unreadableFile f)).2 }, [], cache)
  | .ok text =>
    let (files, file) := ({} : FileSet).addRead path text
    match cache.find? o path files file.content with
    | some r => (r, [], cache)
    | none =>
      let (r, events) := checkTree t o path files file
      (r, events, cache.keep file.content r)

def checkedEvent (path : Bytes) (r : CheckedFile) : CheckEvent :=
  { path, status := if r.bag.has .error then .error else .done }

/-- Files are checked one after the other; the results and events are those so far, the latest first. -/
def checkEach (t : FileTree) (o : CheckOptions) :
    List Bytes → List CheckedFile → List CheckEvent → CheckCache → List CheckedFile × List CheckEvent × CheckCache
  | [], results, events, cache => (results.reverse, events.reverse, cache)
  | path :: rest, results, events, cache =>
    let (r, new, cache) := checkFile t o cache path
    checkEach t o rest (r :: results) (checkedEvent path r :: new.reverse ++ events) cache

def checkFiles (t : FileTree) (o : CheckOptions) (cache : CheckCache) (paths : List Bytes) :
    List CheckedFile × List CheckEvent × CheckCache :=
  checkEach t o paths [] (paths.map fun path => { path, status := .queued : CheckEvent }).reverse cache

/-!
## Printing files anew

The source files below some paths are printed in the usual form, and those that differ from it are written back.
-/

/-- What is done with the printed form of a file. -/
inductive FormatTask where
  /-- It is written back. -/
  | write
  | compare
  /-- It is handed over. -/
  | show
  deriving DecidableEq, Repr, Inhabited

/-- Why a file cannot be printed. -/
inductive FormatFault where
  | file (f : FileFault)
  | source (f : SourceFault)
  deriving Inhabited

/-- What is said about a file that cannot be printed. -/
def FormatFault.text : FormatFault → Bytes
  | file f => f.text
  | source f => f.text

structure FormattedFile where
  path : Bytes
  isChanged : Bool := false
  fault : Option FormatFault := none
  text : Bytes := []
  deriving Inhabited

/-- Why nothing can be printed at all. -/
inductive FormatPathsFault where
  | file (f : FileFault)
  | noSources
  deriving Inhabited

/-- What is said if nothing can be printed at all. -/
def FormatPathsFault.text : FormatPathsFault → Bytes
  | file f => f.text
  | noSources => utf8 "format: no source files found"

def formatFile (t : FileTree) (style : IndentStyle) (task : FormatTask) (path : Bytes) : FormattedFile × FileTree :=
  match t.read path with
  | .error f => ({ path, fault := some (.file f) }, t)
  | .ok text =>
    let (_, file) := ({} : FileSet).addRead path text
    match formatSource style file with
    | .error f => ({ path, fault := some (.source f) }, t)
    | .ok after =>
      let isChanged := file.content != after
      match task, isChanged with
      | .show, _ => ({ path, isChanged, text := after }, t)
      | .compare, _ | .write, false => ({ path, isChanged }, t)
      | .write, true =>
        match t.write path after with
        | .ok t => ({ path, isChanged }, t)
        | .error f => ({ path, isChanged, fault := some (.file f) }, t)

def formatFiles (style : IndentStyle) (task : FormatTask) : List Bytes → FileTree → List FormattedFile × FileTree
  | [], t => ([], t)
  | path :: rest, t =>
    let (r, t) := formatFile t style task path
    let (rs, t) := formatFiles style task rest t
    (r :: rs, t)

/-- The source files below paths are printed. -/
def formatPaths (t : FileTree) (style : IndentStyle) (task : FormatTask) (paths : List Bytes) :
    Except FormatPathsFault (List FormattedFile × FileTree) := do
  match ← (t.sources paths).mapError .file with
  | [] => throw .noSources
  | files => return formatFiles style task files t

end LedgerScript
