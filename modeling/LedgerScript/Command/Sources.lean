import LedgerScript.Command.Basic

/-!
# Commands on source files

Source files are checked, printed in the usual form, and listed as tokens or as trees.
-/

/-!
## Checking files

All source files below the paths are checked.  What is found is told as diagnostics or as one document, and what is
found now is remembered for the next time.
-/

namespace LedgerScript.CheckCommand

def known : List Flag :=
  [⟨"jobs", .number⟩, ⟨"fmt", .switch⟩, ⟨"ui", .text⟩, ⟨"format", .text⟩, ⟨"no-cache", .switch⟩, ⟨"clear-cache", .switch⟩]

/-- The folder in which findings are kept: next to the settings, or else one for everything. -/
def cacheFolder (t : FileTree) (s : Settings) : Bytes :=
  if s.path = [] then [] else Path.absolute t.homePath (Path.join [s.root, chainFolder, utf8 "cache"])

/-- A progress display is asked for by one of some words. -/
def isProgress (given : Bytes) : Bool :=
  ["", "auto", "on", "off"].any (utf8 · == Text.lower (Text.trim given))

def findingsJson (o : DisplayOptions) (results : List CheckedFile) : Text.Json :=
  let sorted := results.mergeSort fun x y => Text.lexLe x.path y.path
  .object (sorted.map fun r => (Text.shown r.path, (o.report true 0 r.files r.bag.sort).json))

/-- The source files are checked, with what is remembered unless that is not wanted. -/
def checkSources (o : CommandOptions) (s : Settings) (files : List Bytes) : CommandM (List CheckedFile) := do
  let w ← CommandM.space
  let folder := cacheFolder w.tree s
  let isUsed := !o.flags.switch "no-cache"
  let disk := if isUsed && !o.flags.switch "clear-cache" then (w.checked.lookup folder).getD [] else []
  let (results, _, cache) := checkFiles w.tree { format := o.flags.switch "fmt", limit := o.limit }
    { inMemory := true, onDisk := isUsed, disk } files
  if isUsed then
    CommandM.modifySpace fun w => { w with checked := (folder, cache.disk) :: w.checked.filter (·.1 ≠ folder) }
  return results

def execute (o : CommandOptions) (args : List Bytes) : CommandM Unit := do
  let paths := if args.isEmpty then [utf8 "."] else args
  let progress := o.flags.text "ui" (utf8 "auto")
  if !isProgress progress then throw (.progress progress)
  let format := o.flags.text "format" (utf8 "pretty")
  if format ≠ utf8 "pretty" && format ≠ utf8 "json" then throw (.checkFormat format)
  let settings ← o.settingsNear (paths.headD [])
  let _ ← o.tracer settings
  let files ← CommandM.lift .file ((← CommandM.tree).sources paths)
  if files.isEmpty then throw .noSources
  let results ← checkSources o settings files
  let failed := (results.filter (·.bag.has .error)).length
  let t ← CommandM.tree
  if format = utf8 "json" then
    CommandM.write ((findingsJson (o.display t) results).indented 0 ++ utf8 "\n")
  else
    for r in results do
      if !r.bag.items.isEmpty then CommandM.writeError (o.shown t r.files r.bag.sort ++ utf8 "\n")
    if !o.isQuiet then CommandM.write (utf8 s!"checked {results.length} files, {failed} with errors\n")
  if failed > 0 then throw .reported

end LedgerScript.CheckCommand

/-!
## Printing files in the usual form

The source files below the paths are printed anew: written back, only compared, or shown.
-/

namespace LedgerScript.FormatCommand

def known : List Flag :=
  [⟨"check", .switch⟩, ⟨"format", .text⟩, ⟨"stdout", .switch⟩, ⟨"indent", .number⟩, ⟨"tabs", .switch⟩, ⟨"jobs", .number⟩]

def resultsJson (isCheck : Bool) (results : List FormattedFile) : Text.Json :=
  let flag (b : Bool) : Text.Json := .literal (utf8 (if b then "true" else "false"))
  .list (results.map fun r =>
    let fault := match r.fault with
      | some f => if f.text = [] then [] else [("error", Text.Json.text f.text)]
      | none => []
    .object ([("path", .text r.path), ("changed", flag r.isChanged), ("check", flag isCheck)] ++ fault))

def tell (o : CommandOptions) (task : FormatTask) (r : FormattedFile) : CommandM Unit := do
  match r.fault with
  | some f => CommandM.writeError (utf8 "fmt: " ++ r.path ++ utf8 ": " ++ f.text ++ utf8 "\n")
  | none =>
    if task = .show then CommandM.write r.text
    else if r.isChanged && !o.isQuiet then
      if task = .compare then CommandM.write (r.path ++ utf8 "\n")
      else CommandM.write (utf8 "reformatted " ++ r.path ++ utf8 "\n")

def execute (o : CommandOptions) (args : List Bytes) : CommandM Unit := do
  let isCheck := o.flags.switch "check"
  let isShown := o.flags.switch "stdout"
  let report := o.flags.text "format" (utf8 "text")
  if report ≠ utf8 "text" && report ≠ utf8 "json" then throw (.reportFormat report)
  if isShown && isCheck then throw .shownAndChecked
  if isShown && report ≠ utf8 "text" then throw .shownNotText
  let task := if isCheck then FormatTask.compare else if isShown then .show else .write
  let style : IndentStyle := { width := (o.flags.number "indent" 4).toNat, tabs := o.flags.switch "tabs" }
  let (results, tree) ← CommandM.lift .formatPaths (formatPaths (← CommandM.tree) style task args)
  CommandM.setTree tree
  if report = utf8 "json" then
    CommandM.write ((resultsJson isCheck results).indented 0 ++ utf8 "\n")
  else
    results.forM (tell o task)
  let failed := (results.filter (·.fault.isSome)).length
  let changed := (results.filter fun r => r.fault.isNone && r.isChanged).length
  if failed > 0 then throw (.notFormatted failed results.length)
  if isCheck && changed > 0 then throw (.needFormat changed)

end LedgerScript.FormatCommand

/-!
## Listings

The tokens of a file, its tree, and what release this is.
-/

namespace LedgerScript.ListingCommand

def known : List Flag :=
  [⟨"format", .text⟩]

/-- A listing has some forms, the first of which is the usual one. -/
def formOf (o : CommandOptions) : Bytes :=
  o.flags.text "format" (utf8 "pretty")

/-- The fault of a file as diagnostics. -/
def bagOf (limit : Nat) (code : DiagnosticCode) (message : Bytes) (span : Span) : Bag :=
  (({ limit } : Bag).add { code, message, span }).2

def tokens (o : CommandOptions) (path : Bytes) : CommandM Unit := do
  let form := formOf o
  if form ≠ utf8 "pretty" && form ≠ utf8 "json" then throw (.tokenFormat form)
  let t ← CommandM.tree
  let (files, file) := ({} : FileSet).addRead path (← CommandM.lift .file (t.read path))
  let (tokens, fault) := tokenize file
  if let some f := fault then
    let bag := bagOf o.limit (SourceFault.lexCode f.cause.lexClass) (utf8 f.cause.message) f.span
    CommandM.writeError (o.shown t files bag)
  CommandM.write (if form = utf8 "json" then tokenListingJson file tokens else tokenListing file tokens)
  if fault.isSome then throw .reported

/-- The tree of a file: printed, or the items of its top level. -/
def tree (o : CommandOptions) (path : Bytes) : CommandM Unit := do
  let form := formOf o
  let t ← CommandM.tree
  let (files, file) := ({} : FileSet).addRead path (← CommandM.lift .notParsed (t.read path))
  match parse file with
  | .error f =>
    CommandM.writeError (o.shown t files (bagOf o.limit f.code f.text f.span))
    throw .reported
  | .ok parsed =>
    if form = utf8 "pretty" then CommandM.write (parsed.print {})
    else if form = utf8 "outline" then
      CommandM.write (parsed.items.flatMap fun s =>
        let name := if s.declName = "" then "-" else s.declName
        TraceRecord.padRight 16 (utf8 ("*ast." ++ s.kindName)) ++ utf8 (" " ++ name ++ "\n"))
    else throw (.treeFormat form)

def releaseJson (r : Release) : Text.Json :=
  let field (name : String) (text : Bytes) : List (String × Text.Json) := if text = [] then [] else [(name, .text text)]
  .object ([("tool", .text (utf8 "gard")), ("version", .text r.version)] ++ field "git_commit" r.commit ++
    field "git_message" r.message ++ field "build_date" r.date)

def release (o : CommandOptions) : CommandM Unit := do
  let form := formOf o
  let r := (← CommandM.space).release
  if form = utf8 "pretty" then
    CommandM.write (r.banner (if o.isColored then r.colored Release.numberStyles else r.version))
  else if form = utf8 "json" then CommandM.write ((releaseJson r).indented 0 ++ utf8 "\n")
  else throw (.releaseFormat form)

end LedgerScript.ListingCommand
