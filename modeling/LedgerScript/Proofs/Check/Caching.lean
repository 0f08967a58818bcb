import LedgerScript.Check.Basic
import Mathlib.Data.List.Forall2

/-!
# What kept results say

Results of checks are kept by the text of a file.  But a check also looks for the modules that the file imports, and it has
options.  So what a check answers from what was kept is what an earlier check found out about the same text, when other
modules may have been there and other options may have held.  A result that had been kept on a disk is cut down to the limit
of now.

The answer is as good as a new one if the imports lead where they led then and the options are the same.
-/

namespace LedgerScript

/-! ## Rounds -/

structure CheckRound where
  tree : FileTree
  options : CheckOptions
  path : Bytes

namespace CheckRound

def file? (r : CheckRound) : Option (FileSet × SourceFile) :=
  match r.tree.read r.path with
  | .error _ => none
  | .ok text => some (({} : FileSet).addRead r.path text)

/-- The text that results are kept by. -/
def content? (r : CheckRound) : Option Bytes :=
  r.file?.map (·.2.content)

/-- What is found out if nothing has been kept. -/
def fresh (r : CheckRound) : CheckedFile :=
  (checkFile r.tree r.options {} r.path).1

variable {r : CheckRound} {files : FileSet} {file : SourceFile}

theorem checkFile_of_none (c : CheckCache) (none : r.file? = none) :
    checkFile r.tree r.options c r.path = (r.fresh, [], c) := by
  unfold fresh checkFile
  unfold file? at none
  cases read : r.tree.read r.path with
  | error f => rfl
  | ok text =>
    rw [read] at none
    cases none

theorem checkFile_of_some (c : CheckCache) (found : r.file? = some (files, file)) :
    checkFile r.tree r.options c r.path =
      match c.find? r.options r.path files file.content with
      | some kept => (kept, [], c)
      | none =>
        let (made, events) := checkTree r.tree r.options r.path files file
        (made, events, c.keep file.content made) := by
  unfold checkFile
  unfold file? at found
  cases read : r.tree.read r.path with
  | error f =>
    rw [read] at found
    cases found
  | ok text =>
    rw [read] at found
    cases found
    rfl

/-- Nothing is found where nothing has been kept. -/
theorem fresh_of_some (found : r.file? = some (files, file)) :
    r.fresh = (checkTree r.tree r.options r.path files file).1 := by
  rw [fresh, checkFile_of_some {} found]
  rfl

end CheckRound

/-! ## Bags -/

/-- Why an import of a file in a folder leads nowhere, if it does not lead to a module. -/
def importFault? (t : FileTree) (folder i : Bytes) : Option ImportFault :=
  match t.readModule folder i with
  | .ok _ => none
  | .error f => some f

namespace Bag

/-- A bag without notes that keeps to a limit. -/
structure Plain (n : Nat) (b : Bag) : Prop where
  limit : b.limit = n
  length_le : 0 < n → b.items.length ≤ n
  bare : ∀ d ∈ b.items, d.notes = []

variable {n : Nat} {b : Bag}

theorem plain_empty (n : Nat) : Plain n { limit := n } :=
  ⟨rfl, fun _ => Nat.zero_le _, nofun⟩

theorem Plain.add (plain : b.Plain n) {d : Diagnostic} (bare : d.notes = []) : (b.add d).2.Plain n := by
  unfold Bag.add
  split
  · exact plain
  · rename_i room
    refine ⟨plain.limit, fun some => ?_, fun d' mem => ?_⟩
    · have room : b.items.length < n := by simpa [plain.limit, some] using room
      rw [List.length_append, List.length_singleton]
      exact room
    · rcases List.mem_append.mp mem with mem | mem
      · exact plain.bare d' mem
      · rw [List.mem_singleton.mp mem]
        exact bare

theorem addUnresolved_cons (b : Bag) (t : FileTree) (folder : Bytes) (i : Bytes × Span) (rest : List (Bytes × Span)) :
    b.addUnresolved t folder (i :: rest) = (match importFault? t folder i.1 with
      | none => b
      | some f => (b.add (unresolvedImport i.1 i.2 f)).2).addUnresolved t folder rest := by
  obtain ⟨i, span⟩ := i
  unfold Bag.addUnresolved importFault?
  rw [List.foldl_cons]
  dsimp only
  cases t.readModule folder i <;> rfl

theorem Plain.addUnresolved {t : FileTree} {folder : Bytes} (imports : List (Bytes × Span)) : ∀ {b : Bag}, b.Plain n →
    (b.addUnresolved t folder imports).Plain n := by
  induction imports with
  | nil => exact id
  | cons i rest ih =>
    intro b plain
    rw [addUnresolved_cons]
    cases importFault? t folder i.1 with
    | none => exact ih plain
    | some f => exact ih (plain.add rfl)

/-- Imports that lead to modules alike, and fail alike, are noted alike. -/
theorem addUnresolved_congr {t t' : FileTree} {folder : Bytes} (imports : List (Bytes × Span)) : ∀ {b : Bag},
    (∀ i ∈ imports.map (·.1), importFault? t' folder i = importFault? t folder i) →
      b.addUnresolved t' folder imports = b.addUnresolved t folder imports := by
  induction imports with
  | nil => exact fun _ => rfl
  | cons i rest ih =>
    intro b same
    obtain ⟨first, others⟩ := List.forall_mem_cons.mp same
    rw [addUnresolved_cons, addUnresolved_cons, first, ih others]

/-- Diagnostics that fit in are all taken. -/
theorem items_storedBag (rest : List Diagnostic) : ∀ {kept : List Diagnostic}, (∀ d ∈ rest, d.notes = []) →
    (0 < n → kept.length + rest.length ≤ n) →
      rest.foldl (fun (b : Bag) d => (b.add { d with notes := [] }).2) { items := kept, limit := n } =
        { items := kept ++ rest, limit := n } := by
  induction rest with
  | nil => simp
  | cons d rest ih =>
    intro kept bare fits
    obtain ⟨first, others⟩ := List.forall_mem_cons.mp bare
    have same : { d with notes := [] } = d := by rw [← first]
    have taken : (Bag.add { items := kept, limit := n } d).2 = { items := kept ++ [d], limit := n } := by
      unfold Bag.add
      rw [if_neg]
      intro full
      simp only [List.length_cons, Bool.and_eq_true, decide_eq_true_eq] at fits full
      have := fits full.1
      omega
    have fits : 0 < n → (kept ++ [d]).length + rest.length ≤ n := fun some => by
      have := fits some
      simp only [List.length_append, List.length_cons, List.length_nil] at this ⊢
      omega
    rw [List.foldl_cons, same, taken, ih others fits, List.append_assoc, List.singleton_append]

/-- Nothing of such a bag is lost when it is stored. -/
theorem Plain.storedBag_eq (plain : b.Plain n) : CheckCache.storedBag n b = b := by
  obtain ⟨items, limit⟩ := b
  obtain ⟨rfl, fits, bare⟩ := plain
  exact items_storedBag items bare (by simpa using fits)

end Bag

/-! ## What a check depends on -/

variable {t t' : FileTree} {o : CheckOptions} {path : Bytes} {files files' : FileSet} {file file' : SourceFile}

/-- The bag of a check has no notes and keeps to the limit. -/
theorem checkTree_plain : (checkTree t o path files file).1.bag.Plain o.limit := by
  have empty := Bag.plain_empty o.limit
  unfold checkTree
  split
  · exact empty.add rfl
  · rename_i tree _
    have noted : Bag.Plain o.limit (Bag.addUnresolved { limit := o.limit } t (Path.dir path) tree.imports) :=
      empty.addUnresolved tree.imports
    dsimp only
    split
    · exact noted
    · dsimp only
      split
      · exact noted
      · exact noted.add rfl

theorem checkTree_imports {tree : SyntaxFile} (parsed : parse file = .ok tree) :
    (checkTree t o path files file).1.imports = tree.imports.map (·.1) := by
  unfold checkTree
  rw [parsed]
  dsimp only
  split <;> rfl

/-- What is found out depends on the name and the text of a file and on where its imports lead. -/
theorem checkTree_congr (id : file'.id = file.id) (name : file'.path = file.path) (text : file'.content = file.content)
    (same : ∀ i ∈ (checkTree t o path files file).1.imports,
      importFault? t' (Path.dir path) i = importFault? t (Path.dir path) i) :
    (checkTree t' o path files' file').1 = { (checkTree t o path files file).1 with files := files' } := by
  have parses : parse file' = parse file := by
    obtain ⟨_, _, _, newlines, flags⟩ := file
    obtain ⟨_, _, _, newlines', flags'⟩ := file'
    obtain rfl := id
    obtain rfl := name
    obtain rfl := text
    rfl
  unfold checkTree
  rw [parses]
  cases parsed : parse file with
  | error f => rfl
  | ok tree =>
    rw [checkTree_imports parsed] at same
    dsimp only
    rw [Bag.addUnresolved_congr tree.imports same, name]
    split <;> rfl

/-! ## Histories -/

namespace CheckRound

variable {r now : CheckRound} {rounds rounds' : List CheckRound} {result : CheckedFile}

/-- The same file is read, and it has the same text. -/
def SameText (r now : CheckRound) : Prop :=
  r.path = now.path ∧ ∃ text, r.content? = some text ∧ now.content? = some text

/-- What a check may answer: what it finds out itself, or what has been found out in an earlier round about the same text,
if the format was checked then or need not be. -/
inductive Answers (rounds : List CheckRound) (now : CheckRound) : CheckedFile → Prop
  | made : Answers rounds now now.fresh
  | kept {r : CheckRound} (mem : r ∈ rounds) (text : r.SameText now)
    (suits : CheckCache.suits now.options r.fresh = true) : Answers rounds now { r.fresh with isKept := true }
  /-- It was kept on a disk. -/
  | stored {r : CheckRound} (mem : r ∈ rounds) (text : r.SameText now)
    (suits : CheckCache.suits now.options r.fresh = true) {files : FileSet} {file : SourceFile}
    (found : now.file? = some (files, file)) :
    Answers rounds now { r.fresh with
      files, bag := CheckCache.storedBag now.options.limit r.fresh.bag, isKept := true, hasTree := false }

theorem Answers.mono (answers : now.Answers rounds result) (more : rounds ⊆ rounds') : now.Answers rounds' result := by
  cases answers with
  | made => exact .made
  | kept mem text suits => exact .kept (more mem) text suits
  | stored mem text suits found => exact .stored (more mem) text suits found

theorem file_of_content {text : Bytes} (read : r.content? = some text) :
    ∃ files file, r.file? = some (files, file) ∧ file.content = text ∧ file.id = 0 ∧ file.path = Path.clean r.path := by
  unfold content? file? at *
  cases there : r.tree.read r.path with
  | error f =>
    rw [there] at read
    cases read
  | ok raw =>
    rw [there] at read
    exact ⟨_, _, rfl, Option.some.inj read, rfl, rfl⟩

/-- What an earlier round has found out is found out again if the options are the same and the imports lead where they led. -/
theorem fresh_congr (text : r.SameText now) (options : r.options = now.options)
    (same : ∀ i ∈ now.fresh.imports,
      importFault? r.tree (Path.dir now.path) i = importFault? now.tree (Path.dir now.path) i) :
    r.fresh.bag = now.fresh.bag ∧ r.fresh.imports = now.fresh.imports := by
  obtain ⟨path, text, read, read'⟩ := text
  obtain ⟨files, file, found, content, id, name⟩ := file_of_content read
  obtain ⟨files', file', found', content', id', name'⟩ := file_of_content read'
  rw [fresh_of_some found'] at same ⊢
  rw [fresh_of_some found, path, options, checkTree_congr (id.trans id'.symm) (name.trans (path ▸ name'.symm))
    (content.trans content'.symm) same]
  exact ⟨rfl, rfl⟩

/-- An answer says the same as a check that finds out everything itself, if in the rounds about the same text the options
were the same and the imports led where they lead now. -/
theorem Answers.says (answers : now.Answers rounds result) (alike : ∀ r ∈ rounds, r.SameText now → r.options = now.options ∧
      ∀ i ∈ now.fresh.imports, importFault? r.tree (Path.dir now.path) i = importFault? now.tree (Path.dir now.path) i) :
    result.bag = now.fresh.bag ∧ result.imports = now.fresh.imports := by
  cases answers with
  | made => exact ⟨rfl, rfl⟩
  | kept mem text suits =>
    obtain ⟨options, same⟩ := alike _ mem text
    exact fresh_congr text options same
  | stored mem text suits found =>
    obtain ⟨options, same⟩ := alike _ mem text
    obtain ⟨bag, imports⟩ := fresh_congr text options same
    have plain : now.fresh.bag.Plain now.options.limit := by
      rw [fresh_of_some found]
      exact checkTree_plain
    refine ⟨?_, imports⟩
    show CheckCache.storedBag _ _ = _
    rw [bag, plain.storedBag_eq]

end CheckRound

/-- What is kept has been found out in some round. -/
structure CheckCache.Comes (rounds : List CheckRound) (c : CheckCache) : Prop where
  memory : ∀ e ∈ c.memory, ∃ r ∈ rounds, e.1.1 = r.path ∧ r.content? = some e.1.2 ∧ e.2 = r.fresh
  disk : ∀ e ∈ c.disk, ∃ r ∈ rounds, r.content? = some e.1 ∧ e.2 = r.fresh

namespace CheckRound

variable {c c' : CheckCache} {now : CheckRound} {rounds : List CheckRound}

theorem content?_of_some {files : FileSet} {file : SourceFile} (found : now.file? = some (files, file)) :
    now.content? = some file.content := by
  rw [content?, found]
  rfl

theorem path_fresh {files : FileSet} {file : SourceFile} (found : now.file? = some (files, file)) :
    now.fresh.path = now.path := by
  rw [fresh_of_some found]
  unfold checkTree
  split
  · rfl
  · dsimp only
    split <;> rfl

/-- What is kept in addition has been found out now. -/
theorem comes_keep {files : FileSet} {file : SourceFile} (comes : c.Comes rounds) (found : now.file? = some (files, file)) :
    (c.keep file.content now.fresh).Comes (now :: rounds) := by
  have older {r : CheckRound} (mem : r ∈ rounds) : r ∈ now :: rounds := List.mem_cons_of_mem now mem
  unfold CheckCache.keep
  constructor
  · intro e mem
    have cases : e = ((now.fresh.path, file.content), now.fresh) ∨ e ∈ c.memory := by
      dsimp only at mem
      split at mem
      · exact (List.mem_cons.mp mem).imp_right fun mem => (List.mem_filter.mp mem).1
      · exact .inr mem
    rcases cases with rfl | mem
    · exact ⟨now, List.mem_cons_self, path_fresh found, content?_of_some found, rfl⟩
    · obtain ⟨r, mem, same⟩ := comes.memory e mem
      exact ⟨r, older mem, same⟩
  · intro e mem
    have cases : e = (file.content, now.fresh) ∨ e ∈ c.disk := by
      dsimp only at mem
      split at mem
      · exact (List.mem_cons.mp mem).imp_right fun mem => (List.mem_filter.mp mem).1
      · exact .inr mem
    rcases cases with rfl | mem
    · exact ⟨now, List.mem_cons_self, content?_of_some found, rfl⟩
    · obtain ⟨r, mem, same⟩ := comes.disk e mem
      exact ⟨r, older mem, same⟩

theorem answers_find {files : FileSet} {file : SourceFile} (comes : c.Comes rounds) (found : now.file? = some (files, file))
    {result : CheckedFile} (kept : c.find? now.options now.path files file.content = some result) :
    now.Answers rounds result := by
  have text {r : CheckRound} (path : r.path = now.path) (same : r.content? = some file.content) : r.SameText now :=
    ⟨path, _, same, content?_of_some found⟩
  unfold CheckCache.find? at kept
  dsimp only at kept
  split at kept
  · rename_i key result inMemory
    cases kept
    split at inMemory
    · obtain ⟨first, suits⟩ := Option.filter_eq_some_iff.mp inMemory
      have key : key = (now.path, file.content) := by simpa using List.find?_some first
      obtain ⟨r, mem, path, same, made⟩ := comes.memory _ (List.mem_of_find?_eq_some first)
      obtain rfl : result = r.fresh := made
      rw [key] at path same
      exact .kept mem (text path.symm same) suits
    · cases inMemory
  · obtain ⟨⟨content, old⟩, stored, rfl⟩ := Option.map_eq_some_iff.mp kept
    split at stored
    · obtain ⟨first, suits⟩ := Option.filter_eq_some_iff.mp stored
      have key : content = file.content := by simpa using List.find?_some first
      obtain ⟨r, mem, same, made⟩ := comes.disk _ (List.mem_of_find?_eq_some first)
      obtain rfl : old = r.fresh := made
      obtain ⟨path, suits⟩ := Bool.and_eq_true_iff.mp suits
      rw [key] at same
      obtain ⟨_, _, found', -⟩ := file_of_content same
      exact .stored mem (text ((path_fresh found').symm.trans (beq_iff_eq.mp path)) same) suits found
    · cases stored

theorem answers_checkFile (now : CheckRound) (comes : c.Comes rounds) :
    now.Answers rounds (checkFile now.tree now.options c now.path).1 ∧
      (checkFile now.tree now.options c now.path).2.2.Comes (now :: rounds) := by
  have older : c.Comes (now :: rounds) :=
    ⟨fun e mem => (comes.memory e mem).imp fun _ same => same.imp_left (List.mem_cons_of_mem now),
      fun e mem => (comes.disk e mem).imp fun _ same => same.imp_left (List.mem_cons_of_mem now)⟩
  cases found : now.file? with
  | none =>
    rw [checkFile_of_none c found]
    exact ⟨.made, older⟩
  | some f =>
    obtain ⟨files, file⟩ := f
    rw [checkFile_of_some c found]
    cases kept : c.find? now.options now.path files file.content with
    | some result => exact ⟨answers_find comes found kept, older⟩
    | none =>
      dsimp only
      rw [← fresh_of_some found]
      exact ⟨.made, comes_keep comes found⟩

end CheckRound

def callRounds (t : FileTree) (o : CheckOptions) (paths : List Bytes) : List CheckRound :=
  paths.map fun path => ⟨t, o, path⟩

theorem answers_checkEach (t : FileTree) (o : CheckOptions) (paths : List Bytes) : ∀ {rounds : List CheckRound}
    {c : CheckCache} (results : List CheckedFile) (events : List CheckEvent), c.Comes rounds →
    ∃ made, (checkEach t o paths results events c).1 = results.reverse ++ made ∧
      List.Forall₂ (fun path => CheckRound.Answers ((callRounds t o paths).reverse ++ rounds) ⟨t, o, path⟩) paths made ∧
      (checkEach t o paths results events c).2.2.Comes ((callRounds t o paths).reverse ++ rounds) := by
  induction paths with
  | nil => exact fun results events comes => ⟨[], (List.append_nil _).symm, .nil, comes⟩
  | cons path rest ih =>
    intro rounds c results events comes
    let now : CheckRound := ⟨t, o, path⟩
    obtain ⟨answers, after⟩ := CheckRound.answers_checkFile now comes
    have order : (callRounds t o (path :: rest)).reverse ++ rounds = (callRounds t o rest).reverse ++ now :: rounds := by
      rw [callRounds, List.map_cons, List.reverse_cons, List.append_assoc]
      rfl
    rcases checked : checkFile t o c path with ⟨result, new, cache⟩
    rw [checked] at answers after
    rw [order, checkEach, checked]
    dsimp only at answers after ⊢
    obtain ⟨made, same, others, last⟩ := ih (result :: results) (checkedEvent path result :: new.reverse ++ events) after
    have more : rounds ⊆ (callRounds t o rest).reverse ++ now :: rounds := fun r mem =>
      List.mem_append_right _ (List.mem_cons_of_mem now mem)
    refine ⟨result :: made, ?_, .cons (answers.mono more) others, last⟩
    rw [same, List.reverse_cons, List.append_assoc]
    rfl

/-- Files are checked again and again.  In between the files may change, of what was kept some may be lost, and it may be
said otherwise what is kept from then on.  The latest round comes first. -/
inductive CheckHistory : List CheckRound → CheckCache → Prop where
  | start (inMemory onDisk : Bool) : CheckHistory [] { inMemory, onDisk }
  | call {rounds : List CheckRound} {c : CheckCache} (earlier : CheckHistory rounds c) (t : FileTree) (o : CheckOptions)
    (paths : List Bytes) : CheckHistory ((callRounds t o paths).reverse ++ rounds) (checkFiles t o c paths).2.2
  | between {rounds : List CheckRound} {c c' : CheckCache} (earlier : CheckHistory rounds c) (memory : c'.memory ⊆ c.memory)
    (disk : c'.disk ⊆ c.disk) : CheckHistory rounds c'

theorem CheckHistory.comes {rounds : List CheckRound} {c : CheckCache} (history : CheckHistory rounds c) : c.Comes rounds := by
  induction history with
  | start => exact ⟨nofun, nofun⟩
  | call earlier t o paths ih =>
    obtain ⟨-, -, -, comes⟩ := answers_checkEach t o paths [] _ ih
    exact comes
  | between earlier memory disk ih => exact ⟨fun e mem => ih.memory e (memory mem), fun e mem => ih.disk e (disk mem)⟩

/-- After whatever history, each answer of a call is what a check finds out that keeps nothing, or what an earlier round of
the history or the call has found out in this way about the same text of the file.  As long as in these rounds the options
were the same and the imports of the file led where they lead now, the diagnostics and the imports are those that a check
finds that keeps nothing. -/
theorem kept_checks_are_earlier_checks {rounds : List CheckRound} {c : CheckCache} (history : CheckHistory rounds c)
    (t : FileTree) (o : CheckOptions) (paths : List Bytes) :
    List.Forall₂ (fun path result =>
      let now : CheckRound := ⟨t, o, path⟩
      now.Answers ((callRounds t o paths).reverse ++ rounds) result ∧
        ((∀ r ∈ rounds, r.SameText now → r.options = o ∧ ∀ i ∈ now.fresh.imports,
            importFault? r.tree (Path.dir path) i = importFault? t (Path.dir path) i) →
          result.bag = now.fresh.bag ∧ result.imports = now.fresh.imports))
      paths (checkFiles t o c paths).1 := by
  obtain ⟨made, same, answers, -⟩ := answers_checkEach t o paths [] _ history.comes
  unfold checkFiles
  rw [same]
  refine answers.imp fun path result answer => ⟨answer, fun alike => answer.says fun r mem text => ?_⟩
  rcases List.mem_append.mp mem with mem | mem
  · obtain ⟨_, -, rfl⟩ := List.mem_map.mp (List.mem_reverse.mp mem)
    exact ⟨rfl, fun _ _ => rfl⟩
  · exact alike r mem text

def importing (more : List (List Bytes × Bytes)) : FileTree where
  files := ([utf8 "a.gard"], utf8 "import { x } from \"./b\";") :: more

/-- The module is not there when the file is first checked.  Checked again it gives the same diagnostic, and still does so when
the module is there, as the earlier round had it. -/
theorem kept_checks_are_earlier_checks_import :
    let path := utf8 "a.gard"
    let before : CheckRound := ⟨importing [], {}, path⟩
    let now : CheckRound := ⟨importing [([utf8 "b.gard"], [])], {}, path⟩
    let c := (checkFiles before.tree {} { inMemory := true } [path]).2.2
    (∀ result ∈ (checkFiles before.tree {} c [path]).1, result.bag = before.fresh.bag) ∧
      (checkFiles now.tree {} c [path]).1.map (·.bag.items.length) = [1] ∧ now.fresh.bag.items = [] ∧
      ∀ result ∈ (checkFiles now.tree {} c [path]).1, now.Answers [now, before] result := by
  intro path before now c
  have history : CheckHistory [before] c := .call (.start true false) before.tree {} [path]
  -- the call is about one file
  have only {t : FileTree} {R : Bytes → CheckedFile → Prop} (all : List.Forall₂ R [path] (checkFiles t {} c [path]).1) :
      ∀ result ∈ (checkFiles t {} c [path]).1, R path result := by
    intro result mem
    generalize (checkFiles t {} c [path]).1 = results at all mem
    cases all with
    | cons first rest =>
      cases rest
      exact List.mem_singleton.mp mem ▸ first
  have same := only (kept_checks_are_earlier_checks history before.tree {} [path])
  have stale := only (kept_checks_are_earlier_checks history now.tree {} [path])
  refine ⟨fun result mem => ?_, by decide +kernel, by decide +kernel, fun result mem => (stale result mem).1⟩
  refine ((same result mem).2 fun r earlier _ => ?_).1
  obtain rfl := List.mem_singleton.mp earlier
  exact ⟨rfl, fun _ _ => rfl⟩

end LedgerScript
