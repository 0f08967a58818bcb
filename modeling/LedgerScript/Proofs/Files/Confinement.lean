import LedgerScript.Check.Basic
import LedgerScript.Proofs.Value.Extension

/-!
# Modules stay below their folder

The path of a module is cleaned before it is put below a folder.  A cleaned path that neither starts at the root of the tree
nor climbs is a list of names, and so what is read lies below the folder, where these names lead.

There is one way out.  A path such as `.` names the folder itself, and then the usual ending is put behind the name of the
folder, if it has none of its own.  What is read is a file next to the folder.
-/

namespace LedgerScript

/-! ## Pieces of a text -/

namespace Text

variable {s : UInt8} {c : Bytes} {cs ds : List Bytes}
variable (separator : Bytes)

theorem splitOn_cons (s x : UInt8) (t : Bytes) :
    splitOn s (x :: t) = if x = s then [] :: splitOn s t else (splitOn s t).modifyHead (x :: ·) := by
  obtain ⟨first, others, split⟩ := List.exists_cons_of_ne_nil (splitOn_ne_nil s t)
  rw [splitOn, split]
  rfl

theorem splitOn_append (s : UInt8) (a b : Bytes) : splitOn s (a ++ s :: b) = splitOn s a ++ splitOn s b := by
  induction a with
  | nil => rw [List.nil_append, splitOn_cons, if_pos rfl]; rfl
  | cons x a ih =>
    obtain ⟨first, others, split⟩ := List.exists_cons_of_ne_nil (splitOn_ne_nil s a)
    rw [List.cons_append, splitOn_cons, splitOn_cons, ih, split]
    split <;> rfl

theorem splitOn_unbroken (unbroken : s ∉ c) : splitOn s c = [c] := by
  induction c with
  | nil => rfl
  | cons x c ih =>
    obtain ⟨other, unbroken⟩ := not_or.1 (mt List.mem_cons.2 unbroken)
    rw [splitOn_cons, if_neg (Ne.symm other), ih unbroken]
    rfl

theorem unbroken_splitOn (t : Bytes) : ∀ c ∈ splitOn s t, s ∉ c := by
  induction t with
  | nil => simp [splitOn]
  | cons x t ih =>
    obtain ⟨first, others, split⟩ := List.exists_cons_of_ne_nil (splitOn_ne_nil s t)
    rw [split] at ih
    obtain ⟨here, later⟩ := List.forall_mem_cons.1 ih
    rw [splitOn_cons, split]
    split
    · exact List.forall_mem_cons.2 ⟨List.not_mem_nil, ih⟩
    · rename_i other
      exact List.forall_mem_cons.2 ⟨fun mem => (List.mem_cons.1 mem).elim (Ne.symm other) here, later⟩

theorem join_cons (c : Bytes) (some : cs ≠ []) : join separator (c :: cs) = c ++ separator ++ join separator cs := by
  cases cs with
  | nil => exact absurd rfl some
  | cons d rest => rfl

/-- Cutting takes apart what was joined. -/
theorem splitOn_join (some : cs ≠ []) (unbroken : ∀ c ∈ cs, s ∉ c) : splitOn s (join [s] cs) = cs := by
  induction cs with
  | nil => exact absurd rfl some
  | cons c rest ih =>
    obtain ⟨here, later⟩ := List.forall_mem_cons.1 unbroken
    by_cases last : rest = []
    · subst last
      exact splitOn_unbroken here
    · rw [join_cons _ _ last, List.append_assoc, List.singleton_append, splitOn_append, splitOn_unbroken here, ih last later]
      rfl

theorem join_append (some : cs ≠ []) (more : ds ≠ []) :
    join separator (cs ++ ds) = join separator cs ++ separator ++ join separator ds := by
  induction cs with
  | nil => exact absurd rfl some
  | cons c rest ih =>
    by_cases last : rest = []
    · subst last
      exact join_cons _ _ more
    · rw [List.cons_append, join_cons _ _ (List.append_ne_nil_of_left_ne_nil last ds), ih last, join_cons _ _ last]
      simp only [List.append_assoc]

theorem prefix_join (c : Bytes) (cs : List Bytes) : c <+: join separator (c :: cs) := by
  by_cases last : cs = []
  · subst last
    exact List.prefix_refl c
  · rw [join_cons _ _ last, List.append_assoc]
    exact List.prefix_append _ _

/-- What is put behind a joined text is put behind its last piece. -/
theorem join_append_last (e : Bytes) (cs : List Bytes) (c : Bytes) :
    join separator (cs ++ [c]) ++ e = join separator (cs ++ [c ++ e]) := by
  by_cases first : cs = []
  · subst first
    rfl
  · rw [join_append _ first (List.cons_ne_nil _ _), join_append _ first (List.cons_ne_nil _ _), List.append_assoc]
    rfl

end Text

/-! ## Components of a path -/

namespace Path

open Text

/-- A component of its own. -/
structure IsPiece (c : Bytes) : Prop where
  ne_nil : c ≠ []
  unbroken : slash ∉ c

/-- A component that leads one level down. -/
structure IsName (c : Bytes) : Prop extends IsPiece c where
  ne_here : c ≠ utf8 "."
  ne_up : c ≠ utf8 ".."

/-- The cleaned path of components. -/
def ofComponents (rooted : Bool) (cs : List Bytes) : Bytes :=
  let body := Text.join [slash] cs
  if rooted then slash :: body else if body = [] then utf8 "." else body

def below (root : Bytes) (cs : List Bytes) : Bytes :=
  ofComponents (isRooted root) (cleanComponents root ++ cs)

/-- Components as cleaning leaves them: names behind ups, and no ups below the root of the tree. -/
structure Cleaned (rooted : Bool) (ups names : List Bytes) : Prop where
  up : ∀ c ∈ ups, c = utf8 ".."
  name : ∀ c ∈ names, IsName c
  stays : rooted = true → ups = []

variable {rooted : Bool} {c e p root : Bytes} {cs ups names kept : List Bytes}

theorem IsName.append (isName : IsName c) (unbroken : slash ∉ e) (long : 2 ≤ e.length) : IsName (c ++ e) := by
  have some := List.length_pos_iff.2 isName.ne_nil
  have longer : 2 < (c ++ e).length := by
    rw [List.length_append]
    omega
  refine ⟨⟨?_, List.not_mem_append isName.unbroken unbroken⟩, ?_, ?_⟩ <;>
    exact fun same => absurd (same ▸ longer) (by decide)

theorem foldl_names (rooted : Bool) (kept : List Bytes) (isNames : ∀ c ∈ cs, IsName c) :
    cs.foldl (cleanStep rooted) kept = cs.reverse ++ kept := by
  induction cs generalizing kept with
  | nil => rfl
  | cons c rest ih =>
    obtain ⟨here, later⟩ := List.forall_mem_cons.1 isNames
    have step : cleanStep rooted kept c = c :: kept := by
      unfold cleanStep
      rw [if_neg (not_or.2 ⟨here.ne_nil, here.ne_here⟩), if_neg here.ne_up]
    rw [List.foldl_cons, step, ih _ later, List.reverse_cons, List.append_assoc, List.singleton_append]

/-- One more component is cleaned.  The components that are kept stand in reverse. -/
theorem Cleaned.step (cleaned : Cleaned rooted ups names) (unbroken : slash ∉ c) :
    ∃ ups' names', cleanStep rooted (names ++ ups) c = names' ++ ups' ∧ Cleaned rooted ups' names' := by
  unfold cleanStep
  split
  · exact ⟨ups, names, rfl, cleaned⟩
  · rename_i other
    obtain ⟨some, other⟩ := not_or.1 other
    split
    · rename_i up
      cases names with
      | cons last names =>
        obtain ⟨here, later⟩ := List.forall_mem_cons.1 cleaned.name
        exact ⟨ups, names, if_neg here.ne_up, cleaned.up, later, cleaned.stays⟩
      | nil =>
        cases rooted with
        | true =>
          obtain rfl := cleaned.stays rfl
          exact ⟨[], [], rfl, cleaned⟩
        | false =>
          refine ⟨c :: ups, [], ?_, List.forall_mem_cons.2 ⟨up, cleaned.up⟩, cleaned.name, nofun⟩
          cases ups with
          | nil => rfl
          | cons last ups => exact if_pos (List.forall_mem_cons.1 cleaned.up).1
    · rename_i notUp
      exact ⟨ups, c :: names, rfl, cleaned.up, List.forall_mem_cons.2 ⟨⟨⟨some, unbroken⟩, other, notUp⟩, cleaned.name⟩,
        cleaned.stays⟩

theorem Cleaned.foldl (cleaned : Cleaned rooted ups names) (unbroken : ∀ c ∈ cs, slash ∉ c) :
    ∃ ups' names', cs.foldl (cleanStep rooted) (names ++ ups) = names' ++ ups' ∧ Cleaned rooted ups' names' := by
  induction cs generalizing ups names with
  | nil => exact ⟨ups, names, rfl, cleaned⟩
  | cons c rest ih =>
    obtain ⟨here, later⟩ := List.forall_mem_cons.1 unbroken
    obtain ⟨ups, names, step, cleaned⟩ := cleaned.step here
    rw [List.foldl_cons, step]
    exact ih cleaned later

/-- A cleaned path climbs only at its start. -/
theorem cleaned_cleanComponents (p : Bytes) :
    ∃ ups names, cleanComponents p = ups ++ names ∧ Cleaned (isRooted p) ups names := by
  have start : Cleaned (isRooted p) [] [] := ⟨nofun, nofun, fun _ => rfl⟩
  obtain ⟨ups, names, folded, cleaned⟩ := start.foldl (unbroken_splitOn (s := slash) p)
  refine ⟨ups.reverse, names.reverse, ?_, ?_, ?_, ?_⟩
  · rw [cleanComponents, ← List.reverse_append, ← folded]
    rfl
  · simpa using cleaned.up
  · simpa using cleaned.name
  · simpa using cleaned.stays

/-- A component that is left when a path is cleaned. -/
theorem mem_cleanComponents (mem : c ∈ cleanComponents p) : IsPiece c := by
  obtain ⟨ups, names, components, cleaned⟩ := cleaned_cleanComponents p
  rw [components] at mem
  rcases List.mem_append.1 mem with mem | mem
  · rw [cleaned.up c mem]
    exact ⟨by decide, by decide⟩
  · exact (cleaned.name c mem).toIsPiece

/-! ## Cleaned paths -/

theorem clean_eq (p : Bytes) : clean p = ofComponents (isRooted p) (cleanComponents p) := rfl

theorem below_nil (root : Bytes) : below root [] = clean root := by
  rw [below, List.append_nil, clean_eq]

theorem ofComponents_false (some : cs ≠ []) (pieces : ∀ c ∈ cs, IsPiece c) :
    ofComponents false cs = Text.join [slash] cs := by
  obtain ⟨c, rest, rfl⟩ := List.exists_cons_of_ne_nil some
  refine if_neg fun none => (pieces c List.mem_cons_self).ne_nil ?_
  exact List.prefix_nil.1 (none ▸ prefix_join [slash] c rest)

theorem isRooted_ofComponents (pieces : ∀ c ∈ cs, IsPiece c) : isRooted (ofComponents rooted cs) = rooted := by
  cases rooted with
  | true => rfl
  | false =>
    cases cs with
    | nil => decide
    | cons c rest =>
      obtain ⟨some, unbroken⟩ := pieces c List.mem_cons_self
      obtain ⟨more, same⟩ := prefix_join [slash] c rest
      obtain ⟨x, c, rfl⟩ := List.exists_cons_of_ne_nil some
      rw [ofComponents_false (List.cons_ne_nil _ _) pieces, ← same]
      have other : x ≠ slash := fun same => unbroken (same ▸ List.mem_cons_self)
      simpa [isRooted] using other

theorem isRooted_clean (p : Bytes) : isRooted (clean p) = isRooted p :=
  isRooted_ofComponents fun _ => mem_cleanComponents

/-- Cutting gives the components back, behind pieces that lead nowhere. -/
theorem splitOn_ofComponents (rooted : Bool) (pieces : ∀ c ∈ cs, IsPiece c) :
    ∃ idle, splitOn slash (ofComponents rooted cs) = idle ++ cs ∧ ∀ c ∈ idle, c = [] ∨ c = utf8 "." := by
  cases cs with
  | nil =>
    cases rooted with
    | true => exact ⟨[[], []], rfl, by simp⟩
    | false => exact ⟨[utf8 "."], rfl, by simp⟩
  | cons c rest =>
    have cut : splitOn slash (Text.join [slash] (c :: rest)) = c :: rest :=
      splitOn_join (List.cons_ne_nil _ _) fun d mem => (pieces d mem).unbroken
    cases rooted with
    | true => exact ⟨[[]], (splitOn_append slash [] _).trans (congrArg ([[]] ++ ·) cut), by simp⟩
    | false =>
      rw [ofComponents_false (List.cons_ne_nil _ _) pieces]
      exact ⟨[], cut, nofun⟩

theorem foldl_idle (rooted : Bool) (kept : List Bytes) (idle : ∀ c ∈ cs, c = [] ∨ c = utf8 ".") :
    cs.foldl (cleanStep rooted) kept = kept := by
  induction cs with
  | nil => rfl
  | cons c rest ih =>
    obtain ⟨here, later⟩ := List.forall_mem_cons.1 idle
    have step : cleanStep rooted kept c = kept := if_pos here
    rw [List.foldl_cons, step, ih later]

/-- A cleaned path of names is cleaned away behind another path. -/
theorem foldl_splitOn_names (rooted : Bool) (kept : List Bytes) (isNames : ∀ c ∈ cs, IsName c) :
    (splitOn slash (ofComponents false cs)).foldl (cleanStep rooted) kept = cs.reverse ++ kept := by
  obtain ⟨idle, cut, leads⟩ := splitOn_ofComponents false fun c mem => (isNames c mem).toIsPiece
  rw [cut, List.foldl_append, foldl_idle rooted kept leads, foldl_names rooted kept isNames]

theorem ofComponents_ne_nil (rooted : Bool) (cs : List Bytes) : ofComponents rooted cs ≠ [] := by
  cases rooted with
  | true => exact List.cons_ne_nil _ _
  | false =>
    show (if Text.join [slash] cs = [] then utf8 "." else Text.join [slash] cs) ≠ []
    split
    · decide
    · assumption

/-- Names that are joined to a path lead below it. -/
theorem join_names (root : Bytes) (isNames : ∀ c ∈ cs, IsName c) : join [root, ofComponents false cs] = below root cs := by
  have some := ofComponents_ne_nil false cs
  have cleaned (rooted : Bool) (kept : List Bytes) := foldl_splitOn_names rooted kept isNames
  by_cases empty : root = []
  · subst empty
    have alone : join [[], ofComponents false cs] = clean (ofComponents false cs) := by simp [join, some, Text.join]
    have relative : isRooted (ofComponents false cs) = false :=
      isRooted_ofComponents fun c mem => (isNames c mem).toIsPiece
    rw [alone, clean_eq, cleanComponents, relative, cleaned, List.append_nil, List.reverse_reverse]
    rfl
  · have both : join [root, ofComponents false cs] = clean (root ++ slash :: ofComponents false cs) := by
      simp [join, some, empty, Text.join]
    have starts : isRooted (root ++ slash :: ofComponents false cs) = isRooted root := by
      obtain ⟨x, more, rfl⟩ := List.exists_cons_of_ne_nil empty
      rfl
    rw [both, clean_eq, cleanComponents, starts, splitOn_append, List.foldl_append, cleaned, List.reverse_append,
      List.reverse_reverse]
    rfl

theorem pieces_below (isNames : ∀ c ∈ cs, IsName c) : ∀ c ∈ cleanComponents root ++ cs, IsPiece c :=
  List.forall_mem_append.2 ⟨fun _ => mem_cleanComponents, fun c mem => (isNames c mem).toIsPiece⟩

/-- What is put behind a path is put behind its last component. -/
theorem below_append (root : Bytes) (before : ∀ d ∈ cs ++ [c], IsName d) (after : ∀ d ∈ cs ++ [c ++ e], IsName d) :
    below root (cs ++ [c]) ++ e = below root (cs ++ [c ++ e]) := by
  have joined := join_append_last [slash] e (cleanComponents root ++ cs) c
  rw [List.append_assoc, List.append_assoc] at joined
  unfold below
  cases isRooted root with
  | true => exact congrArg (slash :: ·) joined
  | false => rw [ofComponents_false (by simp) (pieces_below before), ofComponents_false (by simp) (pieces_below after), joined]

/-- Below a path that is more than a starting point, components stand behind a slash. -/
theorem below_eq (some : cleanComponents root ≠ []) (more : cs ≠ []) (isNames : ∀ c ∈ cs, IsName c) :
    below root cs = clean root ++ slash :: Text.join [slash] cs := by
  have joined := join_append [slash] some more
  rw [List.append_assoc] at joined
  rw [below, clean_eq]
  cases isRooted root with
  | true => exact congrArg (slash :: ·) joined
  | false =>
    rw [ofComponents_false (List.append_ne_nil_of_left_ne_nil some cs) (pieces_below isNames),
      ofComponents_false some fun _ => mem_cleanComponents, joined]
    rfl

theorem clean_prefix (root : Bytes) (isNames : ∀ c ∈ cs, IsName c) : clean root = utf8 "." ∨ clean root <+: below root cs := by
  by_cases more : cs = []
  · rw [more, below_nil]
    exact .inr (List.prefix_refl _)
  · by_cases alone : cleanComponents root = []
    · rw [below, clean_eq, alone]
      cases isRooted root with
      | true => exact .inr (List.prefix_append [slash] _)
      | false => exact .inl rfl
    · rw [below_eq alone more isNames]
      exact .inr (List.prefix_append _ _)

/-- The path starts at the root of the tree, or climbs, or at least looks so. -/
def Leaves (path : Bytes) : Prop :=
  isRooted path = true ∨ utf8 ".." <+: clean path

theorem leaves_iff (path : Bytes) :
    (isRooted (clean path) || startsWith (clean path) (utf8 "..")) = true ↔ Leaves path := by
  rw [isRooted_clean, Bool.or_eq_true, startsWith, List.isPrefixOf_iff_prefix, Leaves]

theorem names_of_not_leaves {path : Bytes} (stays : ¬Leaves path) : ∀ c ∈ cleanComponents path, IsName c := by
  obtain ⟨ups, names, components, cleaned⟩ := cleaned_cleanComponents path
  have relative : isRooted path = false := eq_false_of_ne_true fun rooted => stays (.inl rooted)
  cases ups with
  | nil => exact components ▸ cleaned.name
  | cons c ups =>
    refine absurd (.inr ?_) stays
    rw [clean_eq, relative, ofComponents_false (by simp [components]) fun _ => mem_cleanComponents, components,
      ← cleaned.up c List.mem_cons_self]
    exact prefix_join _ _ _

/-! ## Places below a folder -/

end Path

namespace FileTree

open Path Text

variable {t : FileTree} {place p cs ds : List Bytes} {root text : Bytes}

theorem follow_append (t : FileTree) (place cs ds : List Bytes) :
    t.follow place (cs ++ ds) = t.follow place cs >>= fun p => t.follow p ds := by
  induction cs generalizing place with
  | nil => rfl
  | cons c rest ih =>
    rw [List.cons_append, follow, follow]
    split
    · rfl
    · rfl
    · split
      · exact ih place
      · split
        · exact ih _
        · split
          · rfl
          · exact ih _

/-- Names lead straight down. -/
theorem follow_names (isNames : ∀ c ∈ cs, IsName c) (found : t.follow place cs = .ok p) : p = place ++ cs := by
  induction cs generalizing place with
  | nil =>
    cases found
    exact (List.append_nil _).symm
  | cons c rest ih =>
    obtain ⟨here, later⟩ := List.forall_mem_cons.1 isNames
    rw [follow] at found
    split at found
    · cases found
    · cases found
    · rw [if_neg (not_or.2 ⟨here.ne_nil, here.ne_here⟩), if_neg here.ne_up] at found
      split at found
      · cases found
      · rw [ih later found, List.append_assoc, List.singleton_append]

/-- Pieces that lead nowhere only ask for a folder. -/
theorem follow_idle (folder : t.node? place = some .folder) (idle : ∀ c ∈ cs, c = [] ∨ c = utf8 ".") :
    t.follow place cs = .ok place := by
  induction cs with
  | nil => rfl
  | cons c rest ih =>
    obtain ⟨here, later⟩ := List.forall_mem_cons.1 idle
    rw [follow, folder]
    exact (if_pos here).trans (ih later)

theorem folder_of_follow (some : cs ≠ []) (found : t.follow place cs = .ok p) : t.node? place = .some .folder := by
  obtain ⟨c, rest, rfl⟩ := List.exists_cons_of_ne_nil some
  rw [follow] at found
  split at found
  · cases found
  · cases found
  · assumption

theorem locate_eq_ok {path : Bytes} : t.locate path = .ok p ↔ (path ≠ [] ∧ 0 ∉ path ∧ path.length < pathLimit) ∧
    t.follow (if isRooted path then [] else t.home) (splitOn slash path) = .ok p := by
  unfold locate
  split
  · simp [*]
  · split
    · simp_all
    · split
      · exact ⟨nofun, fun ⟨⟨_, _, short⟩, _⟩ => absurd short (Nat.not_lt.2 ‹_›)⟩
      · simp_all

theorem of_read_ok {path : Bytes} (read : t.read path = .ok text) :
    ∃ p, t.locate path = .ok p ∧ t.node? p = some (.file text) := by
  rw [FileTree.read, find] at read
  cases located : t.locate path with
  | error f => simp [located, bind, Except.bind] at read
  | ok p =>
    refine ⟨p, rfl, ?_⟩
    cases node : t.node? p with
    | none => simp [located, node, bind, Except.bind, throw, throwThe, MonadExceptOf.throw] at read
    | some n => cases n <;> simp_all [bind, Except.bind, pure, Except.pure]

/-- Cleaned paths lead where their components lead. -/
theorem follow_below (folder : t.node? place = some .folder) (isNames : ∀ c ∈ cs, IsName c) :
    t.follow place (splitOn slash (below root cs)) = t.follow place (cleanComponents root ++ cs) := by
  obtain ⟨idle, cut, leads⟩ := splitOn_ofComponents (isRooted root) (pieces_below isNames)
  rw [below, cut, follow_append, follow_idle folder leads]
  rfl

/-- What is read below a folder lies below the place of the folder. -/
theorem place_of_read (isNames : ∀ c ∈ cs, IsName c) (read : t.read (below root cs) = .ok text) :
    ∃ place, t.locate (clean root) = .ok place ∧ t.node? (place ++ cs) = some (.file text) := by
  obtain ⟨p, located, file⟩ := of_read_ok read
  obtain ⟨⟨-, clear, short⟩, found⟩ := locate_eq_ok.1 located
  have starts : isRooted (below root cs) = isRooted root := isRooted_ofComponents (pieces_below isNames)
  rw [starts] at found
  have folder := folder_of_follow (splitOn_ne_nil _ _) found
  rw [follow_below folder isNames, follow_append] at found
  obtain ⟨place, up, down⟩ := of_bind_ok found
  have fits : 0 ∉ clean root ∧ (clean root).length < pathLimit := by
    rcases clean_prefix root isNames with alone | front
    · rw [alone]
      exact ⟨by decide, by decide⟩
    · exact ⟨fun mem => clear (front.subset mem), Nat.lt_of_le_of_lt front.length_le short⟩
  refine ⟨place, locate_eq_ok.2 ⟨⟨ofComponents_ne_nil _ _, fits⟩, ?_⟩, follow_names isNames down ▸ file⟩
  have alone : t.follow _ (splitOn slash (below root [])) = _ := follow_below folder nofun
  rw [isRooted_clean, ← below_nil, alone, List.append_nil, up]

end FileTree

/-! ## Modules -/

open Path Text

def NamesFolder (root path : Bytes) : Prop :=
  cleanComponents path = [] ∧ cleanComponents root ≠ [] ∧ extension (clean root) = []

variable {root path : Bytes}

/-- The path of a module below a folder; the usual ending is put behind it, if it has none. -/
def modulePath (root path : Bytes) : Bytes :=
  let full := below root (cleanComponents path)
  if extension full = [] then full ++ sourceEnding else full

theorem readModule_of_not_leaves (stays : ¬Leaves path) (t : FileTree) :
    t.readModule root path = (t.read (modulePath root path)).mapError fun f => .unreadable path f.text := by
  have relative : isRooted path = false := eq_false_of_ne_true fun rooted => stays (.inl rooted)
  have joined := join_names root (names_of_not_leaves stays)
  rw [← relative, ← clean_eq] at joined
  rw [modulePath, ← joined]
  exact if_neg (mt (leaves_iff path).1 stays)

/-- An ending stays with the last name, and it is a name of its own at the root of the tree. -/
theorem below_ending {cs : List Bytes} (isNames : ∀ c ∈ cs, IsName c) (apart : cs = [] → cleanComponents root = [])
    (bare : extension (below root cs) = []) : ∃ ds, (∀ c ∈ ds, IsName c) ∧ below root cs ++ sourceEnding = below root ds := by
  rcases List.eq_nil_or_concat cs with rfl | ⟨front, c, rfl⟩
  · have ending : IsName sourceEnding := ⟨⟨by decide, by decide⟩, by decide, by decide⟩
    refine ⟨[sourceEnding], List.forall_mem_singleton.2 ending, ?_⟩
    unfold below at bare ⊢
    rw [apart rfl] at bare ⊢
    generalize isRooted root = rooted at bare ⊢
    cases rooted with
    | true => rfl
    | false => exact absurd bare (by decide)
  · rw [List.concat_eq_append] at *
    obtain ⟨before, last⟩ := List.forall_mem_append.1 isNames
    have last := List.forall_mem_singleton.1 last
    have after := List.forall_mem_append.2 ⟨before, List.forall_mem_singleton.2 (last.append (e := sourceEnding) (by decide) (by decide))⟩
    exact ⟨front ++ [c ++ sourceEnding], after, below_append root isNames after⟩

/-- A path that leaves the folder is refused.  What is read for any other path lies below the folder; but if the path names the
folder itself, it is the file next to the folder. -/
theorem modules_stay_below (root path : Bytes) :
    (Leaves path → ∀ t : FileTree, t.readModule root path = .error (.escapes path root)) ∧
    (¬Leaves path → (∀ t : FileTree, t.readModule root path =
        (t.read (modulePath root path)).mapError fun f => .unreadable path f.text) ∧
      (¬NamesFolder root path → ∃ cs, (∀ c ∈ cs, IsName c) ∧ modulePath root path = below root cs ∧
        ∀ (t : FileTree) (text : Bytes), t.read (modulePath root path) = .ok text →
          ∃ place, t.locate (clean root) = .ok place ∧ t.node? (place ++ cs) = some (.file text)) ∧
      (NamesFolder root path → modulePath root path = clean root ++ sourceEnding ∧
        ∀ cs, (∀ c ∈ cs, IsName c) → modulePath root path ≠ below root cs)) := by
  refine ⟨fun leaves t => if_pos ((leaves_iff path).2 leaves), fun stays => ?_⟩
  have isNames := names_of_not_leaves stays
  refine ⟨readModule_of_not_leaves stays, fun inside => ?_, fun ⟨self, deep, bare⟩ => ?_⟩
  · obtain ⟨cs, isNames, same⟩ : ∃ cs, (∀ c ∈ cs, IsName c) ∧ modulePath root path = below root cs := by
      rw [modulePath]
      split
      · rename_i bare
        refine below_ending isNames (fun self => Classical.byContradiction fun deep => inside ⟨self, deep, ?_⟩) bare
        rwa [self, below_nil] at bare
      · exact ⟨_, isNames, rfl⟩
    exact ⟨cs, isNames, same, fun t text read => FileTree.place_of_read isNames (same ▸ read)⟩
  · rw [modulePath, self, below_nil]
    refine ⟨if_pos bare, fun cs isNames same => ?_⟩
    have same : clean root ++ sourceEnding = below root cs := (if_pos bare).symm.trans same
    by_cases more : cs = []
    · rw [more, below_nil] at same
      exact absurd (List.append_right_eq_self.1 same) (by decide)
    · rw [below_eq deep more isNames] at same
      exact absurd (List.cons.inj (List.append_cancel_left same)).1 (by decide)

/-- A module in a folder, and a file next to the folder. -/
example :
    let t : FileTree := { files := [([utf8 "lib", utf8 "a", utf8 "b.gard"], [1]), ([utf8 "lib.gard"], [2])] }
    let read (path : Bytes) := (t.readModule (utf8 "lib") path).toOption
    read (utf8 "./a//b") = some [1] ∧ read (utf8 ".") = some [2] := by
  decide +kernel

end LedgerScript
