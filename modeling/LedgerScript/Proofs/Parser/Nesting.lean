import LedgerScript.Proofs.Parser.Layout
import LedgerScript.Syntax.View

/-!
# Spans that nest

In the tree of a file the span of a node lies within the span of the node around it, the items of a list stand one behind the
other, and what is read from a hole of a template lies within the hole.  `View.Nests` says so of the uniform view of a tree, in
which some nodes have no span of their own.

A tree is built from its parts by where they lie: `View.Lies` says that its spans nest and lie between two offsets of a file, a list
goes on with what lies behind it, and a node is put around what lies within its span.
-/

namespace LedgerScript

/-- A span of the same file lies within another one. -/
structure Span.Holds (outer inner : Span) : Prop where
  file : inner.file = outer.file
  start : outer.start ≤ inner.start
  stop : inner.stop ≤ outer.stop

namespace View

/-! ## Trees whose spans nest -/

inductive Outermost : View → Span → Prop where
  | here {name : String} {span : Span} {fields : List (String × View)} : Outermost (.node name (some span) fields) span
  | item {items : List View} {v : View} {span : Span} (mem : v ∈ items) (inner : Outermost v span) :
    Outermost (.list items) span
  | field {name : String} {fields : List (String × View)} {field : String × View} {span : Span} (mem : field ∈ fields)
    (inner : Outermost field.2 span) : Outermost (.node name none fields) span

inductive HasSpan : View → Span → Prop where
  | here {name : String} {span : Span} {fields : List (String × View)} : HasSpan (.node name (some span) fields) span
  | item {items : List View} {v : View} {span : Span} (mem : v ∈ items) (inner : HasSpan v span) : HasSpan (.list items) span
  | field {name : String} {outer : Option Span} {fields : List (String × View)} {field : String × View} {span : Span}
    (mem : field ∈ fields) (inner : HasSpan field.2 span) : HasSpan (.node name outer fields) span

/-- There are no nodes in it. -/
def isLeaf : View → Bool
  | nothing | flag _ | count _ | text _ | list [] => true
  | _ => false

/-- Whatever is in the one stands before whatever is in the other. -/
def Precedes (v w : View) : Prop :=
  ∀ s, v.Outermost s → ∀ s', w.Outermost s' → s.stop ≤ s'.start

/-- A template among some tokens, or in a hole of theirs, has this span, and its parts are shown one by one: whatever is in them
lies within the template, and what is in the view of a part within the hole of the part. -/
def HoldsHoles (tokens : List Token) (span : Span) (fields : List (String × View)) : Prop :=
  ∃ us t parts, Nested tokens us ∧ t ∈ us ∧ t.kind = .literal .template ∧ t.span = span ∧ fields = [("Parts", .list parts)] ∧
    (∀ s, HasSpan (.list parts) s → span.Holds s) ∧
    List.Forall₂ (fun part v => ∀ s, HasSpan v s → ∃ hole ∈ part.hole, hole.span.Holds s) t.parts parts

/-- The spans of a tree nest: no span is inverted, each lies within that of the node around it, and the items of each list stand
one behind the other. -/
inductive Nests (tokens : List Token) : View → Prop where
  | leaf {v : View} (leaf : v.isLeaf = true) : Nests tokens v
  | list {items : List View} (each : ∀ v ∈ items, Nests tokens v) (apart : items.Pairwise Precedes) : Nests tokens (.list items)
  | part {name : String} {fields : List (String × View)} (each : ∀ field ∈ fields, Nests tokens field.2) :
    Nests tokens (.node name none fields)
  | node {name : String} {span : Span} {fields : List (String × View)} (ordered : span.start ≤ span.stop)
    (inside : ∀ field ∈ fields, ∀ s, Outermost field.2 s → span.Holds s) (each : ∀ field ∈ fields, Nests tokens field.2)
    (holes : name = "TemplateLit" → HoldsHoles tokens span fields) : Nests tokens (.node name (some span) fields)

/-! ## Trees between two offsets -/

/-- A tree whose spans nest and lie between two offsets of a file. -/
structure Lies (w : Sheet) (lo : Nat) (v : View) (hi : Nat) : Prop where
  nests : v.Nests w.tokens
  within : ∀ s, v.Outermost s → s.file = w.file ∧ lo ≤ s.start ∧ s.stop ≤ hi

section

variable {w : Sheet} {lo lo' mid hi hi' : Nat} {v : View} {vs ws : List View} {name name' : String} {span : Span}
  {fields fields' : List (String × View)}

@[simp]
theorem isLeaf_nothing : nothing.isLeaf = true := rfl

@[simp]
theorem isLeaf_flag (b : Bool) : (flag b).isLeaf = true := rfl

@[simp]
theorem isLeaf_count (n : Nat) : (count n).isLeaf = true := rfl

@[simp]
theorem isLeaf_text (t : Bytes) : (text t).isLeaf = true := rfl

@[simp]
theorem isLeaf_word (s : String) : (word s).isLeaf = true := rfl

theorem not_outermost_of_isLeaf (leaf : v.isLeaf = true) {s : Span} : ¬ v.Outermost s := by
  intro outermost
  cases outermost with
  | here => cases leaf
  | @item items _ _ mem =>
    cases items with
    | nil => cases mem
    | cons => cases leaf
  | field => cases leaf

theorem lies_leaf (leaf : v.isLeaf = true) : Lies w lo v hi where
  nests := .leaf leaf
  within _ outermost := absurd outermost (not_outermost_of_isLeaf leaf)

theorem lies_words (ss : List String) : Lies w lo (words ss) hi := by
  have free : ∀ v ∈ ss.map word, ∀ s, ¬ Outermost v s := by
    intro v mem s
    obtain ⟨t, _, rfl⟩ := List.mem_map.mp mem
    exact not_outermost_of_isLeaf rfl
  refine ⟨.list (fun v mem => ?_) ?_, fun s outermost => ?_⟩
  · obtain ⟨t, _, rfl⟩ := List.mem_map.mp mem
    exact .leaf rfl
  · exact List.pairwise_of_forall_mem_list fun v mem _ _ s outermost => absurd outermost (free v mem s)
  · cases outermost with
    | item mem inner => exact absurd inner (free _ mem s)

theorem Lies.mono (lies : Lies w lo v hi) (le : lo' ≤ lo) (le' : hi ≤ hi') : Lies w lo' v hi' where
  nests := lies.nests
  within s outermost := by
    obtain ⟨here, start, stop⟩ := lies.within s outermost
    exact ⟨here, Nat.le_trans le start, Nat.le_trans stop le'⟩

theorem Lies.singleton (lies : Lies w lo v hi) : Lies w lo (.list [v]) hi where
  nests := .list (List.forall_mem_singleton.mpr lies.nests) (List.pairwise_singleton ..)
  within s outermost := by
    cases outermost with
    | item mem inner => exact lies.within s (List.mem_singleton.mp mem ▸ inner)

/-- One list behind another. -/
theorem Lies.append (first : Lies w lo (.list vs) mid) (second : Lies w mid (.list ws) hi) (le : lo ≤ mid) (le' : mid ≤ hi) :
    Lies w lo (.list (vs ++ ws)) hi := by
  have parts {items : List View} (nests : (View.list items).Nests w.tokens) :
      (∀ v ∈ items, v.Nests w.tokens) ∧ items.Pairwise Precedes := by
    cases nests with
    | leaf leaf =>
      cases items with
      | nil => exact ⟨by simp, .nil⟩
      | cons => cases leaf
    | list each apart => exact ⟨each, apart⟩
  obtain ⟨each, apart⟩ := parts first.nests
  obtain ⟨each', apart'⟩ := parts second.nests
  refine ⟨.list (List.forall_mem_append.mpr ⟨each, each'⟩) (List.pairwise_append.mpr ⟨apart, apart', ?_⟩), ?_⟩
  · intro v mem v' mem' s outermost s' outermost'
    exact Nat.le_trans (first.within s (.item mem outermost)).2.2 (second.within s' (.item mem' outermost')).2.1
  · intro s outermost
    cases outermost with
    | item mem inner =>
      rcases List.mem_append.mp mem with mem | mem
      · exact (first.mono (Nat.le_refl lo) le').within s (.item mem inner)
      · exact (second.mono le (Nat.le_refl hi)).within s (.item mem inner)

theorem Lies.part (each : ∀ field ∈ fields, Lies w lo field.2 hi) : Lies w lo (.node name none fields) hi where
  nests := .part fun field mem => (each field mem).nests
  within s outermost := by
    cases outermost with
    | field mem inner => exact (each _ mem).within s inner

theorem Lies.inner {span : Option Span} (lies : Lies w lo (.node name span fields) hi) :
    ∀ field ∈ fields, Lies w lo field.2 hi := by
  intro field mem
  obtain ⟨nests, within⟩ := lies
  cases nests with
  | leaf leaf => cases leaf
  | part each => exact ⟨each field mem, fun s inner => within s (.field mem inner)⟩
  | node ordered inside each =>
    refine ⟨each field mem, fun s inner => ?_⟩
    obtain ⟨here, start, stop⟩ := within _ .here
    obtain ⟨here', start', stop'⟩ := inside field mem s inner
    exact ⟨here'.trans here, Nat.le_trans start start', Nat.le_trans stop' stop⟩

/-- Each field has nothing in it or is one of these. -/
def Covered (vs : List View) (fields : List (String × View)) : Prop :=
  ∀ field ∈ fields, field.2.isLeaf = true ∨ field.2 ∈ vs ∨ ∃ ss, field.2 = words ss

@[simp]
theorem covered_nil : Covered vs [] :=
  nofun

@[simp]
theorem covered_cons {field : String × View} :
    Covered vs (field :: fields) ↔ (field.2.isLeaf = true ∨ field.2 ∈ vs ∨ ∃ ss, field.2 = words ss) ∧ Covered vs fields :=
  List.forall_mem_cons

@[simp]
theorem exists_words (ss : List String) : ∃ ss', words ss = words ss' :=
  ⟨ss, rfl⟩

@[simp]
theorem ofType_some {t : TypeRef} : ofType? (some t) = ofType t := rfl

@[simp]
theorem ofType_none : ofType? none = nothing := rfl

@[simp]
theorem ofExpr_none : ofExpr? none = nothing := rfl

@[simp]
theorem ofBody_block {b : Block} : ofBody (.block b) = (ofBlock b, .nothing) := rfl

@[simp]
theorem ofBody_expr {x : Expr} : ofBody (.expr x) = (.nothing, ofExpr x) := rfl

@[simp]
theorem ofBody_missing : ofBody .missing = (.nothing, .nothing) := rfl

@[simp]
theorem covered_ofLiteral {value : LiteralValue} : Covered vs (ofLiteral value) := by
  cases value <;> simp [ofLiteral]

theorem Covered.each (covered : Covered vs fields) (lies : ∀ v ∈ vs, Lies w lo v hi) :
    ∀ field ∈ fields, Lies w lo field.2 hi := by
  intro field mem
  obtain leaf | mem | ⟨ss, same⟩ := covered field mem
  · exact lies_leaf leaf
  · exact lies _ mem
  · rw [same]
    exact lies_words ss

theorem Lies.node (here : span.file = w.file) (start : lo ≤ span.start) (ordered : span.start ≤ span.stop) (stop : span.stop ≤ hi)
    (each : ∀ field ∈ fields, Lies w span.start field.2 span.stop)
    (holes : name = "TemplateLit" → HoldsHoles w.tokens span fields) : Lies w lo (at' name span fields) hi where
  nests := by
    refine .node ordered (fun field mem s inner => ?_) (fun field mem => (each field mem).nests) holes
    obtain ⟨here', start', stop'⟩ := (each field mem).within s inner
    exact ⟨here'.trans here.symm, start', stop'⟩
  within s outermost := by
    cases outermost
    exact ⟨here, start, stop⟩

theorem Lies.exact (lies : Lies w lo (at' name span fields) hi) :
    span.file = w.file ∧ lo ≤ span.start ∧ span.start ≤ span.stop ∧ span.stop ≤ hi ∧
      Lies w span.start (at' name span fields) span.stop := by
  obtain ⟨nests, within⟩ := lies
  obtain ⟨here, start, stop⟩ := within _ .here
  have ordered : span.start ≤ span.stop := by
    cases nests with
    | leaf leaf => cases leaf
    | node ordered => exact ordered
  refine ⟨here, start, ordered, stop, nests, fun s outermost => ?_⟩
  cases outermost
  exact ⟨here, Nat.le_refl _, Nat.le_refl _⟩

/-- A node of the same span around another one. -/
theorem Lies.wrap (lies : Lies w lo v hi) (same : v = at' name span fields) (covered : Covered [v] fields')
    (plain : name' ≠ "TemplateLit") : Lies w lo (at' name' span fields') hi := by
  subst same
  obtain ⟨here, start, ordered, stop, exactly⟩ := lies.exact
  exact .node here start ordered stop (covered.each (by simpa using exactly)) fun same => absurd same plain

end

/-! ## Lists -/

/-- A list is shown item by item. -/
class Listing {α : Type} (F : List α → List View) : Prop where
  nil : F [] = []
  cons : ∀ x xs, F (x :: xs) = F [x] ++ F xs

theorem Listing.snoc {α : Type} (F : List α → List View) [Listing F] (x : α) (xs : List α) :
    F (x :: xs).reverse = F xs.reverse ++ F [x] := by
  have append (as bs : List α) : F (as ++ bs) = F as ++ F bs := by
    induction as with
    | nil => simp [Listing.nil (F := F)]
    | cons a as ih => rw [List.cons_append, Listing.cons (F := F) a, ih, Listing.cons (F := F) a as, List.append_assoc]
  rw [List.reverse_cons, append]

instance : Listing ofTypes := ⟨rfl, fun _ _ => rfl⟩

instance : Listing ofExprs := ⟨rfl, fun _ _ => rfl⟩

instance : Listing ofEntries := ⟨rfl, fun ⟨_, _⟩ _ => rfl⟩

instance : Listing ofArms := ⟨rfl, fun ⟨_, _, _, _⟩ _ => rfl⟩

instance : Listing ofParams := ⟨rfl, fun ⟨_, _, _, _, _, _, _⟩ _ => rfl⟩

instance : Listing ofStmts := ⟨rfl, fun _ _ => rfl⟩

instance : Listing ofCases := ⟨rfl, fun ⟨_, _, _⟩ _ => rfl⟩

instance : Listing ofCatches := ⟨rfl, fun ⟨_, _, _, _⟩ _ => rfl⟩

instance : Listing ofFields := ⟨rfl, fun ⟨_, _, _, _, _, _⟩ _ => rfl⟩

instance : Listing ofLedger := ⟨rfl, fun ⟨_, _, _, _, _, _⟩ _ => rfl⟩

instance : Listing ofMethods := ⟨rfl, fun ⟨_, _, _, _, _⟩ _ => rfl⟩

instance : Listing ofInterfaceMembers := ⟨rfl, fun ⟨_, _, _, _, _⟩ _ => rfl⟩

instance : Listing ofClasses := ⟨rfl, fun _ _ => rfl⟩

instance : Listing fun names : List ImportSpec => names.map ofImport := ⟨rfl, fun _ _ => rfl⟩

end View

end LedgerScript
