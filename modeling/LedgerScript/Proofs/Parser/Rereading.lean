import LedgerScript.Proofs.Parser.Integers
import LedgerScript.Proofs.Parser.Replay

/-!
# Operator expressions are read again

What has been read as an operator expression is read as the same one from the tokens of its lexemes.  These need not be the tokens
that were read at first: the comma behind the last element of a list is not written.

Each rule is followed once where it was run and once on the new tokens, where it takes the same branches.  A rule is judged
only if what it gave is an operator expression; all others are of no interest here.  A repetition is followed from its end: if
what it gives is an operator expression, then so is what it has made before, and the lexemes of that come first.

The parsers of nested things are called after a token was taken.  So a grammar that may be nested `n` deep reads again what has at
most `n` lexemes, however deep the grammar was that read it first.
-/

namespace LedgerScript

variable {t : Token}

open Parse

/-! ## Short expressions -/

@[simp] theorem length_spaced (ws : List Lexeme) : (spaced ws).length = ws.length := by
  cases ws <;> rfl

@[simp] theorem length_operandLexemes (op : UnaryOp) (ws : List Lexeme) : (operandLexemes op ws).length = ws.length := by
  unfold operandLexemes
  split
  · exact length_spaced ws
  · rfl

theorem spaced_ne_nil {ws : List Lexeme} (some : ws ≠ []) : spaced ws ≠ [] := by
  obtain ⟨w, ws, rfl⟩ := List.exists_cons_of_ne_nil some
  exact List.cons_ne_nil _ _

namespace Expr

variable {xs : List Expr}

theorem bareEach_eq (xs : List Expr) : bareEach xs = xs.map bare := by
  induction xs with
  | nil => rfl
  | cons x xs ih => rw [bareEach, ih, List.map_cons]

theorem listLexemes_cons (x y : Expr) (xs : List Expr) :
    listLexemes (x :: y :: xs) = x.lexemes ++ .symbol .comma :: (spaced y.lexemes ++ moreLexemes xs) := by
  rw [listLexemes, moreLexemes]

theorem length_le_moreLexemes {x : Expr} (mem : x ∈ xs) : x.lexemes.length < (moreLexemes xs).length := by
  induction xs with
  | nil => cases mem
  | cons y xs ih =>
    rw [moreLexemes, List.length_cons, List.length_append, length_spaced]
    rcases List.mem_cons.mp mem with rfl | mem
    · omega
    · have := ih mem
      omega

theorem length_le_listLexemes {x : Expr} (mem : x ∈ xs) : x.lexemes.length ≤ (listLexemes xs).length := by
  cases xs with
  | nil => cases mem
  | cons y xs =>
    rw [listLexemes, List.length_append]
    rcases List.mem_cons.mp mem with rfl | mem
    · omega
    · have := length_le_moreLexemes mem
      omega

structure Fits (n : Nat) (x : Expr) : Prop where
  operational : x.Operational
  short : x.lexemes.length ≤ n

variable {n m : Nat} {x : Expr}

theorem Fits.each (operational : ∀ x ∈ xs, x.Operational) (short : (listLexemes xs).length ≤ n) : ∀ x ∈ xs, x.Fits n :=
  fun x mem => ⟨operational x mem, Nat.le_trans (length_le_listLexemes mem) short⟩

end Expr

/-! ## What is to be shown -/

/-- What the one parser has read as an operator expression, the other reads again. -/
def Rereads (loose : Bool) (p p' : Parse Expr) (n : Nat) : Prop :=
  ∀ s, Ends p s fun x s' => s.Cut → x.Fits n → Reread loose p' s x.lexemes s' (·.bare = x.bare)

/-- What the one parser has read as a type, the other reads again. -/
def RereadsType (p p' : Parse TypeRef) (n : Nat) : Prop :=
  ∀ s, Ends p s fun t s' => s.Cut → t.lexemes.length ≤ n → Reread true p' s t.lexemes s' (·.bare = t.bare)

/-- The parsers of nested things read again what has at most `n` lexemes. -/
structure Grammar.Rereads (g g' : Grammar) (n : Nat) : Prop where
  expr : ∀ arrows arrows', LedgerScript.Rereads true (g.expr arrows) (g'.expr arrows') n
  binary : ∀ arrows arrows' least, LedgerScript.Rereads true (g.binary arrows least) (g'.binary arrows' least) n
  unary : ∀ arrows arrows', LedgerScript.Rereads false (g.unary arrows) (g'.unary arrows') n
  type : RereadsType g.type g'.type n

theorem Parse.Gives.rereads {p p' : Parse Expr} {loose : Bool} {n : Nat} (foreign : Gives p fun x => ¬x.Operational) :
    Rereads loose p p' n :=
  fun s x s' run _ fits => absurd fits.operational (foreign s x s' run)

/-! ## Types -/

namespace TypeRef

theorem bareEach_eq (ts : List TypeRef) : bareEach ts = ts.map bare := by
  induction ts with
  | nil => rfl
  | cons t ts ih => rw [bareEach, ih, List.map_cons]

theorem lexemes_ne_nil (t : TypeRef) : t.lexemes ≠ [] := by
  obtain ⟨w, ws, same, -⟩ := t.tight
  rw [same]
  exact List.cons_ne_nil w ws

/-- The type arguments after the first. -/
def followers (ts : List TypeRef) : List Lexeme :=
  ts.flatMap fun t => .symbol .comma :: spaced t.lexemes

theorem moreLexemes_eq (ts : List TypeRef) : moreLexemes ts = followers ts ++ [.symbol .gt] := by
  induction ts with
  | nil => rfl
  | cons t ts ih =>
    rw [moreLexemes, ih]
    simp [followers]

end TypeRef

/-- A turn of the loop that counts pairs of brackets. -/
def bracketStep (n : Nat) : Parse (Nat ⊕ Nat) := do
  if (← at? (.symbol .lbracket)) && (← kindAt 1) = .symbol .rbracket then
    let _ ← advance
    let _ ← advance
    return .inl (n + 1)
  else return .inr n

/-- A turn of the loop that reads items with commas between them. -/
def separatedStep {α : Type} (item : Parse α) (items : List α) : Parse (List α ⊕ List α) := do
  let x ← item
  if ← acceptSymbol .comma then return .inl (x :: items)
  return .inr (x :: items).reverse

def typeEnd (name : Token) (args : List TypeRef) : Parse TypeRef := do
  let arrays ← repeatStep bracketStep 0
  return .mk (← spanFrom name.span) name.nameText args arrays

theorem typeRule_eq (g : Grammar) : typeRule g = (do
    let name ← expectWord "type"
    if ← acceptSymbol .lt then
      let args ← repeatStep (separatedStep g.type) []
      expectSymbol .gt
      typeEnd name args
    else typeEnd name []) :=
  rfl

section

variable {g g' : Grammar} {n : Nat}
variable {s : ParserState}

/-- The next token but one, where two have been taken. -/
theorem ends_bracketStep {k : Nat} : Ends (bracketStep k) s fun r s' =>
    (r = .inr k ∧ s' = s) ∨ ∃ (t u : Token) (s₁ : ParserState), r = .inl (k + 1) ∧ t.kind = .symbol .lbracket ∧ s.rest = t :: s₁.rest ∧
      u.kind = .symbol .rbracket ∧ s₁.rest = u :: s'.rest := by
  refine Ends.and ends_at ?_
  rintro _ s ⟨rfl, rfl⟩
  refine Ends.and ends_kindAt ?_
  rintro _ s ⟨rfl, rfl⟩
  split
  · next both =>
    rw [Bool.and_eq_true, decide_eq_true_iff, decide_eq_true_iff] at both
    refine Ends.and ends_advance fun t s₁ ⟨kind, took⟩ => ?_
    have took := took (by rw [both.1]; decide)
    refine Ends.and ends_advance fun u s₂ ⟨kind', took'⟩ => ?_
    have next : s₁.next = .symbol .rbracket := by
      rw [← both.2, took]
      rfl
    exact ends_pure (.inr ⟨t, u, s₁, rfl, kind ▸ both.1, took, kind' ▸ next, took' (by rw [next]; decide)⟩)
  · exact ends_pure (.inl ⟨rfl, rfl⟩)

theorem rereads_brackets {k : Nat} : Ends (repeatStep bracketStep k) s fun k' s' =>
    ∃ more, k' = k + more ∧ (s.Cut → ∀ k, Reread true (repeatStep bracketStep k) s (bracketPairs more) s' (· = k + more)) := by
  refine ends_repeatStep_back (fun k s k' s' => ∃ more, k' = k + more ∧ (s.Cut → ∀ k,
    Reread true (repeatStep bracketStep k) s (bracketPairs more) s' (· = k + more))) (fun k s => ?_)
  intro r s' run
  obtain ⟨rfl, rfl⟩ | ⟨t, u, s₁, rfl, kind, took, kind', took'⟩ := ends_bracketStep r s' run
  · refine ⟨0, rfl, fun cut k => ?_⟩
    have none : Reread true (at? (.symbol .lbracket)) s' [] s' (· = false) := by
      refine reread_still cut fun c prev follows => ?_
      obtain ⟨t, r, rfl, -, bracket⟩ := follows.starts
      exact ⟨_, consumes_at (List.cons_ne_nil t r), decide_eq_false (bracket rfl)⟩
    refine reread_repeatStep_done (none.and_done ?_)
    rintro _ rfl
    exact .kindAt (fun _ _ => reread_pure cut ⟨k, rfl, rfl⟩) allSound_nil
  · rintro k' s'' ⟨more, rfl, again⟩
    refine ⟨1 + more, by omega, fun cut k => ?_⟩
    have first : Passage s [.symbol .lbracket] s₁ := .symbol cut took kind (by decide)
    have second : Passage s₁ [.symbol .rbracket] s' := .symbol first.cut took' kind' (by decide)
    have turn : Reread false (bracketStep k) s [.symbol .lbracket, .symbol .rbracket] s' fun r => ∃ k', r = .inl k' ∧ k' = k + 1 := by
      refine .at rfl (.kindAt_one ?_)
      exact (reread_advance first (by decide)).and fun _ _ => (reread_advance second (by decide)).and_done fun _ _ =>
        reread_pure second.cut ⟨_, rfl, rfl⟩
    rw [Nat.add_comm 1]
    refine reread_repeatStep_more (List.cons_ne_nil _ _) turn (fun k' same => ?_) standBehind_tight
    rw [same]
    exact (again second.cut (k + 1)).weaken fun _ same => by omega

theorem rereads_types (type : RereadsType g.type g'.type n) {items : List TypeRef} :
    Ends (repeatStep (separatedStep g.type) items) s fun ts s' => ∃ first rest, ts = items.reverse ++ first :: rest ∧
      (s.Cut → (first.lexemes ++ TypeRef.followers rest).length ≤ n → ∀ items',
        Reread true (repeatStep (separatedStep g'.type) items') s (first.lexemes ++ TypeRef.followers rest) s' fun us =>
          TypeRef.bareEach us = TypeRef.bareEach (items'.reverse ++ first :: rest)) := by
  refine ends_repeatStep_back (fun (items : List TypeRef) s ts s' => ∃ first rest, ts = items.reverse ++ first :: rest ∧
    (s.Cut → (first.lexemes ++ TypeRef.followers rest).length ≤ n → ∀ items',
      Reread true (repeatStep (separatedStep g'.type) items') s (first.lexemes ++ TypeRef.followers rest) s' fun us =>
        TypeRef.bareEach us = TypeRef.bareEach (items'.reverse ++ first :: rest))) (fun items s => ?_)
  refine (type s).and fun t s₁ reread => Ends.and ends_acceptSymbol ?_
  rintro _ s₂ (⟨rfl, u, kind, took⟩ | ⟨rfl, rfl, other⟩)
  · refine ends_pure ?_
    rintro ts s' ⟨first, rest, rfl, again⟩
    refine ⟨t, first :: rest, by simp, fun cut short items' => ?_⟩
    have split : TypeRef.followers (first :: rest) = .symbol .comma :: spaced (first.lexemes ++ TypeRef.followers rest) := by
      rw [spaced_append first.lexemes_ne_nil]
      rfl
    rw [split] at short ⊢
    simp only [List.length_append, List.length_cons, length_spaced] at short
    have one := reread cut (by omega)
    have comma : Passage s₁ [.symbol .comma] s₂ := .symbol one.passage.cut took kind (by decide)
    have turn : Reread false (separatedStep g'.type items') s (t.lexemes ++ [.symbol .comma]) s₂ fun r =>
        ∃ items'', r = .inl items'' ∧ TypeRef.bareEach items'' = TypeRef.bareEach (t :: items') := by
      refine one.and_apart (fun t' same => ?_) (standBehind_other (by decide))
      refine (reread_acceptSymbol comma).and_done fun _ yes => ?_
      rw [yes]
      exact reread_pure comma.cut ⟨_, rfl, by rw [TypeRef.bareEach, same]; rfl⟩
    rw [List.append_cons]
    refine reread_repeatStep_more (by simp) turn (fun items'' same => ?_) standBehind_tight
    refine (again comma.cut (by simp; omega) items'').spaced.weaken fun us made => ?_
    simp only [TypeRef.bareEach_eq, List.map_append, List.map_reverse] at same made ⊢
    simp [made, same]
  · refine ends_pure ⟨t, [], by simp, fun cut short items' => ?_⟩
    rw [show TypeRef.followers [] = [] from rfl, List.append_nil] at short ⊢
    have one := reread cut short
    refine reread_repeatStep_done (one.and_done fun t' same => ?_)
    refine (reread_acceptSymbol_no one.passage.cut rfl other).and_done fun _ no => ?_
    rw [no]
    refine reread_pure one.passage.cut ⟨_, rfl, ?_⟩
    simp [TypeRef.bareEach_eq, same]

theorem rereads_typeEnd {name : Token} {args : List TypeRef} : Ends (typeEnd name args) s fun t s' =>
    ∃ span arrays, t = .mk span name.nameText args arrays ∧ (s.Cut → ∀ name' args', name'.nameText = name.nameText →
      TypeRef.bareEach args' = TypeRef.bareEach args →
        Reread true (typeEnd name' args') s (bracketPairs arrays) s' (·.bare = t.bare)) := by
  refine Ends.and rereads_brackets fun arrays s₁ ⟨more, same, again⟩ => Ends.and ends_spanFrom fun span s₂ same' => ?_
  subst same'
  refine ends_pure ⟨span, arrays, rfl, fun cut name' args' spelled made => ?_⟩
  rw [Nat.zero_add] at same
  subst same
  refine (again cut 0).spanned (g := fun span k => TypeRef.mk span name'.nameText args' k) fun _ k count => ?_
  rw [Nat.zero_add] at count
  rw [TypeRef.bare, TypeRef.bare, made, spelled, count]

theorem rereads_typeRule (type : RereadsType g.type g'.type n) : RereadsType (typeRule g) (typeRule g') (n + 1) := by
  intro s
  rw [typeRule_eq, typeRule_eq]
  refine Ends.and ends_expectWord fun name s₁ ⟨word, took⟩ => Ends.and ends_acceptSymbol ?_
  rintro _ s₂ (⟨rfl, u, kind, took'⟩ | ⟨rfl, rfl, other⟩)
  · refine (rereads_types type).and ?_
    rintro _ s₃ ⟨first, rest, rfl, again⟩
    refine Ends.and ends_expectSymbol fun _ s₄ ⟨v, kind', took''⟩ => Ends.weaken rereads_typeEnd ?_
    rintro _ s' ⟨span, arrays, rfl, more⟩ cut short
    have lexemes : (TypeRef.mk span name.nameText ([].reverse ++ first :: rest) arrays).lexemes =
        .word name.nameText :: .symbol .lt :: ((first.lexemes ++ TypeRef.followers rest) ++ .symbol .gt :: bracketPairs arrays) := by
      simp [TypeRef.lexemes, TypeRef.argLexemes, TypeRef.moreLexemes_eq]
    rw [lexemes] at short ⊢
    simp only [List.length_cons, List.length_append] at short
    have name' : Passage s [.word name.nameText] s₁ := .word cut took word
    have less : Passage s₁ [.symbol .lt] s₂ := .symbol name'.cut took' kind (by decide)
    have args := again less.cut (by simp only [List.length_append]; omega) []
    have greater : Passage s₃ [.symbol .gt] s₄ := .symbol args.passage.cut took'' kind' (by decide)
    refine (reread_expectWord name').and fun t face => (reread_acceptSymbol less).and fun _ yes => ?_
    rw [yes]
    refine args.and_apart (fun us made => ?_) (standBehind_other (by decide))
    exact (reread_expectSymbol greater).and fun _ _ => more greater.cut t us (nameText_of_face face) made
  · refine Ends.weaken rereads_typeEnd ?_
    rintro _ s' ⟨span, arrays, rfl, again⟩ cut short
    have name' : Passage s [.word name.nameText] s₂ := .word cut took word
    refine (reread_expectWord name').and fun t face => (reread_acceptSymbol_no name'.cut rfl other).and fun _ no => ?_
    rw [no]
    exact again name'.cut t [] (nameText_of_face face) rfl

end

/-! ## Lists -/

/-- A turn of the loop that reads items up to a closing symbol. -/
def listedStep {α : Type} (close : Symbol) (item : Parse α) (items : List α) : Parse (List α ⊕ List α) := do
  if ← acceptSymbol close then return .inr items.reverse
  let x ← item
  if ← acceptSymbol .comma then return .inl (x :: items)
  expectSymbol close
  return .inr (x :: items).reverse

section

variable {g g' : Grammar} {n : Nat} {item item' : Parse Expr} {close : Symbol}
variable {s : ParserState}

/-- The elements of a list and what closes it are read again. -/
def Relists (close : Symbol) (item' : Parse Expr) (n : Nat) (items : List Expr) (s : ParserState) (all : List Expr)
    (s' : ParserState) : Prop :=
  ∃ xs, all = items.reverse ++ xs ∧ (s.Cut → (∀ x ∈ xs, x.Fits n) → ∀ items',
    Reread false (repeatStep (listedStep close item') items') s (Expr.listLexemes xs ++ [.symbol close]) s' fun ys =>
      Expr.bareEach ys = Expr.bareEach (items'.reverse ++ xs))

/-- A list that ends here. -/
theorem Relists.closed {items : List Expr} {s' : ParserState} {t : Token} (plain : close ≠ .underscore) (other : close ≠ .fatArrow)
    (kind : t.kind = .symbol close) (took : s.rest = t :: s'.rest) : Relists close item' n items s items.reverse s' := by
  refine ⟨[], (List.append_nil _).symm, fun cut _ items' => ?_⟩
  have closing : Passage s [.symbol close] s' := .symbol cut took kind ⟨plain, other⟩
  refine reread_repeatStep_done ((reread_acceptSymbol closing).and_done fun _ yes => ?_)
  rw [yes]
  exact reread_pure closing.cut ⟨_, rfl, by rw [List.append_nil]⟩

theorem rereads_list (plain : close ≠ .underscore) (other : close ≠ .fatArrow) (closer : (TokenKind.symbol close).isCloser = true)
    (each : Rereads true item item' n) {items : List Expr} :
    Ends (repeatStep (listedStep close item) items) s (Relists close item' n items s) := by
  refine ends_repeatStep_back (Relists close item' n) fun items s => Ends.and ends_acceptSymbol ?_
  rintro _ s (⟨rfl, t, kind, took⟩ | ⟨rfl, rfl, more⟩)
  · exact ends_pure (.closed plain other kind took)
  refine (each s).and fun x s₁ reread => Ends.and ends_acceptSymbol ?_
  -- the last element, perhaps with a comma behind it
  have last {s₂ s' : ParserState} (near : s₁.Cut → s₂.Cut) (closing : s₁.Cut → Passage s₂ [.symbol close] s') :
      Relists close item' n items s (x :: items).reverse s' := by
    refine ⟨[x], by simp, fun cut fits items' => ?_⟩
    have one := reread cut (fits x (List.mem_singleton.mpr rfl))
    have some := (fits x (List.mem_singleton.mpr rfl)).operational.lexemes_ne_nil
    have cut := one.passage.cut
    have closing := closing cut
    have next : s₂.next = .symbol close := closing.leads.symm
    have apart : s₂.next ≠ .symbol .comma := by
      rw [next]
      rintro ⟨⟩
      cases closer
    have turn : Reread false (listedStep close item' items') s (x.lexemes ++ [.symbol close]) s' fun r =>
        ∃ ys, r = .inr ys ∧ Expr.bareEach ys = Expr.bareEach (items'.reverse ++ [x]) := by
      refine .acceptSymbol_no (by simp) more ((one.shut some (near cut) (next ▸ closer)).and fun y same => ?_)
      refine .acceptSymbol_no (List.cons_ne_nil _ _) apart ((reread_expectSymbol closing).and_done fun _ _ => ?_)
      exact reread_pure closing.cut ⟨_, rfl, by simp [Expr.bareEach_eq, same]⟩
    rw [Expr.listLexemes, Expr.moreLexemes, List.append_nil]
    exact reread_repeatStep_done turn
  rintro _ s₂ (⟨rfl, t, kind, took⟩ | ⟨rfl, rfl, -⟩)
  · refine ends_pure ?_
    rintro all s' ⟨xs, rfl, again⟩
    cases xs with
    | nil =>
      rw [List.append_nil]
      exact last (·.rest took) fun cut => (again (cut.rest took) (List.forall_mem_nil _) []).passage
    | cons y ys =>
      refine ⟨x :: y :: ys, by simp, fun cut fits items' => ?_⟩
      obtain ⟨first, others⟩ := List.forall_mem_cons.mp fits
      have one := reread cut first
      have some := (others y List.mem_cons_self).operational.lexemes_ne_nil
      have comma : Passage s₁ [.symbol .comma] s₂ := .symbol one.passage.cut took kind (by decide)
      have turn : Reread false (listedStep close item' items') s (x.lexemes ++ [.symbol .comma]) s₂ fun r =>
          ∃ items'', r = .inl items'' ∧ Expr.bareEach items'' = Expr.bareEach (x :: items') := by
        refine .acceptSymbol_no (by simp) more (one.and_apart (fun x' same => ?_) (standBehind_other (by decide)))
        refine (reread_acceptSymbol comma).and_done fun _ yes => ?_
        rw [yes]
        exact reread_pure comma.cut ⟨_, rfl, by rw [Expr.bareEach, same]; rfl⟩
      have split : Expr.listLexemes (x :: y :: ys) ++ [.symbol close] =
          x.lexemes ++ [.symbol .comma] ++ spaced (Expr.listLexemes (y :: ys) ++ [.symbol close]) := by
        rw [Expr.listLexemes_cons, Expr.listLexemes, List.append_assoc y.lexemes, spaced_append some]
        simp
      rw [split]
      refine reread_repeatStep_more (by simp) turn (fun items'' same => ?_) standBehind_tight
      refine (again comma.cut others items'').spaced.weaken fun ys' made => ?_
      simp only [Expr.bareEach_eq, List.map_append, List.map_reverse] at same made ⊢
      simp [made, same]
  · refine Ends.and ends_expectSymbol ?_
    rintro _ s' ⟨t, kind, took⟩
    exact ends_pure (last id fun cut => .symbol cut took kind ⟨plain, other⟩)

theorem rereads_commaList (close : Symbol) (plain : close ≠ .underscore) (other : close ≠ .fatArrow)
    (closer : (TokenKind.symbol close).isCloser = true) (each : Rereads true item item' n) :
    Ends (commaList close item) s fun xs s' => s.Cut → (∀ x ∈ xs, x.Fits n) →
      Reread false (commaList close item') s (Expr.listLexemes xs ++ [.symbol close]) s' fun ys =>
        Expr.bareEach ys = Expr.bareEach xs := by
  refine Ends.weaken (rereads_list plain other closer each) ?_
  rintro _ s' ⟨xs, rfl, again⟩ cut fits
  exact again cut fits []

theorem rereads_element (ih : g.Rereads g' n) : Rereads true (element g) (element g') n := by
  intro s
  refine Ends.and ends_at ?_
  rintro _ s ⟨rfl, rfl⟩
  split
  · next yes =>
    have next := of_decide_eq_true yes
    refine Ends.and ends_advance fun t s₁ ⟨kind, took⟩ => (ih.expr true true s₁).and fun x s₂ reread => Ends.and ends_spanFrom ?_
    rintro span _ rfl
    refine ends_pure fun cut ⟨operational, short⟩ => ?_
    cases operational with | spread elements => ?_
    rw [Expr.lexemes] at short ⊢
    have dots : Passage s [.symbol .dotDotDot] s₁ :=
      .symbol cut (took (by rw [next]; decide)) (kind.symm.trans next) (by decide)
    have inner := reread dots.cut ⟨elements, Nat.le_of_succ_le short⟩
    refine .at rfl ((reread_advance dots (by decide)).and fun t' _ => ?_)
    exact inner.spanned (g := fun span x => Expr.spread span x) fun _ y same => by rw [Expr.bare, same, Expr.bare]
  · next no =>
    refine (ih.expr true true s).weaken fun x s' reread cut fits => ?_
    exact .at_no fits.operational.lexemes_ne_nil (fun same => no (decide_eq_true same)) (reread cut fits)

theorem rereads_arguments (ih : g.Rereads g' n) : Ends (arguments g) s fun xs s' => s.Cut →
    (∀ x ∈ xs, x.Fits n) → Reread false (arguments g') s (parenthesizedLexemes (Expr.listLexemes xs)) s' fun ys =>
      Expr.bareEach ys = Expr.bareEach xs := by
  refine Ends.and ends_expectSymbol fun _ s₁ ⟨t, kind, took⟩ => ?_
  refine (rereads_commaList .rparen (by decide) (by decide) rfl (rereads_element ih)).weaken ?_
  intro xs s' again cut fits
  have opening : Passage s [.symbol .lparen] s₁ := .symbol cut took kind (by decide)
  exact (reread_expectSymbol opening).and fun _ _ => again opening.cut fits

end

/-! ## Literals -/

theorem literalLexemes_of_cut (cut : t.Cut) (terminal : t.kind.isTerminal = true) :
    literalLexemes t.text t.kind = [⟨false, t.kind, t.text⟩] := by
  rcases Expr.literalLexemes_cases t.text t.kind with ⟨digits, text, -⟩ | same
  · have start : t.text.head? ≠ some 45 := ((cut.sound terminal).opens terminal).2
    rw [text] at start
    exact absurd rfl start
  · exact same

/-- A number depends on the kind and the text of its token alone. -/
theorem ends_numberLiteral {negative : Bool} {span : Span} {s : ParserState}
    (number : t.kind = .literal .int ∨ t.kind = .literal .float) : Ends (numberLiteral t negative span) s fun x s' => s' = s ∧
      ∃ v : LiteralValue, v.tokenKind = t.kind ∧ x = .literal span (signedText negative t.text) v ∧
        ∀ (t' : Token) span', t'.face = t.face →
          numberLiteral t' negative span' = pure (.literal span' (signedText negative t.text) v) := by
  suffices made : Ends (numberLiteral t negative span) s fun x s' => s' = s ∧ ∃ v : LiteralValue, v.tokenKind = t.kind ∧
      x = .literal span (signedText negative t.text) v ∧ ∀ (t' : Token) span', t'.text = t.text → t'.kind = t.kind →
          numberLiteral t' negative span' = pure (.literal span' (signedText negative t'.text) v) from by
    refine made.weaken ?_
    rintro x s' ⟨same, v, kind, rfl, again⟩
    refine ⟨same, v, kind, rfl, fun t' span' face => ?_⟩
    have text : t'.text = t.text := congrArg Prod.snd face
    rw [again t' span' text (congrArg Prod.fst face), text]
  unfold numberLiteral
  dsimp only
  rcases number with int | float
  · rw [if_neg (by rw [int]; decide)]
    cases base : splitBase (t.text.filter (· ≠ 95)) with | mk b body => ?_
    dsimp only
    split
    · exact ends_throw _
    next digits kind suffix =>
    split
    · exact ends_throw _
    next n word =>
    split
    · next kept =>
      refine ends_pure ⟨rfl, _, ?_, rfl, fun t' span' text kind => ?_⟩
      · rw [int]
        cases ‹IntegerKind› <;> rfl
      · rw [text, kind, if_neg (by rw [int]; decide), base]
        dsimp only
        rw [suffix]
        dsimp only
        rw [word]
        exact if_pos kept
    · exact ends_throw _
  · rw [if_pos float]
    split
    · exact ends_throw _
    next digits narrow suffix =>
    split
    · exact ends_throw _
    next x value =>
    refine ends_pure ⟨rfl, _, ?_, rfl, fun t' span' text kind => ?_⟩
    · rw [float]
      split <;> rfl
    · rw [text, kind, if_pos float, suffix]
      dsimp only
      rw [value]
      rfl

theorem reread_literal {v : LiteralValue} {s s' : ParserState} {f : Token → Parse Expr} {span : Span} (cut : s.Cut)
    (took : s.rest = t :: s'.rest) (terminal : t.kind.isTerminal = true) (kind : v.tokenKind = t.kind)
    (again : ∀ t', t'.kind = t.kind → t'.text = t.text → ∃ span', f t' = advance >>= fun _ => pure (.literal span' t.text v)) :
    Reread false (peek >>= f) s (Expr.literal span t.text v).lexemes s' (·.bare = (Expr.literal span t.text v).bare) := by
  have more : t.kind ≠ .eof := fun ended => by
    rw [ended] at terminal
    cases terminal
  rw [Expr.lexemes, kind, literalLexemes_of_cut (cut t (by rw [took]; exact List.mem_cons_self) more) terminal]
  have passage : Passage s [⟨false, t.kind, t.text⟩] s' := .terminal cut took terminal rfl
  refine .peek fun t' face => ?_
  obtain ⟨span', same⟩ := again t' (congrArg Prod.fst face) (congrArg Prod.snd face)
  rw [same]
  exact (reread_advance passage more).and_done fun _ _ => reread_pure passage.cut rfl

/-! ## Operands -/

/-- A turn of the loop that reads the elements of a tuple after the first. -/
def tupleStep (g : Grammar) (xs : List Expr) : Parse (List Expr ⊕ List Expr) := do
  if !(← acceptSymbol .comma) then return .inr xs.reverse
  if ← at? (.symbol .rparen) then return .inr xs.reverse
  return .inl ((← g.expr true) :: xs)

theorem groupRule_eq (g : Grammar) : groupRule g = (do
    let start := (← expect (.symbol .lparen)).span
    let first ← g.expr true
    if !(← at? (.symbol .comma)) then
      expectSymbol .rparen
      return .paren (← spanFrom start) first
    let elems ← repeatStep (tupleStep g) [first]
    expectSymbol .rparen
    return .tuple (← spanFrom start) elems) :=
  rfl

section

variable {g g' : Grammar} {n : Nat} {arrows : Bool}

theorem gives_arrowFunction_foreign {isAsync : Bool} {start : Span} :
    Gives (arrowFunction g arrows isAsync start) fun x => ¬x.Operational := by
  refine .any fun _ => .ite (.any fun _ => .any ?rest) (.any ?rest)
  exact fun _ => .any fun _ => .any fun _ => .any fun _ => .done (by rintro ⟨⟩)

theorem gives_templateLiteral_foreign {t : Token} : Gives (templateLiteral g t) fun x => ¬x.Operational :=
  .any fun _ => .done (by rintro ⟨⟩)

theorem gives_mapLiteral_foreign : Gives (mapLiteral g) fun x => ¬x.Operational :=
  .any fun _ => .any fun _ => .any fun _ => .done (by rintro ⟨⟩)

theorem gives_matchRule_foreign : Gives (matchRule g arrows) fun x => ¬x.Operational :=
  .any fun _ => .any fun _ => .any fun _ => .any fun _ => .any fun _ => .done (by rintro ⟨⟩)

theorem arrowFollows_eq_false {ts : List Token} (none : ∀ t ∈ ts, t.kind ≠ .symbol .fatArrow) (depth : Nat) :
    arrowFollows depth ts = false := by
  induction ts generalizing depth with
  | nil => rfl
  | cons t ts ih =>
    obtain ⟨-, others⟩ := List.forall_mem_cons.mp none
    have ended : (if depth = 1 then ts.head?.any (·.kind = .symbol .fatArrow) else arrowFollows (depth - 1) ts) = false := by
      split
      · cases ts with
        | nil => rfl
        | cons u us => exact decide_eq_false (others u List.mem_cons_self)
      · exact ih others _
    unfold arrowFollows
    split
    · exact ih others _
    · exact ih others _
    · exact ih others _
    · exact ended
    · exact ended
    · exact ended
    · rfl
    · exact ih others _

/-- The elements of a tuple after the first are read again, with the commas between them. -/
def Retuples (g' : Grammar) (n : Nat) (items : List Expr) (s : ParserState) (all : List Expr) (s' : ParserState) : Prop :=
  ∃ xs, all = items.reverse ++ xs ∧ (s.Cut → (∀ x ∈ xs, x.Fits n) → s'.next = .symbol .rparen →
    (xs = [] → s' = s ∨ Passage s [.symbol .comma] s') ∧ (xs ≠ [] → ∀ items',
      Reread false (repeatStep (tupleStep g') items') s (Expr.moreLexemes xs) s' fun ys =>
        Expr.bareEach ys = Expr.bareEach (items'.reverse ++ xs)))

theorem rereads_tuple (ih : g.Rereads g' n) {s : ParserState} {items : List Expr} :
    Ends (repeatStep (tupleStep g) items) s (Retuples g' n items s) := by
  refine ends_repeatStep_back (Retuples g' n) fun items s => Ends.and ends_acceptSymbol ?_
  rintro _ s₁ (⟨rfl, t, kind, took⟩ | ⟨rfl, rfl, -⟩)
  · refine Ends.and ends_at ?_
    rintro _ s₁ ⟨rfl, rfl⟩
    have comma (cut : s.Cut) : Passage s [.symbol .comma] s₁ := .symbol cut took kind (by decide)
    split
    · exact ends_pure ⟨[], (List.append_nil _).symm, fun cut _ _ => ⟨fun _ => .inr (comma cut), fun some => absurd rfl some⟩⟩
    · next open' =>
      have open' : s₁.next ≠ .symbol .rparen := fun same => open' (decide_eq_true same)
      refine (ih.expr true true s₁).and fun x s₂ reread => ends_pure ?_
      rintro all s' ⟨xs, rfl, again⟩
      refine ⟨x :: xs, by simp, fun cut fits next => ⟨fun same => absurd same (List.cons_ne_nil x xs), fun _ items' => ?_⟩⟩
      obtain ⟨first, others⟩ := List.forall_mem_cons.mp fits
      have one := reread (comma cut).cut first
      have some := first.operational.lexemes_ne_nil
      have turn : Reread true (tupleStep g' items') s (.symbol .comma :: spaced x.lexemes) s₂ fun r =>
          ∃ items'', r = .inl items'' ∧ Expr.bareEach items'' = Expr.bareEach (x :: items') := by
        refine (reread_acceptSymbol (comma cut)).and fun _ yes => ?_
        rw [yes]
        refine .at_no (spaced_ne_nil some) open' (one.spaced.and_done fun y same => ?_)
        exact reread_pure one.passage.cut ⟨_, rfl, by rw [Expr.bareEach, same]; rfl⟩
      obtain ⟨lone, more⟩ := again one.passage.cut others next
      by_cases none : xs = []
      · subst none
        have cut' : s'.Cut := (lone rfl).elim (fun same => same ▸ one.passage.cut) Passage.cut
        have closer : s'.next.isCloser = true := by rw [next]; rfl
        have turn : Reread false (tupleStep g' items') s _ s' _ := turn.shut (List.cons_ne_nil _ _) cut' closer
        refine reread_repeatStep_more (List.cons_ne_nil _ _) turn (fun items'' same => reread_repeatStep_done ?_) standBehind_tight
        refine (reread_acceptSymbol_no cut' rfl (by rw [next]; decide)).and_done fun _ no => ?_
        rw [no]
        refine reread_pure cut' ⟨_, rfl, ?_⟩
        simp only [Expr.bareEach_eq, List.map_append, List.map_reverse] at same ⊢
        simp [same]
      · rw [Expr.moreLexemes, ← List.cons_append]
        refine reread_repeatStep_more (List.cons_ne_nil _ _) turn (fun items'' same => ?_) ?_
        · refine (more none items'').weaken fun ys made => ?_
          simp only [Expr.bareEach_eq, List.map_append, List.map_reverse] at same made ⊢
          simp [made, same]
        · obtain ⟨y, ys, rfl⟩ := List.exists_cons_of_ne_nil none
          rw [Expr.moreLexemes]
          exact standBehind_other (by decide)
  · exact ends_pure ⟨[], (List.append_nil _).symm, fun _ _ _ => ⟨fun _ => .inl rfl, fun some => absurd rfl some⟩⟩

/-- The comma behind the only element of a tuple is read again. -/
theorem reread_lone {loose : Bool} {items : List Expr} {f : List Expr → Parse Expr} {s s₁ s' : ParserState} {post : Expr → Prop}
    (comma : Passage s [.symbol .comma] s₁) (rest : Reread loose (expectSymbol .rparen >>= fun _ => f items.reverse) s₁
      [.symbol .rparen] s' post) : Reread loose (repeatStep (tupleStep g') items >>= fun xs => expectSymbol .rparen >>= fun _ => f xs)
      s [.symbol .comma, .symbol .rparen] s' post := by
  refine ⟨comma.and rest.passage, fun ts c faces follows => ?_⟩
  obtain ⟨t, r, rfl, face, faces⟩ := List.map_eq_cons_iff.mp faces
  obtain ⟨u, r, rfl, face', faces⟩ := List.map_eq_cons_iff.mp faces
  rw [List.map_nil, List.map_eq_nil_iff] at faces
  subst faces
  have turn : Reads (tupleStep g' items) [t] (u :: c) fun r => ∃ xs, r = .inr xs ∧ xs = items.reverse := by
    refine fun prev => ⟨_, t.span, ?_, _, rfl, rfl⟩
    change Consumes (tupleStep g' items) ⟨t :: u :: c, prev⟩ (.inr items.reverse) ⟨u :: c, t.span⟩
    refine (consumes_acceptSymbol_yes (congrArg Prod.fst face)).and ((consumes_at (List.cons_ne_nil _ _)).and ?_)
    rw [decide_eq_true (show (ParserState.mk (u :: c) t.span).next = .symbol .rparen from congrArg Prod.fst face')]
    exact consumes_pure
  have loop : Reads (repeatStep (tupleStep g') items) [t] ([u] ++ c) (· = items.reverse) := reads_repeatStep_done turn
  refine loop.and fun xs same => ?_
  rw [same]
  exact rest.again [u] c (congrArg (fun f => [f]) face') follows

theorem rereads_groupRule (ih : g.Rereads g' n) : Rereads false (groupRule g) (groupRule g') (n + 1) := by
  intro s
  rw [groupRule_eq, groupRule_eq]
  refine (ends_expect (k := .symbol .lparen) (by decide)).and ?_
  rintro t s₁ ⟨kind, took⟩
  refine (ih.expr true true s₁).and fun x s₂ reread => Ends.and ends_at ?_
  rintro _ s₂ ⟨rfl, rfl⟩
  have opening (cut : s.Cut) : Passage s [.symbol .lparen] s₁ := .symbol cut took kind (by decide)
  split
  · next no =>
    rw [Bool.not_eq_true', decide_eq_false_iff_not] at no
    refine Ends.and ends_expectSymbol ?_
    rintro _ _ ⟨u, kind', took'⟩
    refine Ends.and ends_spanFrom ?_
    rintro span s' rfl
    refine ends_pure ?_
    rintro cut ⟨operational, short⟩
    cases operational with | paren inner => ?_
    rw [Expr.lexemes, parenthesizedLexemes] at short ⊢
    simp only [List.length_cons, List.length_append] at short
    have one := reread (opening cut).cut ⟨inner, by omega⟩
    have closing : Passage s₂ [.symbol .rparen] s' := .symbol one.passage.cut took' kind' (by decide)
    refine (reread_expect (opening cut) rfl (by decide)).and fun t' _ => one.and_apart (fun y same => ?_) (standBehind_other (by decide))
    refine .at_no (List.cons_ne_nil _ _) no ?_
    exact (reread_expectSymbol closing).spanned (g := fun span _ => Expr.paren span y) fun _ _ _ => by
      rw [Expr.bare, same, Expr.bare]
  · next yes =>
    rw [Bool.not_eq_true, Bool.not_eq_false', decide_eq_true_iff] at yes
    refine (rereads_tuple ih).and ?_
    rintro all s₃ ⟨xs, same, again⟩
    have same : all = x :: xs := same
    subst same
    refine Ends.and ends_expectSymbol ?_
    rintro _ _ ⟨u, kind', took'⟩
    refine Ends.and ends_spanFrom ?_
    rintro span s' rfl
    refine ends_pure ?_
    rintro cut ⟨operational, short⟩
    cases operational with | tuple each => ?_
    obtain ⟨first, others⟩ := List.forall_mem_cons.mp each
    rw [Expr.lexemes] at short ⊢
    simp only [parenthesizedLexemes, Expr.listLexemes, List.length_cons, List.length_append] at short
    have one := reread (opening cut).cut ⟨first, by omega⟩
    have fits : ∀ y ∈ xs, y.Fits n := fun y mem => ⟨others y mem, by have := Expr.length_le_moreLexemes mem; omega⟩
    have next : s₃.next = .symbol .rparen := (ParserState.next_of_rest took').trans kind'
    obtain ⟨lone, more⟩ := again one.passage.cut fits next
    have bare {span' : Span} {ys : List Expr} (made : Expr.bareEach ys = Expr.bareEach (x :: xs)) :
        (Expr.tuple span' ys).bare = (Expr.tuple span (x :: xs)).bare := by
      rw [Expr.bare, made, Expr.bare]
    by_cases none : xs = []
    · subst none
      have comma : Passage s₂ [.symbol .comma] s₃ := (lone rfl).resolve_left fun same => by
        rw [same, yes] at next
        cases next
      have closing : Passage s₃ [.symbol .rparen] s' := .symbol comma.cut took' kind' (by decide)
      have shape : parenthesizedLexemes (Expr.listLexemes [x] ++ if [x].length = 1 then [.symbol .comma] else []) =
          .symbol .lparen :: (x.lexemes ++ [.symbol .comma, .symbol .rparen]) := by
        simp [parenthesizedLexemes, Expr.listLexemes, Expr.moreLexemes]
      rw [shape]
      refine (reread_expect (opening cut) rfl (by decide)).and fun t' _ => ?_
      refine one.and_apart (fun y same => .at rfl (reread_lone comma ?_)) (standBehind_other (by decide))
      refine (reread_expectSymbol closing).spanned (g := fun span _ => Expr.tuple span [y]) fun _ _ _ => bare ?_
      rw [Expr.bareEach, Expr.bareEach, same]
      rfl
    · have rest := more none
      obtain ⟨z, zs, rfl⟩ := List.exists_cons_of_ne_nil none
      have closing : Passage s₃ [.symbol .rparen] s' := .symbol (rest []).passage.cut took' kind' (by decide)
      have shape : parenthesizedLexemes (Expr.listLexemes (x :: z :: zs) ++ if (x :: z :: zs).length = 1 then [.symbol .comma] else []) =
          .symbol .lparen :: (x.lexemes ++ (Expr.moreLexemes (z :: zs) ++ [.symbol .rparen])) := by
        simp [parenthesizedLexemes, Expr.listLexemes]
      rw [shape]
      rw [Expr.moreLexemes] at rest ⊢
      refine (reread_expect (opening cut) rfl (by decide)).and fun t' _ => one.and_apart (fun y same => ?_) (standBehind_other (by decide))
      refine .at rfl ((rest [y]).and fun ys made => ?_)
      refine (reread_expectSymbol closing).spanned (g := fun span _ => Expr.tuple span ys) fun _ _ _ => bare ?_
      rw [made, List.reverse_singleton, List.singleton_append, Expr.bareEach, same, ← Expr.bareEach]

theorem rereads_primary (arrows' : Bool) (ih : g.Rereads g' n) : Rereads false (primary g arrows) (primary g' arrows') (n + 1) := by
  intro s
  refine Ends.and ends_peek ?_
  rintro tok s ⟨rfl, r, here⟩
  have taken {k : TokenKind} (kind : tok.kind = k) (more : k ≠ .eof) : Ends advance s fun t s' => t = tok ∧ s.rest = tok :: s'.rest :=
    ends_advance_of here (kind ▸ more)
  have foreign {p : Parse Expr} (foreign : Gives p fun x => ¬x.Operational) : Ends p s fun x s' => s.Cut → x.Fits (n + 1) →
      Reread false (primary g' arrows') s x.lexemes s' (·.bare = x.bare) :=
    foreign.rereads s
  have number (kind : tok.kind = .literal .int ∨ tok.kind = .literal .float) (terminal : tok.kind.isTerminal = true) :
      Ends (advance >>= fun _ => numberLiteral tok false tok.span) s fun x s' => s.Cut → x.Fits (n + 1) →
        Reread false (primary g' arrows') s x.lexemes s' (·.bare = x.bare) := by
    refine (taken rfl ?_).and ?_
    · rcases kind with kind | kind <;> rw [kind] <;> decide
    rintro _ s₁ ⟨rfl, took⟩
    refine (ends_numberLiteral kind).weaken ?_
    rintro _ s' ⟨rfl, v, value, rfl, again⟩ cut -
    refine reread_literal cut took terminal value fun t' kind' text' => ⟨t'.span, ?_⟩
    have read := again t' t'.span (congrArg₂ Prod.mk kind' text')
    rcases kind with kind | kind
    · rw [kind', kind]
      exact congrArg (advance >>= fun _ => ·) read
    · rw [kind', kind]
      exact congrArg (advance >>= fun _ => ·) read
  split
  · next kind => exact number (.inl kind) (by rw [kind]; rfl)
  · next kind => exact number (.inr kind) (by rw [kind]; rfl)
  · next kind =>
    refine (taken kind (by decide)).and ?_
    rintro _ s' ⟨rfl, took⟩
    refine ends_pure fun cut _ => reread_literal cut took (by rw [kind]; rfl) kind.symm fun t' kind' text' => ⟨t'.span, ?_⟩
    rw [kind', kind]
    simp only [stringText, text']
  · next kind =>
    refine (taken kind (by decide)).and ?_
    rintro _ s' ⟨rfl, took⟩
    refine ends_pure fun cut _ => reread_literal cut took (by rw [kind]; rfl) kind.symm fun t' kind' text' => ⟨t'.span, ?_⟩
    rw [kind', kind]
    simp only [charLiteral, text']
  · exact foreign (.any fun _ => gives_templateLiteral_foreign)
  · next kind =>
    refine (taken kind (by decide)).and ?_
    rintro _ s' ⟨rfl, took⟩
    refine ends_pure fun cut _ => reread_literal cut took (by rw [kind]; rfl) kind.symm fun t' kind' text' => ⟨t'.span, ?_⟩
    rw [kind', kind]
    simp only [text']
  · next kind =>
    refine (taken kind (by decide)).and ?_
    rintro _ s' ⟨rfl, took⟩
    refine ends_pure fun cut _ => reread_literal cut took (by rw [kind]; rfl) kind.symm fun t' kind' text' => ⟨t'.span, ?_⟩
    rw [kind', kind]
    simp only [text']
  · next kind =>
    refine (taken kind (by decide)).and ?_
    rintro _ s' ⟨rfl, took⟩
    refine ends_pure fun cut _ => reread_literal cut took (by rw [kind]; rfl) kind.symm fun t' kind' text' => ⟨t'.span, ?_⟩
    rw [kind', kind]
    simp only [text']
  · next kind =>
    refine (taken kind (by decide)).and ?_
    rintro _ s' ⟨rfl, took⟩
    refine ends_pure fun cut _ => ?_
    have this : Passage s [.keyword .this_] s' := .keyword cut took kind
    rw [Expr.lexemes]
    refine .peek fun t' face => ?_
    rw [show t'.kind = .keyword .this_ from congrArg Prod.fst face]
    exact (reread_advance this (by decide)).and_done fun _ _ => reread_pure this.cut rfl
  · exact foreign (.any fun _ => .done (by rintro ⟨⟩))
  · next kind =>
    refine Ends.and ends_kindAt ?_
    rintro _ s ⟨rfl, -⟩
    refine ends_ite (foreign gives_arrowFunction_foreign) ((taken kind (by decide)).and ?_)
    rintro tok s' ⟨rfl, took⟩
    refine ends_pure fun cut _ => ?_
    have name : Passage s [.word tok.nameText] s' := .word cut took (by rw [kind]; rfl)
    have face : (Lexeme.word tok.nameText).face = tok.face :=
      (cut tok (by rw [took]; exact List.mem_cons_self) (by rw [kind]; decide)).face_word (by rw [kind]; rfl)
    rw [Expr.lexemes]
    refine .peek fun t' face' => ?_
    rw [show t'.kind = .ident from (congrArg Prod.fst (face'.trans face)).trans kind]
    refine .kindAt (fun k other => ?_) name.sound
    rw [decide_eq_false other, Bool.and_false, if_neg Bool.false_ne_true]
    refine (reread_advance name ?_).and_done fun _ _ => reread_pure name.cut ?_
    · rw [show (Lexeme.word tok.nameText).kind = .ident from (congrArg Prod.fst face).trans kind]
      decide
    · rw [nameText_of_face face', Expr.bare, Expr.bare]
  · next kind =>
    refine Ends.and ends_get ?_
    rintro _ s rfl
    refine ends_ite (foreign gives_arrowFunction_foreign) ((rereads_groupRule ih s).weaken fun x s' again cut fits => ?_)
    have again := again cut fits
    have leads := again.passage.leads
    have sound := again.passage.sound
    obtain ⟨w, ws, same⟩ := List.exists_cons_of_ne_nil fits.operational.lexemes_ne_nil
    rw [same] at again leads sound ⊢
    refine .peek fun t' face => ?_
    rw [show t'.kind = .symbol .lparen from
      ((congrArg Prod.fst face).trans leads).trans ((ParserState.next_of_rest here).trans kind)]
    refine .get (fun u none => ?_) sound
    rw [arrowFollows_eq_false none, Bool.and_false, if_neg Bool.false_ne_true]
    exact again
  · next kind =>
    refine (taken kind (by decide)).and ?_
    rintro _ s₁ ⟨rfl, took⟩
    refine (rereads_commaList .rbracket (by decide) (by decide) rfl (rereads_element ih)).and fun xs _ again => Ends.and ends_spanFrom ?_
    rintro span s' rfl
    refine ends_pure ?_
    rintro cut ⟨operational, short⟩
    cases operational with | array each => ?_
    rw [Expr.lexemes] at short ⊢
    simp only [List.length_cons, List.length_append] at short
    have opening : Passage s [.symbol .lbracket] s₁ := .symbol cut took kind (by decide)
    have all := again opening.cut (Expr.Fits.each each (by omega))
    refine .peek fun t' face => ?_
    rw [show t'.kind = .symbol .lbracket from congrArg Prod.fst face]
    refine (reread_advance opening (by decide)).and fun _ _ => ?_
    exact all.spanned (g := fun span xs => Expr.array span xs) fun _ _ made => by rw [Expr.bare, made, Expr.bare]
  · next kind =>
    refine (taken kind (by decide)).and ?_
    rintro _ s₁ ⟨rfl, took⟩
    refine Ends.and ends_expectSymbol ?_
    rintro _ s₂ ⟨u, kind', took'⟩
    refine (rereads_commaList .rbrace (by decide) (by decide) rfl (rereads_element ih)).and fun xs _ again => Ends.and ends_spanFrom ?_
    rintro span s' rfl
    refine ends_pure ?_
    rintro cut ⟨operational, short⟩
    cases operational with | set each => ?_
    rw [Expr.lexemes] at short ⊢
    simp only [List.length_cons, List.length_append] at short
    have hash : Passage s [.symbol .hash] s₁ := .symbol cut took kind (by decide)
    have opening : Passage s₁ [.symbol .lbrace] s₂ := .symbol hash.cut took' kind' (by decide)
    have all := again opening.cut (Expr.Fits.each each (by omega))
    refine .peek fun t' face => ?_
    rw [show t'.kind = .symbol .hash from congrArg Prod.fst face]
    refine (reread_advance hash (by decide)).and fun _ _ => (reread_expectSymbol opening).and fun _ _ => ?_
    exact all.spanned (g := fun span xs => Expr.set span xs) fun _ _ made => by rw [Expr.bare, made, Expr.bare]
  · exact foreign gives_mapLiteral_foreign
  · exact foreign (.any fun _ => .done (by rintro ⟨⟩))
  · refine foreign (.any fun _ => .ite (.any fun _ => .any fun _ => .any fun _ => .done (by rintro ⟨⟩)) (.any fun _ => .ite ?_ gives_failExpected))
    exact .any fun _ => gives_arrowFunction_foreign
  · refine foreign (.any fun _ => .any fun _ => .any fun _ => .any fun _ => .ite (.any ?rest) (.any ?rest))
    exact fun _ => .any fun _ => .any fun _ => .done (by rintro ⟨⟩)
  · exact foreign (.any fun _ => .any fun _ => .any fun _ => .any fun _ => .done (by rintro ⟨⟩))
  · exact foreign gives_matchRule_foreign
  · exact ends_failExpected

end

end LedgerScript
