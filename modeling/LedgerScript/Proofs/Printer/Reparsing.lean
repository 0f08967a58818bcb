import LedgerScript.Proofs.Parser.Places
import LedgerScript.Proofs.Parser.Rereading

/-!
# Operator expressions survive printing

Operands are joined to expressions in loops that add to what they have made so far.  What such a loop has made of an expression it
makes again of any that is the same but for its places: `Grows`.  The levels of operators are built on each other, and the
grammars on what they were at a smaller depth; so whatever was read as an operator expression is read again from its lexemes.
These are what its printed text is cut into.
-/

namespace LedgerScript

variable {x y : Expr} {s : ParserState} {t : Token} {file fuel : Nat} {c : Cursor}

open Parse

/-! ## Loops -/

/-- What a loop has made of an expression is an operator expression only if that is one, and has more lexemes behind those of it.
The loop makes the same of these lexemes again. -/
def Grows (loose : Bool) (again : Span → Expr → Parse Expr) (n : Nat) (x : Expr) (s : ParserState) (z : Expr) (s' : ParserState) :
    Prop :=
  z.Fits n → x.Fits n ∧ (s.Cut → ∃ ws, z.lexemes = x.lexemes ++ ws ∧ StandBehind loose loose ws ∧
    ∀ start y, y.bare = x.bare → Reread loose (again start y) s ws s' (·.bare = z.bare))

section

variable {loose : Bool} {again : Span → Expr → Parse Expr} {step : Span → Expr → Parse (Expr ⊕ Expr)} {n : Nat} {x x₁ z : Expr}
  {s s₁ s' : ParserState} (unfolds : ∀ start y, again start y = repeatStep (step start) y)
include unfolds

theorem Grows.done (ends : s.Cut → ∀ start y, Reread loose (step start y) s [] s (· = .inr y)) : Grows loose again n x s x s := by
  refine fun fits => ⟨fits, fun cut => ⟨[], (List.append_nil _).symm, id, fun start y same => ?_⟩⟩
  rw [unfolds]
  exact reread_repeatStep_done ((ends cut start y).weaken fun r ended => ⟨y, ended, same⟩)

theorem Grows.more (rest : Grows loose again n x₁ s₁ z s') (turn : x₁.Fits n → x.Fits n ∧ (s.Cut → ∃ vs,
    x₁.lexemes = x.lexemes ++ vs ∧ vs ≠ [] ∧ StandBehind loose loose vs ∧ ∀ start y, y.bare = x.bare →
      Reread loose (step start y) s vs s₁ fun r => ∃ y₁, r = .inl y₁ ∧ y₁.bare = x₁.bare)) : Grows loose again n x s z s' := by
  intro fits
  obtain ⟨fits₁, again⟩ := rest fits
  obtain ⟨fits, one⟩ := turn fits₁
  refine ⟨fits, fun cut => ?_⟩
  obtain ⟨vs, same, some, apart, one⟩ := one cut
  obtain ⟨ws, same', apart', again⟩ := again (one {} x rfl).passage.cut
  refine ⟨vs ++ ws, by rw [same', same, List.append_assoc], ?_, fun start y bare => ?_⟩
  · obtain ⟨v, vs, rfl⟩ := List.exists_cons_of_ne_nil some
    exact apart
  · rw [unfolds]
    refine reread_repeatStep_more some (one start y bare) (fun y₁ bare₁ => ?_) apart'
    rw [← unfolds]
    exact again start y₁ bare₁

end

/-- A loop behind what it starts with. -/
theorem Grows.after {loose : Bool} {again : Span → Expr → Parse Expr} {n : Nat} {z : Expr} {s₁ s' : ParserState} {p : Parse Expr}
    (grows : Grows loose again n x s₁ z s') (fits : z.Fits n)
    (first : x.Fits n → Reread loose p s x.lexemes s₁ (·.bare = x.bare)) (start : Span) :
    Reread loose (p >>= again start) s z.lexemes s' (·.bare = z.bare) := by
  obtain ⟨fits, grow⟩ := grows fits
  have one := first fits
  obtain ⟨ws, same, apart, again⟩ := grow one.passage.cut
  rw [same]
  exact one.and_apart (again start) apart

/-! ## What depends on an expression but for its places -/

theorem isPlace_bare (x : Expr) : isPlace x.bare = isPlace x := by
  cases x <;> rfl

theorem isPlace_of_bare (same : y.bare = x.bare) : isPlace y = isPlace x := by
  rw [← isPlace_bare y, same, isPlace_bare]

def Expr.isOptionalMember : Expr → Bool
  | member _ _ _ optional => optional
  | _ => false

theorem isOptionalMember_of_bare (same : y.bare = x.bare) : y.isOptionalMember = x.isOptionalMember := by
  have bare (x : Expr) : x.bare.isOptionalMember = x.isOptionalMember := by
    cases x <;> rfl
  rw [← bare y, same, bare]

theorem ends_checkPlace : Ends (checkPlace x t) s fun _ s' => s' = s ∧ isPlace x = true := by
  unfold checkPlace
  split
  · next place => exact ends_pure ⟨rfl, place⟩
  · exact ends_throw _

theorem reread_checkPlace {loose : Bool} (cut : s.Cut) (same : y.bare = x.bare)
    (place : isPlace x = true) : Reread loose (checkPlace y t) s [] s fun _ => True := by
  rw [checkPlace, if_pos ((isPlace_of_bare same).trans place)]
  exact reread_pure cut trivial

/-! ## Suffixes -/

/-- No operand goes on with what ends all that is open. -/
theorem TokenKind.Follows.of_isCloser {k : TokenKind} (closer : k.isCloser = true) : k.Follows := by
  unfold isCloser at closer
  split at closer
  · exact ⟨nofun, nofun, nofun, nofun, nofun, nofun, nofun⟩
  · exact ⟨nofun, nofun, nofun, nofun, nofun, nofun, nofun⟩
  · exact ⟨nofun, nofun, nofun, nofun, nofun, nofun, nofun⟩
  · exact ⟨nofun, nofun, nofun, nofun, nofun, nofun, nofun⟩
  · cases closer

section

variable {g g' : Grammar} {n : Nat}
variable {x : Expr} {start : Span} {s : ParserState}

theorem reread_member {y : Expr} {optional : Bool} {name : String} {sym : Symbol} {span : Span} {s₁ s' : ParserState}
    (point : Passage s [.symbol sym] s₁) (named : Passage s₁ [.word name] s') (same : y.bare = x.bare) :
    Reread false (do
      let _ ← advance
      let name ← expectWord "member name"
      return .inl (.member (← spanFrom start) y name.nameText optional) : Parse (Expr ⊕ Expr)) s [.symbol sym, .word name] s'
      fun r => ∃ y₁, r = .inl y₁ ∧ y₁.bare = (Expr.member span x name optional).bare := by
  refine (reread_advance point (by rintro ⟨⟩)).and fun _ _ => (reread_expectWord named).and_done fun t face => ?_
  refine (reread_spanFrom named.cut).and_done fun _ _ => reread_pure named.cut ⟨_, rfl, ?_⟩
  rw [nameText_of_face face, Expr.bare, Expr.bare, same]

/-- A step is written again behind its place. -/
theorem reread_stepAfter {y : Expr} {op : StepOp} {t : Token} {sym : Symbol} {span : Span} {s' : ParserState} (cut : s.Cut)
    (mark : Passage s [.symbol sym] s') (same : y.bare = x.bare) (place : isPlace x = true) : Reread false (do
      checkPlace y t
      let _ ← advance
      return .inl (.stepAfter (← spanFrom start) op y) : Parse (Expr ⊕ Expr)) s [.symbol sym] s'
      fun r => ∃ y₁, r = .inl y₁ ∧ y₁.bare = (Expr.stepAfter span op x).bare := by
  refine (reread_checkPlace cut same place).and fun _ _ => ?_
  refine (reread_advance mark (by rintro ⟨⟩)).spanned (g := fun span _ => Sum.inl (Expr.stepAfter span op y)) fun _ _ _ => ⟨_, rfl, ?_⟩
  rw [Expr.bare, Expr.bare, same]

theorem rereads_suffixes (ih : g.Rereads g' n) :
    Ends (suffixes g x start) s (Grows false (fun start y => suffixes g' y start) (n + 1) x s) := by
  refine ends_repeatStep_back (Grows false (fun start y => suffixes g' y start) (n + 1)) fun x s => Ends.and ends_peek ?_
  rintro tok s ⟨rfl, r, here⟩
  have taken {k : TokenKind} (kind : tok.kind = k) (more : k ≠ .eof) : Ends advance s fun t s' => t = tok ∧ s.rest = tok :: s'.rest :=
    ends_advance_of here (kind ▸ more)
  split
  · next kind =>
    refine (rereads_arguments ih).and fun args _ again => Ends.and ends_spanFrom ?_
    rintro span s₁ rfl
    refine ends_pure fun z s' rest => .more (fun _ _ => rfl) rest ?_
    rintro ⟨operational, short⟩
    cases operational with | call callee each => ?_
    rw [Expr.lexemes] at short
    simp only [parenthesizedLexemes, List.length_cons, List.length_append] at short
    refine ⟨⟨callee, by omega⟩, fun cut => ?_⟩
    have args' := again cut (Expr.Fits.each each (by omega))
    refine ⟨parenthesizedLexemes (Expr.listLexemes args), by rw [Expr.lexemes], List.cons_ne_nil _ _, standBehind_tight,
      fun start y same => .peek fun t face => ?_⟩
    rw [show t.kind = .symbol .lparen from congrArg Prod.fst face]
    refine args'.and_done fun _ made => (reread_spanFrom args'.passage.cut).and_done fun _ _ => ?_
    refine reread_pure args'.passage.cut ⟨_, rfl, ?_⟩
    rw [Expr.bare, Expr.bare, made, same]
    exact congrArg (Expr.call {} x.bare (Expr.bareEach args)) (isOptionalMember_of_bare same)
  · next kind =>
    refine (taken kind (by decide)).and ?_
    rintro _ s₁ ⟨rfl, took⟩
    refine (ih.expr true true s₁).and fun i s₂ reread => Ends.and ends_expectSymbol ?_
    rintro _ _ ⟨u, kind', took'⟩
    refine Ends.and ends_spanFrom ?_
    rintro span s₃ rfl
    refine ends_pure fun z s' rest => .more (fun _ _ => rfl) rest ?_
    rintro ⟨operational, short⟩
    cases operational with | index owner place => ?_
    rw [Expr.lexemes] at short
    simp only [List.length_cons, List.length_append] at short
    refine ⟨⟨owner, by omega⟩, fun cut => ?_⟩
    have opening : Passage s [.symbol .lbracket] s₁ := .symbol cut took kind (by decide)
    have inner := reread opening.cut ⟨place, by omega⟩
    have closing : Passage s₂ [.symbol .rbracket] s₃ := .symbol inner.passage.cut took' kind' (by decide)
    refine ⟨.symbol .lbracket :: (i.lexemes ++ [.symbol .rbracket]), by rw [Expr.lexemes], List.cons_ne_nil _ _, standBehind_tight,
      fun start y same => .peek fun t face => ?_⟩
    rw [show t.kind = .symbol .lbracket from congrArg Prod.fst face]
    refine (reread_advance opening (by decide)).and fun _ _ => inner.and_apart (fun j made => ?_) (standBehind_other (by decide))
    refine (reread_expectSymbol closing).spanned (g := fun span _ => Sum.inl (Expr.index span y j)) fun _ _ _ => ⟨_, rfl, ?_⟩
    rw [Expr.bare, Expr.bare, same, made]
  · next kind =>
    refine (taken kind (by decide)).and ?_
    rintro _ s₁ ⟨rfl, took⟩
    refine Ends.and ends_expectWord ?_
    rintro name _ ⟨word, took'⟩
    refine Ends.and ends_spanFrom ?_
    rintro span s₂ rfl
    refine ends_pure fun z s' rest => .more (fun _ _ => rfl) rest ?_
    rintro ⟨operational, short⟩
    cases operational with | member owner => ?_
    rw [Expr.lexemes] at short
    simp only [List.length_cons, List.length_append] at short
    refine ⟨⟨owner, by omega⟩, fun cut => ?_⟩
    have point : Passage s [.symbol .dot] s₁ := .symbol cut took kind (by decide)
    refine ⟨[.symbol .dot, .word name.nameText], by rw [Expr.lexemes]; rfl, List.cons_ne_nil _ _, standBehind_tight,
      fun start y same => .peek fun t face => ?_⟩
    rw [show t.kind = .symbol .dot from congrArg Prod.fst face]
    exact reread_member point (.word point.cut took' word) same
  · next kind =>
    refine (taken kind (by decide)).and ?_
    rintro _ s₁ ⟨rfl, took⟩
    refine Ends.and ends_expectWord ?_
    rintro name _ ⟨word, took'⟩
    refine Ends.and ends_spanFrom ?_
    rintro span s₂ rfl
    refine ends_pure fun z s' rest => .more (fun _ _ => rfl) rest ?_
    rintro ⟨operational, short⟩
    cases operational with | member owner => ?_
    rw [Expr.lexemes] at short
    simp only [List.length_cons, List.length_append] at short
    refine ⟨⟨owner, by omega⟩, fun cut => ?_⟩
    have point : Passage s [.symbol .questionDot] s₁ := .symbol cut took kind (by decide)
    refine ⟨[.symbol .questionDot, .word name.nameText], by rw [Expr.lexemes]; rfl, List.cons_ne_nil _ _, standBehind_tight,
      fun start y same => .peek fun t face => ?_⟩
    rw [show t.kind = .symbol .questionDot from congrArg Prod.fst face]
    exact reread_member point (.word point.cut took' word) same
  · next kind =>
    refine Ends.and ends_checkPlace ?_
    rintro _ s ⟨rfl, place⟩
    refine (taken kind (by decide)).and ?_
    rintro _ _ ⟨rfl, took⟩
    refine Ends.and ends_spanFrom ?_
    rintro span s₁ rfl
    refine ends_pure fun z s' rest => .more (fun _ _ => rfl) rest ?_
    rintro ⟨operational, short⟩
    cases operational with | stepAfter operand => ?_
    rw [Expr.lexemes] at short
    simp only [List.length_cons, List.length_append] at short
    refine ⟨⟨operand, by omega⟩, fun cut => ⟨[.symbol .plusPlus], by rw [Expr.lexemes]; rfl, List.cons_ne_nil _ _, standBehind_tight,
      fun start y same => .peek fun t face => ?_⟩⟩
    rw [show t.kind = .symbol .plusPlus from congrArg Prod.fst face]
    exact reread_stepAfter cut (.symbol cut took kind (by decide)) same place
  · next kind =>
    refine Ends.and ends_checkPlace ?_
    rintro _ s ⟨rfl, place⟩
    refine (taken kind (by decide)).and ?_
    rintro _ _ ⟨rfl, took⟩
    refine Ends.and ends_spanFrom ?_
    rintro span s₁ rfl
    refine ends_pure fun z s' rest => .more (fun _ _ => rfl) rest ?_
    rintro ⟨operational, short⟩
    cases operational with | stepAfter operand => ?_
    rw [Expr.lexemes] at short
    simp only [List.length_cons, List.length_append] at short
    refine ⟨⟨operand, by omega⟩, fun cut => ⟨[.symbol .minusMinus], by rw [Expr.lexemes]; rfl, List.cons_ne_nil _ _, standBehind_tight,
      fun start y same => .peek fun t face => ?_⟩⟩
    rw [show t.kind = .symbol .minusMinus from congrArg Prod.fst face]
    exact reread_stepAfter cut (.symbol cut took kind (by decide)) same place
  · next lparen lbracket dot questionDot plusPlus minusMinus =>
    refine ends_pure fun fits => ⟨fits, fun cut => ⟨[], (List.append_nil _).symm, standBehind_tight, fun start y same => ?_⟩⟩
    refine reread_still cut fun c prev follows => ?_
    have next : s.next = tok.kind := ParserState.next_of_rest here
    obtain ⟨t, r, rfl, kind, -⟩ := follows.starts
    have ended : t.kind.Follows := by
      rcases kind with kind | closer
      · rw [next] at kind
        have other := follows.plain t List.mem_cons_self
        rw [kind] at other ⊢
        exact ⟨lparen, lbracket, dot, questionDot, plusPlus, minusMinus, other⟩
      · exact .of_isCloser closer
    exact ⟨y, consumes_suffixes ended, same⟩

end

/-! ## Objects -/

/-- A turn of the loop that reads the name of a class. -/
def classStep (start : Span) (cls : Expr) : Parse (Expr ⊕ Expr) := do
  if ← acceptSymbol .dot then
    let m ← expectWord "member name"
    return .inl (.member (← spanFrom start) cls m.nameText false)
  else return .inr cls

theorem newRule_eq (g : Grammar) : newRule g = (do
    let start := (← advance).span
    let name ← expectIdent "class name"
    let cls ← repeatStep (classStep name.span) (.ident name.span name.nameText)
    if ← at? (.symbol .lparen) then
      let args ← arguments g
      return .new (← spanFrom start) cls true args
    else return .new (← spanFrom start) cls false []) :=
  rfl

section

variable {g g' : Grammar} {n : Nat}

theorem rereads_class {x : Expr} {s : ParserState} {start : Span} :
    Ends (repeatStep (classStep start) x) s (Grows false (fun start => repeatStep (classStep start)) n x s) := by
  refine ends_repeatStep_back (Grows false (fun start => repeatStep (classStep start)) n) fun x s => Ends.and ends_acceptSymbol ?_
  rintro _ s₁ (⟨rfl, t, kind, took⟩ | ⟨rfl, rfl, other⟩)
  · refine Ends.and ends_expectWord fun name _ ⟨word, took'⟩ => Ends.and ends_spanFrom ?_
    rintro span s₂ rfl
    refine ends_pure fun z s' rest => .more (fun _ _ => rfl) rest fun ⟨operational, short⟩ => ?_
    cases operational with | member owner => ?_
    rw [Expr.lexemes] at short
    simp only [List.length_cons, List.length_append] at short
    refine ⟨⟨owner, by omega⟩, fun cut => ?_⟩
    have point : Passage s [.symbol .dot] s₁ := .symbol cut took kind (by decide)
    have named : Passage s₁ [.word name.nameText] s₂ := .word point.cut took' word
    refine ⟨[.symbol .dot, .word name.nameText], by rw [Expr.lexemes]; rfl, List.cons_ne_nil _ _, standBehind_tight, fun start y same => ?_⟩
    refine (reread_acceptSymbol point).and fun _ yes => ?_
    rw [yes]
    refine (reread_expectWord named).and_done fun t face => ?_
    refine (reread_spanFrom named.cut).and_done fun _ _ => reread_pure named.cut ⟨_, rfl, ?_⟩
    rw [nameText_of_face face, Expr.bare, Expr.bare, same]
  · refine ends_pure (Grows.done (fun _ _ => rfl) fun cut start y => ?_)
    refine (reread_acceptSymbol_no cut rfl other).and_done fun _ no => ?_
    rw [no]
    exact reread_pure cut rfl

theorem rereads_newRule (ih : g.Rereads g' n) {s : ParserState} {t : Token} {r : List Token} (here : s.rest = t :: r)
    (kind : t.kind = .keyword .new_) : Ends (newRule g) s fun x s' => s.Cut → x.Fits (n + 1) →
      Reread false (newRule g') s x.lexemes s' (·.bare = x.bare) := by
  rw [newRule_eq, newRule_eq]
  refine (ends_advance_of here (by rw [kind]; decide)).and ?_
  rintro _ s₁ ⟨rfl, took⟩
  refine Ends.and ends_expectIdent ?_
  rintro name s₂ ⟨ident, took'⟩
  refine (rereads_class (n := n)).and fun cls s₃ grows => Ends.and ends_at ?_
  rintro _ s₃ ⟨rfl, rfl⟩
  have opening (cut : s.Cut) : Passage s [.keyword .new_] s₁ := .keyword cut took kind
  -- the name of the class
  have named (cut : s.Cut) (fits : cls.Fits n) : ∃ ws, cls.lexemes = .word name.nameText :: ws ∧
      Passage s₁ [.word name.nameText] s₂ ∧ (Lexeme.word name.nameText).kind = .ident ∧ ∀ start y,
        y.bare = (Expr.ident name.span name.nameText).bare → Reread false (repeatStep (classStep start) y) s₂ ws s₃ (·.bare = cls.bare) := by
    obtain ⟨-, grow⟩ := grows fits
    have word : name.kind.isWord = true := by rw [ident]; rfl
    have first : Passage s₁ [.word name.nameText] s₂ := .word (opening cut).cut took' word
    have face := ((opening cut).cut name (by rw [took']; exact List.mem_cons_self) (by rw [ident]; decide)).face_word word
    obtain ⟨ws, same, -, again⟩ := grow first.cut
    exact ⟨ws, by rw [same, Expr.lexemes]; rfl, first, (congrArg Prod.fst face).trans ident, again⟩
  split
  · next yes =>
    refine (rereads_arguments ih).and fun args _ arguments => Ends.and ends_spanFrom ?_
    rintro span s' rfl
    refine ends_pure ?_
    rintro cut ⟨operational, short⟩
    cases operational with | new class_ each => ?_
    rw [Expr.lexemes] at short ⊢
    simp only [List.length_cons, List.length_append, length_spaced, if_true, parenthesizedLexemes] at short
    obtain ⟨ws, same, first, ident, again⟩ := named cut ⟨class_, by omega⟩
    have rest := again {} _ rfl
    have args' := arguments rest.passage.cut (Expr.Fits.each each (by omega))
    rw [same, if_pos rfl]
    refine (reread_advance (opening cut) (by decide)).and fun _ _ => ((reread_expectIdent first ident).spaced).and fun t face => ?_
    refine (again t.span _ ?_).and fun cls' made => .at rfl ?_
    · rw [nameText_of_face face, Expr.bare, Expr.bare]
    · refine args'.spanned (g := fun span args => Expr.new span cls' true args) fun _ _ made' => ?_
      rw [Expr.bare, Expr.bare, made, made']
  · next no =>
    refine Ends.and ends_spanFrom ?_
    rintro span s' rfl
    refine ends_pure ?_
    rintro cut ⟨operational, short⟩
    cases operational with | new class_ each => ?_
    rw [Expr.lexemes] at short ⊢
    simp only [List.length_cons, List.length_append, length_spaced] at short
    obtain ⟨ws, same, first, ident, again⟩ := named cut ⟨class_, by omega⟩
    have cut' := (again {} _ rfl).passage.cut
    rw [same, if_neg Bool.false_ne_true, List.append_nil]
    refine (reread_advance (opening cut) (by decide)).and fun _ _ => ((reread_expectIdent first ident).spaced).and fun t face => ?_
    refine (again t.span _ ?_).and_done fun cls' made => (reread_at_no cut' rfl fun same => no (decide_eq_true same)).and_done ?_
    · rw [nameText_of_face face, Expr.bare, Expr.bare]
    · rintro _ rfl
      refine (reread_spanFrom cut').and_done fun _ _ => reread_pure cut' ?_
      rw [Expr.bare, Expr.bare, made]

end

/-! ## Operators -/

section

variable {g g' : Grammar} {n : Nat} {arrows : Bool} (arrows' : Bool)
variable {s : ParserState} {start : Span} {k : TokenKind}

theorem Reread.operand {α : Type} {loose : Bool} {p : Parse α} {s' : ParserState} {ws : List Lexeme} {post : α → Prop}
    (reread : Reread loose p s ws s' post) (op : UnaryOp) : Reread loose p s (operandLexemes op ws) s' post := by
  unfold operandLexemes
  split
  · exact reread.spaced
  · exact reread

/-- What follows an operand is read again behind it. -/
theorem ends_suffixed (ih : g.Rereads g' n) {p p' : Parse Expr}
    (ends : Ends p s fun x s' => s.Cut → x.Fits (n + 1) → Reread false p' s x.lexemes s' (·.bare = x.bare)) :
    Ends (p >>= fun x => suffixes g x start) s fun z s' => s.Cut → z.Fits (n + 1) → ∀ start,
      Reread false (p' >>= fun x => suffixes g' x start) s z.lexemes s' (·.bare = z.bare) := by
  refine ends.and fun x s₁ reread => (rereads_suffixes ih).weaken fun z s' grows cut fits => ?_
  exact grows.after fits (reread cut)

theorem rereads_unaryRule (ih : g.Rereads g' n) : Rereads false (unaryRule g arrows) (unaryRule g' arrows') (n + 1) := by
  intro s
  refine Ends.and ends_peek ?_
  rintro tok s ⟨rfl, r, here⟩
  dsimp only
  have operand {k : TokenKind} (kind : tok.kind = k) (more : k ≠ .eof) : Ends (advance >>= fun _ => g.unary arrows) s fun x s' =>
      ∃ s₁ : ParserState, s.rest = tok :: s₁.rest ∧ (s₁.Cut → x.Fits n →
        Reread false (g'.unary arrows') s₁ x.lexemes s' (·.bare = x.bare)) := by
    refine (ends_advance_of here (kind ▸ more)).and ?_
    rintro t s₁ ⟨-, took⟩
    exact (ih.unary arrows arrows' s₁).weaken fun x s' reread => ⟨s₁, took, reread⟩
  -- the first of the lexemes is of the kind of the first of the tokens
  have opened {z : Expr} {s' : ParserState} {p : Span → Parse Expr} (cut : s.Cut) (fits : z.Fits (n + 1))
      (again : ∀ start, Reread false (p start) s z.lexemes s' (·.bare = z.bare)) : ∃ w ws, z.lexemes = w :: ws ∧ w.kind = tok.kind ∧
        ∀ start, Reread false (p start) s z.lexemes s' (·.bare = z.bare) := by
    have leads := (again {}).passage.leads
    obtain ⟨w, ws, same⟩ := List.exists_cons_of_ne_nil fits.operational.lexemes_ne_nil
    rw [same] at leads
    exact ⟨w, ws, same, leads.trans (ParserState.next_of_rest here), again⟩
  split
  · next kind =>
    refine Ends.and ends_kindAt ?_
    rintro _ s ⟨rfl, rfl⟩
    split
    · next number =>
      refine (ends_advance_of here (by rw [kind]; decide)).and ?_
      rintro _ s₁ ⟨rfl, took⟩
      refine Ends.and ends_advance ?_
      rintro lit s₂ ⟨next, took'⟩
      have next' : s₁.next = ((s.rest[1]?).map Token.kind).getD .eof := by
        rw [took]
        rfl
      rw [← next', next, Bool.or_eq_true, decide_eq_true_iff, decide_eq_true_iff] at number
      have terminal : lit.kind.isTerminal = true := by rcases number with same | same <;> rw [same] <;> rfl
      have more : lit.kind ≠ .eof := by rcases number with same | same <;> rw [same] <;> decide
      refine (ends_numberLiteral number).and ?_
      rintro _ s₂ ⟨rfl, v, value, rfl, again⟩
      refine (rereads_suffixes ih).weaken fun z s' grows cut fits => ?_
      obtain ⟨-, grow⟩ := grows fits
      have minus : Passage s [.symbol .minus] s₁ := .symbol cut took kind (by decide)
      have digits : Passage s₁ [⟨false, lit.kind, lit.text⟩] s₂ := .terminal minus.cut (took' (next ▸ more)) terminal rfl
      obtain ⟨ws, same, -, rest⟩ := grow digits.cut
      have shape : z.lexemes = .symbol .minus :: ⟨false, lit.kind, lit.text⟩ :: ws := by
        rw [same, Expr.lexemes, value]
        rfl
      rw [shape]
      refine .peek fun t face => ?_
      rw [show t.kind = .symbol .minus from congrArg Prod.fst face]
      refine .kindAt_one ?_
      rw [if_pos (by rw [Bool.or_eq_true, decide_eq_true_iff, decide_eq_true_iff]; exact number)]
      refine (reread_advance minus (by decide)).and fun _ _ => (reread_advance digits more).and fun lit' face' => ?_
      rw [again lit' _ face']
      exact rest _ _ rfl
    · next other =>
      refine (operand kind (by decide)).and ?_
      rintro x _ ⟨s₁, took, reread⟩
      refine Ends.and ends_spanFrom ?_
      rintro span s' rfl
      refine ends_pure ?_
      rintro cut ⟨operational, short⟩
      cases operational with | unary inner => ?_
      rw [Expr.lexemes] at short ⊢
      simp only [List.length_cons, length_operandLexemes] at short
      have mark : Passage s [.symbol .minus] s₁ := .symbol cut took kind (by decide)
      have one := (reread mark.cut ⟨inner, by omega⟩).operand .negate
      have leads := one.passage.leads
      have some : operandLexemes .negate x.lexemes ≠ [] := by
        unfold operandLexemes
        split
        · exact spaced_ne_nil inner.lexemes_ne_nil
        · exact inner.lexemes_ne_nil
      obtain ⟨v, vs, same⟩ := List.exists_cons_of_ne_nil some
      rw [same] at one leads ⊢
      have next : ((s.rest[1]?).map Token.kind).getD .eof = v.kind := by
        rw [took]
        exact leads.symm
      rw [next] at other
      refine .peek fun t face => ?_
      rw [show t.kind = .symbol .minus from congrArg Prod.fst face]
      refine .kindAt_one ?_
      rw [if_neg other]
      refine ((reread_advance mark (by decide)).and fun _ _ => one).spanned (g := fun span x => Expr.unary span .negate x) fun _ _ same => ?_
      rw [Expr.bare, Expr.bare, same]
  · next kind =>
    refine (operand kind (by decide)).and ?_
    rintro x _ ⟨s₁, took, reread⟩
    refine Ends.and ends_spanFrom ?_
    rintro span s' rfl
    refine ends_pure ?_
    rintro cut ⟨operational, short⟩
    cases operational with | unary inner => ?_
    rw [Expr.lexemes] at short ⊢
    simp only [List.length_cons, length_operandLexemes] at short
    have mark : Passage s [.symbol .bang] s₁ := .symbol cut took kind (by decide)
    have one := reread mark.cut ⟨inner, by omega⟩
    refine .peek fun t face => ?_
    rw [show t.kind = .symbol .bang from congrArg Prod.fst face]
    refine ((reread_advance mark (by decide)).and fun _ _ => one.operand _).spanned (g := fun span x => Expr.unary span .not x) fun _ _ same => ?_
    rw [Expr.bare, Expr.bare, same]
  · next kind =>
    refine (operand kind (by decide)).and ?_
    rintro x _ ⟨s₁, took, reread⟩
    refine Ends.and ends_checkPlace ?_
    rintro _ s₂ ⟨rfl, place⟩
    refine Ends.and ends_spanFrom ?_
    rintro span s' rfl
    refine ends_pure ?_
    rintro cut ⟨operational, short⟩
    cases operational with | unary inner => ?_
    rw [Expr.lexemes] at short ⊢
    simp only [List.length_cons, length_operandLexemes] at short
    have mark : Passage s [.symbol .plusPlus] s₁ := .symbol cut took kind (by decide)
    have one := reread mark.cut ⟨inner, by omega⟩
    refine .peek fun t face => ?_
    rw [show t.kind = .symbol .plusPlus from congrArg Prod.fst face]
    refine ((reread_advance mark (by decide)).and fun _ _ => one.operand _).and_done fun y same => ?_
    refine (reread_checkPlace one.passage.cut same place).and_done fun _ _ => ?_
    refine (reread_spanFrom one.passage.cut).and_done fun _ _ => reread_pure one.passage.cut ?_
    rw [Expr.bare, Expr.bare, same]
  · next kind =>
    refine (operand kind (by decide)).and ?_
    rintro x _ ⟨s₁, took, reread⟩
    refine Ends.and ends_checkPlace ?_
    rintro _ s₂ ⟨rfl, place⟩
    refine Ends.and ends_spanFrom ?_
    rintro span s' rfl
    refine ends_pure ?_
    rintro cut ⟨operational, short⟩
    cases operational with | unary inner => ?_
    rw [Expr.lexemes] at short ⊢
    simp only [List.length_cons, length_operandLexemes] at short
    have mark : Passage s [.symbol .minusMinus] s₁ := .symbol cut took kind (by decide)
    have one := reread mark.cut ⟨inner, by omega⟩
    refine .peek fun t face => ?_
    rw [show t.kind = .symbol .minusMinus from congrArg Prod.fst face]
    refine ((reread_advance mark (by decide)).and fun _ _ => one.operand _).and_done fun y same => ?_
    refine (reread_checkPlace one.passage.cut same place).and_done fun _ _ => ?_
    refine (reread_spanFrom one.passage.cut).and_done fun _ _ => reread_pure one.passage.cut ?_
    rw [Expr.bare, Expr.bare, same]
  · next kind =>
    refine (operand kind (by decide)).and ?_
    rintro x _ ⟨s₁, took, reread⟩
    refine Ends.and ends_spanFrom ?_
    rintro span s' rfl
    refine ends_pure ?_
    rintro cut ⟨operational, short⟩
    cases operational with | await inner => ?_
    rw [Expr.lexemes] at short ⊢
    simp only [List.length_cons, length_spaced] at short
    have mark : Passage s [.keyword .await_] s₁ := .keyword cut took kind
    have one := reread mark.cut ⟨inner, by omega⟩
    refine .peek fun t face => ?_
    rw [show t.kind = .keyword .await_ from congrArg Prod.fst face]
    refine ((reread_advance mark (by decide)).and fun _ _ => one.spaced).spanned (g := fun span x => Expr.await span x) fun _ _ same => ?_
    rw [Expr.bare, Expr.bare, same]
  · next kind =>
    refine (operand kind (by decide)).and ?_
    rintro x _ ⟨s₁, took, reread⟩
    refine Ends.and ends_spanFrom ?_
    rintro span s' rfl
    refine ends_pure ?_
    rintro cut ⟨operational, short⟩
    cases operational with | typeof inner => ?_
    rw [Expr.lexemes] at short ⊢
    simp only [List.length_cons, length_spaced] at short
    have mark : Passage s [.keyword .typeof_] s₁ := .keyword cut took kind
    have one := reread mark.cut ⟨inner, by omega⟩
    refine .peek fun t face => ?_
    rw [show t.kind = .keyword .typeof_ from congrArg Prod.fst face]
    refine ((reread_advance mark (by decide)).and fun _ _ => one.spaced).spanned (g := fun span x => Expr.typeof span x) fun _ _ same => ?_
    rw [Expr.bare, Expr.bare, same]
  · next kind =>
    refine (operand kind (by decide)).and ?_
    rintro x _ ⟨s₁, took, reread⟩
    refine Ends.and ends_spanFrom ?_
    rintro span s' rfl
    refine ends_pure ?_
    rintro cut ⟨operational, short⟩
    cases operational with | spawn inner => ?_
    rw [Expr.lexemes] at short ⊢
    simp only [List.length_cons, length_spaced] at short
    have mark : Passage s [.keyword .spawn_] s₁ := .keyword cut took kind
    have one := reread mark.cut ⟨inner, by omega⟩
    refine .peek fun t face => ?_
    rw [show t.kind = .keyword .spawn_ from congrArg Prod.fst face]
    refine ((reread_advance mark (by decide)).and fun _ _ => one.spaced).spanned (g := fun span x => Expr.spawn span x) fun _ _ same => ?_
    rw [Expr.bare, Expr.bare, same]
  · next kind =>
    refine (ends_suffixed ih (rereads_newRule ih here kind)).weaken fun z s' again cut fits => ?_
    obtain ⟨w, ws, same, first, again⟩ := opened cut fits (again cut fits)
    rw [same] at again ⊢
    refine .peek fun t face => ?_
    rw [show t.kind = .keyword .new_ from (congrArg Prod.fst face).trans (first.trans kind)]
    exact again t.span
  · next minus bang plusPlus minusMinus await typeof spawn new =>
    refine (ends_suffixed ih (rereads_primary arrows' ih s)).weaken fun z s' again cut fits => ?_
    obtain ⟨w, ws, same, first, again⟩ := opened cut fits (again cut fits)
    rw [same] at again ⊢
    refine .peek fun t face => ?_
    rw [show t.kind = tok.kind from (congrArg Prod.fst face).trans first]
    split
    all_goals first | contradiction | exact again t.span

theorem precedence?_of_isCloser (closer : k.isCloser = true) : precedence? k = none := by
  unfold TokenKind.isCloser at closer
  split at closer
  · rfl
  · rfl
  · rfl
  · rfl
  · cases closer

theorem BinaryOp.symbol_plain (op : BinaryOp) : op.symbol ≠ .underscore ∧ op.symbol ≠ .fatArrow ∧ op.symbol ≠ .lbracket := by
  cases op <;> exact ⟨nofun, nofun, nofun⟩

theorem rereads_binary (ih : g.Rereads g' n) {least : Nat} {x : Expr} :
    Ends (repeatStep (binaryStep g arrows least start) x) s
      (Grows true (fun start => repeatStep (binaryStep g' arrows' least start)) (n + 1) x s) := by
  refine ends_repeatStep_back (Grows true (fun start => repeatStep (binaryStep g' arrows' least start)) (n + 1)) fun x s =>
    Ends.and ends_nextKind ?_
  rintro _ s ⟨rfl, rfl⟩
  -- the loop ends where nothing follows that binds strongly enough
  have ended (weak : ∀ r ∈ precedence? s.next, r < least) :
      Grows true (fun start => repeatStep (binaryStep g' arrows' least start)) (n + 1) x s x s := by
    refine .done (fun _ _ => rfl) fun cut start y => reread_still cut fun c prev follows => ?_
    obtain ⟨t, r, rfl, weak⟩ := follows.not (P := fun k => ∃ r ∈ precedence? k, ¬r < least)
      (fun k closer ⟨r, mem, _⟩ => by rw [precedence?_of_isCloser closer] at mem; cases mem)
      fun ⟨r, mem, strong⟩ => strong (weak r mem)
    refine ⟨_, consumes_binaryStep_end (List.cons_ne_nil t r) fun r mem => ?_, rfl⟩
    exact Decidable.not_not.mp fun strong => weak ⟨r, mem, strong⟩
  split
  · next none => exact ends_pure (ended (by simp [none]))
  · next r rank =>
    split
    · next weak => exact ends_pure (ended (by simpa [rank] using weak))
    · next strong =>
      refine Ends.and ends_advance ?_
      rintro t s₁ ⟨next, took⟩
      have took := took fun ended => by
        rw [ended] at rank
        cases rank
      obtain ⟨op, kind, rfl, other⟩ | ⟨kind, rfl⟩ := precedence?_cases rank
      · rw [kind]
        simp only [BinaryOp.ofSymbol?_symbol]
        refine (ih.binary arrows arrows' _ s₁).and fun y s₂ reread => Ends.and ends_spanFrom ?_
        rintro span s₂ rfl
        refine ends_pure fun z s' rest => .more (fun _ _ => rfl) rest ?_
        rintro ⟨operational, short⟩
        cases operational with | binary left right => ?_
        rw [Expr.lexemes] at short
        simp only [List.length_cons, List.length_append, length_spaced] at short
        refine ⟨⟨left, by omega⟩, fun cut => ?_⟩
        obtain ⟨plain, arrow, bracket⟩ := op.symbol_plain
        have mark : Passage s [.symbol op.symbol] s₁ := .symbol cut took (next.symm.trans kind) ⟨plain, arrow⟩
        have one := reread mark.cut ⟨right, by omega⟩
        refine ⟨spaced [.symbol op.symbol] ++ spaced y.lexemes, by rw [Expr.lexemes], List.cons_ne_nil _ _,
          fun _ same => bracket (TokenKind.symbol.inj same), fun start x' same => ?_⟩
        refine Reread.nextKind (w := ⟨true, .symbol op.symbol, _⟩) ?_
        rw [precedence?_symbol other]
        dsimp only
        rw [if_neg strong]
        refine (reread_advance mark (by rintro ⟨⟩)).spaced.and fun _ _ => ?_
        rw [BinaryOp.ofSymbol?_symbol]
        refine one.spaced.and_done fun y' made => (reread_spanFrom one.passage.cut).and_done fun _ _ => ?_
        exact reread_pure one.passage.cut ⟨_, rfl, by rw [Expr.bare, Expr.bare, same, made]⟩
      · rw [kind]
        refine (rereads_typeRule ih.type s₁).and fun type s₂ reread => Ends.and ends_spanFrom ?_
        rintro span s₂ rfl
        refine ends_pure fun z s' rest => .more (fun _ _ => rfl) rest ?_
        rintro ⟨operational, short⟩
        cases operational with | is left => ?_
        rw [Expr.lexemes] at short
        simp only [List.length_cons, List.length_append, length_spaced] at short
        refine ⟨⟨left, by omega⟩, fun cut => ?_⟩
        have mark : Passage s [.keyword .is_] s₁ := .keyword cut took (next.symm.trans kind)
        have one := reread mark.cut (by omega)
        refine ⟨spaced [.keyword .is_] ++ spaced type.lexemes, by rw [Expr.lexemes], List.cons_ne_nil _ _, (standBehind_other (by decide)),
          fun start x' same => ?_⟩
        refine Reread.nextKind (w := ⟨true, .keyword .is_, _⟩) ?_
        rw [show precedence? (.keyword .is_) = some isRank from rfl]
        dsimp only
        rw [if_neg strong]
        refine (reread_advance mark (by decide)).spaced.and fun _ _ => ?_
        refine one.spaced.and_done fun type' made => (reread_spanFrom one.passage.cut).and_done fun _ _ => ?_
        exact reread_pure one.passage.cut ⟨_, rfl, by rw [Expr.bare, Expr.bare, same, made]⟩

theorem rereads_binaryRule (ih : g.Rereads g' n) {least : Nat} :
    Rereads true (binaryRule g arrows least) (binaryRule g' arrows' least) (n + 1) := by
  intro s
  rw [binaryRule_eq, binaryRule_eq]
  refine Ends.and ends_here ?_
  rintro start s rfl
  refine (rereads_unaryRule arrows' ih s).and fun x s₁ reread => ?_
  refine (rereads_binary arrows' ih).weaken fun z s' grows cut fits => ?_
  exact (reread_here cut).and fun start => fun _ => grows.after fits (fun fits => (reread cut fits).loosen) start

theorem rereads_coalesce (ih : g.Rereads g' n) {x : Expr} :
    Ends (repeatStep (coalesceStep g arrows start) x) s
      (Grows true (fun start => repeatStep (coalesceStep g' arrows' start)) (n + 1) x s) := by
  refine ends_repeatStep_back (Grows true (fun start => repeatStep (coalesceStep g' arrows' start)) (n + 1)) fun x s =>
    Ends.and ends_acceptSymbol ?_
  rintro _ s₁ (⟨rfl, t, kind, took⟩ | ⟨rfl, rfl, other⟩)
  · refine (rereads_binaryRule arrows' ih s₁).and fun y s₂ reread => Ends.and ends_spanFrom ?_
    rintro span s₂ rfl
    refine ends_pure fun z s' rest => .more (fun _ _ => rfl) rest fun ⟨operational, short⟩ => ?_
    cases operational with | binary left right => ?_
    rw [Expr.lexemes] at short
    simp only [List.length_cons, List.length_append, length_spaced] at short
    refine ⟨⟨left, by omega⟩, fun cut => ?_⟩
    have mark : Passage s [.symbol .questionQuestion] s₁ := .symbol cut took kind (by decide)
    have one := reread mark.cut ⟨right, by omega⟩
    refine ⟨spaced [.symbol .questionQuestion] ++ spaced y.lexemes, by rw [Expr.lexemes]; rfl, List.cons_ne_nil _ _, (standBehind_other (by decide)),
      fun start x' same => ?_⟩
    refine (reread_acceptSymbol mark).spaced.and fun _ yes => ?_
    rw [yes]
    refine one.spaced.and_done fun y' made => (reread_spanFrom one.passage.cut).and_done fun _ _ => ?_
    exact reread_pure one.passage.cut ⟨_, rfl, by rw [Expr.bare, Expr.bare, same, made]⟩
  · refine ends_pure (Grows.done (fun _ _ => rfl) fun cut start y => ?_)
    refine (reread_acceptSymbol_no cut rfl other).and_done fun _ no => ?_
    rw [no]
    exact reread_pure cut rfl

theorem rereads_coalesceRule (ih : g.Rereads g' n) : Rereads true (coalesceRule g arrows) (coalesceRule g' arrows') (n + 1) := by
  intro s
  rw [coalesceRule_eq, coalesceRule_eq]
  refine Ends.and ends_here ?_
  rintro start s rfl
  refine (rereads_binaryRule arrows' ih s).and fun x s₁ reread => ?_
  refine (rereads_coalesce arrows' ih).weaken fun z s' grows cut fits => ?_
  exact (reread_here cut).and fun start _ => grows.after fits (reread cut) start

theorem rereads_ternaryRule (ih : g.Rereads g' n) : Rereads true (ternaryRule g arrows) (ternaryRule g' arrows') (n + 1) := by
  intro s
  refine Ends.and ends_here ?_
  rintro start s rfl
  refine (rereads_coalesceRule arrows' ih s).and fun cond s₁ reread => Ends.and ends_acceptSymbol ?_
  rintro _ s₂ (⟨rfl, t, kind, took⟩ | ⟨rfl, rfl, other⟩)
  · refine (ih.expr arrows arrows' s₂).and fun yes s₃ reread' => Ends.and ends_expectSymbol fun _ s₄ ⟨u, kind', took'⟩ => ?_
    refine (ih.expr arrows arrows' s₄).and fun no s₅ reread'' => Ends.and ends_spanFrom ?_
    rintro span s' rfl
    refine ends_pure fun cut ⟨operational, short⟩ => ?_
    cases operational with | ternary first second third => ?_
    rw [Expr.lexemes] at short ⊢
    simp only [List.length_cons, List.length_append, length_spaced] at short
    have one := reread cut ⟨first, by omega⟩
    have question : Passage s₁ [.symbol .question] s₂ := .symbol one.passage.cut took kind (by decide)
    have two := reread' question.cut ⟨second, by omega⟩
    have colon : Passage s₃ [.symbol .colon] s₄ := .symbol two.passage.cut took' kind' (by decide)
    have three := reread'' colon.cut ⟨third, by omega⟩
    refine (reread_here cut).and fun start _ => one.and_apart (fun cond' same => ?_) (standBehind_other (by decide))
    refine (reread_acceptSymbol question).spaced.and fun _ accepted => ?_
    rw [accepted]
    refine two.spaced.and_apart (fun yes' same' => ?_) (standBehind_other (by decide))
    refine (reread_expectSymbol colon).spaced.and fun _ _ => ?_
    refine three.spaced.spanned (g := fun span no => Expr.ternary span cond' yes' no) fun _ _ same'' => ?_
    rw [Expr.bare, Expr.bare, same, same', same'']
  · refine ends_pure fun cut fits => ?_
    have one := reread cut fits
    refine (reread_here cut).and fun start _ => one.and_done fun cond' same => ?_
    refine (reread_acceptSymbol_no one.passage.cut rfl other).and_done fun _ no => ?_
    rw [no]
    exact reread_pure one.passage.cut same

theorem assignOp?_of_isCloser (closer : k.isCloser = true) : assignOp? k = none := by
  unfold TokenKind.isCloser at closer
  split at closer
  · rfl
  · rfl
  · rfl
  · rfl
  · cases closer

theorem assignOp?_cases {op : AssignOp} (found : assignOp? k = some op) :
    k = .symbol op.symbol ∧ op.symbol ≠ .underscore ∧ op.symbol ≠ .fatArrow ∧ op.symbol ≠ .lbracket := by
  unfold assignOp? at found
  split at found
  · unfold AssignOp.ofSymbol? at found
    split at found <;> cases found <;> exact ⟨rfl, nofun, nofun, nofun⟩
  · cases found

theorem rereads_exprRule (ih : g.Rereads g' n) : Rereads true (exprRule g arrows) (exprRule g' arrows') (n + 1) := by
  intro s
  refine Ends.and ends_here ?_
  rintro start s rfl
  refine (rereads_ternaryRule arrows' ih s).and fun left s₁ reread => Ends.and ends_peek ?_
  rintro tok s₁ ⟨rfl, r, here⟩
  split
  · next no =>
    refine ends_pure fun cut fits => ?_
    have one := reread cut fits
    refine (reread_here cut).and fun start _ => one.and_done fun left' same => ?_
    refine reread_still one.passage.cut fun c prev follows => ?_
    obtain ⟨t, r', rfl, no'⟩ := follows.not (P := fun k => assignOp? k ≠ none)
      (fun k closer some => some (assignOp?_of_isCloser closer)) (by rw [ParserState.next_of_rest here, no]; simp)
    refine ⟨left', consumes_peek.and ?_, same⟩
    rw [not_not.mp no']
    exact consumes_pure
  · next op found =>
    obtain ⟨kind, plain, arrow, bracket⟩ := assignOp?_cases found
    refine Ends.and ends_checkPlace ?_
    rintro _ s₁ ⟨rfl, place⟩
    refine (ends_advance_of here (by rw [kind]; rintro ⟨⟩)).and ?_
    rintro _ s₂ ⟨-, took⟩
    refine (ih.expr arrows arrows' s₂).and fun right s₃ reread' => Ends.and ends_spanFrom ?_
    rintro span s' rfl
    refine ends_pure fun cut ⟨operational, short⟩ => ?_
    cases operational with | assign target value => ?_
    rw [Expr.lexemes] at short ⊢
    simp only [List.length_cons, List.length_append, length_spaced] at short
    have one := reread cut ⟨target, by omega⟩
    have mark : Passage s₁ [.symbol op.symbol] s₂ := .symbol one.passage.cut took kind ⟨plain, arrow⟩
    have two := reread' mark.cut ⟨value, by omega⟩
    refine (reread_here cut).and fun start _ => one.and_apart (fun left' same => ?_) fun _ same => bracket (TokenKind.symbol.inj same)
    refine Reread.peek fun t face => ?_
    rw [show t.kind = .symbol op.symbol from congrArg Prod.fst face, ← kind, found]
    refine (reread_checkPlace one.passage.cut same place).and fun _ _ => ?_
    refine (reread_advance mark (by rintro ⟨⟩)).spaced.and fun _ _ => ?_
    refine two.spaced.spanned (g := fun span right => Expr.assign span op left' right) fun _ _ same' => ?_
    rw [Expr.bare, Expr.bare, same, same']

end

/-! ## All grammars -/

/-- Whatever a grammar has read as an operator expression, one that is deep enough for its lexemes reads again. -/
theorem grammar_rereads (n m : Nat) : (grammar n).Rereads (grammar m) m := by
  induction n generalizing m with
  | zero =>
    exact ⟨fun _ _ _ => ends_throw _, fun _ _ _ _ => ends_throw _, fun _ _ _ => ends_throw _, fun _ => ends_throw _⟩
  | succ n ih =>
    cases m with
    | zero =>
      have nothing {x : Expr} (fits : x.Fits 0) : False :=
        fits.operational.lexemes_ne_nil (List.length_eq_zero_iff.mp (Nat.le_zero.mp fits.short))
      refine ⟨fun _ _ _ _ _ _ _ fits => (nothing fits).elim, fun _ _ _ _ _ _ _ _ fits => (nothing fits).elim,
        fun _ _ _ _ _ _ _ fits => (nothing fits).elim, fun _ t _ _ _ short => ?_⟩
      exact absurd (List.length_eq_zero_iff.mp (Nat.le_zero.mp short)) t.lexemes_ne_nil
    | succ m =>
      exact ⟨fun _ a => rereads_exprRule a (ih m), fun _ a _ => rereads_binaryRule a (ih m), fun _ a => rereads_unaryRule a (ih m),
        rereads_typeRule (ih m).type⟩

/-! ## The tokens of a file -/

/-- A token that was cut from a text, or the end of a hole. -/
def Token.CutOrEnd (t : Token) : Prop :=
  t.Cut ∨ t.kind = .eof ∧ t.parts = []

theorem cutOrEnd_of_lexHole {start next : Cursor} {depth close : Nat} {before tokens : List Token}
    (inner : ∀ t ∈ before, t.Cut) (lexed : lexHole file fuel start c depth before = .ok (tokens, close, next)) :
    ∀ t ∈ tokens, t.CutOrEnd := by
  induction fuel generalizing c depth before with
  | zero => cases lexed
  | succ fuel ih =>
    rw [lexHole] at lexed
    split at lexed
    · cases lexed
    · next t after one =>
      have more : ∀ u ∈ t :: before, u.Cut := List.forall_mem_cons.mpr ⟨⟨_, _, _, _, one⟩, inner⟩
      split at lexed
      · cases lexed
      · cases lexed
        intro u mem
        rcases List.mem_cons.mp (List.mem_reverse.mp mem) with rfl | mem
        · exact .inr ⟨rfl, rfl⟩
        · exact .inl (inner u mem)
      · exact ih more lexed
      · exact ih more lexed
      · exact ih more lexed

theorem cutOrEnd_of_lexTemplate {start finish : Cursor} {text : Bytes} {before parts : List TemplatePart}
    (holes : ∀ p ∈ before, ∀ h ∈ p.hole, ∀ t ∈ h.tokens, t.CutOrEnd)
    (lexed : lexTemplate file fuel start c text before = .ok (parts, finish)) :
    ∀ p ∈ parts, ∀ h ∈ p.hole, ∀ t ∈ h.tokens, t.CutOrEnd := by
  induction fuel generalizing c text before with
  | zero => cases lexed
  | succ fuel ih =>
    rw [lexTemplate] at lexed
    split at lexed
    · cases lexed
    split at lexed
    · cases lexed
      intro p mem
      rcases List.mem_cons.mp (List.mem_reverse.mp mem) with rfl | mem
      · rintro h ⟨⟩
      · exact holes p mem
    split at lexed
    · split at lexed
      · exact ih holes lexed
      · cases lexed
    split at lexed
    · split at lexed
      · cases lexed
      · next hole =>
        refine ih (List.forall_mem_cons.mpr ⟨?_, holes⟩) lexed
        intro h same
        cases same
        exact cutOrEnd_of_lexHole (List.forall_mem_nil _) hole
    · split at lexed
      · exact ih holes lexed
      · cases lexed

theorem Token.Cut.holes (cut : t.Cut) : ∀ p ∈ t.parts, ∀ h ∈ p.hole, ∀ u ∈ h.tokens, u.CutOrEnd := by
  obtain ⟨file, fuel, c, next, lexed⟩ := cut
  have none (parts : t.parts = []) : ∀ p ∈ t.parts, ∀ h ∈ p.hole, ∀ u ∈ h.tokens, u.CutOrEnd := by
    rw [parts]
    exact fun _ mem => nomatch mem
  cases fuel with
  | zero =>
    cases lexed
    exact none rfl
  | succ fuel =>
    rw [lexToken] at lexed
    split at lexed
    · cases lexed
    split at lexed
    · split at lexed
      · cases lexed
      · next parts =>
        cases lexed
        exact cutOrEnd_of_lexTemplate (List.forall_mem_nil _) parts
    · obtain ⟨kind, n, -, cut⟩ := scanned_of_lexPlain lexed
      cases cut
      exact none rfl

theorem cut_of_lexAll : ∀ t ∈ (lexAll file fuel c).1, t.Cut := by
  induction fuel generalizing c with
  | zero =>
    intro t mem
    cases mem
  | succ fuel ih =>
    rw [lexAll]
    split
    · intro t mem
      cases mem
    · next t next lexed =>
      have first : t.Cut := ⟨_, _, _, _, lexed⟩
      split
      · exact List.forall_mem_singleton.mpr first
      · exact List.forall_mem_cons.mpr ⟨first, ih⟩

/-- All tokens that are left but the end are those of a file, or of the holes of its templates. -/
def ParserState.LexedFrom (f : SourceFile) (s : ParserState) : Prop :=
  ∀ t ∈ s.rest, t.kind ≠ .eof → ∃ us, Nested (tokenize f).1 us ∧ t ∈ us

theorem cutOrEnd_of_nested {f : SourceFile} {us : List Token} (nested : Nested (tokenize f).1 us) : ∀ t ∈ us, t.CutOrEnd := by
  induction nested with
  | self => exact fun t mem => .inl (cut_of_lexAll t mem)
  | @hole us t part hole outer mem part_mem same ih =>
    rcases ih t mem with cut | ⟨-, none⟩
    · exact cut.holes part part_mem hole same
    · rw [none] at part_mem
      cases part_mem

theorem ParserState.LexedFrom.cut {f : SourceFile} (lexed : s.LexedFrom f) : s.Cut := by
  intro t mem other
  obtain ⟨us, nested, mem⟩ := lexed t mem other
  exact (cutOrEnd_of_nested nested t mem).resolve_right fun ended => other ended.1

/-! ## Printing and reading again -/

/-- Operator expressions survive printing.  Whatever is read as an expression made of names, literals, parentheses, operators,
types that are tested for, objects, calls, members, indexes, arrays, tuples and sets: its printed text is cut into tokens without
fault, and from these, to the last before the end, the same expression is read but for its places. -/
theorem operator_expressions_survive_printing (f : SourceFile) (n : Nat) (arrows : Bool) (s s' : ParserState) (x : Expr)
    (lexed : s.LexedFrom f) (run : (exprRule (grammar n) arrows).run s = .ok (x, s')) (operational : x.Operational) (f' : SourceFile) :
    ∃ ts stop, tokenize { f' with content := x.print } = (ts ++ [stop], none) ∧ stop.kind = .eof ∧ ∃ y prev,
      (exprRule (grammar (parseFuel (ts ++ [stop]))) true).run ⟨ts ++ [stop], {}⟩ = .ok (y, ⟨[stop], prev⟩) ∧ y.bare = x.bare := by
  have again (m : Nat) (short : x.lexemes.length ≤ m) : Reread true (exprRule (grammar m) true) s x.lexemes s' (·.bare = x.bare) :=
    rereads_exprRule true (grammar_rereads n m) s x s' run lexed.cut ⟨operational, Nat.le_succ_of_le short⟩
  obtain ⟨ts, stop, tokens, faces, ended⟩ := operational.tokenize_print (again _ (Nat.le_refl _)).passage.sound f'
  have short : x.lexemes.length ≤ parseFuel (ts ++ [stop]) := by
    have count : ts.length = x.lexemes.length := by simpa using congrArg List.length faces
    have weight := length_le_tokensWeight (ts ++ [stop])
    rw [List.length_append] at weight
    unfold parseFuel
    omega
  obtain ⟨y, prev, read, same⟩ := (again _ short).again ts [stop] faces (follows_eof ended) {}
  exact ⟨ts, stop, tokens, ended, y, prev, read, same⟩

def signedDifferenceFile : SourceFile :=
  .ofContent 0 (utf8 "f.ls") (utf8 "a- -1") {}

/-- What is read there: a minus sign before a number is its own. -/
def signedDifference : Expr :=
  .binary ⟨0, 0, 5⟩ .sub (.ident ⟨0, 0, 1⟩ "a") (.literal ⟨0, 3, 5⟩ (utf8 "-1") (.int (-1)))

/-- The printer keeps the sign of the number apart from the sign of the operator. -/
theorem negated_literal_survives_printing :
    (∃ s', (exprRule (grammar 6) true).run ⟨(tokenize signedDifferenceFile).1, {}⟩ = .ok (signedDifference, s')) ∧
      signedDifference.print = utf8 "a - -1" ∧
      ∃ ts stop, tokenize { signedDifferenceFile with content := signedDifference.print } = (ts ++ [stop], none) ∧ stop.kind = .eof ∧ ∃ y prev,
        (exprRule (grammar (parseFuel (ts ++ [stop]))) true).run ⟨ts ++ [stop], {}⟩ = .ok (y, ⟨[stop], prev⟩) ∧
          y.bare = signedDifference.bare := by
  have run : ∃ s', (exprRule (grammar 6) true).run ⟨(tokenize signedDifferenceFile).1, {}⟩ = .ok (signedDifference, s') := ⟨_, rfl⟩
  have operational : signedDifference.Operational := .binary .ident .literal
  obtain ⟨s', run⟩ := run
  exact ⟨⟨s', run⟩, rfl, operator_expressions_survive_printing signedDifferenceFile 6 true _ s' signedDifference
    (fun t mem _ => ⟨_, .self, mem⟩) run operational signedDifferenceFile⟩

end LedgerScript
