import LedgerScript.Proofs.Parser.Statements

/-!
# Flat sequences

An expression without parentheses, whose operands are of one token each, is flat: an operand, and then operators with their
right operands and tests of types.  It is read to its end whatever operators it has, and this is done by climbing.

What is read depends on what has been read only through the tree that it is put into, so a turn of the loop is a step of
`Climbs`, and the right operand of an operator is one loop deeper, with a least rank that has grown.  Since only so many ranks
exist, the loops are never nested deeper than that.
-/

namespace LedgerScript

open Parse

/-! ## What is flat -/

/-- A token that is an operand by itself: a name, a literal, or a word that stands for an object. -/
inductive Token.IsOperand (t : Token) : Expr → Prop where
  | ident (kind : t.kind = .ident) : IsOperand t (.ident t.span t.nameText)
  | number {x : Expr} (kind : t.kind = .literal .int ∨ t.kind = .literal .float)
    (read : ∀ s, numberLiteral t false t.span s = .ok (x, s)) : IsOperand t x
  | string (kind : t.kind = .literal .string) : IsOperand t (.literal t.span t.text (.string (stringText t)))
  | char (kind : t.kind = .literal .char) : IsOperand t (charLiteral t)
  | template (kind : t.kind = .literal .template) (plain : ∀ part ∈ t.parts, part.hole = none) :
    IsOperand t (.template t.span (t.parts.map fun part => Text.compose part.text) [])
  | yes (kind : t.kind = .keyword .true_) : IsOperand t (.literal t.span t.text (.bool true))
  | no (kind : t.kind = .keyword .false_) : IsOperand t (.literal t.span t.text (.bool false))
  | null (kind : t.kind = .keyword .null_) : IsOperand t (.literal t.span t.text .null)
  | this (kind : t.kind = .keyword .this_) : IsOperand t (.this t.span)
  | super (kind : t.kind = .keyword .super_) : IsOperand t (.super t.span)

def Token.typeNamed (t : Token) : TypeRef :=
  .mk (t.span.cover t.span) t.nameText [] 0

/-- What may follow an operand: operators with their right operands, and tests of types.  In front of a less-than sign a type
would go on with its arguments. -/
inductive FlatTail : List Token → List OpItem → Prop where
  | nil : FlatTail [] []
  | binary {op t operand x ts items} (kind : t.kind = .symbol (BinaryOp.symbol op)) (atom : operand.IsOperand x)
    (more : FlatTail ts items) : FlatTail (t :: operand :: ts) (.op op :: .operand x :: items)
  | is {t type ts items} (kind : t.kind = .keyword .is_) (word : type.kind.isWord)
    (plain : ∀ u ∈ ts.head?, u.kind ≠ .symbol .lt) (more : FlatTail ts items) :
    FlatTail (t :: type :: ts) (.is type.typeNamed :: items)

/-- A flat expression, and what it is read as. -/
inductive Flat : List Token → List OpItem → Prop where
  | mk {t x ts items} (atom : t.IsOperand x) (tail : FlatTail ts items) : Flat (t :: ts) (.operand x :: items)

/-- An operand of one token does not go on with a token of this kind. -/
structure TokenKind.Follows (k : TokenKind) : Prop where
  lparen : k ≠ .symbol .lparen
  lbracket : k ≠ .symbol .lbracket
  dot : k ≠ .symbol .dot
  questionDot : k ≠ .symbol .questionDot
  plusPlus : k ≠ .symbol .plusPlus
  minusMinus : k ≠ .symbol .minusMinus
  fatArrow : k ≠ .symbol .fatArrow

/-- An expression whose last operand is of one token does not go on with a token of this kind. -/
structure TokenKind.Closes (k : TokenKind) : Prop where
  follows : k.Follows
  weak : precedence? k = none
  questionQuestion : k ≠ .symbol .questionQuestion
  question : k ≠ .symbol .question
  assign : assignOp? k = none

theorem TokenKind.Closes.eof : TokenKind.Closes .eof :=
  ⟨⟨nofun, nofun, nofun, nofun, nofun, nofun, nofun⟩, rfl, nofun, nofun, rfl⟩

theorem Token.IsOperand.opTree {t : Token} {x : Expr} (atom : t.IsOperand x) : x.opTree = .operand x := by
  cases atom with
  | number _ read =>
    exact Expr.opTree_of_isTight (gives_numberLiteral _ _ _ (read ⟨[], {}⟩)).2
  | _ => rfl

theorem TokenKind.follows_binary (op : BinaryOp) : TokenKind.Follows (.symbol op.symbol) := by
  cases op <;> exact ⟨nofun, nofun, nofun, nofun, nofun, nofun, nofun⟩

theorem TokenKind.follows_is : TokenKind.Follows (.keyword .is_) :=
  ⟨nofun, nofun, nofun, nofun, nofun, nofun, nofun⟩

/-- After an operand of a flat expression, or at its end, stands a token that the operand does not go on with. -/
theorem FlatTail.follows {ts : List Token} {items : List OpItem} (tail : FlatTail ts items) {stop : Token}
    (closes : stop.kind.Closes) (after : List Token) : ∃ u us, ts ++ stop :: after = u :: us ∧ u.kind.Follows := by
  cases tail with
  | nil => exact ⟨stop, after, rfl, closes.follows⟩
  | binary kind => exact ⟨_, _, rfl, kind ▸ TokenKind.follows_binary _⟩
  | is kind => exact ⟨_, _, rfl, kind ▸ TokenKind.follows_is⟩

/-! ## What is consumed -/

/-- The parser consumes what is between the two states, and this is what it makes of it. -/
def Parse.Consumes {α : Type} (p : Parse α) (s : ParserState) (a : α) (s' : ParserState) : Prop :=
  p s = .ok (a, s')

section

variable {α β σ : Type} {p : Parse α} {f : α → Parse β} {a : α} {b : β} {s s' s'' : ParserState}
variable {t : Token} {ts : List Token} {prev : Span} {step : σ → Parse (σ ⊕ α)} {c : σ}

theorem Parse.Consumes.and (first : Consumes p s a s') (rest : Consumes (f a) s' b s'') : Consumes (p >>= f) s b s'' :=
  (bind_of_ok first).trans rest

theorem consumes_pure : Consumes (pure a : Parse α) s a s :=
  rfl

theorem consumes_nextKind (more : s.rest ≠ []) : Consumes nextKind s s.next s := by
  obtain ⟨rest, prev⟩ := s
  cases rest with
  | nil => exact absurd rfl more
  | cons t ts => rfl

theorem consumes_peek : Consumes peek ⟨t :: ts, prev⟩ t ⟨t :: ts, prev⟩ :=
  rfl

theorem consumes_here : Consumes here ⟨t :: ts, prev⟩ t.span ⟨t :: ts, prev⟩ :=
  rfl

theorem consumes_spanFrom {start : Span} : Consumes (spanFrom start) s (start.cover s.prev) s :=
  rfl

theorem consumes_advance (more : t.kind ≠ .eof) : Consumes advance ⟨t :: ts, prev⟩ t ⟨ts, t.span⟩ :=
  advance_cons more

theorem consumes_at {k : TokenKind} (more : s.rest ≠ []) : Consumes (at? k) s (decide (s.next = k)) s :=
  (consumes_nextKind more).and consumes_pure

theorem consumes_acceptSymbol_no {sym : Symbol} (more : s.rest ≠ []) (other : s.next ≠ .symbol sym) :
    Consumes (acceptSymbol sym) s false s := by
  refine (consumes_at more).and ?_
  rw [decide_eq_false other]
  exact consumes_pure

theorem consumes_acceptSymbol_yes {sym : Symbol} (kind : t.kind = .symbol sym) :
    Consumes (acceptSymbol sym) ⟨t :: ts, prev⟩ true ⟨ts, t.span⟩ := by
  refine (consumes_at (List.cons_ne_nil t ts)).and ?_
  rw [show (ParserState.mk (t :: ts) prev).next = .symbol sym from kind, decide_eq_true rfl]
  exact (consumes_advance (by rw [kind]; nofun)).and consumes_pure

theorem consumes_get : Consumes get s s s :=
  rfl

/-- The last round of a repetition. -/
theorem consumes_iterate_end {n : Nat} (ends : Consumes (step c) s (.inr a) s') :
    Consumes (iterate step (n + 1) c) s a s' :=
  consumes_get.and (ends.and consumes_pure)

/-- A round of a repetition that takes a token, and the others. -/
theorem consumes_iterate_more {n : Nat} {c' : σ} (turn : Consumes (step c) s (.inl c') s')
    (takes : s'.rest.length < s.rest.length) (more : Consumes (iterate step n c') s' a s'') :
    Consumes (iterate step (n + 1) c) s a s'' := by
  refine consumes_get.and (turn.and (consumes_get.and ?_))
  rw [if_pos takes]
  exact more

theorem consumes_repeatStep_end (ends : Consumes (step c) s (.inr a) s) : Consumes (repeatStep step c) s a s :=
  consumes_get.and (consumes_iterate_end ends)

end

/-! ## Operands -/

section

variable {g : Grammar} {arrows : Bool} {x : Expr} {t u : Token} {us : List Token} {prev : Span}

theorem consumes_suffixes {start : Span} (follows : u.kind.Follows) :
    Consumes (suffixes g x start) ⟨u :: us, prev⟩ x ⟨u :: us, prev⟩ := by
  refine consumes_repeatStep_end (consumes_peek.and ?_)
  split
  · next kind => exact absurd kind follows.lparen
  · next kind => exact absurd kind follows.lbracket
  · next kind => exact absurd kind follows.dot
  · next kind => exact absurd kind follows.questionDot
  · next kind => exact absurd kind follows.plusPlus
  · next kind => exact absurd kind follows.minusMinus
  · exact consumes_pure

theorem consumes_templateLiteral {s : ParserState} (plain : ∀ part ∈ t.parts, part.hole = none) :
    Consumes (templateLiteral g t) s (.template t.span (t.parts.map fun part => Text.compose part.text) []) s := by
  have holes : ∀ (parts : List TemplatePart) (item : TemplatePart → Parse (Option Expr)),
      (∀ part ∈ parts, item part = pure none) → Consumes (parts.filterMapM item) s [] s := by
    intro parts item none
    unfold List.filterMapM
    induction parts with
    | nil => exact consumes_pure
    | cons part rest ih =>
      rw [List.filterMapM.loop, none part List.mem_cons_self]
      exact consumes_pure.and (ih fun p mem => none p (List.mem_cons_of_mem _ mem))
  refine (holes t.parts _ fun part mem => ?_).and consumes_pure
  rw [plain part mem]

theorem consumes_primary (atom : t.IsOperand x) (follows : u.kind.Follows) :
    Consumes (primary g arrows) ⟨t :: u :: us, prev⟩ x ⟨u :: us, t.span⟩ := by
  refine consumes_peek.and ?_
  cases atom with
  | ident kind =>
    rw [kind]
    have next : Consumes (kindAt 1) ⟨t :: u :: us, prev⟩ u.kind ⟨t :: u :: us, prev⟩ := rfl
    refine next.and ?_
    rw [decide_eq_false follows.fatArrow, Bool.and_false, if_neg Bool.false_ne_true]
    exact (consumes_advance (by rw [kind]; nofun)).and consumes_pure
  | number kind read =>
    obtain kind | kind := kind
    · rw [kind]
      exact (consumes_advance (by rw [kind]; nofun)).and (read _)
    · rw [kind]
      exact (consumes_advance (by rw [kind]; nofun)).and (read _)
  | template kind plain =>
    rw [kind]
    exact (consumes_advance (by rw [kind]; nofun)).and (consumes_templateLiteral plain)
  | _ kind =>
    rw [kind]
    exact (consumes_advance (by rw [kind]; nofun)).and consumes_pure

theorem consumes_unaryRule (atom : t.IsOperand x) (follows : u.kind.Follows) :
    Consumes (unaryRule g arrows) ⟨t :: u :: us, prev⟩ x ⟨u :: us, t.span⟩ := by
  have first : Consumes (primary g arrows >>= fun x => suffixes g x t.span) ⟨t :: u :: us, prev⟩ x ⟨u :: us, t.span⟩ :=
    (consumes_primary atom follows).and (consumes_suffixes follows)
  refine consumes_peek.and ?_
  dsimp only
  cases atom with
  | number kind =>
    obtain kind | kind := kind
    · rw [kind]
      exact first
    · rw [kind]
      exact first
  | _ kind =>
    rw [kind]
    exact first

end

/-! ## Types -/

/-- A type without arguments and without brackets. -/
theorem consumes_typeRule {g : Grammar} {t u : Token} {us : List Token} {prev : Span} (word : t.kind.isWord)
    (plain : u.kind ≠ .symbol .lt) (follows : u.kind.Follows) :
    Consumes (typeRule g) ⟨t :: u :: us, prev⟩ t.typeNamed ⟨u :: us, t.span⟩ := by
  have name : Consumes (expectWord "type") ⟨t :: u :: us, prev⟩ t ⟨u :: us, t.span⟩ := by
    refine (consumes_nextKind (List.cons_ne_nil _ _)).and ?_
    rw [show (ParserState.mk (t :: u :: us) prev).next = t.kind from rfl, if_pos word]
    refine consumes_advance fun kind => ?_
    rw [kind] at word
    cases word
  have none : Consumes (acceptSymbol .lt) ⟨u :: us, t.span⟩ false ⟨u :: us, t.span⟩ :=
    consumes_acceptSymbol_no (List.cons_ne_nil _ _) plain
  have next : Consumes (kindAt 1) ⟨u :: us, t.span⟩ _ ⟨u :: us, t.span⟩ := rfl
  have bracket : (ParserState.mk (u :: us) t.span).next ≠ .symbol .lbracket := follows.lbracket
  refine name.and (none.and (consumes_pure.and ?_))
  refine Consumes.and (a := (0 : Nat)) (consumes_repeatStep_end ((consumes_at (List.cons_ne_nil _ _)).and (next.and ?_))) ?_
  · rw [decide_eq_false bracket, Bool.false_and, if_neg Bool.false_ne_true]
    exact consumes_pure
  · exact consumes_spanFrom.and consumes_pure

/-! ## Operators -/

theorem precedence?_symbol {op : BinaryOp} (other : op ≠ .coalesce) : precedence? (.symbol op.symbol) = some op.rank := by
  cases op with
  | coalesce => exact absurd rfl other
  | _ => rfl

/-- A turn of the loop that reads operators. -/
def binaryStep (g : Grammar) (arrows : Bool) (least : Nat) (start : Span) (x : Expr) : Parse (Expr ⊕ Expr) := do
  let kind ← nextKind
  match precedence? kind with
  | none => return .inr x
  | some p =>
    if p < least then return .inr x
    let _ ← advance
    match kind with
    | .symbol s =>
      match BinaryOp.ofSymbol? s with
      | some op =>
        let y ← g.binary arrows (p + 1)
        return .inl (.binary (← spanFrom start) op x y)
      | none => return .inr x
    | _ =>
      let t ← typeRule g
      return .inl (.is (← spanFrom start) x t)

theorem binaryRule_eq (g : Grammar) (arrows : Bool) (least : Nat) : binaryRule g arrows least = (do
    let start ← here
    let x ← unaryRule g arrows
    repeatStep (binaryStep g arrows least start) x) :=
  rfl

section

variable {g : Grammar} {arrows : Bool} {least : Nat} {start : Span} {x : Expr}
variable {s : ParserState}

theorem consumes_binaryStep_end (more : s.rest ≠ []) (weak : ∀ r ∈ precedence? s.next, r < least) :
    Consumes (binaryStep g arrows least start x) s (.inr x) s := by
  refine (consumes_nextKind more).and ?_
  split
  · exact consumes_pure
  · next r rank =>
    rw [if_pos (weak r rank)]
    exact consumes_pure

theorem consumes_binaryStep_operator {op : BinaryOp} {t : Token} {ts : List Token} {prev : Span} {y : Expr}
    (kind : t.kind = .symbol op.symbol) (other : op ≠ .coalesce) (strong : least ≤ op.rank)
    (right : Consumes (g.binary arrows (op.rank + 1)) ⟨ts, t.span⟩ y s) :
    Consumes (binaryStep g arrows least start x) ⟨t :: ts, prev⟩ (.inl (.binary (start.cover s.prev) op x y)) s := by
  refine (consumes_nextKind (List.cons_ne_nil t ts)).and ?_
  rw [show (ParserState.mk (t :: ts) prev).next = .symbol op.symbol from kind, precedence?_symbol other]
  dsimp only
  rw [if_neg (Nat.not_lt.mpr strong)]
  refine (consumes_advance (by rw [kind]; nofun)).and ?_
  rw [BinaryOp.ofSymbol?_symbol]
  exact right.and (consumes_spanFrom.and consumes_pure)

theorem consumes_binaryStep_is {t : Token} {ts : List Token} {prev : Span} {type : TypeRef}
    (kind : t.kind = .keyword .is_) (strong : least ≤ isRank) (right : Consumes (typeRule g) ⟨ts, t.span⟩ type s) :
    Consumes (binaryStep g arrows least start x) ⟨t :: ts, prev⟩ (.inl (.is (start.cover s.prev) x type)) s := by
  refine (consumes_nextKind (List.cons_ne_nil t ts)).and ?_
  rw [show (ParserState.mk (t :: ts) prev).next = .keyword .is_ from kind, show precedence? (.keyword .is_) = some isRank from rfl]
  dsimp only
  rw [if_neg (Nat.not_lt.mpr strong)]
  exact (consumes_advance (by rw [kind]; nofun)).and (right.and (consumes_spanFrom.and consumes_pure))

end

/-! ## Loops -/

theorem BinaryOp.rank_le (op : BinaryOp) : op.rank ≤ 6 := by
  cases op <;> decide

/-- Where the next item does not bind strongly enough, neither does the next token. -/
theorem FlatTail.weak {ts : List Token} {items : List OpItem} {least : Nat} (tail : FlatTail ts items) {stop : Token}
    (closes : stop.kind.Closes) {after : List Token} {prev : Span} (weak : WeakerThan least items) :
    ∀ r ∈ precedence? (ParserState.mk (ts ++ stop :: after) prev).next, r < least := by
  intro r binds
  cases tail with
  | nil =>
    change r ∈ precedence? stop.kind at binds
    rw [closes.weak] at binds
    cases binds
  | @binary op t _ _ _ _ kind =>
    change r ∈ precedence? t.kind at binds
    rw [kind] at binds
    by_cases weakest : op = .coalesce
    · subst weakest
      cases binds
    · rw [precedence?_symbol weakest] at binds
      cases binds
      exact weakerThan_op.mp weak
  | @is t _ _ _ kind =>
    change r ∈ precedence? t.kind at binds
    rw [kind] at binds
    cases binds
    exact weakerThan_is.mp weak

section

variable {arrows : Bool} {stop : Token} {after : List Token}
variable {g : Grammar} {t : Token} {a : Expr} {ts : List Token} {items : List OpItem}

/-- The parser climbs from a tree: it makes a tree of some of the tokens of a flat expression, and leaves the others. -/
def ClimbsOver (p : Parse Expr) (s : ParserState) (stop : Token) (after : List Token) (least : Nat) (x : OpTree)
    (ts : List Token) (items : List OpItem) : Prop :=
  ∃ y ts' items' prev', FlatTail ts' items' ∧ ts'.length ≤ ts.length ∧ Climbs least x items y.opTree items' ∧
    Consumes p s y ⟨ts' ++ stop :: after, prev'⟩

/-- If the loop climbs, then so does the rule: the operand in front takes one token. -/
theorem climbsOver_binaryRule {least : Nat}
    {prev : Span} (closes : stop.kind.Closes) (atom : t.IsOperand a) (tail : FlatTail ts items)
    (loop : ∀ count, ts.length < count → ClimbsOver (iterate (binaryStep g arrows least t.span) count a)
      ⟨ts ++ stop :: after, t.span⟩ stop after least a.opTree ts items) :
    ClimbsOver (binaryRule g arrows least) ⟨t :: ts ++ stop :: after, prev⟩ stop after least (.operand a) ts items := by
  have operand : Consumes (unaryRule g arrows) ⟨t :: ts ++ stop :: after, prev⟩ a ⟨ts ++ stop :: after, t.span⟩ := by
    obtain ⟨u, us, rest, follows⟩ := tail.follows closes after
    rw [List.cons_append, rest]
    exact consumes_unaryRule atom follows
  have enough : ts.length < (ts ++ stop :: after).length + 1 := by
    rw [List.length_append]
    omega
  obtain ⟨y, ts', items', prev', tail', shorter, climbs, run⟩ := loop _ enough
  rw [atom.opTree] at climbs
  rw [binaryRule_eq]
  exact ⟨y, ts', items', prev', tail', shorter, climbs, consumes_here.and (operand.and run)⟩

/-- The loop takes all operators that bind strongly enough.  The induction is on the number of tokens: the right operand of an
operator is made of fewer of them, and then the loop goes on with fewer still. -/
theorem climbsOver_loop (closes : stop.kind.Closes) (size : Nat) : ∀ {ts : List Token} {items : List OpItem},
    FlatTail ts items → ts.length < size → ∀ {m least : Nat}, 0 < least → 7 ≤ m + least →
    ∀ (start prev : Span) (x : Expr) (count : Nat), ts.length < count →
    ClimbsOver (iterate (binaryStep (grammar m) arrows least start) count x) ⟨ts ++ stop :: after, prev⟩ stop after least
      x.opTree ts items := by
  induction size with
  | zero => exact fun _ short => absurd short (Nat.not_lt_zero _)
  | succ size ih =>
    intro ts items tail short m least pos deep start prev x count enough
    obtain ⟨count, rfl⟩ : ∃ n, count = n + 1 := ⟨count - 1, by omega⟩
    by_cases weak : WeakerThan least items
    · have ended : Consumes (binaryStep (grammar m) arrows least start x) ⟨ts ++ stop :: after, prev⟩ (.inr x) _ :=
        consumes_binaryStep_end (by simp) (tail.weak closes weak)
      exact ⟨x, ts, items, prev, tail, Nat.le_refl _, .stop weak, consumes_iterate_end ended⟩
    cases tail with
    | nil => exact absurd nofun weak
    | @binary op t operand a ts items kind atom more =>
      rw [List.length_cons, List.length_cons] at short enough
      have strong : least ≤ op.rank := Nat.le_of_not_lt fun lt => weak (weakerThan_op.mpr lt)
      have other : op ≠ .coalesce := by
        rintro rfl
        exact absurd pos (Nat.not_lt.mpr strong)
      obtain ⟨m, rfl⟩ : ∃ n, m = n + 1 := ⟨m - 1, by have := op.rank_le; omega⟩
      have right : ClimbsOver ((grammar (m + 1)).binary arrows (op.rank + 1)) ⟨operand :: ts ++ stop :: after, t.span⟩ stop
          after (op.rank + 1) (.operand a) ts items :=
        climbsOver_binaryRule closes atom more fun n enough' =>
          ih more (by omega) (Nat.succ_pos _) (by omega) operand.span operand.span a n enough'
      obtain ⟨y, ts', items', prev', tail', shorter, climbs, run⟩ := right
      obtain ⟨z, ts'', items'', prev'', tail'', shorter', climbs', run'⟩ :=
        ih tail' (by omega) pos deep start prev' (.binary (start.cover prev') op x y) count (by omega)
      refine ⟨z, ts'', items'', prev'', tail'', by simp only [List.length_cons]; omega, .binary strong climbs climbs', ?_⟩
      exact consumes_iterate_more (consumes_binaryStep_operator kind other strong run) (by simp; omega) run'
    | @is t type ts items kind word plain more =>
      rw [List.length_cons, List.length_cons] at short enough
      have strong : least ≤ isRank := Nat.le_of_not_lt fun lt => weak (weakerThan_is.mpr lt)
      have right : Consumes (typeRule (grammar m)) ⟨type :: ts ++ stop :: after, t.span⟩ type.typeNamed
          ⟨ts ++ stop :: after, type.span⟩ := by
        obtain ⟨u, us, rest, follows⟩ := more.follows closes after
        rw [List.cons_append, rest]
        refine consumes_typeRule word (fun kind => ?_) follows
        cases ts with
        | nil =>
          cases rest
          have weak := closes.weak
          rw [kind] at weak
          cases weak
        | cons v ts =>
          cases rest
          exact plain _ rfl kind
      obtain ⟨z, ts', items', prev', tail', shorter, climbs, run⟩ :=
        ih more (by omega) pos deep start type.span (.is (start.cover type.span) x type.typeNamed) count (by omega)
      refine ⟨z, ts', items', prev', tail', by simp only [List.length_cons]; omega, .is strong climbs, ?_⟩
      exact consumes_iterate_more (consumes_binaryStep_is kind strong right) (by simp only [List.cons_append, List.length_cons]; omega) run

/-- A turn of the loop that reads `??`. -/
def coalesceStep (g : Grammar) (arrows : Bool) (start : Span) (x : Expr) : Parse (Expr ⊕ Expr) := do
  if ← acceptSymbol .questionQuestion then
    let y ← binaryRule g arrows weakest
    return .inl (.binary (← spanFrom start) .coalesce x y)
  else return .inr x

theorem coalesceRule_eq (g : Grammar) (arrows : Bool) : coalesceRule g arrows = (do
    let start ← here
    let x ← binaryRule g arrows weakest
    repeatStep (coalesceStep g arrows start) x) :=
  rfl

theorem consumes_coalesceStep_end {start : Span} {x : Expr} {s : ParserState} (more : s.rest ≠ [])
    (other : s.next ≠ .symbol .questionQuestion) : Consumes (coalesceStep g arrows start x) s (.inr x) s :=
  (consumes_acceptSymbol_no more other).and consumes_pure

theorem consumes_coalesceStep_operator {start : Span} {x y : Expr} {prev : Span}
    {s : ParserState} (kind : t.kind = .symbol .questionQuestion)
    (right : Consumes (binaryRule g arrows weakest) ⟨ts, t.span⟩ y s) :
    Consumes (coalesceStep g arrows start x) ⟨t :: ts, prev⟩ (.inl (.binary (start.cover s.prev) .coalesce x y)) s :=
  (consumes_acceptSymbol_yes kind).and (right.and (consumes_spanFrom.and consumes_pure))

variable (arrows after)
variable {n : Nat}

/-- The operators that bind more strongly than `??`. -/
theorem climbsOver_weakest (deep : 6 ≤ n)
    (closes : stop.kind.Closes) (atom : t.IsOperand a) (tail : FlatTail ts items) (prev : Span) :
    ClimbsOver (binaryRule (grammar n) arrows weakest) ⟨t :: ts ++ stop :: after, prev⟩ stop after weakest (.operand a) ts
      items :=
  climbsOver_binaryRule closes atom tail fun count enough =>
    climbsOver_loop closes _ tail (Nat.lt_succ_self _) Nat.one_pos (Nat.succ_le_succ deep) t.span t.span a count enough

/-- The outer loop takes what the inner ones have left. -/
theorem coalesce_loop (deep : 6 ≤ n) (closes : stop.kind.Closes) (count : Nat) : ∀ {ts : List Token}
    {items : List OpItem}, FlatTail ts items → WeakerThan weakest items → ts.length < count → ∀ (start prev : Span) (x : Expr),
    ∃ y prev', Climbs 0 x.opTree items y.opTree [] ∧
      Consumes (iterate (coalesceStep (grammar n) arrows start) count x) ⟨ts ++ stop :: after, prev⟩ y ⟨stop :: after, prev'⟩ := by
  induction count with
  | zero => exact fun _ _ short => absurd short (Nat.not_lt_zero _)
  | succ count ih =>
    intro ts items tail weak short start prev x
    cases tail with
    | nil =>
      have other : (ParserState.mk ([] ++ stop :: after) prev).next ≠ .symbol .questionQuestion := closes.questionQuestion
      exact ⟨x, prev, .stop nofun, consumes_iterate_end (consumes_coalesceStep_end (List.cons_ne_nil _ _) other)⟩
    | @binary op t operand a ts items kind atom more =>
      rw [List.length_cons, List.length_cons] at short
      have same : op = .coalesce := by
        cases op with
        | coalesce => rfl
        | _ => exact absurd (weakerThan_op.mp weak) (by decide)
      subst same
      obtain ⟨y, ts', items', prev', tail', shorter, climbs, run⟩ := climbsOver_weakest arrows after deep closes atom more t.span
      obtain ⟨z, prev'', climbs', run'⟩ :=
        ih tail' climbs.weak (by omega) start prev' (.binary (start.cover prev') .coalesce x y)
      refine ⟨z, prev'', .binary (Nat.zero_le _) climbs climbs', ?_⟩
      have takes : (ts' ++ stop :: after).length < (t :: operand :: ts ++ stop :: after).length := by simp; omega
      exact consumes_iterate_more (consumes_coalesceStep_operator kind run) takes run'
    | is => exact absurd (weakerThan_is.mp weak) (by decide)

theorem coalesceRule_climbs (deep : 6 ≤ n) (closes : stop.kind.Closes) (atom : t.IsOperand a) (tail : FlatTail ts items) (prev : Span) :
    ∃ x prev', Climbs 0 (.operand a) items x.opTree [] ∧
      Consumes (coalesceRule (grammar n) arrows) ⟨t :: ts ++ stop :: after, prev⟩ x ⟨stop :: after, prev'⟩ := by
  obtain ⟨x, ts', items', prev', tail', -, climbs, run⟩ :=
    climbsOver_weakest arrows after deep closes atom tail prev
  have enough : ts'.length < (ts' ++ stop :: after).length + 1 := by
    rw [List.length_append]
    omega
  obtain ⟨y, prev'', climbs', run'⟩ := coalesce_loop arrows after deep closes _ tail' climbs.weak enough t.span prev' x
  rw [coalesceRule_eq]
  exact ⟨y, prev'', climbs.trans (Nat.zero_le _) climbs', consumes_here.and (run.and run')⟩

/-- A flat expression is read to its end, by climbing. -/
theorem exprRule_climbs (deep : 6 ≤ n) (closes : stop.kind.Closes) (atom : t.IsOperand a) (tail : FlatTail ts items) (prev : Span) :
    ∃ x prev', Climbs 0 (.operand a) items x.opTree [] ∧
      Consumes (exprRule (grammar n) arrows) ⟨t :: ts ++ stop :: after, prev⟩ x ⟨stop :: after, prev'⟩ := by
  obtain ⟨x, prev', climbs, run⟩ := coalesceRule_climbs arrows after deep closes atom tail prev
  have other : (ParserState.mk (stop :: after) prev').next ≠ .symbol .question := closes.question
  have whole : Consumes (ternaryRule (grammar n) arrows) ⟨t :: ts ++ stop :: after, prev⟩ x ⟨stop :: after, prev'⟩ :=
    consumes_here.and (run.and ((consumes_acceptSymbol_no (List.cons_ne_nil _ _) other).and consumes_pure))
  refine ⟨x, prev', climbs, consumes_here.and (whole.and (consumes_peek.and ?_))⟩
  rw [closes.assign]
  exact consumes_pure

end

end LedgerScript

/-!
## Precedence

Whatever is read as an expression, all operators in it are in order.  And of a flat expression there is only one tree in which
they are: the one that is read.
-/

namespace LedgerScript

open Parse

/-- Operators are read in layers.  In every expression that is read they are in order; and every flat expression is read, to its
end, as the only tree in order that is read from left to right like its tokens. -/
theorem operators_are_in_order :
    (∀ n arrows s x s', (exprRule (grammar n) arrows).run s = .ok (x, s') → x.Layered) ∧
      ∀ n arrows tokens items stop after prev, 6 ≤ n → Flat tokens items → stop.kind.Closes →
        ∃ x prev', (exprRule (grammar n) arrows).run ⟨tokens ++ stop :: after, prev⟩ = .ok (x, ⟨stop :: after, prev'⟩) ∧
          x.opTree.items = items ∧ x.opTree.Ordered ∧ ∀ t : OpTree, t.Ordered → t.items = items → t = x.opTree := by
  have layered (n : Nat) (arrows : Bool) : Gives (exprRule (grammar n) arrows) Expr.Layered := gives_exprRule (grammar_layered n)
  refine ⟨fun n arrows s x s' run => layered n arrows s x s' run, ?_⟩
  rintro n arrows tokens items stop after prev deep ⟨atom, tail⟩ closes
  obtain ⟨x, prev', climbs, run⟩ := exprRule_climbs arrows after deep closes atom tail prev
  refine ⟨x, prev', run, ?_, (layered n arrows _ _ _ run).ordered, fun t ordered reads => ordered.eq_of_climbs reads climbs⟩
  have reads := climbs.items_eq
  rwa [List.append_nil] at reads

def nameAt (start : Nat) (name : String) : Token :=
  ⟨.ident, ⟨0, start, start + 1⟩, utf8 name, [], []⟩

def testedSum : List Token :=
  [nameAt 0 "a", ⟨.keyword .is_, ⟨0, 2, 4⟩, utf8 "is", [], []⟩, nameAt 5 "T", ⟨.symbol .plus, ⟨0, 7, 8⟩, utf8 "+", [], []⟩,
    nameAt 9 "b"]

def testedSumEnd : Token :=
  ⟨.eof, ⟨0, 10, 10⟩, [], [], []⟩

theorem tested_sum_is_read :
    ∃ x prev', (exprRule (grammar 6) true).run ⟨testedSum ++ [testedSumEnd], {}⟩ = .ok (x, ⟨[testedSumEnd], prev'⟩) ∧
      x.Layered ∧ x.opTree.items = [.operand (.ident ⟨0, 0, 1⟩ (nameAt 0 "a").nameText), .is (nameAt 5 "T").typeNamed, .op .add,
        .operand (.ident ⟨0, 9, 10⟩ (nameAt 9 "b").nameText)] := by
  have tail : FlatTail testedSum.tail
      [.is (nameAt 5 "T").typeNamed, .op .add, .operand (.ident ⟨0, 9, 10⟩ (nameAt 9 "b").nameText)] :=
    .is rfl rfl nofun (.binary rfl (.ident rfl) .nil)
  obtain ⟨x, prev', run, reads, -, -⟩ :=
    operators_are_in_order.2 6 true testedSum _ testedSumEnd [] {} (Nat.le_refl 6) (.mk (.ident rfl) tail) .eof
  exact ⟨x, prev', run, operators_are_in_order.1 6 true _ x _ run, reads⟩

/-- A test of a type is read on the left of an operator that binds more strongly than the test. -/
theorem sum_of_a_test :
    ∃ x s', (exprRule (grammar 6) true).run ⟨testedSum ++ [testedSumEnd], {}⟩ = .ok (x, s') ∧
      ∃ a type b, x.opTree = .binary .add (.is a type) b ∧ isRank < BinaryOp.add.rank :=
  ⟨_, _, rfl, _, _, _, rfl, by decide⟩

end LedgerScript
