import LedgerScript.Proofs.Parser.Places

/-!
# Where the rules of expressions go

Every rule is judged as it is written, by what the parsers of nested things do where less is left: `Grammar.Fits` says that
they go through a list wherever at most `n` tokens are left, and then the rules do so where one more is left.  So no rule calls
itself again, or is called by what it calls, before a token was taken.
-/

namespace LedgerScript

open Parse

/-! ## What is found has its places -/

/-- The keys of a map literal are written within a list. -/
def Expr.KeysWithin (ts : List Token) (x : Expr) : Prop :=
  ∀ span entries, x = .map span entries → ∀ e ∈ entries, SpanWithin ts e.key.span

/-- The keys of the map literals that a call is given are written within a list. -/
def Found.Placed (ts : List Token) : Found → Prop
  | .declared _ => True
  | .call _ args => ∀ arg ∈ args, arg.KeysWithin ts

def FoundPlaced (ts : List Token) (fs : List Found) : Prop :=
  ∀ f ∈ fs, f.Placed ts

/-- An expression is written from one token of a list to another, and what is found in it has its places there. -/
structure Expr.Placed (ts : List Token) (x : Expr) : Prop where
  span : SpanOf ts x.span
  keys : x.KeysWithin ts
  found : FoundPlaced ts x.found

section

variable {ts us : List Token} {fs gs : List Found}

@[simp]
theorem foundPlaced_nil : FoundPlaced ts [] :=
  nofun

@[simp]
theorem foundPlaced_append : FoundPlaced ts (fs ++ gs) ↔ FoundPlaced ts fs ∧ FoundPlaced ts gs :=
  List.forall_mem_append

@[simp]
theorem foundPlaced_cons {f : Found} : FoundPlaced ts (f :: fs) ↔ f.Placed ts ∧ FoundPlaced ts fs :=
  List.forall_mem_cons

theorem FoundPlaced.outer (outer : Nested ts us) (placed : FoundPlaced us fs) : FoundPlaced ts fs := by
  intro f mem
  have here := placed f mem
  cases f with
  | declared => trivial
  | call fn args => exact fun arg arg_mem span entries same e e_mem => (here arg arg_mem span entries same e e_mem).outer outer

@[simp]
theorem foundPlaced_foundInAll {xs : List Expr} : FoundPlaced ts (foundInAll xs) ↔ ∀ x ∈ xs, FoundPlaced ts x.found := by
  induction xs with
  | nil => simp [foundInAll]
  | cons x xs ih => simp [foundInAll, ih]

@[simp]
theorem foundPlaced_foundInOption {o : Option Expr} : FoundPlaced ts (foundInOption o) ↔ ∀ x ∈ o, FoundPlaced ts x.found := by
  cases o <;> simp [foundInOption]

@[simp]
theorem foundPlaced_foundInEntries {entries : List MapEntry} :
    FoundPlaced ts (foundInEntries entries) ↔ ∀ e ∈ entries, FoundPlaced ts e.key.found ∧ FoundPlaced ts e.value.found := by
  induction entries with
  | nil => simp [foundInEntries]
  | cons e rest ih =>
    obtain ⟨key, value⟩ := e
    simp [foundInEntries, ih, and_assoc]

def MatchArm.Placed (ts : List Token) (a : MatchArm) : Prop :=
  (∀ x ∈ a.pattern, FoundPlaced ts x.found) ∧ FoundPlaced ts a.body.found

@[simp]
theorem foundPlaced_foundInArms {arms : List MatchArm} : FoundPlaced ts (foundInArms arms) ↔ ∀ a ∈ arms, a.Placed ts := by
  induction arms with
  | nil => simp [foundInArms]
  | cons a rest ih =>
    obtain ⟨span, pattern, arrow, body⟩ := a
    simp [foundInArms, ih, MatchArm.Placed, and_assoc]

/-- A parameter is written from one token of a list to another, and what is found in it has its places there. -/
structure Param.Placed (ts : List Token) (p : Param) : Prop where
  span : SpanOf ts p.span
  default : ∀ x ∈ p.default, FoundPlaced ts x.found
  fields : FoundPlaced ts (foundInParams p.fields)

theorem foundPlaced_foundInParams {ps : List Param} (each : ∀ p ∈ ps, p.Placed ts) : FoundPlaced ts (foundInParams ps) := by
  induction ps with
  | nil => simp [foundInParams]
  | cons p rest ih =>
    rw [List.forall_mem_cons] at each
    obtain ⟨span, name, type, default, isRest, takesApart, fields⟩ := p
    obtain ⟨⟨_, placed, inner⟩, others⟩ := each
    simp only [foundInParams, foundPlaced_append, foundPlaced_foundInOption]
    exact ⟨⟨placed, inner⟩, ih others⟩

end

/-! ## What the rules may rely on -/

/-- The parsers of nested things go through a list from wherever at most `n` tokens are left, and through the holes that have no
more in them. -/
structure Grammar.Fits (g : Grammar) (ts : List Token) (n : Nat) : Prop where
  lexed : ∀ us, Nested ts us → WellLexed us
  inside : n < tokensWeight ts
  expr : ∀ arrows, Goes ts n anyKind (g.expr arrows) (fun _ => 1) (Expr.Placed ts)
  ternary : ∀ arrows, Goes ts n anyKind (g.ternary arrows) (fun _ => 1) (Expr.Placed ts)
  binary : ∀ arrows least, Goes ts n anyKind (g.binary arrows least) (fun _ => 1) (Expr.Placed ts)
  unary : ∀ arrows, Goes ts n anyKind (g.unary arrows) (fun _ => 1) (Expr.Placed ts)
  type : Goes ts n anyKind g.type (fun _ => 1) fun _ => True
  stmt : ∀ arrows, Goes ts n anyKind (g.stmt arrows) (fun _ => 1) fun s => FoundPlaced ts s.found
  block : ∀ arrows, Goes ts n anyKind (g.block arrows) (fun _ => 1) fun b => FoundPlaced ts b.found
  hole : ∀ us, Nested ts us → tokensWeight us ≤ n → Goes us (tokensWeight us) anyKind (g.expr true) (fun _ => 1) (Expr.Placed us)

theorem Grammar.Fits.self {g : Grammar} {ts : List Token} {n : Nat} (fits : g.Fits ts n) : WellLexed ts :=
  fits.lexed ts .self

/-! ## Numbers and places -/

section

variable {α β : Type} {ts : List Token} {n : Nat} {K : TokenKind → Prop}

/-- Reading a number takes nothing, and says what is wrong with it. -/
theorem goes_numberLiteral {t : Token} {negative : Bool} {span : Span} (lexed : WellLexed ts) (mem : t ∈ ts)
    (number : t.kind = .literal .int ∨ t.kind = .literal .float) (written : SpanOf ts span)
    (minus : negative = true → ∃ u, u.kind = .symbol .minus ∧ [u, t] <:+: ts) :
    Goes ts n K (numberLiteral t negative span) (fun _ => 0) (Expr.Placed ts) := by
  have overflow {raw : Bytes} {kind : String}
      (fails : numberLiteral t negative span = throw (.overflow raw kind t span)) :
      Goes ts n K (numberLiteral t negative span) (fun _ => 0) (Expr.Placed ts) := by
    have out : OutOfRange ts t negative (.overflow raw kind t span) := ⟨mem, number, minus, span, fun s => by rw [fails]; rfl⟩
    rw [fails]
    exact goes_throw ⟨nofun, written.within, fun _ => ⟨ts, t, negative, .self, out⟩⟩
  have literal {raw : Bytes} {value : LiteralValue} (reads : numberLiteral t negative span = pure (.literal span raw value)) :
      Goes ts n K (numberLiteral t negative span) (fun _ => 0) (Expr.Placed ts) := by
    rw [reads]
    exact .done ⟨written, nofun, foundPlaced_nil⟩
  rcases number with int | float
  · obtain ⟨kind, v, spells⟩ := lexed.ints t mem int
    by_cases fits : kind.InRange (signedValue negative v)
    · exact literal (numberLiteral_inRange int spells fits)
    · exact overflow (numberLiteral_overflow int spells fits)
  · obtain ⟨last, found⟩ := Option.ne_none_iff_exists'.mp (mt List.getLast?_eq_none_iff.mp (lexed.floats t mem float))
    have reads : ∃ digits narrow, splitFloatSuffix (t.text.filter (· ≠ 95)) = some (digits, narrow) := by
      rw [splitFloatSuffix, found]
      dsimp only
      split
      · exact ⟨_, _, rfl⟩
      · split
        · exact ⟨_, _, rfl⟩
        · exact ⟨_, _, rfl⟩
    obtain ⟨digits, narrow, reads⟩ := reads
    cases value : (readNumber (if narrow then BinaryFormat.single else .double) digits).toFloat?
        (if narrow then BinaryFormat.single else .double) with
    | none =>
      have fails : numberLiteral t negative span =
          throw (.overflow (signedText negative t.text) (if narrow then "float" else "double") t span) := by
        unfold numberLiteral
        rw [if_pos float, reads]
        dsimp only
        rw [value]
        rfl
      exact overflow fails
    | some x =>
      have reads : numberLiteral t negative span = pure (.literal span (signedText negative t.text)
          (if narrow then .float (if negative then -x else x) else .double (if negative then -x else x))) := by
        unfold numberLiteral
        rw [if_pos float, reads]
        dsimp only
        rw [value]
        rfl
      exact literal reads

/-- A place that is assigned to is one, or the fault is about the expression. -/
theorem Parse.Goes.check {x : Expr} {op : Token} {f : Unit → Parse β} {d : β → Nat} {post : β → Prop} (written : SpanOf ts x.span)
    (rest : Goes ts n K (f ()) d post) : Goes ts n K (checkPlace x op >>= f) d post := by
  unfold checkPlace
  split
  · exact rest
  · exact goes_stops ⟨nofun, written.within, nofun⟩

/-- Two tokens, the second of which is of some kinds. -/
theorem Parse.Goes.pair {c : TokenKind → Bool} {f : Token → Parse β} {q : Parse β} {d : β → Nat} {post : β → Prop}
    (lexed : WellLexed ts) (end_not : c .eof = false) (more : ∀ k, K k → k ≠ .eof)
    (both : ∀ a b, [a, b] <:+: ts → K a.kind → c b.kind = true → Goes ts n anyKind (f b) (fun b => d b - 1) post)
    (other : Goes ts (n + 1) K q d post) :
    Goes ts (n + 1) K (Parse.kindAt 1 >>= fun k => if c k = true then advance >>= fun _ => advance >>= f else q) d post := by
  rintro ⟨left, prev⟩ spot enough kind
  obtain ⟨a, behind, front, mem, next, -⟩ := spot.next
  cases front
  rw [next] at kind
  have spot' := spot.taken lexed (more _ kind)
  cases behind with
  | nil => exact absurd rfl spot'.more
  | cons b rest =>
    have looks : Parse.kindAt 1 ⟨a :: b :: rest, prev⟩ = .ok (b.kind, ⟨a :: b :: rest, prev⟩) := rfl
    rw [bind_of_ok looks]
    by_cases holds : c b.kind = true
    · have second : b.kind ≠ .eof := by
        intro ended
        rw [ended, end_not] at holds
        cases holds
      have beside : [a, b] <:+: ts := (List.prefix_append [a, b] rest).isInfix.trans spot.suffix.isInfix
      have weights : tokensWeight (a :: b :: rest) = tokenWeight a + (tokenWeight b + tokensWeight rest) := rfl
      have := tokenWeight_pos a
      have := tokenWeight_pos b
      dsimp only at enough
      have done := both a b beside kind holds ⟨rest, b.span⟩ (spot'.taken lexed second) (by dsimp only; omega) trivial
      rw [if_pos holds, bind_of_ok (advance_cons (more _ kind)), bind_of_ok (advance_cons second)]
      split at done
      · next x s' run =>
        obtain ⟨there, taken, good⟩ := done
        dsimp only at taken ⊢
        exact ⟨there, by omega, good⟩
      · exact done
    · rw [if_neg holds]
      exact other ⟨a :: b :: rest, prev⟩ spot enough (next ▸ kind)

end

/-! ## The rules -/

section

variable {g : Grammar} {arrows : Bool} {ts : List Token} {n : Nat} (fits : g.Fits ts n)
variable {K : TokenKind → Prop}
include fits

/-! ### Types -/

theorem goes_typeRule : Goes ts (n + 1) anyKind (typeRule g) (fun _ => 1) fun _ => True := by
  refine (goes_expectWord fits.self).take fun name _ => .ifAccept fits.self ?args (.thus (fun _ => True) trivial ?rest)
  case args =>
    refine (goes_commaSeparated fits.self fits.type).and fun args _ => (goes_expectSymbol fits.self).and fun _ _ => ?_
    exact .thus (fun _ => True) trivial ?rest
  case rest =>
    refine fun args _ => .and (goes_repeatStep (fun _ => True) (fun count _ => ?_) trivial) fun arrays (_ : True) => ?_
    · refine .at? (fun _ => .kindAt fun k => .ite ?_ (.doneAt trivial rfl)) (.kindAt fun k => .dite nofun fun _ => .doneAt trivial rfl)
      refine (goes_advance fits.self fun _ same => same.trans_ne nofun).and fun _ _ => ?_
      exact (goes_advance_any fits.self).and fun _ _ => .done trivial
    · exact .anySpan fun _ => .done trivial

theorem goes_typeAfterColon : Goes ts n K (typeAfterColon g) (fun _ => 0) fun _ => True :=
  .ifAccept fits.self (((goes_typeRule fits).le (Nat.le_succ n)).and fun _ _ => .done trivial) (.done trivial)

/-! ### Arguments and parameters -/

theorem goes_element : Goes ts n anyKind (element g) (fun _ => 1) (Expr.Placed ts) := by
  refine .ifAt ?_ (fits.expr true).when
  refine (goes_advance fits.self fun _ same => same.trans_ne nofun).and fun start ⟨mem, _⟩ => ?_
  refine (fits.expr true).and fun x placed => ?_
  exact .spanFrom mem fits.inside fun span written => .done ⟨written, nofun, placed.found⟩

theorem goes_arguments : Goes ts n K (arguments g) (fun _ => 1) fun xs => ∀ x ∈ xs, x.Placed ts :=
  (goes_expectSymbol fits.self).and fun _ _ => goes_commaList fits.self (goes_element fits)

theorem goes_initialValue : Goes ts n K (initialValue g arrows) (fun _ => 0) fun o => ∀ x ∈ o, FoundPlaced ts x.found := by
  refine .ifAccept fits.self ?_ (.done nofun)
  exact ((fits.expr arrows).some fun _ => Nat.zero_le _).weaken (fun _ => Nat.le_refl _) fun o each x mem => (each x mem).found

theorem goes_paramField : Goes ts n anyKind (paramField g) (fun _ => 1) (Param.Placed ts) := by
  refine .here fun start mem => (goes_expectIdent fits.self).and fun name _ => (goes_typeAfterColon fits).and fun type _ => ?_
  refine (goes_initialValue fits).and fun default placed => .spanFrom mem fits.inside fun span written => ?_
  exact .done ⟨written, placed, foundPlaced_nil⟩

theorem goes_paramHead : Goes ts n anyKind (paramHead g) (fun _ => 1) fun h => FoundPlaced ts (foundInParams h.2.2.2) := by
  refine .ifAccept fits.self ?rest (.ifAccept fits.self ?apart ?name)
  case rest => exact ((goes_expectIdent fits.self).le (Nat.le_refl n)).and fun _ _ => .done foundPlaced_nil
  case apart =>
    exact (goes_commaList fits.self (goes_paramField fits)).and fun fields each => .done (foundPlaced_foundInParams each)
  case name => exact (goes_expectIdent fits.self).and fun _ _ => .done foundPlaced_nil

theorem goes_param : Goes ts n anyKind (param g) (fun _ => 1) (Param.Placed ts) := by
  refine .here fun start mem => (goes_paramHead fits).and fun (name, isRest, takesApart, fields) inner => ?_
  refine (goes_typeAfterColon fits).and fun type _ => .ite (.thus (fun o => ∀ x ∈ o, FoundPlaced ts x.found) nofun ?rest)
    ((goes_initialValue fits).on ?rest fun _ _ => Nat.le_refl _)
  exact fun default placed => .spanFrom mem fits.inside fun span written => .done ⟨written, placed, inner⟩

theorem goes_params : Goes ts (n + 1) anyKind (params g) (fun _ => 1) fun ps => ∀ p ∈ ps, p.Placed ts := by
  refine (goes_expectSymbol fits.self).take fun _ _ => goes_repeatStep (fun ps => ∀ p ∈ ps, p.Placed ts) (fun ps each => ?_) nofun
  refine .ifAccept fits.self (.done fun p mem => each p (List.mem_reverse.mp mem)) ?_
  refine (goes_param fits).when.and fun p placed => .ite ?_ ?_
  · exact .peek fun t _ _ _ => goes_stops ⟨nofun, placed.span.within, nofun⟩
  · have more : ∀ q ∈ p :: ps, q.Placed ts := List.forall_mem_cons.mpr ⟨placed, each⟩
    refine .ifAccept fits.self (.done more) ((goes_expectSymbol fits.self).and fun _ _ => ?_)
    exact .done fun q mem => more q (List.mem_reverse.mp mem)

/-! ### Functions -/

theorem goes_functionRule {isAsync named : Bool} :
    Goes ts (n + 1) anyKind (functionRule g arrows isAsync named) (fun _ => 1) fun fn =>
      SpanOf ts fn.span ∧ FoundPlaced ts fn.found := by
  have name : Goes ts n anyKind ((·.nameText) <$> expectIdent "function name") (fun _ => 0) fun _ => True :=
    (goes_expectIdent fits.self).map (fun _ => Nat.zero_le 1) fun _ _ => trivial
  refine (goes_expect fits.self).take fun start ⟨mem, _⟩ => .whether fun _ =>
    .ite (name.on ?rest fun _ _ => Nat.le_refl 0) (.thus (fun _ => True) trivial ?rest)
  case rest =>
    refine fun name _ => ((goes_params fits).le (Nat.le_succ n)).and fun ps each => (goes_typeAfterColon fits).and fun type _ => ?_
    refine (fits.block arrows).and fun body inner => .spanFrom mem fits.inside fun span written => .done ⟨written, ?_⟩
    exact foundPlaced_append.mpr ⟨foundPlaced_foundInParams each, inner⟩

theorem goes_bodyRule : Goes ts n anyKind (bodyRule g arrows) (fun _ => 1) fun b => FoundPlaced ts b.found :=
  .ifAt ((fits.block arrows).when.and fun _ inner => .done inner) ((fits.expr arrows).when.and fun _ placed => .done placed.found)

theorem goes_arrowFunction {isAsync : Bool} {start : Token} (mem : start ∈ ts) :
    Goes ts (n + 1) K (arrowFunction g arrows isAsync start.span) (fun _ => 1) (Expr.Placed ts) := by
  have single {name : Token} (mem : name ∈ ts) :
      ∀ p ∈ [(⟨name.span, name.nameText, none, none, false, false, []⟩ : Param)], p.Placed ts := by
    intro p here
    rw [List.mem_singleton.mp here]
    exact ⟨spanOf_token mem, nofun, foundPlaced_nil⟩
  refine .ifAt ((goes_advance fits.self fun _ same => same.trans_ne nofun).take fun name ⟨mem, _⟩ =>
      .thus (fun ps => ∀ p ∈ ps, p.Placed ts) (single mem) ?rest)
    ((goes_params fits).when.takeOn ?rest fun _ => Nat.le_refl 1)
  refine fun ps each => (goes_expectSymbol fits.self).and fun _ _ => (goes_bodyRule fits).and fun body inner => ?_
  refine .spanFrom mem fits.inside fun span written => .done ⟨written, nofun, ?_⟩
  exact foundPlaced_append.mpr ⟨foundPlaced_foundInParams each, inner⟩

/-! ### Literals with other expressions in them -/

theorem goes_groupRule : Goes ts (n + 1) anyKind (groupRule g) (fun _ => 1) (Expr.Placed ts) := by
  refine (goes_expect fits.self).take fun start ⟨mem, _⟩ => (fits.expr true).and fun first placed => .unlessAt ?tuple ?paren
  case paren =>
    refine (goes_expectSymbol fits.self).and fun _ _ => .spanFrom mem fits.inside fun span written => ?_
    exact .done ⟨written, nofun, placed.found⟩
  case tuple =>
    refine Goes.pass ?elems fun xs (each : ∀ x ∈ xs, x.Placed ts) => (goes_expectSymbol fits.self).and fun _ _ => ?_
    · refine goes_repeatStep (fun xs => ∀ x ∈ xs, x.Placed ts) (fun xs each => ?_) (by simpa using placed)
      have ready : ∀ x ∈ xs.reverse, x.Placed ts := fun x mem => each x (List.mem_reverse.mp mem)
      refine .unlessAccept fits.self (.ifAt (.doneAt ready rfl) ?_) (.doneAt ready rfl)
      exact (fits.expr true).when.and fun x placed => .done (List.forall_mem_cons.mpr ⟨placed, each⟩)
    · refine .spanFrom mem fits.inside fun span written => .done ⟨written, nofun, ?_⟩
      exact foundPlaced_foundInAll.mpr fun x mem => (each x mem).found

theorem goes_mapKey : Goes ts n anyKind (mapKey g) (fun _ => 1) (Expr.Placed ts) := by
  refine .peek fun tok mem _ _ => ?_
  split
  · next same =>
    exact (goes_advance_kind fits.self same).and fun _ _ => .done ⟨spanOf_token mem, nofun, foundPlaced_nil⟩
  · next same =>
    exact (goes_advance_kind fits.self same).and fun _ _ => goes_numberLiteral fits.self mem (.inl same) (spanOf_token mem) nofun
  · next same =>
    exact (goes_advance_kind fits.self same).and fun _ _ => .done ⟨spanOf_token mem, nofun, foundPlaced_nil⟩
  · next same =>
    refine (goes_advance_kind fits.self same).and fun _ _ => (fits.expr true).and fun key placed => ?_
    refine (goes_expectSymbol fits.self).and fun _ _ => ?_
    split
    · exact .spanFrom mem fits.inside fun span written => .done ⟨written, nofun, placed.found⟩
    · exact .spanFrom mem fits.inside fun span written => .done ⟨written, nofun, placed.found⟩
    · exact .done placed
  · refine .dite (fun word => ?_) fun _ => goes_failExpected
    have more : ∀ k, k = tok.kind → k ≠ .eof := by
      rintro k rfl ended
      rw [ended] at word
      cases word
    exact (goes_advance fits.self more).and fun _ _ => .done ⟨spanOf_token mem, nofun, foundPlaced_nil⟩

theorem goes_mapLiteral : Goes ts (n + 1) anyKind (mapLiteral g) (fun _ => 1) (Expr.Placed ts) := by
  have entry : Goes ts n anyKind (do
      let key ← mapKey g
      expectSymbol .colon
      return (⟨key, ← g.expr true⟩ : MapEntry)) (fun _ => 1) fun e => e.key.Placed ts ∧ e.value.Placed ts := by
    refine (goes_mapKey fits).and fun key placed => (goes_expectSymbol fits.self).and fun _ _ => ?_
    exact (fits.expr true).and fun value placed' => .done ⟨placed, placed'⟩
  refine (goes_expect fits.self).take fun start ⟨mem, _⟩ => (goes_commaList fits.self entry).and fun entries each => ?_
  refine .spanFrom mem fits.inside fun span written => .done ⟨written, ?_, ?_⟩
  · intro span entries' same e here
    cases same
    exact (each e here).1.span.within
  · exact foundPlaced_foundInEntries.mpr fun e here => ⟨(each e here).1.found, (each e here).2.found⟩

theorem goes_parenthesized : Goes ts n anyKind (parenthesized g) (fun _ => 1) (Expr.Placed ts) :=
  (goes_expectSymbol fits.self).and fun _ _ => (fits.expr true).and fun _ placed =>
    (goes_expectSymbol fits.self).and fun _ _ => .done placed

theorem goes_armArrow : Goes ts n anyKind armArrow (fun _ => 1) fun _ => True :=
  .ifAccept fits.self (.done trivial) (.ifAccept fits.self (.done trivial) goes_failExpected)

theorem goes_matchRule : Goes ts (n + 1) anyKind (matchRule g arrows) (fun _ => 1) (Expr.Placed ts) := by
  refine (goes_expect fits.self).take fun start ⟨mem, _⟩ => (goes_parenthesized fits).and fun subject placed =>
    (goes_expectSymbol fits.self).and fun _ _ =>
      Goes.pass ?arms fun arms (each : ∀ a ∈ arms, a.Placed ts) => ?_
  · refine goes_repeatStep (fun r => ∀ a ∈ r.2, a.Placed ts) (fun (catchAll, arms) each => ?_) nofun
    refine .ifAccept fits.self (.done fun a mem => each a (List.mem_reverse.mp mem)) (.peek fun tok mem _ _ => .ite ?_ ?_)
    · exact goes_stops ⟨nofun, (spanOf_token mem).within, nofun⟩
    have pattern : Goes ts n anyKind (some <$> g.ternary false) (fun _ => 1) fun o => ∀ x ∈ o, FoundPlaced ts x.found :=
      ((fits.ternary false).some fun _ => Nat.le_refl 1).weaken (fun _ => Nat.le_refl 1) fun o each x mem => (each x mem).found
    refine .ifAccept fits.self
      (.thusAt (fun o => ∀ x ∈ o, FoundPlaced ts x.found) nofun ?rest fun r => Nat.sub_eq_zero_of_le (roundTakes_le r))
      (pattern.when.on ?rest fun _ r => roundTakes_le r)
    case rest =>
      refine fun pattern inner => (goes_armArrow fits).and fun arrow _ => (goes_bodyRule fits).and fun body inner' => ?_
      refine .anySpan fun span => ?_
      have more : ∀ a ∈ (⟨span, pattern, arrow, body⟩ : MatchArm) :: arms, a.Placed ts :=
        List.forall_mem_cons.mpr ⟨⟨inner, inner'⟩, each⟩
      exact .unlessAccept fits.self (.done more) (.accept fits.self (.done more) (.done more))
  · refine .spanFrom mem fits.inside fun span written => .done ⟨written, nofun, ?_⟩
    exact foundPlaced_append.mpr ⟨placed.found, foundPlaced_foundInArms.mpr each⟩

theorem goes_templateLiteral {tok : Token} (mem : tok ∈ ts) (light : tokenWeight tok ≤ n + 1) :
    Goes ts n anyKind (templateLiteral g tok) (fun _ => 0) (Expr.Placed ts) := by
  refine (goes_filterMapM fun part part_mem => ?_).and fun holes placed =>
    .done ⟨spanOf_token mem, nofun, foundPlaced_foundInAll.mpr placed⟩
  split
  · exact .done nofun
  · next hole same =>
    have inner : Nested ts hole.tokens := .hole .self mem part_mem same
    have lexed := fits.lexed _ inner
    have lighter := tokensWeight_lt_of_hole part_mem same
    have whole := fits.hole _ inner (by omega)
    refine goes_within inner lexed (d := fun _ => 0) (.ifAt goes_misses ?_)
    refine whole.when.and fun x placed => (goes_expect_any lexed).and fun _ _ => .done fun y mem => ?_
    cases mem
    exact placed.found.outer inner

/-! ### Operands -/

theorem goes_primary : Goes ts (n + 1) K (primary g arrows) (fun _ => 1) (Expr.Placed ts) := by
  -- an expression of one token
  have alone {tok : Token} {k : TokenKind} [k.Inner] {x : Expr} (same : tok.kind = k) (placed : x.Placed ts) :
      Goes ts (n + 1) (· = tok.kind) (advance >>= fun _ => pure x) (fun _ => 1) (Expr.Placed ts) :=
    (goes_advance_kind fits.self same).take fun _ _ => .done placed
  refine .peek fun tok mem light _ => ?_
  have here : SpanOf ts tok.span := spanOf_token mem
  split
  · next same =>
    exact (goes_advance_kind fits.self same).take fun _ _ => goes_numberLiteral fits.self mem (.inl same) here nofun
  · next same =>
    exact (goes_advance_kind fits.self same).take fun _ _ => goes_numberLiteral fits.self mem (.inr same) here nofun
  · next same => exact alone same ⟨here, nofun, foundPlaced_nil⟩
  · next same => exact alone same ⟨here, nofun, foundPlaced_nil⟩
  · next same => exact (goes_advance_kind fits.self same).take fun _ _ => goes_templateLiteral fits mem light
  · next same => exact alone same ⟨here, nofun, foundPlaced_nil⟩
  · next same => exact alone same ⟨here, nofun, foundPlaced_nil⟩
  · next same => exact alone same ⟨here, nofun, foundPlaced_nil⟩
  · next same => exact alone same ⟨here, nofun, foundPlaced_nil⟩
  · next same => exact alone same ⟨here, nofun, foundPlaced_nil⟩
  · next same => exact .kindAt fun _ => .ite (goes_arrowFunction fits mem) (alone same ⟨here, nofun, foundPlaced_nil⟩)
  · exact .get fun _ => .ite (goes_arrowFunction fits mem) (goes_groupRule fits).when
  · next same =>
    refine (goes_advance_kind fits.self same).take fun _ _ => (goes_commaList fits.self (goes_element fits)).and fun xs each => ?_
    exact .spanFrom mem fits.inside fun span written =>
      .done ⟨written, nofun, foundPlaced_foundInAll.mpr fun x mem => (each x mem).found⟩
  · next same =>
    refine (goes_advance_kind fits.self same).take fun _ _ => (goes_expectSymbol fits.self).and fun _ _ => ?_
    refine (goes_commaList fits.self (goes_element fits)).and fun xs each => ?_
    exact .spanFrom mem fits.inside fun span written =>
      .done ⟨written, nofun, foundPlaced_foundInAll.mpr fun x mem => (each x mem).found⟩
  · exact (goes_mapLiteral fits).when
  · exact (goes_functionRule fits).when.and fun fn ⟨written, inner⟩ => .done ⟨written, nofun, inner⟩
  · next same =>
    refine .kindAt fun next => .ite ?_ (.kindAt fun _ => .ite ?_ goes_failExpected)
    · refine (goes_advance_kind fits.self same).take fun _ _ => ((goes_functionRule fits).le (Nat.le_succ n)).and fun fn both => ?_
      obtain ⟨_, name, params, result, body, isAsync, isArrow⟩ := fn
      exact .spanFrom mem fits.inside fun span written => .done ⟨written, nofun, both.2⟩
    · exact (goes_advance_kind fits.self same).take fun _ _ =>
        ((goes_arrowFunction fits mem).le (Nat.le_succ n)).weaken (fun _ => Nat.zero_le _) fun _ => id
  · next same =>
    refine (goes_advance_kind fits.self same).take fun _ _ => (goes_expectSymbol fits.self).and fun _ _ => ?_
    refine (fits.expr true).and fun cond placed => .ifAccept fits.self ?msg (.thus (fun o => ∀ x ∈ o, x.Placed ts) nofun ?rest)
    · have given : Goes ts n anyKind (some <$> g.expr true) (fun _ => 0) fun o => ∀ x ∈ o, x.Placed ts :=
        (fits.expr true).some fun _ => Nat.zero_le 1
      exact given.on ?rest fun _ _ => Nat.le_refl 0
    · refine fun msg each => (goes_expectSymbol fits.self).and fun _ _ => .spanFrom mem fits.inside fun span written => ?_
      refine .done ⟨written, nofun, foundPlaced_append.mpr ⟨placed.found, foundPlaced_foundInOption.mpr ?_⟩⟩
      exact fun x mem => (each x mem).found
  · next same =>
    refine (goes_advance_kind fits.self same).take fun _ _ => (goes_expectIdent fits.self).and fun name _ => ?_
    refine (goes_arguments fits).and fun xs each => .spanFrom mem fits.inside fun span written => ?_
    exact .done ⟨written, nofun, foundPlaced_foundInAll.mpr fun x mem => (each x mem).found⟩
  · exact (goes_matchRule fits).when
  · exact goes_failExpected

theorem goes_suffixes {x : Expr} {start : Token} (mem : start ∈ ts) (placed : x.Placed ts) :
    Goes ts n K (suffixes g x start.span) (fun _ => 0) (Expr.Placed ts) := by
  refine goes_repeatStep (Expr.Placed ts) (fun x placed => .peek fun tok tok_mem _ _ => ?_) placed
  split
  · refine (goes_arguments fits).when.and fun args each => .spanFrom mem fits.inside fun span written => ?_
    refine .done ⟨written, nofun, foundPlaced_append.mpr ⟨foundPlaced_cons.mpr ⟨?_, placed.found⟩, ?_⟩⟩
    · exact fun arg arg_mem => (each arg arg_mem).keys
    · exact foundPlaced_foundInAll.mpr fun arg arg_mem => (each arg arg_mem).found
  · next same =>
    refine (goes_advance_kind fits.self same).and fun _ _ => (fits.expr true).and fun i inner => ?_
    refine (goes_expectSymbol fits.self).and fun _ _ => .spanFrom mem fits.inside fun span written => ?_
    exact .done ⟨written, nofun, foundPlaced_append.mpr ⟨placed.found, inner.found⟩⟩
  · next same =>
    refine (goes_advance_kind fits.self same).and fun _ _ => (goes_expectWord fits.self).and fun name _ => ?_
    exact .spanFrom mem fits.inside fun span written => .done ⟨written, nofun, placed.found⟩
  · next same =>
    refine (goes_advance_kind fits.self same).and fun _ _ => (goes_expectWord fits.self).and fun name _ => ?_
    exact .spanFrom mem fits.inside fun span written => .done ⟨written, nofun, placed.found⟩
  · next same =>
    refine .check placed.span ((goes_advance_kind fits.self same).and fun _ _ => ?_)
    exact .spanFrom mem fits.inside fun span written => .done ⟨written, nofun, placed.found⟩
  · next same =>
    refine .check placed.span ((goes_advance_kind fits.self same).and fun _ _ => ?_)
    exact .spanFrom mem fits.inside fun span written => .done ⟨written, nofun, placed.found⟩
  · exact .doneAt placed rfl

theorem goes_newRule (more : ∀ k, K k → k ≠ .eof) : Goes ts (n + 1) K (newRule g) (fun _ => 1) (Expr.Placed ts) := by
  refine (goes_advance fits.self more).take fun start ⟨mem, _⟩ => (goes_expectIdent fits.self).and fun name name_mem =>
    Goes.pass ?cls fun cls (placed : cls.Placed ts) => .ifAt ?_ ?_
  case cls =>
    refine goes_repeatStep (Expr.Placed ts) (fun x placed => ?_) ⟨spanOf_token name_mem, nofun, foundPlaced_nil⟩
    refine .ifAccept fits.self ((goes_expectWord fits.self).and fun _ _ => ?_) (.doneAt placed rfl)
    exact .spanFrom name_mem fits.inside fun span written => .done ⟨written, nofun, placed.found⟩
  · refine (goes_arguments fits).when.and fun args each => .spanFrom mem fits.inside fun span written => ?_
    exact .done ⟨written, nofun, foundPlaced_append.mpr ⟨placed.found, foundPlaced_foundInAll.mpr fun x mem => (each x mem).found⟩⟩
  · exact .spanFrom mem fits.inside fun span written =>
      .done ⟨written, nofun, foundPlaced_append.mpr ⟨placed.found, foundPlaced_nil⟩⟩

theorem goes_unaryRule : Goes ts (n + 1) anyKind (unaryRule g arrows) (fun _ => 1) (Expr.Placed ts) := by
  refine .peek fun tok mem light _ => ?_
  dsimp only
  -- an operator and its operand
  have operand {k : TokenKind} [k.Inner] {β : Type} {f : Expr → Parse β} {post : β → Prop} (same : tok.kind = k)
      (rest : ∀ x, x.Placed ts → Goes ts n anyKind (f x) (fun _ => 0) post) :
      Goes ts (n + 1) (· = tok.kind) ((advance >>= fun _ => g.unary arrows) >>= f) (fun _ => 1) post :=
    Goes.takeOn ((goes_advance_kind fits.self same).take fun _ _ =>
      ((fits.unary arrows).weaken (fun _ => Nat.zero_le _) fun _ => id)) rest fun _ => Nat.le_refl 1
  have made {f : Span → Expr} {x : Expr} (placed : x.Placed ts) (span : ∀ s, (f s).span = s)
      (found : ∀ s, (f s).found = x.found) (keys : ∀ s, (f s).KeysWithin ts) :
      Goes ts n anyKind (spanFrom tok.span >>= fun s => pure (f s)) (fun _ => 0) (Expr.Placed ts) :=
    .spanFrom mem fits.inside fun s written => .done ⟨by rw [span]; exact written, keys s, by rw [found]; exact placed.found⟩
  split
  · next same =>
    refine .pair (c := fun k => decide (k = .literal .int) || decide (k = .literal .float)) fits.self rfl
      (fun _ eq => (eq.trans same).trans_ne nofun) (fun a b beside eq number => ?_) ?_
    · have b_mem : b ∈ ts := beside.subset (by simp)
      rw [Bool.or_eq_true, decide_eq_true_eq, decide_eq_true_eq] at number
      have read : Goes ts n anyKind (numberLiteral b true (tok.span.cover b.span)) (fun _ => 0) (Expr.Placed ts) :=
        goes_numberLiteral fits.self b_mem number ⟨tok, mem, b, b_mem, rfl⟩ fun _ => ⟨a, eq.trans same, beside⟩
      exact read.and fun x placed => goes_suffixes fits mem placed
    · exact operand same fun x placed => made placed (fun _ => rfl) (fun _ => rfl) fun _ => nofun
  · next same => exact operand same fun x placed => made placed (fun _ => rfl) (fun _ => rfl) fun _ => nofun
  · next same =>
    exact operand same fun x placed => .check placed.span (made placed (fun _ => rfl) (fun _ => rfl) fun _ => nofun)
  · next same =>
    exact operand same fun x placed => .check placed.span (made placed (fun _ => rfl) (fun _ => rfl) fun _ => nofun)
  · next same => exact operand same fun x placed => made placed (fun _ => rfl) (fun _ => rfl) fun _ => nofun
  · next same => exact operand same fun x placed => made placed (fun _ => rfl) (fun _ => rfl) fun _ => nofun
  · next same => exact operand same fun x placed => made placed (fun _ => rfl) (fun _ => rfl) fun _ => nofun
  · next same =>
    exact (goes_newRule fits fun _ eq => (eq.trans same).trans_ne nofun).take fun x placed => goes_suffixes fits mem placed
  · exact (goes_primary fits).take fun x placed => goes_suffixes fits mem placed

/-! ### Operators -/

theorem goes_binaryRule {least : Nat} : Goes ts (n + 1) anyKind (binaryRule g arrows least) (fun _ => 1) (Expr.Placed ts) := by
  refine .here fun start mem => (goes_unaryRule fits).take fun x placed => ?_
  refine goes_repeatStep (Expr.Placed ts) (fun x placed => .nextKind fun kind _ => ?_) placed
  split
  · exact .doneAt placed rfl
  · next r rank =>
    have more : ∀ k, k = kind → k ≠ .eof := by
      rintro k rfl rfl
      cases rank
    refine .ite (.doneAt placed rfl) ((goes_advance fits.self more).and fun _ _ => ?_)
    split
    · split
      · refine (fits.binary arrows _).and fun y placed' => .spanFrom mem fits.inside fun span written => ?_
        exact .done ⟨written, nofun, foundPlaced_append.mpr ⟨placed.found, placed'.found⟩⟩
      · exact .done placed
    · refine ((goes_typeRule fits).le (Nat.le_succ n)).and fun type _ => .spanFrom mem fits.inside fun span written => ?_
      exact .done ⟨written, nofun, placed.found⟩

theorem goes_coalesceRule : Goes ts (n + 1) anyKind (coalesceRule g arrows) (fun _ => 1) (Expr.Placed ts) := by
  refine .here fun start mem => (goes_binaryRule fits).take fun x placed => ?_
  refine goes_repeatStep (Expr.Placed ts) (fun x placed => ?_) placed
  refine .ifAccept fits.self ?_ (.doneAt placed rfl)
  refine ((goes_binaryRule fits).le (Nat.le_succ n)).and fun y placed' => .spanFrom mem fits.inside fun span written => ?_
  exact .done ⟨written, nofun, foundPlaced_append.mpr ⟨placed.found, placed'.found⟩⟩

theorem goes_ternaryRule : Goes ts (n + 1) anyKind (ternaryRule g arrows) (fun _ => 1) (Expr.Placed ts) := by
  refine .here fun start mem => (goes_coalesceRule fits).take fun cond placed => .ifAccept fits.self ?_ (.done placed)
  refine (fits.expr arrows).and fun yes placed' => (goes_expectSymbol fits.self).and fun _ _ => ?_
  refine (fits.expr arrows).and fun no placed'' => .spanFrom mem fits.inside fun span written => ?_
  refine .done ⟨written, nofun, ?_⟩
  exact foundPlaced_append.mpr ⟨foundPlaced_append.mpr ⟨placed.found, placed'.found⟩, placed''.found⟩

theorem goes_exprRule : Goes ts (n + 1) anyKind (exprRule g arrows) (fun _ => 1) (Expr.Placed ts) := by
  refine .here fun start mem => (goes_ternaryRule fits).take fun target placed => .peek fun tok _ _ _ => ?_
  split
  · exact .done placed
  · next op assigns =>
    have more : ∀ k, k = tok.kind → k ≠ .eof := by
      rintro k rfl ended
      rw [ended] at assigns
      cases assigns
    refine .check placed.span ((goes_advance fits.self more).and fun _ _ => (fits.expr arrows).and fun value placed' => ?_)
    refine .spanFrom mem fits.inside fun span written => ?_
    exact .done ⟨written, nofun, foundPlaced_append.mpr ⟨placed.found, placed'.found⟩⟩

end

end LedgerScript
