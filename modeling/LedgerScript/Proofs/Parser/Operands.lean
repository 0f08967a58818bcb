import LedgerScript.Parser.Basic
import LedgerScript.Proofs.Parser.Layers
import LedgerScript.Proofs.Value.Extension

/-!
# What the rules of operands give

A parser is judged by what it gives, and only if it gives something: `Gives` is about the result alone, `Ends` also about the
place where the parser stops.  Both follow the steps of a rule one by one.  Most steps of most rules only decide where the rule
goes on, and are passed over by `any`.

`Grammar.Layered` says that the parsers of nested things give what is layered.  The rules are judged by it alone, as they
are written by open recursion; that it holds of the whole grammar is shown where all rules have been judged.
-/

namespace LedgerScript

/-! ## Judging parsers -/

def ParserState.next (s : ParserState) : TokenKind :=
  ((s.rest[0]?).map Token.kind).getD .eof

namespace Parse

theorem bind_of_ok {α β : Type} {p : Parse α} {f : α → Parse β} {a : α} {s s' : ParserState} (run : p s = .ok (a, s')) :
    (p >>= f) s = f a s' := by
  change (p s >>= fun r => f r.1 r.2) = _
  rw [run]
  rfl

theorem bind_of_error {α β : Type} {p : Parse α} {f : α → Parse β} {fault : SyntaxFault} {s : ParserState}
    (run : p s = .error fault) : (p >>= f) s = .error fault := by
  change (p s >>= fun r => f r.1 r.2) = _
  rw [run]
  rfl

/-- Every token but the end is taken. -/
theorem advance_cons {t : Token} {rest : List Token} {prev : Span} (more : t.kind ≠ .eof) :
    advance ⟨t :: rest, prev⟩ = .ok (t, ⟨rest, t.span⟩) := by
  have looks : peek ⟨t :: rest, prev⟩ = .ok (t, ⟨t :: rest, prev⟩) := rfl
  rw [advance, bind_of_ok looks, if_pos more]
  rfl

/-- Whatever a parser gives from here, this is true of it and of where it stops. -/
def Ends {α : Type} (p : Parse α) (s : ParserState) (post : α → ParserState → Prop) : Prop :=
  ∀ a s', p s = .ok (a, s') → post a s'

def Gives {α : Type} (p : Parse α) (post : α → Prop) : Prop :=
  ∀ s, Ends p s fun a _ => post a

section

variable {α β σ : Type} {p : Parse α} {f : α → Parse β} {post : α → Prop} {after : β → Prop}
variable {s : ParserState} {c : Prop} {q : Parse α}

theorem ends_pure {a : α} {post : α → ParserState → Prop} (holds : post a s) : Ends (pure a) s post := by
  intro b s' run
  cases run
  exact holds

/-- What does not matter for the result. -/
theorem ends_any {after : β → ParserState → Prop} (rest : ∀ a s', Ends (f a) s' after) : Ends (p >>= f) s after := by
  intro b s'' run
  obtain ⟨⟨a, s'⟩, one, two⟩ := of_bind_ok (x := p s) (f := fun r => f r.1 r.2) run
  exact rest a s' b s'' two

theorem Ends.and {post : α → ParserState → Prop} {after : β → ParserState → Prop} (first : Ends p s post)
    (rest : ∀ a s', post a s' → Ends (f a) s' after) : Ends (p >>= f) s after := by
  intro b s'' run
  obtain ⟨⟨a, s'⟩, one, two⟩ := of_bind_ok (x := p s) (f := fun r => f r.1 r.2) run
  exact rest a s' (first a s' one) b s'' two

theorem ends_get : Ends (get : Parse ParserState) s fun _ s' => s' = s := by
  intro _ s' run
  cases run
  rfl

theorem ends_throw {post : α → ParserState → Prop} (e : SyntaxFault) : Ends (throw e) s post := by
  intro a s' run
  cases run

theorem ends_ite [Decidable c] {post : α → ParserState → Prop} (yes : Ends p s post)
    (no : Ends q s post) : Ends (if c then p else q) s post := by
  split
  · exact yes
  · exact no

theorem Gives.done {a : α} (holds : post a) : Gives (pure a) post :=
  fun _ => ends_pure holds

theorem Gives.fails {e : SyntaxFault} : Gives (throw e) post :=
  fun _ => ends_throw e

theorem gives_failExpected {wanted : List String} : Gives (failExpected wanted) post :=
  fun _ => ends_any fun _ _ => ends_throw _

/-- Nothing comes after a failure. -/
theorem Gives.stops {e : SyntaxFault} : Gives ((throw e : Parse α) >>= f) after := by
  intro s a s' run
  cases run

theorem Gives.and (first : Gives p post) (rest : ∀ a, post a → Gives (f a) after) : Gives (p >>= f) after :=
  fun s => (first s).and fun a s' holds => rest a holds s'

theorem Gives.misses {wanted : List String} : Gives ((failExpected wanted : Parse α) >>= f) after :=
  have nothing : Gives (failExpected wanted : Parse α) fun _ => False := gives_failExpected
  nothing.and fun _ => False.elim

/-- What does not matter for the result. -/
theorem Gives.any (rest : ∀ a, Gives (f a) after) : Gives (p >>= f) after :=
  have anything : Gives p fun _ => True := fun _ _ _ _ => trivial
  anything.and fun a _ => rest a

theorem Gives.weaken {post' : α → Prop} (gives : Gives p post) (weaker : ∀ a, post a → post' a) : Gives p post' :=
  fun s a s' run => weaker a (gives s a s' run)

theorem Gives.either [Decidable c] (yes : Gives p post) (no : Gives q post)
    (rest : ∀ a, post a → Gives (f a) after) : Gives (if c then p >>= f else q >>= f) after :=
  fun s => ends_ite (yes.and rest s) (no.and rest s)

/-- One of two. -/
theorem Gives.ite [Decidable c] (yes : Gives p post) (no : Gives q post) : Gives (if c then p else q) post :=
  fun s => ends_ite (yes s) (no s)

theorem Gives.map {m : α → β} (gives : Gives p post) (holds : ∀ a, post a → after (m a)) : Gives (m <$> p) after := by
  intro s b s' run
  obtain ⟨⟨a, t⟩, one, two⟩ := of_bind_ok (x := p s) (f := fun r => pure (m r.1, r.2)) run
  cases two
  exact holds a (gives s a t one)

theorem Gives.some (gives : Gives p post) : Gives (some <$> p) fun o => ∀ a ∈ o, post a := by
  refine gives.map fun a holds b same => ?_
  cases same
  exact holds

/-! ## Repetition -/

/-- A repetition goes on with what a round gives, or ends with it. -/
def Round {γ : Type} (kept : σ → γ) (post : α → γ) : σ ⊕ α → γ
  | .inl c => kept c
  | .inr a => post a

theorem ends_repeatStep {step : σ → Parse (σ ⊕ α)} (kept : σ → ParserState → Prop) {post : α → ParserState → Prop}
    (turn : ∀ c s, kept c s → Ends (step c) s (Round kept post)) {c : σ} (start : kept c s) :
    Ends (repeatStep step c) s post := by
  have rounds : ∀ n c s, kept c s → Ends (iterate step n c) s post := by
    intro n
    induction n with
    | zero =>
      intro c s _ a s' run
      cases run
    | succ n ih =>
      intro c s start
      refine Ends.and ends_get fun _ s same => ?_
      subst same
      refine (turn c s start).and fun r s' holds => ?_
      cases r with
      | inl c =>
        refine Ends.and ends_get fun _ s same => ?_
        subst same
        exact ends_ite (ih c s holds) (ends_throw _)
      | inr a => exact ends_pure holds
  exact rounds _ c s start

theorem gives_repeatStep {step : σ → Parse (σ ⊕ α)} (kept : σ → Prop) (turn : ∀ c, kept c → Gives (step c) (Round kept post))
    {c : σ} (start : kept c) : Gives (repeatStep step c) post := by
  intro s
  refine ends_repeatStep (fun c _ => kept c) (fun c s holds => ?_) start
  intro r s' run
  have done := turn c holds s r s' run
  cases r with
  | inl c => exact done
  | inr a => exact done

theorem gives_commaList {close : Symbol} (item : Gives p post) : Gives (commaList close p) fun xs => ∀ x ∈ xs, post x := by
  refine gives_repeatStep (fun xs => ∀ x ∈ xs, post x) (fun xs each => ?_) nofun
  refine .any fun closed => ?_
  refine .ite (.done fun x mem => each x (List.mem_reverse.mp mem)) ?_
  refine item.and fun x holds => ?_
  have more : ∀ y ∈ x :: xs, post y := List.forall_mem_cons.mpr ⟨holds, each⟩
  refine .any fun comma => ?_
  exact .ite (.done more) (.any fun _ => .done fun y mem => more y (List.mem_reverse.mp mem))

/-- What is made of some items, some of which may give nothing. -/
theorem gives_filterMapM {item : β → Parse (Option α)} (each : ∀ b, Gives (item b) fun o => ∀ a ∈ o, post a) (bs : List β) :
    Gives (bs.filterMapM item) fun as => ∀ a ∈ as, post a := by
  have loop : ∀ (bs : List β) (as : List α), (∀ a ∈ as, post a) →
      Gives (List.filterMapM.loop item bs as) fun as => ∀ a ∈ as, post a := by
    intro bs
    induction bs with
    | nil => exact fun as all => .done fun a mem => all a (List.mem_reverse.mp mem)
    | cons b rest ih =>
      intro as all
      refine (each b).and fun o holds => ?_
      cases o with
      | none => exact ih as all
      | some a => exact ih (a :: as) (List.forall_mem_cons.mpr ⟨holds a rfl, all⟩)
  exact loop bs [] nofun

theorem gives_within {tokens : List Token} (gives : Gives p post) : Gives (within tokens p) post :=
  .any fun _ => .any fun _ => gives.and fun _ holds => .any fun _ => .done holds

end

end Parse

/-! ## The rules of operands -/

/-- What operators between operands have made, where the next one binds less strongly. -/
structure Operated (least : Nat) (x : Expr) (s : ParserState) : Prop where
  layered : x.Layered
  firm : x.isLoose = false
  binds : x.opTree.Binds least
  ends : ∀ r ∈ precedence? s.next, r < least

/-- What the parsers of nested things give. -/
structure Grammar.Layered (g : Grammar) : Prop where
  expr : ∀ arrows, Parse.Gives (g.expr arrows) Expr.Layered
  ternary : ∀ arrows, Parse.Gives (g.ternary arrows) Expr.Layered
  binary : ∀ arrows least s, Parse.Ends (g.binary arrows least) s (Operated least)
  unary : ∀ arrows, Parse.Gives (g.unary arrows) fun x => x.Layered ∧ x.isTight
  stmt : ∀ arrows, Parse.Gives (g.stmt arrows) Stmt.Layered
  block : ∀ arrows, Parse.Gives (g.block arrows) Block.Layered

open Parse

theorem gives_numberLiteral {tok : Token} {negative : Bool} {span : Span} :
    Gives (numberLiteral tok negative span) fun x => x.Layered ∧ x.isTight := by
  unfold numberLiteral
  generalize splitBase _ = parts
  refine .ite ?_ ?_
  · split
    · exact .fails
    · dsimp only
      split
      · exact .fails
      · exact .done ⟨.literal, rfl⟩
  · dsimp only
    split
    · exact .fails
    · split
      · exact .fails
      · exact .ite (.done ⟨.literal, rfl⟩) .fails

section

variable {g : Grammar} {arrows : Bool} (sound : g.Layered)
include sound

theorem gives_element : Gives (element g) Expr.Layered := by
  refine .any fun _ => .ite ?_ (sound.expr true)
  exact .any fun _ => (sound.expr true).and fun x layered => .any fun _ => .done (.spread layered)

theorem gives_arguments : Gives (arguments g) fun xs => ∀ x ∈ xs, x.Layered :=
  .any fun _ => gives_commaList (gives_element sound)

theorem gives_initialValue : Gives (initialValue g arrows) fun o => ∀ x ∈ o, x.Layered :=
  .any fun _ => .ite (sound.expr arrows).some (.done nofun)

theorem gives_paramField : Gives (paramField g) Param.Layered := by
  refine .any fun _ => .any fun _ => .any fun _ => ?_
  exact (gives_initialValue sound).and fun default layered => .any fun _ => .done (.mk layered nofun)

theorem gives_paramHead : Gives (paramHead g) fun h => ∀ p ∈ h.2.2.2, p.Layered := by
  refine .any fun _ => .ite (.any fun _ => .done nofun) ?_
  refine .any fun _ => .ite ?_ (.any fun _ => .done nofun)
  exact (gives_commaList (gives_paramField sound)).and fun fields each => .done each

theorem gives_param : Gives (param g) Param.Layered := by
  refine .any fun _ => (gives_paramHead sound).and fun (_, isRest, _, fields) each => .any fun _ => ?_
  exact .either (.done nofun) (gives_initialValue sound) fun default layered => .any fun _ => .done (.mk layered each)

theorem gives_params : Gives (params g) fun ps => ∀ p ∈ ps, p.Layered := by
  refine .any fun _ => gives_repeatStep (fun ps => ∀ p ∈ ps, p.Layered) (fun ps each => ?_) nofun
  refine .any fun _ => .ite (.done fun p mem => each p (List.mem_reverse.mp mem)) ?_
  refine (gives_param sound).and fun p layered => .ite (.any fun _ => .stops) (.any fun _ => ?_)
  have more : ∀ q ∈ p :: ps, q.Layered := List.forall_mem_cons.mpr ⟨layered, each⟩
  exact .ite (.done more) (.any fun _ => .done fun q mem => more q (List.mem_reverse.mp mem))

theorem gives_functionRule {isAsync named : Bool} : Gives (functionRule g arrows isAsync named) Function.Layered := by
  refine .any fun _ => .any fun _ => .ite (.any ?rest) (.any ?rest)
  refine fun name => (gives_params sound).and fun ps each => .any fun _ => (sound.block arrows).and fun body layered => ?_
  exact .any fun _ => .done (.mk each (.block layered))

theorem gives_bodyRule : Gives (bodyRule g arrows) Body.Layered := by
  refine .any fun _ => .ite ?_ ?_
  · exact (sound.block arrows).and fun b layered => .done (.block layered)
  · exact (sound.expr arrows).and fun x layered => .done (.expr layered)

theorem gives_arrowFunction {isAsync : Bool} {start : Span} :
    Gives (arrowFunction g arrows isAsync start) fun x => x.Layered ∧ x.isTight := by
  have single {p : Param} (plain : p.default = none ∧ p.fields = []) :
      Gives (pure [p] : Parse (List Param)) fun ps => ∀ p ∈ ps, p.Layered := by
    refine .done fun q mem => ?_
    rw [List.mem_singleton.mp mem]
    exact .mk (by simp [plain]) (by simp [plain])
  refine .any fun _ => .ite (.any fun name => (single ⟨rfl, rfl⟩).and ?rest) ((gives_params sound).and ?rest)
  refine fun ps each => .any fun _ => (gives_bodyRule sound).and fun body layered => .any fun _ => ?_
  exact .done ⟨.function (.mk each layered), rfl⟩

theorem gives_groupRule : Gives (groupRule g) fun x => x.Layered ∧ x.isTight := by
  refine .any fun _ => (sound.expr true).and fun first layered => .any fun _ => .ite ?_ ?_
  · exact .any fun _ => .any fun _ => .done ⟨.paren layered, rfl⟩
  · refine Gives.and ?elems fun xs (each : ∀ x ∈ xs, x.Layered) => .any fun _ => .any fun _ => .done ⟨.tuple each, rfl⟩
    refine gives_repeatStep (fun xs => ∀ x ∈ xs, x.Layered) (fun xs each => ?_) (by simpa using layered)
    have ready : ∀ x ∈ xs.reverse, x.Layered := fun x mem => each x (List.mem_reverse.mp mem)
    refine .any fun _ => .ite (.done ready) (.any fun _ => .ite (.done ready) ?_)
    exact (sound.expr true).and fun x layered => .done (List.forall_mem_cons.mpr ⟨layered, each⟩)

theorem gives_mapKey : Gives (mapKey g) Expr.Layered := by
  refine .any fun tok => ?_
  split
  · exact .any fun _ => .done .literal
  · exact .any fun _ => gives_numberLiteral.weaken fun _ both => both.1
  · exact .any fun _ => .done .literal
  · refine .any fun _ => (sound.expr true).and fun key layered => .any fun _ => ?_
    split
    · exact .any fun _ => .done (.paren layered)
    · exact .any fun _ => .done (.paren layered)
    · exact .done layered
  · exact .ite (.any fun _ => .done .ident) gives_failExpected

theorem gives_mapLiteral : Gives (mapLiteral g) fun x => x.Layered ∧ x.isTight := by
  have entry : Gives (do
      let key ← mapKey g
      expectSymbol .colon
      return (⟨key, ← g.expr true⟩ : MapEntry)) fun e => e.key.Layered ∧ e.value.Layered := by
    refine (gives_mapKey sound).and fun key layered => .any fun _ => ?_
    exact (sound.expr true).and fun value layered' => .done ⟨layered, layered'⟩
  refine .any fun _ => (gives_commaList entry).and fun entries each => .any fun _ => ?_
  exact .done ⟨.map (fun e mem => (each e mem).1) fun e mem => (each e mem).2, rfl⟩

theorem gives_parenthesized : Gives (parenthesized g) Expr.Layered :=
  .any fun _ => (sound.expr true).and fun _ layered => .any fun _ => .done layered

theorem gives_matchRule : Gives (matchRule g arrows) fun x => x.Layered ∧ x.isTight := by
  refine .any fun _ => (gives_parenthesized sound).and fun subject layered => .any fun _ =>
    Gives.and ?_ fun arms (each : ∀ a ∈ arms, (∀ x ∈ a.pattern, x.Layered) ∧ a.body.Layered) => .any fun _ =>
      .done ⟨.match layered (fun a mem => (each a mem).1) fun a mem => (each a mem).2, rfl⟩
  refine gives_repeatStep (fun r => ∀ a ∈ r.2, (∀ x ∈ a.pattern, x.Layered) ∧ a.body.Layered) (fun (_, arms) each => ?_)
    nofun
  refine .any fun _ => .ite (.done fun a mem => each a (List.mem_reverse.mp mem)) (.any fun tok => .ite .stops ?_)
  refine .any fun _ => .either (.done nofun) (sound.ternary false).some fun pattern layered => ?_
  refine .any fun arrow => (gives_bodyRule sound).and fun body layered' => .any fun _ => .any fun _ => ?_
  refine .ite (.any fun _ => .done ?more) (.done ?more)
  exact List.forall_mem_cons.mpr ⟨⟨layered, layered'⟩, each⟩

theorem gives_templateLiteral {tok : Token} : Gives (templateLiteral g tok) fun x => x.Layered ∧ x.isTight := by
  refine (gives_filterMapM (fun part => ?_) _).and fun holes (each : ∀ x ∈ holes, x.Layered) => .done ⟨.template each, rfl⟩
  split
  · exact .done nofun
  · refine gives_within (.any fun ended => .ite .misses ?_)
    refine (sound.expr true).and fun x layered => .any fun _ => .done fun y same => ?_
    cases same
    exact layered

theorem gives_primary : Gives (primary g arrows) fun x => x.Layered ∧ x.isTight := by
  refine .any fun tok => ?_
  split
  · exact .any fun _ => gives_numberLiteral
  · exact .any fun _ => gives_numberLiteral
  · exact .any fun _ => .done ⟨.literal, rfl⟩
  · exact .any fun _ => .done ⟨.literal, rfl⟩
  · exact .any fun _ => gives_templateLiteral sound
  · exact .any fun _ => .done ⟨.literal, rfl⟩
  · exact .any fun _ => .done ⟨.literal, rfl⟩
  · exact .any fun _ => .done ⟨.literal, rfl⟩
  · exact .any fun _ => .done ⟨.this, rfl⟩
  · exact .any fun _ => .done ⟨.super, rfl⟩
  · exact .any fun _ => .ite (gives_arrowFunction sound) (.any fun _ => .done ⟨.ident, rfl⟩)
  · exact .any fun _ => .ite (gives_arrowFunction sound) (gives_groupRule sound)
  · exact .any fun _ => (gives_commaList (gives_element sound)).and fun elems each => .any fun _ => .done ⟨.array each, rfl⟩
  · refine .any fun _ => .any fun _ => (gives_commaList (gives_element sound)).and fun elems each => ?_
    exact .any fun _ => .done ⟨.set each, rfl⟩
  · exact gives_mapLiteral sound
  · exact (gives_functionRule sound).and fun fn layered => .done ⟨.function layered, rfl⟩
  · refine .any fun next => .ite ?_ (.any fun _ => .ite ?_ gives_failExpected)
    · refine .any fun _ => (gives_functionRule sound).and fun fn layered => .any fun _ => .done ⟨.function ?_, rfl⟩
      cases layered with
      | mk params body => exact .mk params body
    · exact .any fun _ => gives_arrowFunction sound
  · refine .any fun _ => .any fun _ => (sound.expr true).and fun cond layered => .any fun _ => ?_
    refine .either (sound.expr true).some (.done nofun) fun msg layered' => .any fun _ => .any fun _ => ?_
    exact .done ⟨.validate layered layered', rfl⟩
  · refine .any fun _ => .any fun _ => (gives_arguments sound).and fun args each => .any fun _ => ?_
    exact .done ⟨.emit each, rfl⟩
  · exact gives_matchRule sound
  · exact gives_failExpected

theorem gives_suffixes {x : Expr} {start : Span} (layered : x.Layered) (tight : x.isTight) :
    Gives (suffixes g x start) fun x => x.Layered ∧ x.isTight := by
  refine gives_repeatStep (fun x => x.Layered ∧ x.isTight) (fun x ⟨layered, tight⟩ => .any fun tok => ?_) ⟨layered, tight⟩
  split
  · refine (gives_arguments sound).and fun args each => .any fun _ => .done ⟨.call layered tight each, rfl⟩
  · refine .any fun _ => (sound.expr true).and fun i inner => .any fun _ => .any fun _ => ?_
    exact .done ⟨.index layered tight inner, rfl⟩
  · exact .any fun _ => .any fun _ => .any fun _ => .done ⟨.member layered tight, rfl⟩
  · exact .any fun _ => .any fun _ => .any fun _ => .done ⟨.member layered tight, rfl⟩
  · exact .any fun _ => .any fun _ => .any fun _ => .done ⟨.stepAfter layered tight, rfl⟩
  · exact .any fun _ => .any fun _ => .any fun _ => .done ⟨.stepAfter layered tight, rfl⟩
  · exact .done ⟨layered, tight⟩

theorem gives_newRule : Gives (newRule g) fun x => x.Layered ∧ x.isTight := by
  refine .any fun _ => .any fun name => Gives.and ?_ fun cls (both : cls.Layered ∧ cls.isTight) => ?_
  · refine gives_repeatStep (fun x => x.Layered ∧ x.isTight) (fun x ⟨layered, tight⟩ => ?_) ⟨.ident, rfl⟩
    refine .any fun _ => .ite ?_ (.done ⟨layered, tight⟩)
    exact .any fun _ => .any fun _ => .done ⟨.member layered tight, rfl⟩
  · refine .any fun _ => .ite ?_ (.any fun _ => .done ⟨.new both.1 both.2 nofun, rfl⟩)
    exact (gives_arguments sound).and fun args each => .any fun _ => .done ⟨.new both.1 both.2 each, rfl⟩

theorem gives_unaryRule : Gives (unaryRule g arrows) fun x => x.Layered ∧ x.isTight := by
  have operand : Gives (do let _ ← advance; g.unary arrows) fun x => x.Layered ∧ x.isTight :=
    .any fun _ => sound.unary arrows
  refine .any fun tok => ?_
  dsimp only
  split
  · refine .any fun next => .ite ?_ (operand.and fun x both => .any fun _ => .done ⟨.unary both.1 both.2, rfl⟩)
    refine .any fun _ => .any fun lit => gives_numberLiteral.and fun x both => ?_
    exact gives_suffixes sound both.1 both.2
  · exact operand.and fun x both => .any fun _ => .done ⟨.unary both.1 both.2, rfl⟩
  · exact operand.and fun x both => .any fun _ => .any fun _ => .done ⟨.unary both.1 both.2, rfl⟩
  · exact operand.and fun x both => .any fun _ => .any fun _ => .done ⟨.unary both.1 both.2, rfl⟩
  · exact operand.and fun x both => .any fun _ => .done ⟨.await both.1 both.2, rfl⟩
  · exact operand.and fun x both => .any fun _ => .done ⟨.typeof both.1 both.2, rfl⟩
  · exact operand.and fun x both => .any fun _ => .done ⟨.spawn both.1 both.2, rfl⟩
  · exact (gives_newRule sound).and fun x both => gives_suffixes sound both.1 both.2
  · exact (gives_primary sound).and fun x both => gives_suffixes sound both.1 both.2

end

end LedgerScript

/-!
## What the rules of operators give

Operators between operands are read in one loop: an operand, and then as long as they bind strongly enough an operator and
what binds more strongly, or a test of a type.  What has been read so far is in order, and the next operator may follow it;
when the loop ends, the next one does not bind strongly enough.
-/

namespace LedgerScript

open Parse

/-- What binds at all is an operator, or a test of a type. -/
theorem precedence?_cases {kind : TokenKind} {r : Nat} (binds : precedence? kind = some r) :
    (∃ op : BinaryOp, kind = .symbol op.symbol ∧ op.rank = r ∧ op ≠ .coalesce) ∨ kind = .keyword .is_ ∧ isRank = r := by
  unfold precedence? at binds
  split at binds <;> cases binds
  · exact .inl ⟨.or, rfl, rfl, nofun⟩
  · exact .inl ⟨.and, rfl, rfl, nofun⟩
  · exact .inl ⟨.eq, rfl, rfl, nofun⟩
  · exact .inl ⟨.ne, rfl, rfl, nofun⟩
  · exact .inl ⟨.lt, rfl, rfl, nofun⟩
  · exact .inl ⟨.le, rfl, rfl, nofun⟩
  · exact .inl ⟨.gt, rfl, rfl, nofun⟩
  · exact .inl ⟨.ge, rfl, rfl, nofun⟩
  · exact .inr ⟨rfl, rfl⟩
  · exact .inl ⟨.add, rfl, rfl, nofun⟩
  · exact .inl ⟨.sub, rfl, rfl, nofun⟩
  · exact .inl ⟨.mul, rfl, rfl, nofun⟩
  · exact .inl ⟨.div, rfl, rfl, nofun⟩
  · exact .inl ⟨.rem, rfl, rfl, nofun⟩

/-- What operators between operands have made so far: the next operator may follow it. -/
structure Operating (least : Nat) (x : Expr) (s : ParserState) : Prop where
  layered : x.Layered
  firm : x.isLoose = false
  binds : x.opTree.Binds least
  precedes : ∀ r ∈ precedence? s.next, x.opTree.Precedes r

section

variable {g : Grammar} {arrows : Bool} {least : Nat} {s : ParserState}
variable {x : Expr}

theorem ends_nextKind : Ends nextKind s fun kind s' => kind = s.next ∧ s' = s := by
  obtain ⟨rest, prev⟩ := s
  cases rest with
  | nil => nofun
  | cons t rest =>
    intro kind s' run
    cases run
    exact ⟨rfl, rfl⟩

theorem ends_spanFrom {start : Span} : Ends (spanFrom start) s fun _ s' => s' = s := by
  intro span s' run
  cases run
  rfl

theorem Operating.of_isTight (layered : x.Layered) (tight : x.isTight = true) : Operating least x s := by
  refine ⟨layered, Expr.isLoose_of_isTight tight, ?_, fun r _ => ?_⟩
  · rw [Expr.opTree_of_isTight tight]
    trivial
  · rw [Expr.opTree_of_isTight tight]
    nofun

theorem Operating.binary {y : Expr} {op : BinaryOp} {s' : ParserState} {span : Span} (operating : Operating least x s)
    (here : op.rank ∈ precedence? s.next) (strong : least ≤ op.rank) (operated : Operated (op.rank + 1) y s') :
    Operating least (.binary span op x y) s' where
  layered := .binary operating.layered operated.layered ⟨operating.firm, operated.firm⟩
    ⟨operating.layered.ordered, operated.layered.ordered, operating.precedes _ here, operated.binds⟩
  firm := rfl
  binds := ⟨strong, operating.binds⟩
  precedes r next := by
    intro rank same
    cases same
    exact Nat.le_of_lt_succ (operated.ends r next)

theorem Operating.is {type : TypeRef} {s' : ParserState} {span : Span} (operating : Operating least x s)
    (here : isRank ∈ precedence? s.next) (strong : least ≤ isRank) : Operating least (.is span x type) s' where
  layered := .is operating.layered operating.firm ⟨operating.layered.ordered, operating.precedes _ here⟩
  firm := rfl
  binds := ⟨strong, operating.binds⟩
  precedes _ _ := nofun

variable (sound : g.Layered)
include sound

theorem ends_binaryRule : Ends (binaryRule g arrows least) s (Operated least) := by
  refine ends_any fun start s => ?_
  refine Ends.and (fun x s' run => gives_unaryRule sound s x s' run) fun x s ⟨layered, tight⟩ => ?_
  refine ends_repeatStep (Operating least) (fun x s operating => ?_) (.of_isTight layered tight)
  refine Ends.and ends_nextKind fun kind s' ⟨kind_eq, s_eq⟩ => ?_
  subst kind_eq s_eq
  -- the loop ends where nothing follows that binds strongly enough
  have ended (weak : ∀ r ∈ precedence? s'.next, r < least) : Operated least x s' :=
    ⟨operating.layered, operating.firm, operating.binds, weak⟩
  split
  · next none => exact ends_pure (ended (by simp [none]))
  · next r rank =>
    split
    · next weak => exact ends_pure (ended (by simpa [rank] using weak))
    · next strong =>
      refine ends_any fun _ s => ?_
      obtain ⟨op, kind, rfl, -⟩ | ⟨kind, rfl⟩ := precedence?_cases rank
      · rw [kind] at rank ⊢
        simp only [BinaryOp.ofSymbol?_symbol]
        refine (sound.binary arrows _ s).and fun y s operated => Ends.and ends_spanFrom fun span s' same => ?_
        subst same
        exact ends_pure (operating.binary (by rw [kind]; exact rank) (Nat.le_of_not_lt strong) operated)
      · rw [kind] at rank ⊢
        refine ends_any fun type s => Ends.and ends_spanFrom fun span s' same => ends_pure ?_
        exact operating.is (by rw [kind]; exact rank) (Nat.le_of_not_lt strong)

theorem gives_coalesceRule : Gives (coalesceRule g arrows) fun x => x.Layered ∧ x.isLoose = false := by
  have operated : Gives (binaryRule g arrows weakest) fun x =>
      (x.Layered ∧ x.isLoose = false) ∧ x.opTree.Binds (BinaryOp.coalesce.rank + 1) := by
    intro s x s' run
    have made := ends_binaryRule sound x s' run
    exact ⟨⟨made.layered, made.firm⟩, made.binds⟩
  refine .any fun start => operated.and fun x ⟨both, _⟩ => ?_
  refine gives_repeatStep (fun x => x.Layered ∧ x.isLoose = false) (fun x ⟨layered, firm⟩ => ?_) both
  refine .any fun _ => .ite ?_ (.done ⟨layered, firm⟩)
  refine operated.and fun y ⟨⟨layered', firm'⟩, binds⟩ => .any fun _ => .done ⟨?_, rfl⟩
  exact .binary layered layered' ⟨firm, firm'⟩ ⟨layered.ordered, layered'.ordered, fun _ _ => Nat.zero_le _, binds⟩

theorem gives_ternaryRule : Gives (ternaryRule g arrows) Expr.Layered := by
  refine .any fun start => (gives_coalesceRule sound).and fun cond ⟨layered, firm⟩ => .any fun _ => ?_
  refine .ite ?_ (.done layered)
  refine (sound.expr arrows).and fun yes layered' => .any fun _ => ?_
  exact (sound.expr arrows).and fun no layered'' => .any fun _ => .done (.ternary layered layered' layered'' firm)

omit sound in
theorem gives_checkPlace {op : Token} : Gives (checkPlace x op) fun _ => isPlace x = true := by
  unfold checkPlace
  split
  · next place => exact .done place
  · exact .fails

theorem gives_exprRule : Gives (exprRule g arrows) Expr.Layered := by
  refine .any fun start => (gives_ternaryRule sound).and fun target layered => .any fun tok => ?_
  split
  · exact .done layered
  · refine gives_checkPlace.and fun _ place => .any fun _ => (sound.expr arrows).and fun value layered' => ?_
    exact .any fun _ => .done (.assign layered layered' place)

end

end LedgerScript
