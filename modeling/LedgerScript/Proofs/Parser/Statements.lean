import LedgerScript.Proofs.Parser.Operands

/-!
# What the rules of statements and declarations give

The bodies of functions are made of statements, and these have expressions and declarations in them.
-/

namespace LedgerScript

open Parse

/-- All operators in the members of a class or contract are in order. -/
structure Members.Layered (ms : Members) : Prop where
  fields : ∀ b ∈ ms.fields, ∀ x ∈ b.init, x.Layered
  ctor : ∀ fn ∈ ms.ctor, fn.Layered
  methods : ∀ m ∈ ms.methods, m.fn.Layered
  ledger : ∀ b ∈ ms.ledger, ∀ x ∈ b.init, x.Layered
  classes : ∀ c ∈ ms.classes, c.Layered

theorem Members.Layered.classOf {ms : Members} (layered : ms.Layered) (span : Span)
    (header : String × Option String × List String) (mods : Modifiers) (decorators : List String) (doc : Bytes) :
    (LedgerScript.classOf span header mods decorators ms doc).Layered :=
  .mk (fun b mem => layered.fields b (List.mem_reverse.mp mem)) layered.ctor
    fun m mem => layered.methods m (List.mem_reverse.mp mem)

section

variable {g : Grammar} {arrows : Bool} (sound : g.Layered)
variable {start : Span} {mods : Modifiers} {doc : Bytes}
include sound

/-! ## Declarations -/

theorem gives_methodRule : Gives (methodRule g arrows start mods doc) fun d => d.fn.Layered := by
  refine .any fun _ => .any fun name => (gives_params sound).and fun ps each => .any fun result => ?_
  have missing : Gives (pure Body.missing : Parse Body) Body.Layered := .done .missing
  have block : Gives (Body.block <$> g.block arrows) Body.Layered := (sound.block arrows).map fun _ layered => .block layered
  refine .ite (.any fun _ => missing.and ?rest) (block.and ?rest)
  exact fun body layered => .any fun _ => .done (.mk each layered)

theorem gives_memberRule {inContract : Bool} {ms : Members}
    (layered : ms.Layered) : Gives (memberRule g arrows inContract start mods doc ms) Members.Layered := by
  refine .any fun tok => .any fun next => .ite (.ite .stops ?ctor) (.ite ?method (.ite ?ledger (.ite ?field gives_failExpected)))
  case ctor =>
    refine .any fun _ => (gives_params sound).and fun ps each => (sound.block arrows).and fun body inner => ?_
    refine .any fun _ => .done { layered with ctor := fun fn same => ?_ }
    cases same
    exact .mk each (.block inner)
  case method =>
    refine (gives_methodRule sound).and fun m inner => .done { layered with methods := ?_ }
    exact List.forall_mem_cons.mpr ⟨inner, layered.methods⟩
  case ledger =>
    refine .any fun _ => .any fun name => .any fun _ => .any fun type => (gives_initialValue sound).and fun init inner => ?_
    refine .any fun _ => .any fun _ => .done { layered with ledger := ?_ }
    exact List.forall_mem_cons.mpr ⟨inner, layered.ledger⟩
  case field =>
    refine .any fun _ => .any fun type => (gives_initialValue sound).and fun init inner => ?_
    refine .any fun _ => .any fun _ => .done { layered with fields := ?_ }
    exact List.forall_mem_cons.mpr ⟨inner, layered.fields⟩

theorem gives_membersRule {nested : Option (Span → Modifiers → List String → Bytes → Parse ClassDecl)}
    (inner : ∀ rule ∈ nested, ∀ start mods decorators doc, Gives (rule start mods decorators doc) ClassDecl.Layered) :
    Gives (membersRule g arrows nested) Members.Layered := by
  refine .any fun _ => gives_repeatStep Members.Layered (fun ms layered => ?_) ⟨nofun, nofun, nofun, nofun, nofun⟩
  refine .any fun _ => .ite (.done layered) (.any fun _ => .ite .misses (.any fun _ => .ite (.done layered) ?_))
  refine .any fun first => .any fun decorators => .any fun mods => .any fun isClass => ?_
  split
  · next rule found =>
    have rule_mem : rule ∈ nested := by
      split at found
      · exact found
      · cases found
    refine (inner rule rule_mem _ _ _ _).and fun c inner => .done { layered with classes := ?_ }
    exact List.forall_mem_cons.mpr ⟨inner, layered.classes⟩
  · exact .ite .misses ((gives_memberRule sound layered).and fun ms layered => .done layered)

theorem gives_classRule {decorators : List String} :
    Gives (classRule g arrows start mods decorators doc) ClassDecl.Layered := by
  have no : ∀ rule ∈ (none : Option (Span → Modifiers → List String → Bytes → Parse ClassDecl)),
      ∀ start mods decorators doc, Gives (rule start mods decorators doc) ClassDecl.Layered := by
    intro rule same
    cases same
  refine .any fun header => (gives_membersRule sound no).and fun ms layered => .any fun span => ?_
  exact .done (layered.classOf span header mods decorators doc)

theorem gives_contractRule : Gives (contractRule g arrows start doc) fun d => (Stmt.contract d).Layered := by
  refine .any fun _ => .any fun _ => .any fun name => (gives_membersRule sound ?_).and fun ms layered => .any fun _ => ?_
  · intro rule same start mods decorators doc
    cases same
    exact gives_classRule sound
  · refine .done (.contract (fun b mem => ?_) layered.ctor (fun m mem => layered.methods m (List.mem_reverse.mp mem))
      fun c mem => layered.classes c (List.mem_reverse.mp mem))
    rcases List.mem_append.mp mem with mem | mem
    · exact layered.ledger b (List.mem_reverse.mp mem)
    · exact layered.fields b (List.mem_reverse.mp mem)

theorem gives_interfaceMember : Gives (interfaceMember g) fun m => ∀ p ∈ m.params, p.Layered := by
  refine .any fun _ => .any fun _ => .any fun _ => .any fun name => .any fun isCall => ?_
  have none : Gives (pure [] : Parse (List Param)) fun ps => ∀ p ∈ ps, p.Layered := .done nofun
  refine .ite ((gives_params sound).and ?rest) (.ite .misses (none.and ?rest))
  exact fun ps each => .any fun _ => .any fun _ => .any fun _ => .done each

theorem gives_interfaceRule : Gives (interfaceRule g start doc) fun d => ∀ m ∈ d.members, ∀ p ∈ m.params, p.Layered := by
  refine .any fun _ => .any fun name => .any fun _ => .ite (.any ?rest) (.any ?rest)
  refine fun bases => .any fun _ => Gives.and ?_ fun ms (each : ∀ m ∈ ms, ∀ p ∈ m.params, p.Layered) => ?_
  · refine gives_repeatStep (fun ms => ∀ m ∈ ms, ∀ p ∈ m.params, p.Layered) (fun ms each => ?_) nofun
    refine .any fun _ => .ite (.done fun m mem => each m (List.mem_reverse.mp mem)) (.any fun _ => .ite (.done each) ?_)
    exact (gives_interfaceMember sound).and fun m inner => .done (List.forall_mem_cons.mpr ⟨inner, each⟩)
  · exact .any fun _ => .done each

theorem gives_declRule : Gives (declRule g arrows) Stmt.Layered := by
  refine .any fun first => .any fun decorators => .any fun mods => .any fun kind => ?_
  split
  · exact (gives_functionRule sound).and fun fn layered => .any fun _ => .done (.function layered)
  · exact (gives_classRule sound).and fun d layered => .done (.classDecl layered)
  · exact (gives_interfaceRule sound).and fun d each => .done (.interface each)
  · exact (gives_contractRule sound).and fun d layered => .done layered
  · exact (gives_contractRule sound).and fun d layered => .done layered
  · exact gives_failExpected

/-! ## Statements -/

theorem gives_variableRule {kind : DeclKind} : Gives (variableRule g arrows kind) fun b => ∀ x ∈ b.init, x.Layered := by
  refine .any fun word => .any fun name => .any fun type => .any fun _ => .ite .misses ?_
  exact (gives_initialValue sound).and fun init layered => .any fun _ => .done layered

omit sound in
theorem gives_statementsUntil {stop : TokenKind → Bool} {one : Grammar → Bool → Parse Stmt}
    (each : Gives (one g arrows) Stmt.Layered) : Gives (statementsUntil g arrows stop one) fun ss => ∀ s ∈ ss, s.Layered := by
  refine gives_repeatStep (fun ss => ∀ s ∈ ss, s.Layered) (fun ss all => ?_) nofun
  refine .any fun _ => .ite (.done fun s mem => all s (List.mem_reverse.mp mem)) (.any fun _ => .ite .misses ?_)
  refine .any fun _ => .ite (.done all) ?_
  exact each.and fun s layered => .done (List.forall_mem_cons.mpr ⟨layered, all⟩)

theorem gives_forRule : Gives (forRule g arrows) Stmt.Layered := by
  have rest {start : Span} {init : Option Stmt} (first : ∀ t ∈ init, t.Layered) : Gives (do
      expectSymbol .semicolon
      let cond ← if ← at? (.symbol .semicolon) then pure none else some <$> g.expr arrows
      expectSymbol .semicolon
      let post ← if ← at? (.symbol .rparen) then pure none else some <$> g.expr arrows
      expectSymbol .rparen
      let body ← g.stmt arrows
      return .for (← spanFrom start) init cond post body) Stmt.Layered := by
    refine .any fun _ => .any fun _ => .either (.done nofun) (sound.expr arrows).some fun cond second => ?_
    refine .any fun _ => .any fun _ => .either (.done nofun) (sound.expr arrows).some fun post third => ?_
    exact .any fun _ => (sound.stmt arrows).and fun body fourth => .any fun _ => .done (.for first second third fourth)
  have some_layered {t : Stmt} (layered : t.Layered) : ∀ u ∈ some t, u.Layered := by
    intro u same
    cases same
    exact layered
  have none : Gives (pure none : Parse (Option Stmt)) fun o => ∀ t ∈ o, t.Layered := .done nofun
  have declared (kind : DeclKind) : Gives ((some <| Stmt.declare kind ·) <$> variableRule g arrows kind) fun o =>
      ∀ t ∈ o, t.Layered :=
    (gives_variableRule sound).map fun b layered => some_layered (.declare layered)
  refine .any fun _ => .any fun _ => .any fun kind => ?_
  dsimp only
  split
  · exact none.and fun init layered => rest layered
  · exact (declared .letDecl).and fun init layered => rest layered
  · exact (declared .varDecl).and fun init layered => rest layered
  · exact (declared .constDecl).and fun init layered => rest layered
  · refine (sound.expr arrows).and fun x layered => Gives.and ?_ fun init layered => rest layered
    exact .done (some_layered (.expr layered))

theorem gives_forEachRule : Gives (forEachRule g arrows) Stmt.Layered := by
  refine .any fun _ => .any fun _ => .any fun kind => .any fun name => .any fun _ => ?_
  refine (sound.expr arrows).and fun iter first => .any fun _ => (sound.stmt arrows).and fun body second => ?_
  exact .any fun _ => .done (.forEach first second)

theorem gives_switchRule : Gives (switchRule g arrows) Stmt.Layered := by
  refine .any fun _ => (gives_parenthesized sound).and fun tag first => .any fun _ =>
    Gives.and ?_ fun cases (each : ∀ c ∈ cases, (∀ x ∈ c.value, x.Layered) ∧ ∀ t ∈ c.body, t.Layered) => .any fun _ =>
      .done (.switch first (fun c mem => (each c mem).1) fun c mem => (each c mem).2)
  refine gives_repeatStep (fun r => ∀ c ∈ r.2, (∀ x ∈ c.value, x.Layered) ∧ ∀ t ∈ c.body, t.Layered)
    (fun (_, cs) each => ?_) nofun
  refine .any fun _ => .ite (.done fun c mem => each c (List.mem_reverse.mp mem)) (.any fun tok => ?_)
  have rest {value : Option Expr} (layered : ∀ x ∈ value, x.Layered) : Gives (do
      expectSymbol .colon
      let body ← statementsUntil g arrows endsClause fun g => g.stmt
      let clause : CaseClause := ⟨← spanFrom tok.span, value, body⟩
      return .inl (value.isNone, clause :: cs))
      (Round (fun r : Bool × List CaseClause => ∀ c ∈ r.2, (∀ x ∈ c.value, x.Layered) ∧ ∀ t ∈ c.body, t.Layered)
        fun cs : List CaseClause => ∀ c ∈ cs, (∀ x ∈ c.value, x.Layered) ∧ ∀ t ∈ c.body, t.Layered) := by
    refine .any fun _ => (gives_statementsUntil (sound.stmt arrows)).and fun body all => .any fun _ => ?_
    exact .done (List.forall_mem_cons.mpr ⟨⟨layered, all⟩, each⟩)
  have none : Gives (pure none : Parse (Option Expr)) fun o => ∀ x ∈ o, x.Layered := .done nofun
  dsimp only
  split
  · exact .ite .stops (.any fun _ => (sound.expr arrows).some.and fun value layered => rest layered)
  · exact .ite .stops (.any fun _ => none.and fun value layered => rest layered)
  · exact .misses

theorem gives_tryRule : Gives (tryRule g arrows) Stmt.Layered := by
  refine .any fun _ => (sound.block arrows).and fun body first =>
    Gives.and ?_ fun catches (each : ∀ c ∈ catches, c.body.Layered) => .any fun _ => ?_
  · refine gives_repeatStep (fun r => ∀ c ∈ r.2, c.body.Layered) (fun (_, cs) each => ?_) nofun
    refine .any fun _ => .ite (.done fun c mem => each c (List.mem_reverse.mp mem)) (.any fun tok => .ite .stops ?_)
    refine .any fun _ => .ite (.any fun name => .any fun type => .any fun _ => .any ?rest) (.any ?rest)
    refine fun (name, type) => (sound.block arrows).and fun body layered => .any fun _ => ?_
    exact .done (List.forall_mem_cons.mpr ⟨layered, each⟩)
  · refine .either (sound.block arrows).some (.done nofun) fun final last => .ite .misses ?_
    exact .any fun _ => .done (.try first each last)

theorem gives_transferRule : Gives (transferRule g arrows) Stmt.Layered := by
  refine .any fun _ => .any fun _ => (sound.expr arrows).and fun payer first => .any fun _ => ?_
  refine (sound.expr arrows).and fun payee second => .any fun _ => (sound.expr arrows).and fun amount third => ?_
  exact .any fun _ => .any fun _ => .any fun _ => .done (.transfer first second third)

theorem gives_stmtRule : Gives (stmtRule g arrows) Stmt.Layered := by
  refine .any fun tok => ?_
  split
  · exact (sound.block arrows).and fun b layered => .done (.block layered)
  · refine .any fun _ => (gives_parenthesized sound).and fun cond first => (sound.stmt arrows).and fun yes second => ?_
    exact .any fun _ => .either (sound.stmt arrows).some (.done nofun) fun no third => .any fun _ => .done (.if first second third)
  · refine .any fun _ => (gives_parenthesized sound).and fun cond first => (sound.stmt arrows).and fun body second => ?_
    exact .any fun _ => .done (.while first second)
  · refine .any fun _ => (sound.stmt arrows).and fun body first => .any fun _ => ?_
    exact (gives_parenthesized sound).and fun cond second => .any fun _ => .any fun _ => .done (.doWhile first second)
  · exact gives_forRule sound
  · exact gives_forEachRule sound
  · exact gives_switchRule sound
  · exact gives_tryRule sound
  · exact .any fun _ => (sound.expr arrows).and fun x layered => .any fun _ => .any fun _ => .done (.throw layered)
  · refine .any fun _ => .any fun _ => .any fun _ => .either (.done nofun) (sound.expr arrows).some fun x inner => ?_
    exact .any fun _ => .any fun _ => .done (.return inner)
  · exact .any fun _ => .any fun _ => .any fun _ => .done .break
  · exact .any fun _ => .any fun _ => .any fun _ => .done .continue
  · refine .any fun _ => .any fun _ => (sound.expr arrows).and fun target first => .any fun _ => ?_
    exact (sound.block arrows).and fun body second => .any fun _ => .done (.lock first second)
  · refine .any fun _ => .any fun _ => (sound.expr arrows).and fun target inner => .any fun _ => .any fun _ => ?_
    exact .any fun _ => .done (.unlock inner)
  · exact gives_transferRule sound
  · refine (gives_matchRule sound).and fun x both => .any fun _ => .any fun _ => .done (.expr both.1)
  · exact .fails
  · exact .fails
  · split
    · exact (gives_variableRule sound).and fun b inner => .any fun _ => .any fun _ => .done (.declare inner)
    · refine .any fun _ => .ite (gives_declRule sound) ?_
      exact (gives_exprRule sound).and fun x layered => .any fun _ => .any fun _ => .done (.expr layered)

theorem gives_blockRule : Gives (blockRule g arrows) Block.Layered := by
  refine .any fun _ => (gives_statementsUntil (gives_stmtRule sound)).and fun ss each => ?_
  exact .any fun _ => .any fun _ => .done (.mk each)

end

/-- Down to any depth of nesting, all operators are in order. -/
theorem grammar_layered (n : Nat) : (grammar n).Layered := by
  induction n with
  | zero => exact ⟨fun _ => .fails, fun _ => .fails, fun _ _ _ => nofun, fun _ => .fails, fun _ => .fails, fun _ => .fails⟩
  | succ n ih =>
    exact ⟨fun _ => gives_exprRule ih, fun _ => gives_ternaryRule ih, fun _ _ _ => ends_binaryRule ih,
      fun _ => gives_unaryRule ih, fun _ => gives_stmtRule ih, fun _ => gives_blockRule ih⟩

end LedgerScript
