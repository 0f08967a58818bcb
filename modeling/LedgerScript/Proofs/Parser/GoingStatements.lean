import LedgerScript.Proofs.Parser.Going

/-!
# Where the rules of statements and declarations go

The rules of statements are judged like those of expressions.  A statement may be a block at the very same place, but a block
takes its brace before it goes on.
-/

namespace LedgerScript

open Parse

/-! ## What is found in statements -/

section

variable {ts : List Token}

@[simp]
theorem foundPlaced_foundInStmts {ss : List Stmt} : FoundPlaced ts (foundInStmts ss) ↔ ∀ s ∈ ss, FoundPlaced ts s.found := by
  induction ss with
  | nil => simp [foundInStmts]
  | cons s rest ih => simp [foundInStmts, ih]

@[simp]
theorem foundPlaced_foundInOptStmt {o : Option Stmt} : FoundPlaced ts (foundInOptStmt o) ↔ ∀ s ∈ o, FoundPlaced ts s.found := by
  cases o <;> simp [foundInOptStmt]

@[simp]
theorem foundPlaced_foundInOptBlock {o : Option Block} : FoundPlaced ts (foundInOptBlock o) ↔ ∀ b ∈ o, FoundPlaced ts b.found := by
  cases o <;> simp [foundInOptBlock]

@[simp]
theorem foundPlaced_foundInBindings {bs : List Binding} :
    FoundPlaced ts (foundInBindings bs) ↔ ∀ b ∈ bs, FoundPlaced ts b.found := by
  induction bs with
  | nil => simp [foundInBindings]
  | cons b rest ih => simp [foundInBindings, ih]

def CaseClause.Placed (ts : List Token) (c : CaseClause) : Prop :=
  (∀ x ∈ c.value, FoundPlaced ts x.found) ∧ FoundPlaced ts (foundInStmts c.body)

@[simp]
theorem foundPlaced_foundInCases {cs : List CaseClause} : FoundPlaced ts (foundInCases cs) ↔ ∀ c ∈ cs, c.Placed ts := by
  induction cs with
  | nil => simp [foundInCases]
  | cons c rest ih =>
    obtain ⟨span, value, body⟩ := c
    simp [foundInCases, ih, CaseClause.Placed, and_assoc]

@[simp]
theorem foundPlaced_foundInCatches {cs : List CatchClause} :
    FoundPlaced ts (foundInCatches cs) ↔ ∀ c ∈ cs, FoundPlaced ts c.body.found := by
  induction cs with
  | nil => simp [foundInCatches]
  | cons c rest ih =>
    obtain ⟨span, name, type, body⟩ := c
    simp [foundInCatches, ih]

@[simp]
theorem foundPlaced_foundInCtor {o : Option Function} : FoundPlaced ts (foundInCtor o) ↔ ∀ fn ∈ o, FoundPlaced ts fn.found := by
  cases o <;> simp [foundInCtor]

theorem foundPlaced_foundInMethods (skip : Bool) {ms : List FunctionDecl} (each : ∀ m ∈ ms, FoundPlaced ts m.fn.found) :
    FoundPlaced ts (foundInMethods skip ms) := by
  induction ms with
  | nil => exact foundPlaced_nil
  | cons m rest ih =>
    rw [List.forall_mem_cons] at each
    obtain ⟨span, ⟨span', name, params, result, body, isAsync, isArrow⟩, mods, decorators, doc⟩ := m
    obtain ⟨here, others⟩ := each
    cases body with
    | missing =>
      cases skip with
      | true => exact ih others
      | false => exact foundPlaced_append.mpr ⟨(foundPlaced_append.mp here).1, ih others⟩
    | block b => exact foundPlaced_append.mpr ⟨here, ih others⟩
    | expr x => exact foundPlaced_append.mpr ⟨here, ih others⟩

@[simp]
theorem foundPlaced_foundInClasses {cs : List ClassDecl} :
    FoundPlaced ts (foundInClasses cs) ↔ ∀ c ∈ cs, FoundPlaced ts c.found := by
  induction cs with
  | nil => simp [foundInClasses]
  | cons c rest ih => simp [foundInClasses, ih]

structure Members.Placed (ts : List Token) (ms : Members) : Prop where
  fields : ∀ b ∈ ms.fields, FoundPlaced ts b.found
  ctor : ∀ fn ∈ ms.ctor, FoundPlaced ts fn.found
  methods : ∀ m ∈ ms.methods, FoundPlaced ts m.fn.found
  ledger : ∀ b ∈ ms.ledger, FoundPlaced ts b.found
  classes : ∀ c ∈ ms.classes, FoundPlaced ts c.found

theorem Members.Placed.classOf {ms : Members} (placed : ms.Placed ts) (span : Span) (header : String × Option String × List String)
    (mods : Modifiers) (decorators : List String) (doc : Bytes) :
    FoundPlaced ts (LedgerScript.classOf span header mods decorators ms doc).found := by
  have methods := foundPlaced_foundInMethods true fun m mem => placed.methods m (List.mem_reverse.mp mem)
  simp only [LedgerScript.classOf, ClassDecl.found, foundPlaced_append, foundPlaced_foundInBindings, foundPlaced_foundInCtor,
    List.mem_reverse]
  exact ⟨⟨placed.fields, placed.ctor⟩, methods⟩

end

section

variable {g : Grammar} {arrows : Bool} {ts : List Token} {n : Nat} (fits : g.Fits ts n)
variable {m : Nat} {K : TokenKind → Prop} {start : Span} {mods : Modifiers} {doc : Bytes}
include fits

/-! ## Declarations -/

theorem goes_decoratorsRule : Goes ts m K decoratorsRule (fun _ => 0) fun _ => True := by
  refine goes_repeatStep (fun _ => True) (fun ds _ => ?_) trivial
  exact .ifAccept fits.self ((goes_expectWord fits.self).and fun _ _ => .done trivial) (.doneAt trivial rfl)

theorem goes_modifiersRule {member : Bool} : Goes ts m K (modifiersRule member) (fun _ => 0) fun _ => True := by
  refine goes_repeatStep (fun _ => True) (fun ms _ => .peek fun tok mem _ _ => ?_) trivial
  dsimp only
  split
  · exact .doneAt trivial rfl
  · next modifier found =>
    have more : ∀ k, k = tok.kind → k ≠ .eof := by
      rintro k rfl ended
      rw [ended] at found
      cases found
    refine .ite (goes_stops ⟨nofun, (spanOf_token mem).within, nofun⟩) ?_
    exact (goes_advance fits.self more).and fun _ _ => .done trivial

theorem goes_methodRule :
    Goes ts n K (methodRule g arrows start mods doc) (fun _ => 1) fun d => FoundPlaced ts d.fn.found := by
  refine (goes_accept fits.self).pass fun _ _ => (goes_expectWord fits.self).and fun name _ => ?_
  refine ((goes_params fits).le (Nat.le_succ n)).and fun ps each => (goes_typeAfterColon fits).and fun result _ => ?_
  have block : Goes ts n anyKind (Body.block <$> g.block arrows) (fun _ => 0) fun b => FoundPlaced ts b.found :=
    (fits.block arrows).map (fun _ => Nat.zero_le 1) fun _ inner => inner
  refine .ite ((goes_expectSymbol fits.self).and fun _ _ => .thus (fun b => FoundPlaced ts b.found) foundPlaced_nil ?rest)
    (block.on ?rest fun _ _ => Nat.le_refl 0)
  exact fun body inner => .anySpan fun span => .done (foundPlaced_append.mpr ⟨foundPlaced_foundInParams each, inner⟩)

theorem goes_memberRule {inContract : Bool} {ms : Members}
    (placed : ms.Placed ts) : Goes ts n K (memberRule g arrows inContract start mods doc ms) (fun _ => 1) (Members.Placed ts) := by
  have params := (goes_params fits).le (Nat.le_succ n)
  have type := (goes_typeRule fits).le (Nat.le_succ n)
  refine .peek fun tok mem _ _ => .kindAt fun next => .dite (fun same => .ite ?again ?ctor) fun _ =>
    .ite ?method (.dite (fun both => ?ledger) fun _ => .dite (fun same => ?field) fun _ => goes_failExpected)
  case again => exact goes_stops ⟨nofun, (spanOf_token mem).within, nofun⟩
  case ctor =>
    refine (goes_advance_kind fits.self same).and fun _ _ => params.and fun ps each => (fits.block arrows).and fun body inner => ?_
    refine .anySpan fun span => .done { placed with ctor := fun fn here => ?_ }
    cases here
    exact foundPlaced_append.mpr ⟨foundPlaced_foundInParams each, inner⟩
  case method =>
    refine (goes_methodRule fits).and fun m inner => .done { placed with methods := ?_ }
    exact List.forall_mem_cons.mpr ⟨inner, placed.methods⟩
  case ledger =>
    rw [Bool.and_eq_true, decide_eq_true_eq] at both
    refine (goes_advance_kind fits.self both.1).and fun _ _ => (goes_expectIdent fits.self).and fun name _ => ?_
    refine (goes_expectSymbol fits.self).and fun _ _ => type.and fun type _ => (goes_initialValue fits).and fun init inner => ?_
    refine (goes_expectSymbol fits.self).and fun _ _ => .anySpan fun span => .done { placed with ledger := ?_ }
    exact List.forall_mem_cons.mpr ⟨foundPlaced_foundInOption.mpr inner, placed.ledger⟩
  case field =>
    refine (goes_advance_kind fits.self same).and fun _ _ => (goes_typeAfterColon fits).and fun type _ => ?_
    refine (goes_initialValue fits).and fun init inner => (goes_expectSymbol fits.self).and fun _ _ => .anySpan fun span => ?_
    refine .done { placed with fields := ?_ }
    exact List.forall_mem_cons.mpr ⟨foundPlaced_foundInOption.mpr inner, placed.fields⟩

theorem goes_membersRule {nested : Option (Span → Modifiers → List String → Bytes → Parse ClassDecl)}
    (inner : ∀ rule ∈ nested, ∀ start mods decorators doc,
      Goes ts n anyKind (rule start mods decorators doc) (fun _ => 1) fun c => FoundPlaced ts c.found) :
    Goes ts n anyKind (membersRule g arrows nested) (fun _ => 0) (Members.Placed ts) := by
  refine (goes_expectSymbol fits.self).and fun _ _ =>
    goes_repeatStep (Members.Placed ts) (fun ms placed => ?_) ⟨nofun, nofun, nofun, nofun, nofun⟩
  refine .ifAccept fits.self (.done placed) (.ifAt goes_misses (.ifAccept fits.self (.done placed) ?_))
  refine .peek fun first _ _ _ => (goes_decoratorsRule fits).pass fun decorators _ => ?_
  refine (goes_modifiersRule fits).pass fun mods _ => ?_
  refine .whether fun isClass => ?_
  split
  · next rule found =>
    have rule_mem : rule ∈ nested := by
      split at found
      · exact found
      · cases found
    refine (inner rule rule_mem _ _ _ _).and fun c placed' => .done { placed with classes := ?_ }
    exact List.forall_mem_cons.mpr ⟨placed', placed.classes⟩
  · exact .ite goes_misses ((goes_memberRule fits placed).and fun ms placed => .done placed)

theorem goes_classHeader : Goes ts m anyKind classHeader (fun _ => 1) fun _ => True := by
  have name {m : Nat} : Goes ts m anyKind ((·.nameText) <$> expectIdent "interface name") (fun _ => 1) fun _ => True :=
    (goes_expectIdent fits.self).map (fun _ => Nat.le_refl 1) fun _ _ => trivial
  have super {m : Nat} : Goes ts m anyKind ((some ·.nameText) <$> expectIdent "superclass name") (fun _ => 0) fun _ => True :=
    (goes_expectIdent fits.self).map (fun _ => Nat.zero_le 1) fun _ _ => trivial
  refine (goes_expect fits.self).and fun _ _ => (goes_expectIdent fits.self).and fun _ _ => ?_
  refine .ifAccept fits.self (super.on ?rest fun _ _ => Nat.le_refl 0) (.thus (fun _ => True) trivial ?rest)
  refine fun superName _ => .ifAccept fits.self ?_ (.thus (fun _ => True) trivial fun _ _ => .done trivial)
  exact (goes_commaSeparated fits.self name).and fun _ _ => .done trivial

theorem goes_classRule {decorators : List String} :
    Goes ts (n + 1) anyKind (classRule g arrows start mods decorators doc) (fun _ => 1) fun c => FoundPlaced ts c.found := by
  have no : ∀ rule ∈ (none : Option (Span → Modifiers → List String → Bytes → Parse ClassDecl)), ∀ start mods decorators doc,
      Goes ts n anyKind (rule start mods decorators doc) (fun _ => 1) fun c => FoundPlaced ts c.found := by
    intro rule same
    cases same
  refine (goes_classHeader fits).take fun header _ => (goes_membersRule fits no).and fun ms placed => .anySpan fun span => ?_
  exact .done (placed.classOf span header mods decorators doc)

theorem goes_contractRule :
    Goes ts (n + 1) K (contractRule g arrows start doc) (fun _ => 1) fun c => FoundPlaced ts c.found := by
  refine (goes_accept fits.self).pass fun onChain _ => (goes_expect fits.self).take fun _ _ => ?_
  refine (goes_expectIdent fits.self).and fun name _ => (goes_membersRule fits ?_).and fun ms placed => .anySpan fun span => ?_
  · intro rule same start mods decorators doc
    cases same
    exact (goes_classRule fits).le (Nat.le_succ n)
  · have methods := foundPlaced_foundInMethods false fun m mem => placed.methods m (List.mem_reverse.mp mem)
    refine .done ?_
    simp only [ContractDecl.found, foundPlaced_append, foundPlaced_foundInBindings, foundPlaced_foundInCtor,
      foundPlaced_foundInClasses, List.mem_reverse]
    exact ⟨⟨⟨⟨placed.ledger, placed.fields⟩, placed.ctor⟩, methods⟩, placed.classes⟩

theorem goes_interfaceMember : Goes ts n anyKind (interfaceMember g) (fun _ => 1) fun _ => True := by
  refine .here fun start mem => (goes_modifiersRule fits).pass fun _ _ => (goes_accept fits.self).pass fun marked _ => ?_
  refine (goes_expectWord fits.self).and fun name _ => .whether fun isCall => ?_
  have params : Goes ts n anyKind (params g) (fun _ => 0) fun _ => True :=
    ((goes_params fits).le (Nat.le_succ n)).weaken (fun _ => Nat.zero_le 1) fun _ _ => trivial
  refine .ite (params.when.on ?rest fun _ _ => Nat.le_refl 0) (.ite goes_misses (.thus (fun _ => True) trivial ?rest))
  exact fun ps _ => (goes_typeAfterColon fits).and fun type _ => (goes_expectSymbol fits.self).and fun _ _ =>
    .anySpan fun span => .done trivial

theorem goes_interfaceRule : Goes ts (n + 1) anyKind (interfaceRule g start doc) (fun _ => 1) fun _ => True := by
  have name : Goes ts n anyKind ((·.nameText) <$> expectIdent "interface name") (fun _ => 1) fun _ => True :=
    (goes_expectIdent fits.self).map (fun _ => Nat.le_refl 1) fun _ _ => trivial
  refine (goes_expect fits.self).take fun _ _ => (goes_expectIdent fits.self).and fun _ _ => ?_
  refine .ifAccept fits.self (((goes_commaSeparated fits.self name).on ?rest fun _ _ => Nat.le_refl 0))
    (.thus (fun bs => ∀ b ∈ bs, True) nofun ?rest)
  refine fun bases _ => (goes_expectSymbol fits.self).and fun _ _ => Goes.pass ?members fun members (_ : True) =>
    .anySpan fun span => .done trivial
  refine goes_repeatStep (fun _ => True) (fun ms _ => ?_) trivial
  refine .ifAccept fits.self (.done trivial) (.ifAccept fits.self (.done trivial) ?_)
  exact (goes_interfaceMember fits).when.and fun _ _ => .done trivial

theorem goes_declRule : Goes ts (n + 1) anyKind (declRule g arrows) (fun _ => 1) fun s => FoundPlaced ts s.found := by
  refine .peek fun first mem _ _ => (goes_decoratorsRule fits).pass fun decorators _ => ?_
  refine (goes_modifiersRule fits).pass fun mods _ => ?_
  refine .nextKind fun kind _ => ?_
  split
  · refine (goes_functionRule fits).when.and fun fn both => .anySpan fun span => .done ?_
    exact foundPlaced_cons.mpr ⟨trivial, both.2⟩
  · exact (goes_classRule fits).when.and fun c placed => .done placed
  · exact (goes_interfaceRule fits).when.and fun _ _ => .done foundPlaced_nil
  · exact (goes_contractRule fits).and fun c placed => .done placed
  · exact (goes_contractRule fits).and fun c placed => .done placed
  · exact goes_failExpected

/-! ## Statements -/

theorem goes_variableRule {kind : DeclKind} (more : ∀ k, K k → k ≠ .eof) :
    Goes ts (n + 1) K (variableRule g arrows kind) (fun _ => 1) fun b => FoundPlaced ts b.found := by
  refine (goes_advance fits.self more).take fun word _ => (goes_expectIdent fits.self).and fun name _ => ?_
  refine (goes_typeAfterColon fits).and fun type _ => .whether fun _ => .ite goes_misses ?_
  refine (goes_initialValue fits).and fun init inner => .anySpan fun span => .done ?_
  exact foundPlaced_foundInOption.mpr inner

omit fits in
theorem goes_statementsUntil (lexed : WellLexed ts) {stop : TokenKind → Bool} {one : Grammar → Bool → Parse Stmt}
    (each : Goes ts n anyKind (one g arrows) (fun _ => 1) fun s => FoundPlaced ts s.found) :
    Goes ts n K (statementsUntil g arrows stop one) (fun _ => 0) fun ss => FoundPlaced ts (foundInStmts ss) := by
  have rounds : Goes ts n K (statementsUntil g arrows stop one) (fun _ => 0) fun ss => ∀ s ∈ ss, FoundPlaced ts s.found := by
    refine goes_repeatStep (fun ss => ∀ s ∈ ss, FoundPlaced ts s.found) (fun ss all => .nextKind fun kind _ => ?_) nofun
    refine .ite (.doneAt (fun s mem => all s (List.mem_reverse.mp mem)) rfl) (.ifAt goes_misses ?_)
    refine .ifAccept lexed (.done all) (each.when.and fun s inner => ?_)
    exact .done (List.forall_mem_cons.mpr ⟨inner, all⟩)
  exact rounds.weaken (fun _ => Nat.le_refl 0) fun ss => foundPlaced_foundInStmts.mpr

theorem goes_optional : Goes ts n anyKind (some <$> g.expr arrows) (fun _ => 0) fun o => FoundPlaced ts (foundInOption o) := by
  refine (fits.expr arrows).map (fun _ => Nat.zero_le 1) fun x placed => ?_
  exact placed.found

theorem goes_forRule (more : ∀ k, K k → k ≠ .eof) :
    Goes ts (n + 1) K (forRule g arrows) (fun _ => 1) fun s => FoundPlaced ts s.found := by
  have declared (kind : DeclKind) {k : Keyword} :
      Goes ts n (· = .keyword k) ((some <| Stmt.declare kind ·) <$> variableRule g arrows kind) (fun _ => 0) fun o =>
        FoundPlaced ts (foundInOptStmt o) :=
    ((goes_variableRule fits fun _ same => same.trans_ne nofun).le (Nat.le_succ n)).map (fun _ => Nat.zero_le 1) fun _ inner =>
      inner
  have rest {start : Span} {init : Option Stmt} {K : TokenKind → Prop} (first : FoundPlaced ts (foundInOptStmt init)) :
      Goes ts n K (do
        expectSymbol .semicolon
        let cond ← if ← at? (.symbol .semicolon) then pure none else some <$> g.expr arrows
        expectSymbol .semicolon
        let post ← if ← at? (.symbol .rparen) then pure none else some <$> g.expr arrows
        expectSymbol .rparen
        let body ← g.stmt arrows
        return Stmt.for (← spanFrom start) init cond post body) (fun _ => 0) fun s => FoundPlaced ts s.found := by
    refine (goes_expectSymbol fits.self).and fun _ _ => .ifAt
      (.thus (fun o => FoundPlaced ts (foundInOption o)) foundPlaced_nil ?cond)
      ((goes_optional fits).when.on ?cond fun _ _ => Nat.le_refl 0)
    refine fun cond second => (goes_expectSymbol fits.self).and fun _ _ => .ifAt
      (.thus (fun o => FoundPlaced ts (foundInOption o)) foundPlaced_nil ?post)
      ((goes_optional fits).when.on ?post fun _ _ => Nat.le_refl 0)
    refine fun post third => (goes_expectSymbol fits.self).and fun _ _ => (fits.stmt arrows).and fun body fourth => ?_
    refine .anySpan fun span => .done ?_
    exact foundPlaced_append.mpr ⟨foundPlaced_append.mpr ⟨foundPlaced_append.mpr ⟨first, second⟩, third⟩, fourth⟩
  refine (goes_advance fits.self more).take fun start _ => (goes_expectSymbol fits.self).and fun _ _ => .nextKind fun kind _ => ?_
  dsimp only
  split
  · exact rest foundPlaced_nil
  · exact (declared .letDecl).on (fun _ inner => rest inner) fun _ _ => Nat.le_refl 0
  · exact (declared .varDecl).on (fun _ inner => rest inner) fun _ _ => Nat.le_refl 0
  · exact (declared .constDecl).on (fun _ inner => rest inner) fun _ _ => Nat.le_refl 0
  · exact (fits.expr arrows).when.and fun x placed => rest placed.found

theorem goes_loopKind : Goes ts n K loopKind (fun _ => 0) fun _ => True :=
  .ifAccept fits.self (.done trivial) (.ifAccept fits.self (.done trivial) (.ifAccept fits.self (.done trivial) (.done trivial)))

theorem goes_forEachRule (more : ∀ k, K k → k ≠ .eof) :
    Goes ts (n + 1) K (forEachRule g arrows) (fun _ => 1) fun s => FoundPlaced ts s.found := by
  refine (goes_advance fits.self more).take fun start _ => (goes_expectSymbol fits.self).and fun _ _ => ?_
  refine (goes_loopKind fits).pass fun kind _ => (goes_expectIdent fits.self).and fun name _ => ?_
  refine (goes_expect fits.self).and fun _ _ => ?_
  refine (fits.expr arrows).and fun iter first => (goes_expectSymbol fits.self).and fun _ _ => ?_
  refine (fits.stmt arrows).and fun body second => .anySpan fun span => .done ?_
  exact foundPlaced_append.mpr ⟨first.found, second⟩

theorem goes_switchRule (more : ∀ k, K k → k ≠ .eof) :
    Goes ts (n + 1) K (switchRule g arrows) (fun _ => 1) fun s => FoundPlaced ts s.found := by
  refine (goes_advance fits.self more).take fun start _ => (goes_parenthesized fits).and fun tag first =>
    (goes_expectSymbol fits.self).and fun _ _ => Goes.pass ?clauses fun cases (each : ∀ c ∈ cases, c.Placed ts) =>
      .anySpan fun span => .done (foundPlaced_append.mpr ⟨first.found, foundPlaced_foundInCases.mpr each⟩)
  refine goes_repeatStep (fun r => ∀ c ∈ r.2, c.Placed ts) (fun (hasDefault, cs) each => ?_) nofun
  refine .ifAccept fits.self (.done fun c mem => each c (List.mem_reverse.mp mem)) (.peek fun tok mem _ _ => ?_)
  -- what follows the head of a clause
  have rest {value : Option Expr} (inner : ∀ x ∈ value, FoundPlaced ts x.found) : Goes ts n anyKind (do
      expectSymbol .colon
      let body ← statementsUntil g arrows endsClause fun g => g.stmt
      let clause : CaseClause := ⟨← spanFrom tok.span, value, body⟩
      return .inl (value.isNone, clause :: cs)) (fun _ => 0)
      (Round (fun r : Bool × List CaseClause => ∀ c ∈ r.2, c.Placed ts) fun cs : List CaseClause => ∀ c ∈ cs, c.Placed ts) := by
    refine (goes_expectSymbol fits.self).and fun _ _ => ?_
    refine (goes_statementsUntil fits.self (fits.stmt arrows)).and fun body inner' => ?_
    exact .anySpan fun span => .done (List.forall_mem_cons.mpr ⟨⟨inner, inner'⟩, each⟩)
  have value : Goes ts n anyKind (some <$> g.expr arrows) (fun _ => 0) fun o => ∀ x ∈ o, FoundPlaced ts x.found :=
    (goes_optional fits).weaken (fun _ => Nat.le_refl 0) fun _ => foundPlaced_foundInOption.mp
  have fault {e : SyntaxFault} (real : e ≠ .exhausted) (span : e.span = tok.span) (code : e.code ≠ .literalOverflow) :
      e.Placed ts :=
    ⟨real, span ▸ (spanOf_token mem).within, fun same => absurd same code⟩
  dsimp only
  split
  · next same =>
    refine .ite (goes_stops (fault nofun rfl nofun)) ((goes_advance_kind fits.self same).and fun _ _ => ?_)
    exact value.on (fun _ inner => rest inner) fun _ r => by have := roundTakes_le r; omega
  · next same =>
    refine .ite (goes_stops (fault nofun rfl nofun)) ((goes_advance_kind fits.self same).and fun _ _ => ?_)
    exact .thusAt (fun o => ∀ x ∈ o, FoundPlaced ts x.found) nofun (fun _ inner => rest inner) fun r => by
      have := roundTakes_le r; omega
  · exact goes_misses

theorem goes_tryRule (more : ∀ k, K k → k ≠ .eof) :
    Goes ts (n + 1) K (tryRule g arrows) (fun _ => 1) fun s => FoundPlaced ts s.found := by
  refine (goes_advance fits.self more).take fun start _ => (fits.block arrows).and fun body first =>
    Goes.pass ?catches fun catches (each : ∀ c ∈ catches, FoundPlaced ts c.body.found) => ?_
  case catches =>
    refine goes_repeatStep (fun r => ∀ c ∈ r.2, FoundPlaced ts c.body.found) (fun (catchAll, cs) each => ?_) nofun
    refine .unlessAt ?_ (.doneAt (fun c mem => each c (List.mem_reverse.mp mem)) rfl)
    refine (goes_advance fits.self fun _ same => same.trans_ne nofun).and fun tok ⟨mem, _⟩ => .ite ?_ ?_
    · exact goes_stops ⟨nofun, (spanOf_token mem).within, nofun⟩
    refine .ifAccept fits.self ?named (.thusAt (fun _ => True) trivial ?rest fun r => Nat.sub_eq_zero_of_le (roundTakes_le r))
    · refine (goes_expectIdent fits.self).and fun name _ => (goes_typeAfterColon fits).and fun type _ => ?_
      refine (goes_expectSymbol fits.self).and fun _ _ => .thusAt (fun _ => True) trivial ?rest fun r => ?_
      have := roundTakes_le r
      omega
    · refine fun (name, type) _ => (fits.block arrows).and fun body inner => .anySpan fun span => ?_
      exact .done (List.forall_mem_cons.mpr ⟨inner, each⟩)
  · have block : Goes ts n anyKind (some <$> g.block arrows) (fun _ => 0) fun o => FoundPlaced ts (foundInOptBlock o) :=
      (fits.block arrows).map (fun _ => Nat.zero_le 1) fun _ inner => inner
    refine .ifAccept fits.self (block.on ?final fun _ _ => Nat.le_refl 0)
      (.thus (fun o => FoundPlaced ts (foundInOptBlock o)) foundPlaced_nil ?final)
    refine fun final last => .ite goes_misses (.anySpan fun span => .done ?_)
    exact foundPlaced_append.mpr ⟨foundPlaced_append.mpr ⟨first, foundPlaced_foundInCatches.mpr each⟩, last⟩

theorem goes_transferRule (more : ∀ k, K k → k ≠ .eof) :
    Goes ts (n + 1) K (transferRule g arrows) (fun _ => 1) fun s => FoundPlaced ts s.found := by
  refine (goes_advance fits.self more).take fun start _ => (goes_expectSymbol fits.self).and fun _ _ => ?_
  refine (fits.expr arrows).and fun payer first => (goes_expectSymbol fits.self).and fun _ _ => ?_
  refine (fits.expr arrows).and fun payee second => (goes_expectSymbol fits.self).and fun _ _ => ?_
  refine (fits.expr arrows).and fun amount third => (goes_expectSymbol fits.self).and fun _ _ => ?_
  refine (goes_accept fits.self).pass fun _ _ => .anySpan fun span => .done ?_
  exact foundPlaced_append.mpr ⟨foundPlaced_append.mpr ⟨first.found, second.found⟩, third.found⟩

omit fits in
theorem goes_startsDecl : Goes ts m K startsDecl (fun _ => 0) fun _ => True := by
  refine .nextKind fun kind _ => ?_
  split
  · exact .kindAt fun _ => .done trivial
  · exact .kindAt fun _ => .kindAt fun _ => .done trivial
  all_goals exact .done trivial

theorem goes_stmtRule
    (braces : ∀ arrows, Goes ts (n + 1) anyKind (g.block arrows) (fun _ => 1) fun b => FoundPlaced ts b.found) :
    Goes ts (n + 1) K (stmtRule g arrows) (fun _ => 1) fun s => FoundPlaced ts s.found := by
  refine .peek fun tok mem _ _ => ?_
  -- a token that starts a statement by itself
  have taken {k : TokenKind} (same : tok.kind = k) (more : k ≠ .eof) : ∀ k', k' = tok.kind → k' ≠ .eof :=
    fun _ eq => (eq.trans same).trans_ne more
  have parenthesized := goes_parenthesized fits
  have semicolon {β : Type} {f : Unit → Parse β} {post : β → Prop} (rest : Goes ts n anyKind (f ()) (fun _ => 0) post) :
      Goes ts n anyKind (expectSymbol .semicolon >>= f) (fun _ => 0) post :=
    (goes_expectSymbol fits.self).and fun _ _ => rest
  split
  · exact (braces arrows).when.and fun b inner => .done inner
  · next same =>
    refine (goes_advance_kind fits.self same).take fun _ _ => parenthesized.and fun cond first => ?_
    refine (fits.stmt arrows).and fun yes second => ?_
    have other : Goes ts n anyKind (some <$> g.stmt arrows) (fun _ => 0) fun o => FoundPlaced ts (foundInOptStmt o) :=
      (fits.stmt arrows).map (fun _ => Nat.zero_le 1) fun _ inner => inner
    refine .ifAccept fits.self (other.on ?rest fun _ _ => Nat.le_refl 0)
      (.thus (fun o => FoundPlaced ts (foundInOptStmt o)) foundPlaced_nil ?rest)
    refine fun no third => .anySpan fun span => .done ?_
    exact foundPlaced_append.mpr ⟨foundPlaced_append.mpr ⟨first.found, second⟩, third⟩
  · next same =>
    refine (goes_advance_kind fits.self same).take fun _ _ => parenthesized.and fun cond first => ?_
    refine (fits.stmt arrows).and fun body second => .anySpan fun span => .done ?_
    exact foundPlaced_append.mpr ⟨first.found, second⟩
  · next same =>
    refine (goes_advance_kind fits.self same).take fun _ _ => (fits.stmt arrows).and fun body first => ?_
    refine (goes_expect fits.self).and fun _ _ => parenthesized.and fun cond second => semicolon (.anySpan fun span => .done ?_)
    exact foundPlaced_append.mpr ⟨first, second.found⟩
  · next same => exact goes_forRule fits (taken same nofun)
  · next same => exact goes_forEachRule fits (taken same nofun)
  · next same => exact goes_switchRule fits (taken same nofun)
  · next same => exact goes_tryRule fits (taken same nofun)
  · next same =>
    refine (goes_advance_kind fits.self same).take fun _ _ => (fits.expr arrows).and fun x placed => ?_
    exact semicolon (.anySpan fun span => .done placed.found)
  · next same =>
    refine (goes_advance_kind fits.self same).take fun _ _ => .whether fun _ => .whether fun _ =>
      .ite (.thus (fun o => FoundPlaced ts (foundInOption o)) foundPlaced_nil ?value)
        ((goes_optional fits).when.on ?value fun _ _ => Nat.le_refl 0)
    exact fun x inner => semicolon (.anySpan fun span => .done inner)
  · next same => exact (goes_advance_kind fits.self same).take fun _ _ => semicolon (.anySpan fun span => .done foundPlaced_nil)
  · next same => exact (goes_advance_kind fits.self same).take fun _ _ => semicolon (.anySpan fun span => .done foundPlaced_nil)
  · next same =>
    refine (goes_advance_kind fits.self same).take fun _ _ => (goes_expectSymbol fits.self).and fun _ _ => ?_
    refine (fits.expr arrows).and fun target first => (goes_expectSymbol fits.self).and fun _ _ => ?_
    refine (fits.block arrows).and fun body second => .anySpan fun span => .done ?_
    exact foundPlaced_append.mpr ⟨first.found, second⟩
  · next same =>
    refine (goes_advance_kind fits.self same).take fun _ _ => (goes_expectSymbol fits.self).and fun _ _ => ?_
    refine (fits.expr arrows).and fun target inner => (goes_expectSymbol fits.self).and fun _ _ => ?_
    exact semicolon (.anySpan fun span => .done inner.found)
  · next same => exact goes_transferRule fits (taken same nofun)
  · refine (goes_matchRule fits).when.and fun x placed => (goes_accept fits.self).pass fun _ _ => ?_
    exact .anySpan fun span => .done placed.found
  · exact goes_throw ⟨nofun, (spanOf_token mem).within, nofun⟩
  · exact goes_throw ⟨nofun, (spanOf_token mem).within, nofun⟩
  · split
    · next declared found =>
      have more : ∀ k, k = tok.kind → k ≠ .eof := by
        rintro k rfl ended
        rw [ended] at found
        cases found
      refine (goes_variableRule fits more).take fun b inner => semicolon (.anySpan fun span => .done ?_)
      obtain ⟨_, name, type, init, mods, doc⟩ := b
      exact inner
    · refine goes_startsDecl.pass fun _ _ => .ite (goes_declRule fits) ((goes_exprRule fits).take fun x placed => ?_)
      exact semicolon (.anySpan fun span => .done placed.found)

end

/-! ## Blocks and files -/

section

variable {g : Grammar} {arrows : Bool} {ts : List Token} {n : Nat}

theorem Grammar.Fits.le {m : Nat} (fits : g.Fits ts n) (fewer : m ≤ n) : g.Fits ts m where
  lexed := fits.lexed
  inside := Nat.lt_of_le_of_lt fewer fits.inside
  expr arrows := (fits.expr arrows).le fewer
  ternary arrows := (fits.ternary arrows).le fewer
  binary arrows least := (fits.binary arrows least).le fewer
  unary arrows := (fits.unary arrows).le fewer
  type := fits.type.le fewer
  stmt arrows := (fits.stmt arrows).le fewer
  block arrows := (fits.block arrows).le fewer
  hole us inner light := fits.hole us inner (Nat.le_trans light fewer)

/-- Statements behind a token. -/
theorem goes_stmtRule_inside (fits : g.Fits ts n) :
    Goes ts n anyKind (stmtRule g arrows) (fun _ => 1) fun s => FoundPlaced ts s.found := by
  cases n with
  | zero => exact goes_zero
  | succ n => exact goes_stmtRule (fits.le (Nat.le_succ n)) fits.block

theorem goes_blockRule (fits : g.Fits ts n) :
    Goes ts (n + 1) anyKind (blockRule g arrows) (fun _ => 1) fun b => FoundPlaced ts b.found := by
  refine (goes_expect fits.self).take fun start _ => ?_
  refine (goes_statementsUntil fits.self (goes_stmtRule_inside fits)).and fun ss inner => ?_
  exact (goes_advance_any fits.self).and fun _ _ => .anySpan fun span => .done inner

theorem goes_atWord {word : String} {K : TokenKind → Prop} : Goes ts n K (atWord word) (fun _ => 0) fun _ => True :=
  .peek fun _ _ _ _ => .done trivial

theorem goes_importRule (lexed : WellLexed ts) {K : TokenKind → Prop} (more : ∀ k, K k → k ≠ .eof) :
    Goes ts n K importRule (fun _ => 1) fun s => FoundPlaced ts s.found := by
  have name : Goes ts n anyKind (do
      let name ← expectWord "imported name"
      let alias? ← if ← atWord "as" then do
          let _ ← advance
          (some ·.nameText) <$> expectIdent "alias"
        else pure none
      return (⟨← spanFrom name.span, name.nameText, alias?⟩ : ImportSpec)) (fun _ => 1) fun _ => True := by
    have renamed : Goes ts n anyKind ((some ·.nameText) <$> expectIdent "alias") (fun _ => 0) fun _ => True :=
      (goes_expectIdent lexed).map (fun _ => Nat.zero_le 1) fun _ _ => trivial
    refine (goes_expectWord lexed).and fun name _ => goes_atWord.pass fun _ _ => .ite ?_ (.thus (fun _ => True) trivial ?rest)
    · exact (goes_advance_any lexed).and fun _ _ => renamed.on ?rest fun _ _ => Nat.le_refl 0
    · exact fun _ _ => .anySpan fun span => .done trivial
  refine (goes_advance lexed more).and fun start _ => (goes_expectSymbol lexed).and fun _ _ => ?_
  refine (goes_commaList lexed name).and fun names _ => goes_atWord.pass fun _ _ => .ite goes_misses ?_
  refine (goes_advance_any lexed).and fun _ _ => (goes_expect lexed).and fun path _ => (goes_expectSymbol lexed).and fun _ _ => ?_
  exact .anySpan fun span => .done foundPlaced_nil

theorem Stmt.found_withDoc (s : Stmt) (doc : Bytes) : (s.withDoc doc).found = s.found := by
  cases s with
  | declare kind b =>
    obtain ⟨span, name, type, init, mods, _⟩ := b
    rfl
  | function d =>
    obtain ⟨span, fn, mods, decorators, _⟩ := d
    rfl
  | classDecl d =>
    obtain ⟨span, name, superName, interfaces, mods, decorators, fields, ctor, methods, _⟩ := d
    rfl
  | contract d =>
    obtain ⟨span, name, onChain, ledger, fields, ctor, methods, classes, _⟩ := d
    rfl
  | _ => rfl

theorem goes_itemRule (fits : g.Fits ts n)
    (braces : ∀ arrows, Goes ts (n + 1) anyKind (g.block arrows) (fun _ => 1) fun b => FoundPlaced ts b.found) :
    Goes ts (n + 1) anyKind (itemRule g) (fun _ => 1) fun s => FoundPlaced ts s.found := by
  refine .peek fun tok mem _ _ => ?_
  have rest {decl : Stmt} (inner : FoundPlaced ts decl.found) : Goes ts n anyKind
      (spanFrom tok.span >>= fun s => pure (Stmt.export s (if tok.doc = [] then decl else decl.withDoc tok.doc))) (fun _ => 0)
      fun s => FoundPlaced ts s.found := by
    refine .anySpan fun span => .done ?_
    change FoundPlaced ts (if tok.doc = [] then decl else decl.withDoc tok.doc).found
    split
    · exact inner
    · rwa [Stmt.found_withDoc]
  split
  · next same => exact goes_importRule fits.self fun _ eq => (eq.trans same).trans_ne nofun
  · next same =>
    refine (goes_advance_kind fits.self same).take fun _ _ => .nextKind fun kind _ => ?_
    dsimp only
    split
    · next declared found =>
      have more : ∀ k, k = kind → k ≠ .eof := by
        rintro k rfl rfl
        cases found
      refine ((goes_variableRule fits more).le (Nat.le_succ n)).and fun b inner => (goes_expectSymbol fits.self).and fun _ _ => ?_
      exact .thus (fun s => FoundPlaced ts s.found) inner fun _ inner => rest inner
    · exact ((goes_declRule fits).le (Nat.le_succ n)).when.on (fun _ inner => rest inner) fun _ _ => Nat.zero_le _
  · exact goes_stmtRule fits braces

theorem goes_itemsRule (fits : g.Fits ts n)
    (braces : ∀ arrows, Goes ts (n + 1) anyKind (g.block arrows) (fun _ => 1) fun b => FoundPlaced ts b.found) :
    Goes ts (n + 1) anyKind (itemsRule g) (fun _ => 0) fun ss => FoundPlaced ts (foundInStmts ss) := by
  have rounds : Goes ts (n + 1) anyKind (itemsRule g) (fun _ => 0) fun ss => ∀ s ∈ ss, FoundPlaced ts s.found := by
    refine goes_repeatStep (fun ss => ∀ s ∈ ss, FoundPlaced ts s.found) (fun ss all => ?_) nofun
    refine .ifAt (.doneAt (fun s mem => all s (List.mem_reverse.mp mem)) rfl) (.ifAccept fits.self (.done all) ?_)
    exact (goes_itemRule fits braces).when.and fun s inner => .done (List.forall_mem_cons.mpr ⟨inner, all⟩)
  exact rounds.weaken (fun _ => Nat.le_refl 0) fun ss => foundPlaced_foundInStmts.mpr

end

end LedgerScript
