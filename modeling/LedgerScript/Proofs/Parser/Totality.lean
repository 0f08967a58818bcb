import LedgerScript.Proofs.Lexer.Tiling
import LedgerScript.Proofs.Parser.GoingStatements

/-!
# Parsing is total

The tokens of a file, and those in the holes of its templates, are well lexed.  On such tokens the grammar `grammar k` goes
wherever at most `n` tokens are left if `2 * n + 2 ≤ k`: every two levels of nesting at least one token is taken.  The bound
that parsing starts with is above that, so it is never reached, and a fault is always about something in the file.
-/

namespace LedgerScript

variable {ts : List Token} {n : Nat}

open Parse

/-! ## What lexing makes sure of -/

def Sound (ts : List Token) : Prop :=
  ∀ us, Nested ts us → WellLexed us

/-- A number has digits, and what is in the holes of a template is well lexed. -/
structure Token.Sound (t : Token) : Prop where
  int : t.kind = .literal .int → ∃ kind v, SpellsInteger t.text kind v
  float : t.kind = .literal .float → t.text.filter (· ≠ 95) ≠ []
  holes : ∀ part ∈ t.parts, ∀ hole ∈ part.hole, LedgerScript.Sound hole.tokens

theorem Nested.cases {us : List Token} (nested : Nested ts us) :
    us = ts ∨ ∃ t ∈ ts, ∃ part ∈ t.parts, ∃ hole ∈ part.hole, Nested hole.tokens us := by
  induction nested with
  | self => exact .inl rfl
  | hole _ mem part_mem same ih =>
    right
    rcases ih with rfl | ⟨t, t_mem, part, t_part, hole, here, inner⟩
    · exact ⟨_, mem, _, part_mem, _, same, .self⟩
    · exact ⟨t, t_mem, part, t_part, hole, here, .hole inner mem part_mem same⟩

theorem sound_of_tokens (each : ∀ t ∈ ts, t.Sound) (ended : ∃ t ∈ ts.getLast?, t.kind = .eof) : Sound ts := by
  intro us nested
  rcases nested.cases with rfl | ⟨t, mem, part, part_mem, hole, here, inner⟩
  · exact ⟨ended, fun t mem => (each t mem).int, fun t mem => (each t mem).float⟩
  · exact (each t mem).holes part part_mem hole here us inner

theorem Token.Sound.plain {t : Token} (other : ∀ k, t.kind ≠ .literal k) (nothing : t.parts = []) : t.Sound where
  int same := absurd same (other _)
  float same := absurd same (other _)
  holes part mem := by
    rw [nothing] at mem
    cases mem

/-- The first byte of a number is no underscore. -/
theorem StartsNumber.head {text : Bytes} (starts : StartsNumber text) : ∃ b rest, text = b :: rest ∧ b ≠ 95 := by
  rcases starts with digit | ⟨rest, rfl, -⟩
  · cases text with
    | nil => cases digit
    | cons b rest =>
      refine ⟨b, rest, rfl, ?_⟩
      rintro rfl
      cases digit
  · exact ⟨46, rest, rfl, by decide⟩

theorem sound_of_scanned {text : Bytes} {kind : TokenKind} (scanned : Scanned text kind n) {t : Token}
    (same : t.kind = kind) (taken : t.text = text.take n) (nothing : t.parts = []) : t.Sound where
  int int := by
    rw [same] at int
    rw [taken]
    cases scanned with
    | number starts scanned =>
      cases int
      exact spellsInteger_of_scanNumber starts scanned
    | word => rcases wordKind_cases (text.take n) with other | ⟨k, other⟩ <;> rw [other] at int <;> cases int
    | _ => cases int
  float float := by
    rw [same] at float
    rw [taken]
    cases scanned with
    | number starts scanned =>
      obtain ⟨positive, -⟩ := bites_scanNumber starts scanned
      obtain ⟨b, rest, rfl, other⟩ := starts.head
      obtain ⟨n, rfl⟩ := Nat.exists_eq_succ_of_ne_zero (Nat.pos_iff_ne_zero.mp positive)
      simp [other]
    | word => rcases wordKind_cases (text.take n) with other | ⟨k, other⟩ <;> rw [other] at float <;> cases float
    | _ => cases float
  holes part mem := by
    rw [nothing] at mem
    cases mem

/-- The three lexers that call each other, by their common fuel. -/
structure LexersSound (file fuel : Nat) : Prop where
  token : ∀ {c next : Cursor} {t : Token}, lexToken file fuel c = .ok (t, next) → t.Sound
  template : ∀ {start c finish : Cursor} {text : Bytes} {before parts : List TemplatePart},
    (∀ p ∈ before, ∀ h ∈ p.hole, Sound h.tokens) → lexTemplate file fuel start c text before = .ok (parts, finish) →
    ∀ p ∈ parts, ∀ h ∈ p.hole, Sound h.tokens
  hole : ∀ {start c next : Cursor} {depth close : Nat} {before tokens : List Token}, (∀ t ∈ before, t.Sound) →
    lexHole file fuel start c depth before = .ok (tokens, close, next) → Sound tokens

section

variable {file fuel : Nat} (deeper : LexersSound file fuel)
variable {c : Cursor}
include deeper

theorem lexToken_sound {next : Cursor} {t : Token} (lexed : lexToken file (fuel + 1) c = .ok (t, next)) : t.Sound := by
  rw [lexToken] at lexed
  split at lexed
  · cases lexed
  split at lexed
  · split at lexed
    · cases lexed
    · next lexedParts =>
      cases lexed
      exact ⟨by rintro ⟨⟩, by rintro ⟨⟩, deeper.template (by simp) lexedParts⟩
  · obtain ⟨kind, n, scanned, cut⟩ := scanned_of_lexPlain lexed
    cases cut
    exact sound_of_scanned scanned rfl rfl rfl

theorem lexTemplate_sound {start finish : Cursor} {text : Bytes} {before parts : List TemplatePart}
    (holes : ∀ p ∈ before, ∀ h ∈ p.hole, Sound h.tokens)
    (lexed : lexTemplate file (fuel + 1) start c text before = .ok (parts, finish)) :
    ∀ p ∈ parts, ∀ h ∈ p.hole, Sound h.tokens := by
  rw [lexTemplate] at lexed
  split at lexed
  · cases lexed
  split at lexed
  · cases lexed
    intro p mem
    rcases List.mem_cons.mp (List.mem_reverse.mp mem) with rfl | mem
    · rintro h ⟨⟩
    · exact holes p mem
  split at lexed
  · split at lexed
    · exact deeper.template holes lexed
    · cases lexed
  split at lexed
  · split at lexed
    · cases lexed
    · next lexedHole =>
      refine deeper.template (List.forall_mem_cons.mpr ⟨?_, holes⟩) lexed
      intro h same
      cases same
      exact deeper.hole (by simp) lexedHole
  · split at lexed
    · exact deeper.template holes lexed
    · cases lexed

theorem lexHole_sound {start next : Cursor} {depth close : Nat} {before tokens : List Token} (inner : ∀ t ∈ before, t.Sound)
    (lexed : lexHole file (fuel + 1) start c depth before = .ok (tokens, close, next)) : Sound tokens := by
  rw [lexHole] at lexed
  split at lexed
  · cases lexed
  · next t after lexedToken =>
    have more : ∀ u ∈ t :: before, u.Sound := List.forall_mem_cons.mpr ⟨deeper.token lexedToken, inner⟩
    split at lexed
    · cases lexed
    · cases lexed
      refine sound_of_tokens (fun u mem => ?_) ⟨_, by rw [List.reverse_cons, List.getLast?_concat]; rfl, rfl⟩
      rcases List.mem_cons.mp (List.mem_reverse.mp mem) with rfl | mem
      · exact .plain (by rintro k ⟨⟩) rfl
      · exact inner u mem
    · exact deeper.hole more lexed
    · exact deeper.hole more lexed
    · exact deeper.hole more lexed

end

theorem lexersSound (file fuel : Nat) : LexersSound file fuel := by
  induction fuel with
  | zero =>
    refine ⟨fun lexed => ?_, nofun, nofun⟩
    cases lexed
    exact .plain nofun rfl
  | succ fuel deeper => exact ⟨lexToken_sound deeper, lexTemplate_sound deeper, lexHole_sound deeper⟩

theorem lexAll_sound {file fuel : Nat} {c : Cursor} : ∀ t ∈ (lexAll file fuel c).1, t.Sound := by
  induction fuel generalizing c with
  | zero => rintro t ⟨⟩
  | succ fuel ih =>
    rw [lexAll]
    split
    · rintro t ⟨⟩
    · next t next lexed =>
      have first := (lexersSound file _).token lexed
      split
      · exact List.forall_mem_singleton.mpr first
      · exact List.forall_mem_cons.mpr ⟨first, ih⟩

/-- What the parser reads ends with the end. -/
theorem closeTokens_sound {file : Nat} (each : ∀ t ∈ ts, t.Sound) : Sound (closeTokens file ts) := by
  have close (span : Span) : ∀ t ∈ ts ++ [{ kind := .eof, span }], t.Sound :=
    List.forall_mem_append.mpr ⟨each, List.forall_mem_singleton.mpr (.plain nofun rfl)⟩
  rw [closeTokens]
  split
  · exact sound_of_tokens (List.forall_mem_singleton.mpr (.plain nofun rfl)) ⟨_, rfl, rfl⟩
  · next last found =>
    split
    · next ended => exact sound_of_tokens each ⟨last, found, ended⟩
    · exact sound_of_tokens (close _) ⟨_, List.getLast?_concat, rfl⟩

/-! ## The grammar -/

/-- The rules go through a list wherever one token more is left than the parsers of nested things can do with.  A statement may be
a block that starts with it; the rule of blocks itself takes the brace first. -/
structure Grammar.Descends (g : Grammar) (ts : List Token) (n : Nat) : Prop where
  expr : ∀ arrows, Goes ts (n + 1) anyKind (exprRule g arrows) (fun _ => 1) (Expr.Placed ts)
  ternary : ∀ arrows, Goes ts (n + 1) anyKind (ternaryRule g arrows) (fun _ => 1) (Expr.Placed ts)
  binary : ∀ arrows least, Goes ts (n + 1) anyKind (binaryRule g arrows least) (fun _ => 1) (Expr.Placed ts)
  unary : ∀ arrows, Goes ts (n + 1) anyKind (unaryRule g arrows) (fun _ => 1) (Expr.Placed ts)
  type : Goes ts (n + 1) anyKind (typeRule g) (fun _ => 1) fun _ => True
  block : ∀ arrows, Goes ts (n + 1) anyKind (blockRule g arrows) (fun _ => 1) fun b => FoundPlaced ts b.found
  stmt : (∀ arrows, Goes ts (n + 1) anyKind (g.block arrows) (fun _ => 1) fun b => FoundPlaced ts b.found) →
    ∀ arrows, Goes ts (n + 1) anyKind (stmtRule g arrows) (fun _ => 1) fun s => FoundPlaced ts s.found

theorem Grammar.Fits.descends {g : Grammar} (fits : g.Fits ts n) : g.Descends ts n where
  expr _ := goes_exprRule fits
  ternary _ := goes_ternaryRule fits
  binary _ _ := goes_binaryRule fits
  unary _ := goes_unaryRule fits
  type := goes_typeRule fits
  block _ := goes_blockRule fits
  stmt braces _ := goes_stmtRule fits braces

/-- Every two levels of nesting take a token. -/
theorem grammar_fits {k : Nat} (sound : Sound ts) (inside : n < tokensWeight ts) (enough : 2 * n + 2 ≤ k) :
    (grammar k).Fits ts n := by
  induction k using Nat.strongRecOn generalizing n ts with
  | _ k ih =>
    obtain ⟨j, rfl⟩ : ∃ j, k = j + 1 := ⟨k - 1, by omega⟩
    have hole (us : List Token) (inner : Nested ts us) (light : tokensWeight us ≤ n) :
        Goes us (tokensWeight us) anyKind ((grammar (j + 1)).expr true) (fun _ => 1) (Expr.Placed us) := by
      have sound' : Sound us := fun vs deeper => sound vs (inner.trans deeper)
      cases weight : tokensWeight us with
      | zero => exact goes_zero
      | succ m => exact goes_exprRule (ih j (Nat.lt_succ_self j) sound' (by omega) (by omega))
    cases n with
    | zero =>
      exact
        { lexed := sound
          inside
          expr := fun _ => goes_zero
          ternary := fun _ => goes_zero
          binary := fun _ _ => goes_zero
          unary := fun _ => goes_zero
          type := goes_zero
          stmt := fun _ => goes_zero
          block := fun _ => goes_zero
          hole }
    | succ n =>
      obtain ⟨i, rfl⟩ : ∃ i, j = i + 1 := ⟨j - 1, by omega⟩
      have rules := (ih (i + 1) (Nat.lt_succ_self _) (n := n) sound (by omega) (by omega)).descends
      have braces := (ih i (by omega) (n := n) sound (by omega) (by omega)).descends.block
      exact
        { lexed := sound
          inside
          expr := rules.expr
          ternary := rules.ternary
          binary := rules.binary
          unary := rules.unary
          type := rules.type
          stmt := rules.stmt braces
          block := rules.block
          hole }

/-! ## Files -/

section

variable {ts : List Token}
variable {fault : SyntaxFault}

theorem goes_fileRule {g : Grammar} {n : Nat} {path : Bytes} (fits : g.Fits ts n)
    (braces : ∀ arrows, Goes ts (n + 1) anyKind (g.block arrows) (fun _ => 1) fun b => FoundPlaced ts b.found) :
    Goes ts (n + 1) anyKind (fileRule g path) (fun _ => 0) fun tree => FoundPlaced ts (foundInStmts tree.items) :=
  .here fun _ _ => (goes_itemsRule fits braces).pass fun _ placed => .here fun _ _ => .done placed

/-- The bound that parsing starts with is enough. -/
theorem goes_file (sound : Sound ts) (path : Bytes) : Goes ts (tokensWeight ts) anyKind (fileRule (grammar (parseFuel ts)) path)
    (fun _ => 0) fun tree => FoundPlaced ts (foundInStmts tree.items) := by
  unfold parseFuel
  cases weight : tokensWeight ts with
  | zero => exact goes_zero
  | succ n =>
    have inside : n < tokensWeight ts := by omega
    have braces : ∀ arrows, Goes ts (n + 1) anyKind (blockRule (grammar (2 * (n + 1) + 7)) arrows) (fun _ => 1) fun b =>
        FoundPlaced ts b.found := (grammar_fits sound inside (by omega)).descends.block
    exact goes_fileRule (grammar_fits sound inside (by omega)) braces

theorem badEntry_placed {fn : Function} {p : Param} {arg : Expr} (keys : arg.KeysWithin ts)
    (bad : badEntry? fn p arg = some fault) : fault.Placed ts := by
  unfold badEntry? at bad
  split at bad
  · obtain ⟨e, mem, bad⟩ := List.exists_of_findSome?_eq_some bad
    split at bad
    · split at bad
      · cases bad
      · cases bad
        exact ⟨nofun, keys _ _ rfl e mem, nofun⟩
    · cases bad
  · cases bad

theorem badCall_placed {fns : List Function} {found : Found} (placed : found.Placed ts)
    (bad : badCall? fns found = some fault) : fault.Placed ts := by
  unfold badCall? at bad
  split at bad
  · split at bad
    · obtain ⟨⟨p, arg⟩, mem, bad⟩ := List.exists_of_findSome?_eq_some bad
      exact badEntry_placed (placed arg (List.of_mem_zip mem).2) bad
    · cases bad
  · cases bad

theorem checkNamedArguments_placed {tree : SyntaxFile} (placed : FoundPlaced ts (foundInStmts tree.items))
    (bad : checkNamedArguments tree = some fault) : fault.Placed ts := by
  obtain ⟨found, mem, bad⟩ := List.exists_of_findSome?_eq_some bad
  exact badCall_placed (placed found mem) bad

end

theorem placed_of_parseTokens {f : SourceFile} {tokens : List Token} {fault : SyntaxFault} (sound : Sound (closeTokens f.id tokens))
    (failed : parseTokens f tokens = .error fault) : fault.Placed (closeTokens f.id tokens) := by
  have done := goes_file sound f.path ⟨_, {}⟩ (spot_start (sound _ .self)) (Nat.le_refl _) trivial
  unfold parseTokens at failed
  extract_lets ts at failed
  split at done
  · next tree s run =>
    have run' : StateT.run (fileRule (grammar (parseFuel ts)) f.path) ⟨ts, {}⟩ = .ok (tree, s) := run
    rw [run'] at failed
    dsimp only [bind, Except.bind] at failed
    split at failed
    · next bad =>
      cases failed
      exact checkNamedArguments_placed done.2.2 bad
    · cases failed
  · next run =>
    have run' : StateT.run (fileRule (grammar (parseFuel ts)) f.path) ⟨ts, {}⟩ = .error _ := run
    rw [run'] at failed
    cases failed
    exact done

theorem sound_of_front {f : SourceFile} {tokens : List Token} (front : tokens <+: (tokenize f).1) :
    Sound (closeTokens f.id tokens) :=
  closeTokens_sound fun t mem => lexAll_sound t (front.subset mem)

/-- Parsing is total.  Of the tokens of a file, or of the first of them, it gives a tree or one fault, and the fault is about
something that is written from one of these tokens to another, or in a hole of theirs; the list is read with an end behind it
if it has none.  Nothing is read behind the tokens, or behind the text of one, and nothing goes round without taking a token:
the fault would be `.exhausted`.

The parsers of nested things need only work where at most `n` tokens are left for the rules to work where `n + 1` are left.  So
no rule comes back to itself before a token was taken. -/
theorem parsing_is_total (f : SourceFile) (tokens : List Token) (front : tokens <+: (tokenize f).1) :
    ((∃ tree, parseTokens f tokens = .ok tree) ∨
      ∃ fault, parseTokens f tokens = .error fault ∧ fault ≠ .exhausted ∧ SpanWithin (closeTokens f.id tokens) fault.span) ∧
    ∀ (g : Grammar) (n : Nat), g.Fits (closeTokens f.id tokens) n → g.Descends (closeTokens f.id tokens) n := by
  refine ⟨?_, fun g n fits => fits.descends⟩
  cases result : parseTokens f tokens with
  | ok tree => exact .inl ⟨tree, rfl⟩
  | error fault =>
    have placed := placed_of_parseTokens (sound_of_front front) result
    exact .inr ⟨fault, rfl, placed.real, placed.span⟩

/-- A call that is cut off within its arguments. -/
theorem parsing_is_total_cut_off :
    let f := SourceFile.ofContent 0 (utf8 "f.ls") (utf8 "f(1 +") {}
    let tokens := (tokenize f).1.take 3
    (∃ fault, parseTokens f tokens = .error fault ∧ fault ≠ .exhausted ∧ SpanWithin (closeTokens 0 tokens) fault.span) ∧
      (grammar 4).Descends (closeTokens 0 tokens) 1 := by
  intro f tokens
  have front : tokens <+: (tokenize f).1 := List.take_prefix 3 _
  obtain ⟨result, rules⟩ := parsing_is_total f tokens front
  refine ⟨?_, rules (grammar 4) 1 (grammar_fits (sound_of_front front) (by decide) (by decide))⟩
  rcases result with ⟨tree, parsed⟩ | failed
  · have fails : (parseTokens f tokens).toOption.isNone = true := by decide
    rw [parsed] at fails
    cases fails
  · exact failed

end LedgerScript
