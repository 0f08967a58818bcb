import LedgerScript.Proofs.Parser.Totality

/-!
# Where tokens lie

The tokens of a file stand one behind the other, and so do the tokens of a hole of a template between the ends of the hole.  The
holes of a template stand one behind the other between the ends of the template, and each of its parts but the last has one.
`Sheet.Laid` says all this of a file and of whatever is nested in it.
-/

namespace LedgerScript

/-! ## One behind the other -/

/-- Tokens stand one behind the other between two offsets of a file. -/
inductive TokensLaid (file : Nat) : Nat → List Token → Nat → Prop where
  | nil {lo hi : Nat} (le : lo ≤ hi) : TokensLaid file lo [] hi
  | cons {t : Token} {ts : List Token} {lo hi : Nat} (here : t.span.file = file) (behind : lo ≤ t.span.start)
    (ordered : t.span.start ≤ t.span.stop) (rest : TokensLaid file t.span.stop ts hi) : TokensLaid file lo (t :: ts) hi

/-- The holes of the parts of a template stand one behind the other between two offsets of a file, and only the last part has
none. -/
inductive PartsLaid (file : Nat) : Nat → List TemplatePart → Nat → Prop where
  | last {part : TemplatePart} {lo hi : Nat} (none : part.hole = none) (le : lo ≤ hi) : PartsLaid file lo [part] hi
  | cons {part : TemplatePart} {hole : TemplateHole} {ps : List TemplatePart} {lo hi : Nat} (same : part.hole = some hole)
    (here : hole.span.file = file) (behind : lo ≤ hole.span.start) (ordered : hole.span.start ≤ hole.span.stop)
    (rest : PartsLaid file hole.span.stop ps hi) : PartsLaid file lo (part :: ps) hi

section

variable {file lo lo' mid hi : Nat} {content : Bytes}

theorem TokensLaid.le {ts : List Token} (laid : TokensLaid file lo ts hi) : lo ≤ hi := by
  induction laid with
  | nil le => exact le
  | cons _ behind ordered _ ih => exact Nat.le_trans behind (Nat.le_trans ordered ih)

theorem TokensLaid.from {ts : List Token} (laid : TokensLaid file lo ts hi) (le : lo' ≤ lo) : TokensLaid file lo' ts hi := by
  cases laid with
  | nil le' => exact .nil (Nat.le_trans le le')
  | cons here behind ordered rest => exact .cons here (Nat.le_trans le behind) ordered rest

theorem PartsLaid.le {ps : List TemplatePart} (laid : PartsLaid file lo ps hi) : lo ≤ hi := by
  induction laid with
  | last _ le => exact le
  | cons _ _ behind ordered _ ih => exact Nat.le_trans behind (Nat.le_trans ordered ih)

theorem PartsLaid.from {ps : List TemplatePart} (laid : PartsLaid file lo ps hi) (le : lo' ≤ lo) : PartsLaid file lo' ps hi := by
  cases laid with
  | last none le' => exact .last none (Nat.le_trans le le')
  | cons same here behind ordered rest => exact .cons same here (Nat.le_trans le behind) ordered rest

/-- Pieces that cover a stretch are cut in two where the first of them end. -/
theorem Tiles.split {ps qs : List SourcePiece} (tiles : Tiles file content lo (ps ++ qs) hi) :
    ∃ mid, Tiles file content lo ps mid ∧ Tiles file content mid qs hi := by
  induction ps generalizing lo with
  | nil => exact ⟨lo, .nil, tiles⟩
  | cons p ps ih =>
    cases tiles with
    | cons ordered inside rest =>
      obtain ⟨mid, first, second⟩ := ih rest
      exact ⟨mid, .cons ordered inside first, second⟩

end

/-! ## What the lexer lays -/

/-- A token that was cut off somewhere in a file, or one without parts. -/
def Token.Sliced (file : Nat) (content : Bytes) (t : Token) : Prop :=
  t.parts = [] ∨ ∃ fuel c next, Cursor.On content c ∧ lexToken file fuel c = .ok (t, next)

section

variable {file : Nat} {content : Bytes}
variable {fuel : Nat} {c : Cursor}

theorem lexHole_laid {start next : Cursor} {depth close : Nat} {before tokens : List Token} (on : c.On content)
    (cut : ∀ t ∈ before, t.Sliced file content) (lexed : lexHole file fuel start c depth before = .ok (tokens, close, next)) :
    next.On content ∧ c.off ≤ close ∧ close ≤ next.off ∧ ∀ t ∈ tokens, t.Sliced file content := by
  induction fuel generalizing c depth before with
  | zero => cases lexed
  | succ fuel ih =>
    rw [lexHole] at lexed
    split at lexed
    · cases lexed
    · next t after lexedToken =>
      have off : CutOff file content c t after := (lexersTile fuel).token on lexedToken
      have more : ∀ u ∈ t :: before, u.Sliced file content :=
        List.forall_mem_cons.mpr ⟨.inr ⟨fuel, c, after, on, lexedToken⟩, cut⟩
      have goOn {depth : Nat} (lexed : lexHole file fuel start after depth (t :: before) = .ok (tokens, close, next)) :
          next.On content ∧ c.off ≤ close ∧ close ≤ next.off ∧ ∀ t ∈ tokens, t.Sliced file content := by
        obtain ⟨onNext, le, rest⟩ := ih off.on more lexed
        exact ⟨onNext, Nat.le_trans off.tiles.le le, rest⟩
      split at lexed
      · cases lexed
      · cases lexed
        obtain ⟨leading, _, ordered, stop, _⟩ := off.tiles.init
        dsimp only at leading ordered stop
        refine ⟨off.on, leading.le, stop ▸ ordered, fun u mem => ?_⟩
        rcases List.mem_cons.mp (List.mem_reverse.mp mem) with rfl | mem
        · exact .inl rfl
        · exact cut u mem
      · exact goOn lexed
      · exact goOn lexed
      · exact goOn lexed

/-- The parts that are still to come stand behind the cursor, and their holes have tokens that were cut off. -/
theorem lexTemplate_laid {start finish : Cursor} {text : Bytes} {before parts : List TemplatePart}
    (on : c.On content) (lexed : lexTemplate file fuel start c text before = .ok (parts, finish)) :
    ∃ more, parts = before.reverse ++ more ∧ PartsLaid file c.off more finish.off ∧
      ∀ p ∈ more, ∀ h ∈ p.hole, ∀ t ∈ h.tokens, t.Sliced file content := by
  induction fuel generalizing c text before with
  | zero => cases lexed
  | succ fuel ih =>
    -- going on behind some bytes
    have goOn {n : Nat} (bites : Bites n c.rest) {text : Bytes}
        (lexed : lexTemplate file fuel start (c.advance n) text before = .ok (parts, finish)) :
        ∃ more, parts = before.reverse ++ more ∧ PartsLaid file c.off more finish.off ∧
          ∀ p ∈ more, ∀ h ∈ p.hole, ∀ t ∈ h.tokens, t.Sliced file content := by
      obtain ⟨more, same, laid, cut⟩ := ih (on.advance bites.2) lexed
      exact ⟨more, same, laid.from (Nat.le_add_right _ _), cut⟩
    rw [lexTemplate] at lexed
    split at lexed
    · cases lexed
    · next b rest front =>
      split at lexed
      · cases lexed
        refine ⟨[⟨text.reverse, none⟩], List.reverse_cons, .last rfl (Nat.le_add_right _ _), ?_⟩
        simp
      · split at lexed
        · split at lexed
          · next read => exact goOn (bites_readEscape read) lexed
          · cases lexed
        · split at lexed
          · next opens =>
            split at lexed
            · cases lexed
            · next tokens close next lexedHole =>
              have two : 2 ≤ c.rest.length := by
                rw [Bool.and_eq_true, beq_iff_eq] at opens
                cases rest with
                | nil => cases opens.2
                | cons brace rest => simp [front]
              obtain ⟨onNext, opened, closed, cut⟩ := lexHole_laid (on.advance two) (by simp) lexedHole
              obtain ⟨more, same, laid, cut'⟩ := ih onNext lexed
              rw [List.reverse_cons, List.append_assoc] at same
              refine ⟨_, same, .cons rfl rfl (Nat.le_add_right _ _) opened (laid.from closed), List.forall_mem_cons.mpr ⟨?_, cut'⟩⟩
              rintro h ⟨⟩
              exact cut
          · split at lexed
            · next found => exact goOn (Text.bites_decode found) lexed
            · cases lexed

theorem Token.Sliced.laid {t : Token} (cut : t.Sliced file content) :
    (t.parts = [] ∨ PartsLaid file t.span.start t.parts t.span.stop) ∧
      ∀ p ∈ t.parts, ∀ h ∈ p.hole, ∀ u ∈ h.tokens, u.Sliced file content := by
  have plain {t : Token} (nothing : t.parts = []) : (t.parts = [] ∨ PartsLaid file t.span.start t.parts t.span.stop) ∧
      ∀ p ∈ t.parts, ∀ h ∈ p.hole, ∀ u ∈ h.tokens, u.Sliced file content := by
    refine ⟨.inl nothing, fun p mem => ?_⟩
    rw [nothing] at mem
    cases mem
  obtain nothing | ⟨fuel, c, next, on, lexed⟩ := cut
  · exact plain nothing
  cases fuel with
  | zero =>
    cases lexed
    exact plain rfl
  | succ fuel =>
    rw [lexToken] at lexed
    split at lexed
    · cases lexed
    · next leading start lexedLeading =>
      obtain ⟨onStart, _⟩ := lexLeading_tiles on lexedLeading
      split at lexed
      · next quote =>
        split at lexed
        · cases lexed
        · next parts finish lexedParts =>
          have one : 1 ≤ start.rest.length := by
            cases front : start.rest with
            | nil => rw [front] at quote; cases quote
            | cons b rest => exact Nat.succ_pos _
          obtain ⟨more, rfl, laid, cut⟩ := lexTemplate_laid (onStart.advance one) lexedParts
          have le := laid.le
          dsimp only [Cursor.advance] at le laid
          cases lexed
          refine ⟨.inr ?_, cut⟩
          dsimp only [cutToken, Cursor.span]
          rw [Nat.add_sub_cancel' (by omega)]
          exact laid.from (Nat.le_succ _)
      · obtain ⟨kind, n, _, same⟩ := scanned_of_lexPlain lexed
        cases same
        exact plain rfl

end

/-! ## Files -/

/-- A file as the parser sees it: its index and its tokens. -/
structure Sheet where
  file : Nat
  tokens : List Token

/-- A token of a file, or of a hole in it. -/
def Sheet.Has (w : Sheet) (t : Token) : Prop :=
  ∃ us, Nested w.tokens us ∧ t ∈ us

/-- What is nested in the tokens of a file lies where it should. -/
structure Sheet.Laid (w : Sheet) : Prop where
  parts : ∀ t, w.Has t → t.parts = [] ∨ PartsLaid w.file t.span.start t.parts t.span.stop
  holes : ∀ t, w.Has t → ∀ p ∈ t.parts, ∀ h ∈ p.hole, TokensLaid w.file h.span.start h.tokens h.span.stop
  ended : ∀ us, Nested w.tokens us → ∃ t ∈ us.getLast?, t.kind = .eof

theorem Ended.getLast? {ts : List Token} (ended : Ended ts) : ∃ t ∈ ts.getLast?, t.kind = .eof := by
  induction ended with
  | last ended => exact ⟨_, rfl, ended⟩
  | cons _ _ ih =>
    obtain ⟨t, last, ended⟩ := ih
    exact ⟨t, by rw [List.getLast?_cons, last]; rfl, ended⟩

end LedgerScript
