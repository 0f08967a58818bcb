import LedgerScript.Proofs.Lexer.Lengths

/-!
# No byte is lost

The tokens of a file and the blanks and comments before them stand one behind the other and cover the file: each starts where
the one before it ends, and each carries the bytes at its span.  Where lexing stops at a fault the same holds of the part
before it.  The tokens of a hole in a template string cover the hole in the same way, and so on inwards.

Each token is cut off at the front of what is left, so the proof follows a cursor that stays on the file: what is left is
always the file from the cursor's offset on.
-/

namespace LedgerScript

/-! ## Tilings -/

/-- A stretch of a file with the bytes that are said to stand there. -/
structure SourcePiece where
  span : Span
  text : Bytes

def Token.pieces (t : Token) : List SourcePiece :=
  t.leading.map (fun v => ⟨v.span, v.text⟩) ++ [⟨t.span, t.text⟩]

/-- What a token stands for in the source: the trivia before it and its own text. -/
def Token.written (t : Token) : Bytes :=
  t.leading.flatMap (·.text) ++ t.text

/-- Pieces that cover a file from one offset to another, without a gap or an overlap, each with the bytes at its span. -/
inductive Tiles (file : Nat) (content : Bytes) : Nat → List SourcePiece → Nat → Prop where
  | nil {start : Nat} : Tiles file content start [] start
  | cons {start middle stop : Nat} {pieces : List SourcePiece} (ordered : start ≤ middle) (inside : middle ≤ content.length)
    (rest : Tiles file content middle pieces stop) :
    Tiles file content start (⟨⟨file, start, middle⟩, content.extract start middle⟩ :: pieces) stop

mutual

inductive Token.HolesTiled (file : Nat) (content : Bytes) : Token → Prop where
  | intro {t : Token} (each : ∀ p ∈ t.parts, ∀ h ∈ p.hole, h.Tiled file content) : Token.HolesTiled file content t

/-- The tokens of a hole cover it, and the same holds of the holes of these tokens. -/
inductive TemplateHole.Tiled (file : Nat) (content : Bytes) : TemplateHole → Prop where
  | intro {h : TemplateHole} (here : h.span.file = file)
    (tiles : Tiles file content h.span.start (h.tokens.flatMap Token.pieces) h.span.stop)
    (inner : ∀ t ∈ h.tokens, t.HolesTiled file content) : TemplateHole.Tiled file content h

end

namespace Tiles

variable {file : Nat} {content : Bytes} {start middle stop : Nat} {ps qs : List SourcePiece}

theorem append (first : Tiles file content start ps middle) (second : Tiles file content middle qs stop) :
    Tiles file content start (ps ++ qs) stop := by
  induction first with
  | nil => exact second
  | cons ordered inside _ ih => exact .cons ordered inside (ih second)

theorem le (tiles : Tiles file content start ps stop) : start ≤ stop := by
  induction tiles with
  | nil => exact Nat.le_refl _
  | cons ordered _ _ ih => exact Nat.le_trans ordered ih

/-- Before the last piece the others cover what is before it. -/
theorem init {p : SourcePiece} (tiles : Tiles file content start (ps ++ [p]) stop) :
    Tiles file content start ps p.span.start ∧ p.span.file = file ∧ p.span.start ≤ p.span.stop ∧ p.span.stop = stop ∧
      stop ≤ content.length := by
  induction ps generalizing start with
  | nil =>
    cases tiles with
    | cons ordered inside rest =>
      cases rest
      exact ⟨.nil, rfl, ordered, rfl, inside⟩
  | cons q ps ih =>
    cases tiles with
    | cons ordered inside rest =>
      obtain ⟨before, last⟩ := ih rest
      exact ⟨.cons ordered inside before, last⟩

end Tiles

/-- What is left at a cursor is the file from its offset on. -/
structure Cursor.On (content : Bytes) (c : Cursor) : Prop where
  inside : c.off ≤ content.length
  rest : c.rest = content.drop c.off

namespace Cursor.On

variable {file n : Nat} {content : Bytes} {c : Cursor}

theorem length_rest (on : c.On content) : c.off + c.rest.length = content.length := by
  rw [on.rest, List.length_drop]
  exact Nat.add_sub_cancel' on.inside

theorem advance (on : c.On content) (fits : n ≤ c.rest.length) : (c.advance n).On content := by
  have := on.length_rest
  refine ⟨?_, ?_⟩
  · dsimp only [Cursor.advance]
    omega
  · rw [Cursor.advance, on.rest, List.drop_drop]

/-- The next bytes are a piece. -/
theorem tiles (on : c.On content) (fits : n ≤ c.rest.length) :
    Tiles file content c.off [⟨c.span file n, c.rest.take n⟩] (c.advance n).off := by
  have same : c.rest.take n = content.extract c.off (c.off + n) := by
    rw [on.rest, List.extract_eq_take_drop, Nat.add_sub_cancel_left]
  rw [same]
  exact .cons (Nat.le_add_right _ _) (on.advance fits).inside .nil

end Cursor.On

/-! ## What is cut off -/

section

variable {file : Nat} {content : Bytes}
variable {fuel : Nat} {c start next : Cursor} {leading : List Trivia} {t : Token}

theorem lexLeading_tiles {finish : Cursor} (on : c.On content) (lexed : lexLeading file fuel c = .ok (leading, finish)) :
    finish.On content ∧ Tiles file content c.off (leading.map fun v => ⟨v.span, v.text⟩) finish.off := by
  induction fuel generalizing c leading with
  | zero =>
    cases lexed
    exact ⟨on, .nil⟩
  | succ fuel ih =>
    rw [lexLeading] at lexed
    split at lexed
    · cases lexed
    · cases lexed
      exact ⟨on, .nil⟩
    · next kind n scanned =>
      split at lexed
      · cases lexed
      · next more finish' lexedMore =>
        cases lexed
        have fits := (bites_scanTrivia scanned).2
        obtain ⟨onFinish, tiles⟩ := ih (on.advance fits) lexedMore
        exact ⟨onFinish, (on.tiles fits).append tiles⟩

/-! ## Tokens, templates and holes -/

/-- What cutting a token off at a cursor gives: the token with its trivia covers the file up to the next cursor, and takes
something unless it is the end. -/
structure CutOff (file : Nat) (content : Bytes) (c : Cursor) (t : Token) (next : Cursor) : Prop where
  on : next.On content
  tiles : Tiles file content c.off t.pieces next.off
  holes : t.HolesTiled file content
  taken : t.kind ≠ .eof → c.off < next.off

theorem cutOff_cutToken {kind : TokenKind} {n : Nat} (on : start.On content)
    (before : Tiles file content c.off (leading.map fun v => ⟨v.span, v.text⟩) start.off) (fits : n ≤ start.rest.length)
    (taken : kind ≠ .eof → 0 < n) (parts : List TemplatePart) (holes : ∀ p ∈ parts, ∀ h ∈ p.hole, h.Tiled file content) :
    CutOff file content c { (cutToken file kind n leading start).1 with parts } (cutToken file kind n leading start).2 where
  on := on.advance fits
  tiles := before.append (on.tiles fits)
  holes := .intro holes
  taken other := Nat.lt_of_le_of_lt before.le (Nat.lt_add_of_pos_right (taken other))

theorem lexPlain_cutOff (on : start.On content)
    (before : Tiles file content c.off (leading.map fun v => ⟨v.span, v.text⟩) start.off)
    (lexed : lexPlain file leading start = .ok (t, next)) : CutOff file content c t next := by
  obtain ⟨kind, n, scanned, cut⟩ := scanned_of_lexPlain lexed
  cases cut
  rcases scanned.cases with ⟨-, rfl, rfl⟩ | ⟨-, bites⟩
  · exact cutOff_cutToken on before (Nat.zero_le _) (fun other => absurd rfl other) [] nofun
  · exact cutOff_cutToken on before bites.2 (fun _ => bites.1) [] nofun

/-- The brace that closes a hole ends the tokens of the hole: the trivia before it belong to the end. -/
theorem CutOff.close (cut : CutOff file content c t next) :
    Tiles file content c.off ({ kind := .eof, span := { t.span with stop := t.span.start }, leading := t.leading } : Token).pieces
      t.span.start := by
  obtain ⟨before, here, ordered, ends, inside⟩ := cut.tiles.init
  obtain ⟨kind, ⟨at', first, past⟩, text, leading, parts⟩ := t
  dsimp only at before here ordered ends
  subst here
  have nothing : Tiles at' content first [⟨⟨at', first, first⟩, content.extract first first⟩] first :=
    .cons (Nat.le_refl _) (by omega) .nil
  rw [List.extract_eq_take_drop, Nat.sub_self, List.take_zero] at nothing
  exact before.append nothing

/-- The three lexers that call each other, by their common fuel. -/
structure LexersTile (file : Nat) (content : Bytes) (fuel : Nat) : Prop where
  token : ∀ {c next : Cursor} {t : Token}, c.On content → lexToken file fuel c = .ok (t, next) →
    CutOff file content c t next
  template : ∀ {start c finish : Cursor} {text : Bytes} {before parts : List TemplatePart}, c.On content →
    (∀ p ∈ before, ∀ h ∈ p.hole, h.Tiled file content) → lexTemplate file fuel start c text before = .ok (parts, finish) →
    finish.On content ∧ c.off < finish.off ∧ ∀ p ∈ parts, ∀ h ∈ p.hole, h.Tiled file content
  hole : ∀ {start c next : Cursor} {depth opened close : Nat} {before tokens : List Token}, c.On content →
    Tiles file content opened (before.reverse.flatMap Token.pieces) c.off → (∀ t ∈ before, t.HolesTiled file content) →
    lexHole file fuel start c depth before = .ok (tokens, close, next) →
    next.On content ∧ c.off < next.off ∧ Tiles file content opened (tokens.flatMap Token.pieces) close ∧
      ∀ t ∈ tokens, t.HolesTiled file content

/-- A token that is no template is plain, and a template is cut off with its parts. -/
theorem lexToken_cutOff (deeper : LexersTile file content fuel) (on : c.On content)
    (lexed : lexToken file (fuel + 1) c = .ok (t, next)) : CutOff file content c t next := by
  rw [lexToken] at lexed
  split at lexed
  · cases lexed
  · next leading start lexedLeading =>
    obtain ⟨onStart, before⟩ := lexLeading_tiles on lexedLeading
    split at lexed
    · next quote =>
      split at lexed
      · cases lexed
      · next parts finish lexedParts =>
        have one : 1 ≤ start.rest.length := by
          cases front : start.rest with
          | nil => rw [front] at quote; cases quote
          | cons b rest => exact Nat.succ_pos _
        obtain ⟨onFinish, past, holes⟩ := deeper.template (onStart.advance one) (by simp) lexedParts
        have total := onStart.length_rest
        have within := onFinish.length_rest
        dsimp only [Cursor.advance] at past
        cases lexed
        exact cutOff_cutToken onStart before (by omega) (fun _ => by omega) _ holes
    · exact lexPlain_cutOff onStart before lexed

theorem lexTemplate_tiles (deeper : LexersTile file content fuel) {finish : Cursor} {text : Bytes}
    {before parts : List TemplatePart} (on : c.On content) (holes : ∀ p ∈ before, ∀ h ∈ p.hole, h.Tiled file content)
    (lexed : lexTemplate file (fuel + 1) start c text before = .ok (parts, finish)) :
    finish.On content ∧ c.off < finish.off ∧ ∀ p ∈ parts, ∀ h ∈ p.hole, h.Tiled file content := by
  -- going on behind some bytes
  have goOn {n : Nat} (bites : Bites n c.rest) {text : Bytes}
      (lexed : lexTemplate file fuel start (c.advance n) text before = .ok (parts, finish)) :
      finish.On content ∧ c.off < finish.off ∧ ∀ p ∈ parts, ∀ h ∈ p.hole, h.Tiled file content := by
    obtain ⟨onFinish, past, tiled⟩ := deeper.template (on.advance bites.2) holes lexed
    exact ⟨onFinish, Nat.lt_of_le_of_lt (Nat.le_add_right _ _) past, tiled⟩
  rw [lexTemplate] at lexed
  split at lexed
  · cases lexed
  · next b rest front =>
    have one : 1 ≤ c.rest.length := by rw [front]; exact Nat.succ_pos _
    split at lexed
    · cases lexed
      refine ⟨on.advance one, Nat.lt_succ_self _, fun p mem => ?_⟩
      rcases List.mem_cons.mp (List.mem_reverse.mp mem) with rfl | mem
      · exact nofun
      · exact holes p mem
    · split at lexed
      · split at lexed
        · next read => exact goOn (bites_readEscape read) lexed
        · cases lexed
      · split at lexed
        · next opens =>
          split at lexed
          · cases lexed
          · next tokens close next lexedHole =>
            have two : 2 ≤ c.rest.length := by
              rw [Bool.and_eq_true, beq_iff_eq] at opens
              cases rest with
              | nil => cases opens.2
              | cons brace rest => simp [front]
            obtain ⟨onNext, past, tiles, inner⟩ := deeper.hole (on.advance two) .nil (by simp) lexedHole
            have all : ∀ p ∈ (⟨text.reverse, some { tokens, span := ⟨file, c.off + 2, close⟩ }⟩ :: before : List TemplatePart),
                ∀ h ∈ p.hole, h.Tiled file content := by
              intro p mem
              rcases List.mem_cons.mp mem with rfl | mem
              · intro h same
                cases same
                exact .intro rfl tiles inner
              · exact holes p mem
            obtain ⟨onFinish, further, tiled⟩ := deeper.template onNext all lexed
            dsimp only [Cursor.advance] at past
            exact ⟨onFinish, by omega, tiled⟩
        · split at lexed
          · next found => exact goOn (Text.bites_decode found) lexed
          · cases lexed

theorem lexHole_tiles (deeper : LexersTile file content fuel) {depth opened close : Nat}
    {before tokens : List Token} (on : c.On content) (tiles : Tiles file content opened (before.reverse.flatMap Token.pieces) c.off)
    (inner : ∀ t ∈ before, t.HolesTiled file content)
    (lexed : lexHole file (fuel + 1) start c depth before = .ok (tokens, close, next)) :
    next.On content ∧ c.off < next.off ∧ Tiles file content opened (tokens.flatMap Token.pieces) close ∧
      ∀ t ∈ tokens, t.HolesTiled file content := by
  rw [lexHole] at lexed
  split at lexed
  · cases lexed
  · next t after lexedToken =>
    have cut := deeper.token on lexedToken
    -- going on behind a token of the hole
    have goOn (kept : t.kind ≠ .eof) {depth : Nat}
        (lexed : lexHole file fuel start after depth (t :: before) = .ok (tokens, close, next)) :
        next.On content ∧ c.off < next.off ∧ Tiles file content opened (tokens.flatMap Token.pieces) close ∧
          ∀ t ∈ tokens, t.HolesTiled file content := by
      have more : Tiles file content opened ((t :: before).reverse.flatMap Token.pieces) after.off := by
        rw [List.reverse_cons, List.flatMap_append, List.flatMap_singleton]
        exact tiles.append cut.tiles
      obtain ⟨onNext, past, all⟩ := deeper.hole cut.on more (List.forall_mem_cons.mpr ⟨cut.holes, inner⟩) lexed
      exact ⟨onNext, Nat.lt_trans (cut.taken kept) past, all⟩
    split at lexed
    · cases lexed
    · next brace =>
      cases lexed
      refine ⟨cut.on, cut.taken (by rw [brace]; nofun), ?_, ?_⟩
      · rw [List.reverse_cons, List.flatMap_append, List.flatMap_singleton]
        exact tiles.append cut.close
      · intro u mem
        rcases List.mem_cons.mp (List.mem_reverse.mp mem) with rfl | mem
        · exact .intro nofun
        · exact inner u mem
    · next brace => exact goOn (by rw [brace]; nofun) lexed
    · next brace => exact goOn (by rw [brace]; nofun) lexed
    · next notEnd _ _ _ => exact goOn notEnd lexed

theorem lexersTile (fuel : Nat) : LexersTile file content fuel := by
  induction fuel with
  | zero =>
    exact
      { token := by
          intro c next t on lexed
          cases lexed
          exact cutOff_cutToken on .nil (Nat.zero_le _) (fun other => absurd rfl other) [] nofun
        template := nofun
        hole := nofun }
  | succ fuel deeper =>
    exact
      { token := fun on lexed => lexToken_cutOff deeper on lexed
        template := fun on holes lexed => lexTemplate_tiles deeper on holes lexed
        hole := fun on tiles inner lexed => lexHole_tiles deeper on tiles inner lexed }

/-- The end is only found where nothing is left. -/
theorem lexToken_eof (lexed : lexToken file (fuel + 1) c = .ok (t, next)) (ended : t.kind = .eof) : next.rest = [] := by
  rw [lexToken] at lexed
  split at lexed
  · cases lexed
  · next leading start _ =>
    split at lexed
    · split at lexed
      · cases lexed
      · cases lexed
        cases ended
    · obtain ⟨kind, n, scanned, cut⟩ := scanned_of_lexPlain lexed
      cases cut
      rcases scanned.cases with ⟨nothing, rfl, rfl⟩ | ⟨other, -⟩
      · exact nothing
      · exact absurd ended other

/-! ## Whole files -/

/-- A list of tokens with an end behind them, and none before. -/
inductive Ended : List Token → Prop where
  | last {t : Token} (ended : t.kind = .eof) : Ended [t]
  | cons {t : Token} {ts : List Token} (more : t.kind ≠ .eof) (rest : Ended ts) : Ended (t :: ts)

end

end LedgerScript
