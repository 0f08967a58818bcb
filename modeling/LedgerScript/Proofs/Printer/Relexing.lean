import LedgerScript.Proofs.Lexer.Again
import LedgerScript.Proofs.Printer.Lexemes

/-!
# Printed lexemes are cut apart again

Nothing that the printer writes runs into what it writes next: a minus sign is kept apart from another one, a number in front of
a point is followed by a name, and all other symbols that could grow have a blank behind them.  So the text of an operator
expression is cut into its lexemes.
-/

namespace LedgerScript

open Text

/-! ## Lexemes that can be read -/

/-- A lexeme without its blank is that of a symbol, or of a word or a literal that was cut from some text. -/
def SoundFace (f : TokenKind × Bytes) : Prop :=
  (∃ s, s ≠ .underscore ∧ s ≠ .fatArrow ∧ f = (.symbol s, utf8 s.spelling)) ∨
    ∃ t : Token, t.Cut ∧ t.kind.isTerminal = true ∧ t.face = f

def AllSound (ws : List Lexeme) : Prop :=
  ∀ f ∈ ws.map Lexeme.face, SoundFace f

section

variable {ws vs : List Lexeme} {w : Lexeme} {after : Bytes} {s : Symbol}

theorem allSound_nil : AllSound [] :=
  nofun

theorem allSound_cons : AllSound (w :: ws) ↔ SoundFace w.face ∧ AllSound ws :=
  List.forall_mem_cons

theorem allSound_append : AllSound (ws ++ vs) ↔ AllSound ws ∧ AllSound vs := by
  simp only [AllSound, List.map_append, List.forall_mem_append]

theorem allSound_spaced : AllSound (spaced ws) ↔ AllSound ws := by
  rw [AllSound, map_face_spaced, AllSound]

theorem allSound_operand {op : UnaryOp} : AllSound (operandLexemes op ws) ↔ AllSound ws := by
  unfold operandLexemes
  split
  · exact allSound_spaced
  · rfl

theorem sound_symbol (plain : s ≠ .underscore) (other : s ≠ .fatArrow) : SoundFace (Lexeme.symbol s).face :=
  .inl ⟨s, plain, other, rfl⟩

theorem Token.Cut.sound {t : Token} (cut : t.Cut) (terminal : t.kind.isTerminal = true) : SoundFace t.face :=
  .inr ⟨t, cut, terminal, rfl⟩

/-- A word or a literal can be read wherever it breaks. -/
theorem SoundFace.stands {f : TokenKind × Bytes} (sound : SoundFace f) (terminal : f.1.isTerminal = true) (ends : breaks after = true) :
    StandsBefore f.1 f.2 after := by
  rcases sound with ⟨s, -, -, rfl⟩ | ⟨t, cut, -, rfl⟩
  · cases terminal
  · exact cut.stands terminal ends

theorem SoundFace.filled {f : TokenKind × Bytes} (sound : SoundFace f) : f.2 ≠ [] := by
  rcases sound with ⟨s, -, -, rfl⟩ | ⟨t, cut, terminal, rfl⟩
  · exact s.spelling_ne_nil
  · have stands : StandsBefore t.kind t.text [] := cut.stands terminal rfl
    exact stands.filled

theorem AllSound.filled (sound : AllSound ws) : Filled ws :=
  fun f mem => (sound f mem).filled

end

/-! ## Lexemes one behind the other -/

/-- Each of the lexemes is a token in front of the next ones and of a text. -/
def CutApart : List Lexeme → Bytes → Prop
  | [], _ => True
  | w :: ws, after => StandsBefore w.kind w.text (written ws ++ after) ∧ CutApart ws after

section

variable {ws vs : List Lexeme} {w : Lexeme} {after : Bytes} {s : Symbol}

theorem cutApart_append : CutApart (ws ++ vs) after ↔ CutApart ws (written vs ++ after) ∧ CutApart vs after := by
  induction ws with
  | nil => simp [CutApart]
  | cons w ws ih => simp [CutApart, ih, List.append_assoc, and_assoc]

theorem cutApart_spaced : CutApart (spaced ws) after ↔ CutApart ws after := by
  cases ws <;> rfl

theorem StandsBefore.notEnd {kind : TokenKind} {text : Bytes} (stands : StandsBefore kind text after) : kind ≠ .eof := by
  obtain ⟨kind', n, scanned, same⟩ := scanned_of_lexPlain (stands.cut 0 [] 0)
  obtain ⟨b, more, rfl⟩ := List.exists_cons_of_ne_nil stands.filled
  have same : kind = kind' := congrArg (fun r => r.1.kind) same
  rcases scanned.cases with ⟨nothing, -⟩ | ⟨other, -⟩
  · cases nothing
  · rwa [same]

theorem lexLeading_blank {file fuel off : Nat} {text : Bytes} (clear : scanTrivia text = .ok none) :
    ∃ space, lexLeading file (fuel + 1) ⟨off, 32 :: text⟩ = .ok ([space], ⟨off + 1, text⟩) := by
  have one : ((32 :: text).takeWhile isInlineBlank).length = 1 := by
    cases text with
    | nil => rfl
    | cons b rest =>
      have other : ¬isInlineBlank b = true := fun blank => by
        have noSlash : b ≠ 47 := by
          rintro rfl
          cases blank
        simp [scanTrivia, noSlash, blank] at clear
      rw [List.takeWhile_cons_of_pos rfl, List.takeWhile_cons_of_neg other]
      rfl
  have space : scanTrivia (32 :: text) = .ok (some (.space, 1)) := by
    change Except.ok (some (TriviaKind.space, ((32 :: text).takeWhile isInlineBlank).length)) = _
    rw [one]
  rw [lexLeading, space]
  dsimp only
  rw [show (⟨off, 32 :: text⟩ : Cursor).advance 1 = ⟨off + 1, text⟩ from rfl, lexLeading_clear clear]
  exact ⟨_, rfl⟩

/-- A lexeme is the next token of a text that starts with it. -/
theorem lexToken_lexeme (stands : StandsBefore w.kind w.text after) (file off : Nat) :
    ∃ t, lexToken file (lexFuel (w.bytes ++ after)) ⟨off, w.bytes ++ after⟩ = .ok (t, ⟨off + w.bytes.length, after⟩) ∧
      t.face = w.face := by
  have cut (leading : List Trivia) (off : Nat) : ∃ t, lexPlain file leading ⟨off, w.text ++ after⟩ =
      .ok (t, ⟨off + w.text.length, after⟩) ∧ t.face = w.face := by
    rw [stands.cut]
    refine ⟨_, by rw [cutToken, Cursor.advance, List.drop_left], ?_⟩
    rw [Token.face, List.take_left, Lexeme.face]
  obtain ⟨blank, kind, text⟩ := w
  cases blank with
  | false =>
    obtain ⟨t, lexed, face⟩ := cut [] off
    exact ⟨t, (stands.lexToken file off).trans ((stands.cut file [] off).symm.trans lexed), face⟩
  | true =>
    obtain ⟨space, leading⟩ := @lexLeading_blank file (text ++ after).length off _ stands.clear
    obtain ⟨t, lexed, face⟩ := cut [space] (off + 1)
    refine ⟨t, ?_, face⟩
    change lexToken file (lexFuel (32 :: (text ++ after))) ⟨off, 32 :: (text ++ after)⟩ = _
    rw [lexFuel, lexToken, List.length_cons, leading]
    dsimp only
    rw [if_neg (by rw [stands.plain]; decide), lexed]
    simp only [Lexeme.bytes, if_true, List.length_cons]
    rw [Nat.add_assoc, Nat.add_comm 1]

theorem lexAll_written {file : Nat} (apart : CutApart ws []) {fuel : Nat} (enough : (written ws).length < fuel) (off : Nat) :
    ∃ ts stop, lexAll file fuel ⟨off, written ws⟩ = (ts ++ [stop], none) ∧ ts.map Token.face = ws.map Lexeme.face ∧
      stop.kind = .eof := by
  induction ws generalizing fuel off with
  | nil =>
    obtain ⟨fuel, rfl⟩ := Nat.exists_eq_succ_of_ne_zero (Nat.pos_iff_ne_zero.mp (Nat.zero_lt_of_lt enough))
    exact ⟨[], _, rfl, rfl, rfl⟩
  | cons w ws ih =>
    obtain ⟨stands, apart⟩ := apart
    rw [List.append_nil] at stands
    obtain ⟨fuel, rfl⟩ := Nat.exists_eq_succ_of_ne_zero (Nat.pos_iff_ne_zero.mp (Nat.zero_lt_of_lt enough))
    obtain ⟨t, lexed, face⟩ := lexToken_lexeme stands file off
    have filled := List.length_pos_of_ne_nil stands.filled
    rw [written_cons, List.length_append] at enough
    have some : 0 < w.bytes.length := by
      unfold Lexeme.bytes
      split
      · exact Nat.succ_pos _
      · exact filled
    have enough : (written ws).length < fuel := by omega
    obtain ⟨ts, stop, more, faces, ended⟩ := ih apart enough (off + w.bytes.length)
    have kind : t.kind = w.kind := congrArg Prod.fst face
    refine ⟨t :: ts, stop, ?_, by rw [List.map_cons, List.map_cons, face, faces], ended⟩
    rw [written_cons, lexAll, lexed]
    dsimp only
    rw [if_neg (by rw [kind]; exact stands.notEnd), more]
    rfl

theorem tokenize_written (f : SourceFile) (apart : CutApart ws []) : ∃ ts stop,
    tokenize { f with content := written ws } = (ts ++ [stop], none) ∧ ts.map Token.face = ws.map Lexeme.face ∧ stop.kind = .eof :=
  lexAll_written apart (Nat.lt_succ_self _) 0

end

/-! ## First bytes -/

/-- The text does not start with an equals sign or a bracket that closes type arguments: an operator in front of it does not
grow, but for two minus signs. -/
def opens (text : Bytes) : Prop :=
  ∀ b ∈ text.head?, b ≠ 61 ∧ b ≠ 62

/-- The text starts as a word does: nothing in front of it grows. -/
def opensName (text : Bytes) : Prop :=
  ∃ b rest, text = b :: rest ∧ opensWord b = true

section

variable {ws vs : List Lexeme} {w : Lexeme} {after : Bytes} {s : Symbol}

theorem SoundFace.opensName {f : TokenKind × Bytes} (sound : SoundFace f) (word : f.1.isWord = true) : opensName f.2 := by
  rcases sound with ⟨s, -, -, rfl⟩ | ⟨t, cut, -, rfl⟩
  · cases word
  · rcases cut.cases with kind | kind | ⟨file, leading, c, next, lexed⟩
    · rw [Token.face, kind] at word
      cases word
    · rw [Token.face, kind] at word
      cases word
    obtain ⟨d, ds, text, starts, -⟩ := (isWord_of_lexPlain lexed word).1.chars
    obtain ⟨b, more, bytes⟩ := List.exists_cons_of_ne_nil (encodeChar_ne_nil d)
    refine ⟨b, more ++ encode ds, ?_, opensWord_encodeChar bytes starts⟩
    rw [Token.face, text, ← List.cons_append, ← bytes]
    exact List.flatMap_cons

/-- Words and literals do not start with a symbol. -/
theorem SoundFace.opens {f : TokenKind × Bytes} (sound : SoundFace f) (terminal : f.1.isTerminal = true) :
    opens f.2 ∧ f.2.head? ≠ some 45 := by
  have stands : StandsBefore f.1 f.2 [] := sound.stands terminal rfl
  obtain ⟨kind, n, scanned, same⟩ := scanned_of_lexPlain (stands.cut 0 [] 0)
  have same : f.1 = kind := congrArg (fun r => r.1.kind) same
  rw [List.append_nil] at scanned
  rw [same] at terminal
  generalize f.2 = text at scanned
  suffices marks : ∀ b ∈ text.head?, b ≠ 61 ∧ b ≠ 62 ∧ b ≠ 45 from
    ⟨fun b mem => ⟨(marks b mem).1, (marks b mem).2.1⟩, fun minus => (marks 45 minus).2.2 rfl⟩
  intro b mem
  cases scanned with
  | eof | underscore | symbol => cases terminal
  | word scanned =>
    unfold scanWord at scanned
    split at scanned
    · next c width decoded =>
      split at scanned
      · next starts =>
        obtain ⟨-, rest, rfl⟩ := eq_of_decode? decoded
        obtain ⟨d, more, bytes⟩ := List.exists_cons_of_ne_nil (encodeChar_ne_nil c)
        have first := opensWord_encodeChar bytes starts
        rw [bytes] at mem
        cases mem
        refine ⟨?_, ?_, ?_⟩ <;> rintro rfl <;> cases first
      · cases scanned
    · cases scanned
  | number starts =>
    rcases starts with digit | ⟨rest, rfl, -⟩
    · rw [startsWithDigit, mem] at digit
      refine ⟨?_, ?_, ?_⟩ <;> rintro rfl <;> cases digit
    · cases mem
      decide
  | string | char =>
    cases mem
    decide

theorem joins_blank (s : Symbol) : s.joins 32 = false := by
  cases s <;> rfl

theorem cutApart_symbol (plain : s ≠ .underscore) (clear : ∀ b ∈ (written ws ++ after).head?, s.joins b = false)
    (rest : CutApart ws after) : CutApart (.symbol s :: ws) after :=
  ⟨Symbol.stands plain clear, rest⟩

theorem cutApart_mark (mark : s ∈ [.lparen, .rparen, .lbracket, .rbracket, .lbrace, .rbrace, .comma, .hash, .plusPlus, .minusMinus,
    .dotDotDot]) (rest : CutApart ws after) : CutApart (.symbol s :: ws) after := by
  refine cutApart_symbol ?_ (fun b _ => ?_) rest
  · rintro rfl
    revert mark
    decide
  · simp only [List.mem_cons, List.not_mem_nil, or_false] at mark
    rcases mark with rfl | rfl | rfl | rfl | rfl | rfl | rfl | rfl | rfl | rfl | rfl <;> rfl

/-- An operand ends in front of these symbols. -/
theorem breaks_mark (mark : s ∈ [.lparen, .rparen, .lbracket, .rbracket, .rbrace, .comma, .plusPlus, .minusMinus, .lt, .gt,
    .questionDot]) : breaks (written (.symbol s :: ws) ++ after) = true := by
  simp only [List.mem_cons, List.not_mem_nil, or_false] at mark
  rcases mark with rfl | rfl | rfl | rfl | rfl | rfl | rfl | rfl | rfl | rfl | rfl <;> rfl

theorem breaks_spaced (some : ws ≠ []) : breaks (written (spaced ws) ++ after) = true := by
  obtain ⟨w, ws, rfl⟩ := List.exists_cons_of_ne_nil some
  rfl

/-- An operator between two operands. -/
theorem cutApart_between (plain : s ≠ .underscore) (some : ws ≠ []) (rest : CutApart ws after) :
    CutApart (spaced [.symbol s] ++ spaced ws) after := by
  obtain ⟨w, ws, rfl⟩ := List.exists_cons_of_ne_nil some
  refine ⟨Symbol.stands plain fun b mem => ?_, cutApart_spaced.mpr rest⟩
  cases mem
  exact joins_blank s

end

/-! ## Types -/

theorem opens_of_opensName {text : Bytes} (name : opensName text) : opens text := by
  obtain ⟨b, rest, rfl, word⟩ := name
  intro d mem
  cases mem
  constructor <;> rintro rfl <;> cases word

theorem wordKind_isTerminal (text : Bytes) : (wordKind text).isTerminal = true ∧ (wordKind text).isWord = true := by
  rcases wordKind_cases text with same | ⟨k, same⟩ <;> rw [same] <;> exact ⟨rfl, rfl⟩

section

variable {ws vs : List Lexeme} {after : Bytes}

theorem cutApart_word {name : String} (sound : SoundFace (Lexeme.word name).face) (ends : breaks (written ws ++ after) = true)
    (rest : CutApart ws after) : CutApart (.word name :: ws) after :=
  ⟨sound.stands (wordKind_isTerminal _).1 ends, rest⟩

theorem cutApart_keyword {k : Keyword} (sound : SoundFace (Lexeme.keyword k).face) (ends : breaks (written ws ++ after) = true)
    (rest : CutApart ws after) : CutApart (.keyword k :: ws) after :=
  ⟨sound.stands rfl ends, rest⟩

theorem breaks_bracketPairs (n : Nat) (ends : breaks after = true) : breaks (written (bracketPairs n) ++ after) = true := by
  cases n with
  | zero => exact ends
  | succ n => rfl

theorem cutApart_bracketPairs (n : Nat) : CutApart (bracketPairs n) after := by
  induction n with
  | zero => trivial
  | succ n ih => exact cutApart_mark (by simp) (cutApart_mark (by simp) ih)

/-- An angle bracket in front of a type, and one behind it. -/
theorem cutApart_lt (name : opensName (written ws ++ after)) (rest : CutApart ws after) : CutApart (.symbol .lt :: ws) after := by
  refine cutApart_symbol (by decide) (fun b mem => ?_) rest
  exact beq_eq_false_iff_ne.mpr (opens_of_opensName name b mem).1

theorem cutApart_gt (ends : breaks (written ws ++ after) = true) (rest : CutApart ws after) :
    CutApart (.symbol .gt :: ws) after := by
  refine cutApart_symbol (by decide) (fun b mem => ?_) rest
  cases text : written ws ++ after with
  | nil =>
    rw [text] at mem
    cases mem
  | cons d more =>
    rw [text] at mem ends
    cases mem
    simp only [breaks, Bool.and_eq_true, bne_iff_ne] at ends
    exact beq_eq_false_iff_ne.mpr ends.1.2

theorem TypeRef.opensName (t : TypeRef) (sound : AllSound t.lexemes) (after : Bytes) :
    LedgerScript.opensName (written t.lexemes ++ after) := by
  obtain ⟨s, name, args, arrays⟩ := t
  rw [lexemes, allSound_cons] at sound
  obtain ⟨b, rest, text, word⟩ := sound.1.opensName (wordKind_isTerminal _).2
  have text : utf8 name = b :: rest := text
  refine ⟨b, rest ++ (written (argLexemes args ++ bracketPairs arrays) ++ after), ?_, word⟩
  rw [lexemes, written_cons, bytes_word, text]
  simp

mutual

theorem TypeRef.cutApart : (t : TypeRef) → AllSound t.lexemes → ∀ {after}, breaks after = true → CutApart t.lexemes after
  | .mk _ name [] arrays, sound, after, ends => by
    rw [lexemes, allSound_cons] at sound
    exact cutApart_word sound.1 (breaks_bracketPairs arrays ends) (cutApart_bracketPairs arrays)
  | .mk _ name (first :: rest) arrays, sound, after, ends => by
    rw [lexemes, argLexemes, allSound_cons, allSound_append, allSound_cons, allSound_append] at sound
    obtain ⟨here, ⟨-, one, more⟩, -⟩ := sound
    obtain ⟨ends', apart'⟩ := TypeRef.cutApart_more rest more (breaks_bracketPairs arrays ends)
    have apart := TypeRef.cutApart first one ends'
    rw [lexemes, argLexemes]
    refine cutApart_word here rfl ?_
    rw [List.cons_append]
    refine cutApart_lt ?_ ?_
    · rw [List.append_assoc, written_append, List.append_assoc]
      exact first.opensName one _
    · rw [List.append_assoc, cutApart_append, written_append, List.append_assoc, cutApart_append]
      exact ⟨apart, apart', cutApart_bracketPairs arrays⟩

theorem TypeRef.cutApart_more : (ts : List TypeRef) → AllSound (moreLexemes ts) → ∀ {after}, breaks after = true →
    breaks (written (moreLexemes ts) ++ after) = true ∧ CutApart (moreLexemes ts) after
  | [], sound, after, ends => ⟨breaks_mark (by simp), cutApart_gt ends trivial⟩
  | t :: rest, sound, after, ends => by
    rw [moreLexemes, allSound_cons, allSound_append, allSound_spaced] at sound
    obtain ⟨ends', apart'⟩ := TypeRef.cutApart_more rest sound.2.2 ends
    have apart := TypeRef.cutApart t sound.2.1 ends'
    rw [moreLexemes]
    refine ⟨breaks_mark (by simp), cutApart_mark (by simp) ?_⟩
    rw [cutApart_append, cutApart_spaced]
    exact ⟨apart, apart'⟩

end

end

/-! ## Expressions -/

theorem spaced_append {ws : List Lexeme} (some : ws ≠ []) (vs : List Lexeme) : spaced (ws ++ vs) = spaced ws ++ vs := by
  obtain ⟨w, ws, rfl⟩ := List.exists_cons_of_ne_nil some
  rfl

theorem UnaryOp.symbol_ne (op : UnaryOp) : op.symbol ≠ .underscore := by
  cases op
  case step op => cases op <;> decide
  all_goals decide

/-- A member is named behind a point. -/
theorem cutApart_member {name : String} {optional : Bool} {after : Bytes} (sound : SoundFace (Lexeme.word name).face)
    (ends : breaks after = true) :
    breaks (written [.symbol (if optional then .questionDot else .dot), .word name] ++ after) = true ∧
      CutApart [.symbol (if optional then .questionDot else .dot), .word name] after := by
  obtain ⟨b, rest, text, word⟩ := sound.opensName (wordKind_isTerminal _).2
  have text : utf8 name = b :: rest := text
  have noNumber : ¬(isDecimalByte b = true ∨ b = 46) := fun number => by
    cases (noWord_of_number number).1.symm.trans word
  rw [not_or, Bool.not_eq_true] at noNumber
  have apart : CutApart [.word name] after := cutApart_word sound ends trivial
  cases optional with
  | true =>
    refine ⟨breaks_mark (by simp), cutApart_symbol (by decide) (fun d mem => ?_) apart⟩
    rw [written_cons, bytes_word, text] at mem
    cases mem
    exact noNumber.1
  | false =>
    refine ⟨?_, cutApart_symbol (by decide) (fun d mem => ?_) apart⟩
    · rw [written_cons, written_cons, bytes_word, text]
      change (true && true && true && !(true && isDecimalByte b)) = true
      rw [noNumber.1]
      rfl
    · rw [written_cons, bytes_word, text] at mem
      cases mem
      exact Bool.or_eq_false_iff.mpr ⟨beq_eq_false_iff_ne.mpr noNumber.2, noNumber.1⟩

namespace Expr

variable {x : Expr}

theorem opens_append {text : Bytes} (filled : text ≠ []) (start : opens text) (after : Bytes) : opens (text ++ after) := by
  obtain ⟨b, rest, rfl⟩ := List.exists_cons_of_ne_nil filled
  exact start

theorem tokenKind_isTerminal (v : LiteralValue) : v.tokenKind.isTerminal = true := by
  cases v
  case bool b => cases b <;> rfl
  all_goals rfl

theorem Operational.opens (operational : x.Operational) (sound : AllSound x.lexemes) (after : Bytes) :
    LedgerScript.opens (written x.lexemes ++ after) := by
  induction operational generalizing after with
  | @literal s raw v =>
    rw [lexemes] at sound ⊢
    rcases literalLexemes_cases raw v.tokenKind with ⟨digits, -, same⟩ | same
    · rw [same]
      rintro b mem
      cases mem
      decide
    · rw [same, allSound_cons] at sound
      rw [same]
      have filled := sound.1.filled
      have start := (sound.1.opens (tokenKind_isTerminal v)).1
      rw [written_cons, List.append_assoc]
      exact opens_append filled start _
  | @ident s name =>
    rw [lexemes, allSound_cons] at sound
    have start := opens_of_opensName (sound.1.opensName (wordKind_isTerminal _).2)
    have filled := sound.1.filled
    rw [lexemes, written_cons, List.append_assoc]
    exact opens_append filled start _
  | this | paren | typeof | await | spawn | new | array | tuple | set | spread =>
    rw [lexemes]
    rintro b mem
    cases mem
    decide
  | @unary s op x =>
    rw [lexemes]
    rintro b mem
    cases op
    case step op => cases op <;> cases mem <;> decide
    all_goals
      cases mem
      decide
  | stepAfter _ ih | binary _ _ ih | is _ ih | assign _ _ ih | ternary _ _ _ ih | call _ _ ih | member _ ih | index _ _ ih =>
    rw [lexemes, allSound_append] at sound
    rw [lexemes, written_append, List.append_assoc]
    exact ih sound.1 _

theorem Operational.lexemes_ne_nil (operational : x.Operational) : x.lexemes ≠ [] := by
  obtain ⟨w, ws, same, -⟩ := operational.tight
  rw [same]
  exact List.cons_ne_nil w ws

theorem cutApart_prefix {op : UnaryOp} {ws : List Lexeme} {after : Bytes} (some : ws ≠ []) (start : LedgerScript.opens (written ws ++ after))
    (rest : CutApart ws after) : CutApart (.symbol op.symbol :: operandLexemes op ws) after := by
  obtain ⟨w, ws, rfl⟩ := List.exists_cons_of_ne_nil some
  obtain ⟨b, more, text⟩ : ∃ b more, written (w :: ws) = b :: more := by
    obtain ⟨b, more, text⟩ := List.exists_cons_of_ne_nil rest.1.filled
    rw [written_cons, Lexeme.bytes, text]
    split <;> exact ⟨_, _, rfl⟩
  rw [operandLexemes]
  split
  · refine cutApart_symbol op.symbol_ne (fun b mem => ?_) (cutApart_spaced.mpr rest)
    cases mem
    exact joins_blank _
  · next apart =>
    refine cutApart_symbol op.symbol_ne (fun d mem => ?_) rest
    obtain ⟨equals, angle⟩ := start d mem
    cases op with
    | negate =>
      have minus : d ≠ 45 := by
        rintro rfl
        rw [text] at mem
        refine apart ?_
        rw [startsMinus, text]
        cases mem
        rfl
      simp [UnaryOp.symbol, Symbol.joins, equals, angle, minus]
    | not => simp [UnaryOp.symbol, Symbol.joins, equals]
    | step op => cases op <;> rfl

variable {xs : List Expr} {after : Bytes}

theorem cutApart_list (operational : ∀ x ∈ xs, x.Operational) (sound : AllSound (listLexemes xs)) (ends : breaks after = true)
    (each : ∀ x ∈ xs, ∀ {after}, AllSound x.lexemes → breaks after = true → CutApart x.lexemes after) :
    CutApart (listLexemes xs) after := by
  have more : ∀ xs : List Expr, AllSound (moreLexemes xs) →
      (∀ x ∈ xs, ∀ {after}, AllSound x.lexemes → breaks after = true → CutApart x.lexemes after) →
      breaks (written (moreLexemes xs) ++ after) = true ∧ CutApart (moreLexemes xs) after := by
    intro xs
    induction xs with
    | nil => exact fun _ _ => ⟨ends, trivial⟩
    | cons x xs ih =>
      intro sound each
      rw [moreLexemes, allSound_cons, allSound_append, allSound_spaced] at sound
      obtain ⟨one, others⟩ := List.forall_mem_cons.mp each
      obtain ⟨ends', apart⟩ := ih sound.2.2 others
      rw [moreLexemes]
      refine ⟨breaks_mark (by simp), cutApart_mark (by simp) ?_⟩
      rw [cutApart_append, cutApart_spaced]
      exact ⟨one sound.2.1 ends', apart⟩
  cases xs with
  | nil => trivial
  | cons x xs =>
    rw [listLexemes, allSound_append] at sound
    obtain ⟨one, others⟩ := List.forall_mem_cons.mp each
    obtain ⟨ends', apart⟩ := more xs sound.2 others
    rw [listLexemes, cutApart_append]
    exact ⟨one sound.1 ends', apart⟩

theorem cutApart_parenthesized {ws : List Lexeme} (inner : ∀ {after}, breaks after = true → CutApart ws after) :
    CutApart (parenthesizedLexemes ws) after := by
  refine cutApart_mark (by simp) ?_
  rw [cutApart_append]
  exact ⟨inner (breaks_mark (by simp)), cutApart_mark (by simp) trivial⟩

theorem Operational.cutApart (operational : x.Operational) (sound : AllSound x.lexemes) (ends : breaks after = true) :
    CutApart x.lexemes after := by
  induction operational generalizing after with
  | @literal s raw v =>
    have terminal := tokenKind_isTerminal v
    rw [lexemes] at sound ⊢
    rcases literalLexemes_cases raw v.tokenKind with ⟨digits, -, same⟩ | same
    · rw [same, allSound_cons, allSound_cons] at sound
      rw [same]
      obtain ⟨start, minus⟩ := sound.2.1.opens terminal
      have filled := sound.2.1.filled
      refine cutApart_symbol (by decide) (fun b mem => ?_) ⟨sound.2.1.stands terminal ends, trivial⟩
      obtain ⟨d, more, rfl⟩ := List.exists_cons_of_ne_nil filled
      cases mem
      have apart : b ≠ 45 := fun same => minus (congrArg some same)
      obtain ⟨equals, angle⟩ := start b rfl
      simp [Symbol.joins, apart, equals, angle]
    · rw [same, allSound_cons] at sound
      rw [same]
      exact ⟨sound.1.stands terminal ends, trivial⟩
  | ident =>
    rw [lexemes, allSound_cons] at sound
    exact cutApart_word sound.1 ends trivial
  | this =>
    rw [lexemes, allSound_cons] at sound
    exact cutApart_keyword sound.1 ends trivial
  | paren _ ih =>
    rw [lexemes, parenthesizedLexemes, allSound_cons, allSound_append] at sound
    exact cutApart_parenthesized fun ends => ih sound.2.1 ends
  | unary operand ih =>
    rw [lexemes, allSound_cons, allSound_operand] at sound
    exact cutApart_prefix operand.lexemes_ne_nil (operand.opens sound.2 _) (ih sound.2 ends)
  | @stepAfter s op x _ ih =>
    rw [lexemes, allSound_append] at sound
    rw [lexemes, cutApart_append]
    have mark : op.symbol ∈ [Symbol.plusPlus, .minusMinus] := by cases op <;> simp [StepOp.symbol]
    exact ⟨ih sound.1 (breaks_mark (by simp at mark ⊢; tauto)), cutApart_mark (by simp at mark ⊢; tauto) trivial⟩
  | @binary s op x y left right ih ih' =>
    rw [lexemes, allSound_append, allSound_append, allSound_spaced, allSound_spaced] at sound
    rw [lexemes, cutApart_append]
    exact ⟨ih sound.1 rfl, cutApart_between (by cases op <;> decide) right.lexemes_ne_nil (ih' sound.2.2 ends)⟩
  | @assign s op x y left right ih ih' =>
    rw [lexemes, allSound_append, allSound_append, allSound_spaced, allSound_spaced] at sound
    rw [lexemes, cutApart_append]
    exact ⟨ih sound.1 rfl, cutApart_between (by cases op <;> decide) right.lexemes_ne_nil (ih' sound.2.2 ends)⟩
  | @is s x type _ ih =>
    rw [lexemes, allSound_append, allSound_append, allSound_spaced, allSound_spaced] at sound
    rw [lexemes, cutApart_append]
    have first : StandsBefore (.keyword .is_) (utf8 Keyword.is_.spelling) (written (spaced type.lexemes) ++ after) := by
      obtain ⟨w, ws, same, -⟩ := type.tight
      refine (allSound_cons.mp sound.2.1).1.stands rfl ?_
      rw [same]
      rfl
    exact ⟨ih sound.1 rfl, first, cutApart_spaced.mpr (type.cutApart sound.2.2 ends)⟩
  | typeof operand ih | await operand ih | spawn operand ih =>
    rw [lexemes, allSound_cons, allSound_spaced] at sound
    exact cutApart_keyword sound.1 (breaks_spaced operand.lexemes_ne_nil) (cutApart_spaced.mpr (ih sound.2 ends))
  | @new s cls hasArgs args name each ih ih' =>
    rw [lexemes, allSound_cons, allSound_append, allSound_spaced] at sound
    rw [lexemes, ← spaced_append name.lexemes_ne_nil]
    refine cutApart_keyword sound.1 (breaks_spaced (by simp [name.lexemes_ne_nil])) ?_
    rw [cutApart_spaced, cutApart_append]
    cases hasArgs with
    | false => exact ⟨ih sound.2.1 ends, trivial⟩
    | true =>
      rw [if_pos rfl, parenthesizedLexemes, allSound_cons, allSound_append] at sound
      exact ⟨ih sound.2.1 (breaks_mark (by simp)),
        cutApart_parenthesized fun ends => cutApart_list each sound.2.2.2.1 ends ih'⟩
  | ternary _ yes no ih ih' ih'' =>
    rw [lexemes, allSound_append, allSound_append, allSound_append, allSound_append, allSound_spaced, allSound_spaced,
      allSound_spaced, allSound_spaced] at sound
    have some := yes.lexemes_ne_nil
    rw [lexemes, cutApart_append, ← spaced_append some]
    refine ⟨ih sound.1 rfl, cutApart_between (by decide) (by simp [some]) ?_⟩
    rw [cutApart_append]
    exact ⟨ih' sound.2.2.1 rfl, cutApart_between (by decide) no.lexemes_ne_nil (ih'' sound.2.2.2.2 ends)⟩
  | call _ each ih ih' =>
    rw [lexemes, allSound_append, parenthesizedLexemes, allSound_cons, allSound_append] at sound
    rw [lexemes, cutApart_append]
    exact ⟨ih sound.1 (breaks_mark (by simp)), cutApart_parenthesized fun ends => cutApart_list each sound.2.2.1 ends ih'⟩
  | member _ ih =>
    rw [lexemes, allSound_append, allSound_cons, allSound_cons] at sound
    obtain ⟨ends', apart⟩ := cutApart_member sound.2.2.1 ends
    rw [lexemes, cutApart_append]
    exact ⟨ih sound.1 ends', apart⟩
  | index _ _ ih ih' =>
    rw [lexemes, allSound_append, allSound_cons, allSound_append] at sound
    rw [lexemes, cutApart_append]
    refine ⟨ih sound.1 (breaks_mark (by simp)), cutApart_mark (by simp) ?_⟩
    rw [cutApart_append]
    exact ⟨ih' sound.2.2.1 (breaks_mark (by simp)), cutApart_mark (by simp) trivial⟩
  | array each ih =>
    rw [lexemes, allSound_cons, allSound_append] at sound
    refine cutApart_mark (by simp) ?_
    rw [cutApart_append]
    exact ⟨cutApart_list each sound.2.1 (breaks_mark (by simp)) ih, cutApart_mark (by simp) trivial⟩
  | @tuple s xs each ih =>
    rw [lexemes, parenthesizedLexemes, allSound_cons, allSound_append, allSound_append] at sound
    refine cutApart_parenthesized fun ends => ?_
    rw [cutApart_append]
    split
    · exact ⟨cutApart_list each sound.2.1.1 (breaks_mark (by simp)) ih, cutApart_mark (by simp) trivial⟩
    · exact ⟨cutApart_list each sound.2.1.1 ends ih, trivial⟩
  | set each ih =>
    rw [lexemes, allSound_cons, allSound_cons, allSound_append] at sound
    refine cutApart_mark (by simp) (cutApart_mark (by simp) ?_)
    rw [cutApart_append]
    exact ⟨cutApart_list each sound.2.2.1 (breaks_mark (by simp)) ih, cutApart_mark (by simp) trivial⟩
  | spread _ ih =>
    rw [lexemes, allSound_cons] at sound
    exact cutApart_mark (by simp) (ih sound.2 ends)

theorem Operational.tokenize_print (operational : x.Operational) (sound : AllSound x.lexemes) (f : SourceFile) :
    ∃ ts stop, tokenize { f with content := x.print } = (ts ++ [stop], none) ∧ ts.map Token.face = x.lexemes.map Lexeme.face ∧
      stop.kind = .eof := by
  rw [operational.print_eq sound.filled]
  exact tokenize_written f (operational.cutApart sound rfl)

end Expr

end LedgerScript
