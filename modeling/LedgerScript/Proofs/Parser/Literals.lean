import LedgerScript.Eval.Basic
import LedgerScript.Proofs.Parser.Totality

/-!
# Integer literals are exact

What the lexer takes as an integer literal spells a number of a kind.  Wherever the parser comes to it, with a minus sign right
in front or without one, it reads that number if the kind has it, and stops if not.
-/

namespace LedgerScript

open Eval Parse

/-! ## Numbers of a kind -/

/-- The kind of whole numbers that literals of a kind stand for. -/
def IntegerKind.whole : IntegerKind → WholeKind
  | int => .int
  | long => .long
  | short => .short

theorem IntegerKind.wrap_of_inRange {kind : IntegerKind} {n : Int} (fits : kind.InRange n) : kind.whole.wrap n = n := by
  refine Int.bmod_eq_of_le_mul_two ?_ ?_ <;> cases kind <;> simp only [whole, WholeKind.bits, InRange] at * <;> omega

theorem evalExpr_integer {kind : IntegerKind} {n : Int} (fits : kind.InRange n) (span : Span) (raw : Bytes) (frame : HoldId) :
    evalExpr (.literal span raw (kind.literal n)) frame = pure (.whole kind.whole n) := by
  have value : literalValue (kind.literal n) = .ofInt kind.whole n := by cases kind <;> rfl
  rw [Value.ofInt, IntegerKind.wrap_of_inRange fits] at value
  exact congrArg pure value

/-- What an integer literal is read as: its number, or a fault if its kind does not have it. -/
def integerLiteral (t : Token) (kind : IntegerKind) (v : Nat) (negative : Bool) (span : Span) : Except SyntaxFault Expr :=
  if kind.InRange (signedValue negative v) then
    .ok (.literal span (signedText negative t.text) (kind.literal (signedValue negative v)))
  else .error (.overflow (signedText negative t.text) kind.name t span)

section

variable {t : Token} {kind : IntegerKind} {v : Nat} (int : t.kind = .literal .int) (spells : SpellsInteger t.text kind v)
include int spells

theorem numberLiteral_integer (negative : Bool) (span : Span) (s : ParserState) :
    numberLiteral t negative span s = (integerLiteral t kind v negative span).map (·, s) := by
  unfold integerLiteral
  split
  · next fits =>
    rw [numberLiteral_inRange int spells fits]
    rfl
  · next large =>
    rw [numberLiteral_overflow int spells large]
    rfl

/-! ## Where the parser comes to them -/

theorem primary_integer (g : Grammar) (arrows : Bool) (rest : List Token) (prev : Span) :
    primary g arrows ⟨t :: rest, prev⟩ = (integerLiteral t kind v false t.span).map (·, ⟨rest, t.span⟩) := by
  have front : peek ⟨t :: rest, prev⟩ = .ok (t, ⟨t :: rest, prev⟩) := rfl
  have taken : advance ⟨t :: rest, prev⟩ = .ok (t, ⟨rest, t.span⟩) := advance_cons (int ▸ nofun)
  rw [primary, bind_of_ok front, int]
  dsimp only
  rw [bind_of_ok taken, numberLiteral_integer int spells]

theorem mapKey_integer (g : Grammar) (rest : List Token) (prev : Span) :
    mapKey g ⟨t :: rest, prev⟩ = (integerLiteral t kind v false t.span).map (·, ⟨rest, t.span⟩) := by
  have front : peek ⟨t :: rest, prev⟩ = .ok (t, ⟨t :: rest, prev⟩) := rfl
  have taken : advance ⟨t :: rest, prev⟩ = .ok (t, ⟨rest, t.span⟩) := advance_cons (int ▸ nofun)
  rw [mapKey, bind_of_ok front, int]
  dsimp only
  rw [bind_of_ok taken, numberLiteral_integer int spells]

/-- A minus sign right in front belongs to the literal. -/
theorem unaryRule_integer {minus : Token} (sign : minus.kind = .symbol .minus) (g : Grammar) (arrows : Bool) (rest : List Token)
    (prev : Span) : unaryRule g arrows ⟨minus :: t :: rest, prev⟩ =
      integerLiteral t kind v true (minus.span.cover t.span) >>= fun x => suffixes g x minus.span ⟨rest, t.span⟩ := by
  have front : peek ⟨minus :: t :: rest, prev⟩ = .ok (minus, ⟨minus :: t :: rest, prev⟩) := rfl
  have behind : kindAt 1 ⟨minus :: t :: rest, prev⟩ = .ok (t.kind, ⟨minus :: t :: rest, prev⟩) := rfl
  have taken : advance ⟨minus :: t :: rest, prev⟩ = .ok (minus, ⟨t :: rest, minus.span⟩) := advance_cons (sign ▸ nofun)
  have taken' : advance ⟨t :: rest, minus.span⟩ = .ok (t, ⟨rest, t.span⟩) := advance_cons (int ▸ nofun)
  rw [unaryRule, bind_of_ok front, sign]
  dsimp only
  have number : (decide (t.kind = .literal .int) || decide (t.kind = .literal .float)) = true := by rw [int]; rfl
  have read := numberLiteral_integer int spells true (minus.span.cover t.span) ⟨rest, t.span⟩
  rw [bind_of_ok behind, if_pos number, bind_of_ok taken, bind_of_ok taken']
  cases result : integerLiteral t kind v true (minus.span.cover t.span) with
  | ok x =>
    rw [result] at read
    exact bind_of_ok read
  | error fault =>
    rw [result] at read
    exact bind_of_error read

/-- Wherever the parser comes to an integer literal, it reads what the literal spells, and the literal stands for that. -/
structure ReadExactly (t : Token) (kind : IntegerKind) (v : Nat) : Prop where
  read : ∀ negative span s, numberLiteral t negative span s = (integerLiteral t kind v negative span).map (·, s)
  value : ∀ negative span, kind.InRange (signedValue negative v) → ∃ x, integerLiteral t kind v negative span = .ok x ∧
    ∀ frame, evalExpr x frame = pure (.whole kind.whole (signedValue negative v))
  stops : ∀ negative span, ¬kind.InRange (signedValue negative v) → ∃ fault, integerLiteral t kind v negative span = .error fault ∧
    fault.code = .literalOverflow
  operand : ∀ g arrows rest prev,
    primary g arrows ⟨t :: rest, prev⟩ = (integerLiteral t kind v false t.span).map (·, ⟨rest, t.span⟩)
  key : ∀ g rest prev, mapKey g ⟨t :: rest, prev⟩ = (integerLiteral t kind v false t.span).map (·, ⟨rest, t.span⟩)
  negated : ∀ minus : Token, minus.kind = .symbol .minus → ∀ g arrows rest prev, unaryRule g arrows ⟨minus :: t :: rest, prev⟩ =
    integerLiteral t kind v true (minus.span.cover t.span) >>= fun x => suffixes g x minus.span ⟨rest, t.span⟩

theorem readExactly : ReadExactly t kind v where
  read := numberLiteral_integer int spells
  value _ _ fits := ⟨_, if_pos fits, evalExpr_integer fits _ _⟩
  stops _ _ large := ⟨_, if_neg large, rfl⟩
  operand := primary_integer int spells
  key := mapKey_integer int spells
  negated _ sign := unaryRule_integer int spells sign

theorem OutOfRange.not_inRange {ts : List Token} {negative : Bool} {fault : SyntaxFault} (out : OutOfRange ts t negative fault) :
    ¬kind.InRange (signedValue negative v) := by
  intro fits
  obtain ⟨span, fails⟩ := out.fails
  have read := fails ⟨[], {}⟩
  rw [numberLiteral_inRange int spells fits] at read
  cases read

end

/-! ## Files -/

theorem spellsInteger_of_nested {f : SourceFile} {us : List Token} {t : Token} (nested : Nested (tokenize f).1 us) (mem : t ∈ us)
    (int : t.kind = .literal .int) : ∃ kind v, SpellsInteger t.text kind v := by
  rcases nested.cases with rfl | ⟨u, u_mem, part, part_mem, hole, here, inner⟩
  · exact (lexAll_sound t mem).int int
  · exact ((lexAll_sound u u_mem).holes part part_mem hole here us inner).ints t mem int

/-- Integer literals are exact.  An integer literal of a file, or of a hole in it, spells a number of a kind.  Wherever the parser
comes to it, it reads that number, with its sign if a minus sign stands right in front of it, and the number is what the literal
evaluates to; but if the kind does not have the number, it stops.

It stops with this fault only at a number that is out of range. -/
theorem integer_literals_are_exact (f : SourceFile) :
    (∀ us t, Nested (tokenize f).1 us → t ∈ us → t.kind = .literal .int →
      (∃ kind v, SpellsInteger t.text kind v) ∧ ∀ kind v, SpellsInteger t.text kind v → ReadExactly t kind v) ∧
    ∀ tokens fault, tokens <+: (tokenize f).1 → parseTokens f tokens = .error fault → fault.code = .literalOverflow →
      ∃ us t negative, Nested (closeTokens f.id tokens) us ∧ OutOfRange us t negative fault ∧
        (t.kind = .literal .int → ∃ kind v, SpellsInteger t.text kind v ∧ ¬kind.InRange (signedValue negative v)) := by
  refine ⟨fun us t nested mem int => ⟨spellsInteger_of_nested nested mem int, fun kind v => readExactly int⟩, ?_⟩
  intro tokens fault front failed code
  have sound := sound_of_front front
  obtain ⟨us, t, negative, nested, out⟩ := (placed_of_parseTokens sound failed).overflow code
  refine ⟨us, t, negative, nested, out, fun int => ?_⟩
  obtain ⟨kind, v, spells⟩ := (sound us nested).ints t out.mem int
  exact ⟨kind, v, spells, out.not_inRange int spells⟩

theorem parseTokens_short_overflow : parseTokens (.ofContent 0 (utf8 "f.ls") (utf8 "0x80_00s;") {})
    (tokenize (.ofContent 0 (utf8 "f.ls") (utf8 "0x80_00s;") {})).1 = .error (.overflow (utf8 "0x80_00s") "short"
      { kind := .literal .int, span := ⟨0, 0, 8⟩, text := utf8 "0x80_00s" } ⟨0, 0, 8⟩) :=
  rfl

/-- The least `short` with its sign is a literal, and without it there is a fault. -/
theorem integer_literals_are_exact_short :
    let f := SourceFile.ofContent 0 (utf8 "f.ls") (utf8 "0x80_00s;") {}
    let t : Token := { kind := .literal .int, span := ⟨0, 0, 8⟩, text := utf8 "0x80_00s" }
    let fault : SyntaxFault := .overflow t.text "short" t t.span
    t ∈ (tokenize f).1 ∧ ReadExactly t .short 32768 ∧
      integerLiteral t .short 32768 true t.span = .ok (.literal t.span (utf8 "-0x80_00s") (.short (-32768))) ∧
      parseTokens f (tokenize f).1 = .error fault ∧
      ∃ us u negative, Nested (closeTokens 0 (tokenize f).1) us ∧ OutOfRange us u negative fault := by
  intro f t fault
  obtain ⟨literals, faults⟩ := integer_literals_are_exact f
  have mem : t ∈ (tokenize f).1 := List.mem_cons_self
  have zero : DigitIs 48 0 := .inl ⟨by decide, rfl⟩
  have eight : DigitIs 56 8 := .inl ⟨by decide, rfl⟩
  have digits : Digits 16 [56, 48, 95, 48, 48] [8, 0, 0, 0] :=
    .digit eight (by decide) (.digit zero (by decide) (.underscore (.digit zero (by decide) (.digit zero (by decide) .nil))))
  have spells : SpellsInteger t.text .short 32768 := .mk (.hex (.inl rfl)) digits nofun (.short (.inl rfl))
  have failed : parseTokens f (tokenize f).1 = .error fault := parseTokens_short_overflow
  obtain ⟨us, u, negative, nested, out, -⟩ := faults _ fault List.prefix_rfl failed rfl
  exact ⟨mem, (literals _ t .self mem rfl).2 _ _ spells, rfl, failed, us, u, negative, nested, out⟩

end LedgerScript
