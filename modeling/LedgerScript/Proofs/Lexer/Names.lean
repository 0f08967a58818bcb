import LedgerScript.Proofs.Lexer.Again

/-!
# Names are cut off whole

A word goes on up to the first character that cannot be part of it, whatever script it is written in.  There is one exception.
An underscore at the front is a token of its own unless the next byte goes on with a word, and no byte of a character beyond ASCII
does.  So such a character may follow an underscore inside a name, but not at its front.
-/

namespace LedgerScript

open Text

variable {c : Char} {cs : List Char} {after : Bytes}

/-- An underscore at the front of a word that does not go on in ASCII. -/
def SetApart (c : Char) (cs : List Char) : Prop :=
  c = '_' ∧ ∀ d ∈ cs.head?, 0x80 ≤ d.toNat

theorem any_isWordByte_encodeChar (c : Char) (rest : Bytes) :
    (encodeChar c ++ rest).head?.any isWordByte = (decide (c.toNat < 0x80) && isWordContinue c) := by
  rcases encodeChar_cases c with ⟨low, one⟩ | ⟨beyond, high⟩
  · rw [one, isWordContinue, if_pos low, decide_eq_true low]
    rfl
  · obtain ⟨b, more, bytes⟩ := List.exists_cons_of_ne_nil (encodeChar_ne_nil c)
    have noWord : isWordByte b = false := by
      by_contra word
      exact absurd (low_of_isWordByte (eq_true_of_ne_false word)) (UInt8.not_lt.mpr (high b (by simp [bytes])))
    rw [decide_eq_false (Nat.not_lt.mpr beyond), bytes]
    exact noWord

theorem Halts.head (halts : Halts after) : after.head?.any isWordByte = false := by
  cases after with
  | nil => rfl
  | cons b rest =>
    cases word : isWordByte b with
    | false => exact word
    | true =>
      have decoded : decode? (b :: rest) = some (Char.ofNat b.toNat, 1) := if_pos (low_of_isWordByte word)
      obtain ⟨-, more, split⟩ := eq_of_decode? decoded
      have head := any_isWordByte_encodeChar (Char.ofNat b.toNat) more
      rw [← split, halts _ _ split, Bool.and_false] at head
      exact head

/-- When the underscore at the front of a word is a token of its own. -/
theorem startsLone_iff (continues : ∀ d ∈ cs, isWordContinue d = true) (halts : Halts after) :
    startsLone (encode (c :: cs) ++ after) = true ↔ SetApart c cs := by
  have split : encode (c :: cs) = encodeChar c ++ encode cs := List.flatMap_cons
  rw [split, List.append_assoc]
  by_cases under : c = '_'
  · subst under
    show (!(encode cs ++ after).head?.any isWordByte) = true ↔ _
    cases cs with
    | nil =>
      rw [show encode [] ++ after = after from rfl, halts.head]
      simp [SetApart]
    | cons d ds =>
      rw [show encode (d :: ds) = encodeChar d ++ encode ds from List.flatMap_cons, List.append_assoc,
        any_isWordByte_encodeChar, continues d List.mem_cons_self]
      simp [SetApart]
  · obtain ⟨b, more, bytes⟩ := List.exists_cons_of_ne_nil (encodeChar_ne_nil c)
    have other : b ≠ 95 := by
      rintro rfl
      rcases encodeChar_cases c with ⟨low, one⟩ | ⟨-, high⟩
      · rw [one] at bytes
        have code := congrArg UInt8.toNat (List.cons.inj bytes).1
        rw [toNat_byte (Nat.lt_trans low (by decide))] at code
        exact under (by rw [← Char.ofNat_toNat c, code]; rfl)
      · exact absurd (high 95 (by simp [bytes])) (by decide)
    rw [bytes, List.cons_append, startsLone, beq_false_of_ne other]
    simp [SetApart, under]

theorem stands_underscore {rest : Bytes} (lone : startsLone (95 :: rest) = true) :
    StandsBefore (.symbol .underscore) [95] rest := by
  refine .of_ink (by decide) fun file leading off => ?_
  have lone : ((95 : UInt8) == 95 && !rest.head?.any isWordByte) = true := lone
  simp only [List.cons_append, List.nil_append, lexPlain, lone, if_true]
  rfl

/-- The first token of a file, if its text is cut off at the front. -/
theorem StandsBefore.first {kind : TokenKind} {text : Bytes} (stands : StandsBefore kind text after) {f : SourceFile}
    (content : f.content = text ++ after) : (Lexer.ofFile f).next.1 = { kind, span := ⟨f.id, 0, text.length⟩, text } := by
  have lexed := stands.lexToken f.id 0
  simp only [Lexer.next, Lexer.ofFile, Lexer.advance, content, lexed, cutToken, List.take_left, Cursor.span, Nat.zero_add]

/-- A word that is no keyword is cut off whole as a name, up to the first character that does not go on with it, unless it
starts with an underscore that is set apart.  Then the underscore alone is the first token. -/
theorem names_are_maximal {f : SourceFile} (starts : isWordStart c = true) (continues : ∀ d ∈ cs, isWordContinue d = true)
    (halts : Halts after) (free : Keyword.ofText? (encode (c :: cs)) = none) (content : f.content = encode (c :: cs) ++ after) :
    (¬SetApart c cs →
      (Lexer.ofFile f).next.1 = { kind := .ident, span := ⟨f.id, 0, (encode (c :: cs)).length⟩, text := encode (c :: cs) }) ∧
    (SetApart c cs → (Lexer.ofFile f).next.1 = { kind := .symbol .underscore, span := ⟨f.id, 0, 1⟩, text := [95] }) := by
  have lone := startsLone_iff (c := c) continues halts
  constructor
  · intro joined
    have shared : startsLone (encode (c :: cs) ++ after) = false := by
      rw [← Bool.not_eq_true, lone]
      exact joined
    have kind : wordKind (encode (c :: cs)) = .ident := by rw [wordKind, free]
    exact kind ▸ (stands_word starts continues shared halts).first content
  · rintro apart
    have shared := lone.mpr apart
    obtain ⟨rfl, -⟩ := apart
    exact (stands_underscore shared).first content

/-- A name in which scripts are mixed, and the same characters behind an underscore. -/
theorem names_are_maximal_mixed :
    isWordStart 'é' = true ∧ isWordStart '_' = true ∧ (∀ d ∈ ['é', '_', '9'], isWordContinue d = true) ∧ Halts [32] ∧
      (Lexer.ofFile { path := [], content := encode ['é', '_', '9'] ++ [32], newlines := [] }).next.1 =
        { kind := .ident, span := ⟨0, 0, 4⟩, text := encode ['é', '_', '9'] } ∧
      (Lexer.ofFile { path := [], content := encode ['_', 'é', '_', '9'] ++ [32], newlines := [] }).next.1 =
        { kind := .symbol .underscore, span := ⟨0, 0, 1⟩, text := [95] } := by
  have letter : isWordStart 'é' = true := by decide +kernel
  have others : ∀ d ∈ ['_', '9'], isWordContinue d = true :=
    List.forall_mem_cons.mpr ⟨rfl, List.forall_mem_singleton.mpr rfl⟩
  have continues : ∀ d ∈ ['é', '_', '9'], isWordContinue d = true :=
    List.forall_mem_cons.mpr ⟨by decide +kernel, others⟩
  have halts : Halts [32] := halts_of_breaks (by decide)
  refine ⟨letter, by decide, continues, halts, ?_, ?_⟩
  · exact (names_are_maximal letter others halts (by decide +kernel) rfl).1 fun apart => absurd apart.1 (by decide)
  · exact (names_are_maximal (by decide) continues halts (by decide +kernel) rfl).2 ⟨rfl, by rintro d ⟨⟩; decide⟩

end LedgerScript
