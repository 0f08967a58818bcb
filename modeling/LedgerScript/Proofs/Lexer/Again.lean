import LedgerScript.Parser.State
import LedgerScript.Proofs.Lexer.Numerals

/-!
# Tokens are cut off again

A token that was cut from one text is cut off in the same way from any other text that starts with its bytes, if what follows
there is nothing that would belong to it.  After a word or a number this is a blank or a symbol, and no point in front of a
digit; after a literal in quotes it may be anything; for each symbol a few bytes would make another symbol of it.
-/

namespace LedgerScript

variable {c : Char} {cs : List Char} {after text rest : Bytes} {n file : Nat} {b : UInt8}
  {leading : List Trivia} {t : Token}

open Text

/-! ## Words -/

theorem wordTail_append (skipped rest : Bytes) : wordTail skipped.length (skipped ++ rest) = skipped.length + wordTail 0 rest := by
  induction skipped with
  | nil => exact (Nat.zero_add _).symm
  | cons b skipped ih =>
    rw [List.length_cons, List.cons_append, wordTail, ih]
    omega

theorem wordTail_encodeChar (continues : isWordContinue c = true) (rest : Bytes) :
    wordTail 0 (encodeChar c ++ rest) = (encodeChar c).length + wordTail 0 rest := by
  have decoded := decode?_encodeChar c rest
  obtain ⟨b, more, bytes⟩ := List.exists_cons_of_ne_nil (encodeChar_ne_nil c)
  rw [bytes, List.cons_append] at decoded ⊢
  rw [wordTail, decoded]
  dsimp only
  rw [if_pos continues, List.length_cons, Nat.add_sub_cancel, wordTail_append]
  omega

/-- What is at the front of a text is followed by all that goes on with it as a word. -/
theorem wordTail_encode (continues : ∀ c ∈ cs, isWordContinue c = true) (rest : Bytes) :
    wordTail 0 (encode cs ++ rest) = (encode cs).length + wordTail 0 rest := by
  induction cs with
  | nil => exact (Nat.zero_add _).symm
  | cons c cs ih =>
    obtain ⟨first, others⟩ := List.forall_mem_cons.mp continues
    have split : encode (c :: cs) = encodeChar c ++ encode cs := List.flatMap_cons
    rw [split, List.append_assoc, wordTail_encodeChar first, ih others, List.length_append, Nat.add_assoc]

/-- What continues a word is a list of characters that may. -/
theorem wordTail_spec (text : Bytes) : ∃ cs after, text = encode cs ++ after ∧ wordTail 0 text = (encode cs).length ∧
    ∀ c ∈ cs, isWordContinue c = true := by
  induction length : text.length using Nat.strongRecOn generalizing text with
  | _ k ih =>
    subst length
    cases decoded : decode? text with
    | none =>
      refine ⟨[], text, rfl, ?_, nofun⟩
      cases text with
      | nil => rfl
      | cons b rest => rw [wordTail, decoded]; rfl
    | some found =>
      obtain ⟨c, n⟩ := found
      obtain ⟨rfl, after, rfl⟩ := eq_of_decode? decoded
      by_cases continues : isWordContinue c = true
      · have filled := List.length_pos_of_ne_nil (encodeChar_ne_nil c)
        obtain ⟨cs, rest, rfl, tail, all⟩ := ih after.length (by rw [List.length_append]; omega) after rfl
        have split : encode (c :: cs) = encodeChar c ++ encode cs := List.flatMap_cons
        refine ⟨c :: cs, rest, by rw [split, List.append_assoc], ?_, List.forall_mem_cons.mpr ⟨continues, all⟩⟩
        rw [wordTail_encodeChar continues, tail, split, List.length_append]
      · refine ⟨[], encodeChar c ++ after, rfl, ?_, nofun⟩
        obtain ⟨b, more, bytes⟩ := List.exists_cons_of_ne_nil (encodeChar_ne_nil c)
        rw [bytes, List.cons_append] at decoded ⊢
        rw [wordTail, decoded]
        exact if_neg continues

def Halts (after : Bytes) : Prop :=
  ∀ c rest, after = encodeChar c ++ rest → isWordContinue c = false

/-- A text does not go on with a word where it breaks. -/
theorem halts_of_breaks (ends : breaks after = true) : Halts after := by
  rintro c rest rfl
  obtain ⟨b, more, bytes⟩ := List.exists_cons_of_ne_nil (encodeChar_ne_nil c)
  rw [bytes, List.cons_append] at ends
  simp only [breaks, Bool.and_eq_true, Bool.not_eq_true', decide_eq_true_eq] at ends
  obtain ⟨⟨⟨word, low⟩, -⟩, -⟩ := ends
  rcases encodeChar_cases c with ⟨small, one⟩ | ⟨-, high⟩
  · rw [one] at bytes
    cases bytes
    rw [isWordContinue, if_pos small]
    exact word
  · exact absurd low (UInt8.not_lt.mpr (high b (by simp [bytes])))

theorem wordTail_halts (halts : Halts after) : wordTail 0 after = 0 := by
  obtain ⟨cs, rest, split, tail, continues⟩ := wordTail_spec after
  cases cs with
  | nil => exact tail
  | cons c cs =>
    have front : after = encodeChar c ++ (encode cs ++ rest) := by
      rw [split, show encode (c :: cs) = encodeChar c ++ encode cs from List.flatMap_cons, List.append_assoc]
    have continues := continues c List.mem_cons_self
    rw [halts c _ front] at continues
    cases continues

/-- A word is a character that may start one and characters that may go on with one. -/
theorem scanWord_spec (scanned : scanWord text = .ok n) : ∃ c cs, text.take n = encode (c :: cs) ∧
    isWordStart c = true ∧ ∀ d ∈ cs, isWordContinue d = true := by
  unfold scanWord at scanned
  split at scanned
  · next c width decoded =>
    obtain ⟨rfl, after, rfl⟩ := eq_of_decode? decoded
    split at scanned
    · next starts =>
      cases scanned
      rw [List.drop_left]
      obtain ⟨cs, rest, rfl, tail, all⟩ := wordTail_spec after
      refine ⟨c, cs, ?_, starts, all⟩
      have split : encode (c :: cs) = encodeChar c ++ encode cs := List.flatMap_cons
      rw [tail, ← List.append_assoc, ← split, split, ← List.length_append, List.take_left]
    · cases scanned
  · cases scanned

theorem scanWord_again (starts : isWordStart c = true) (continues : ∀ d ∈ cs, isWordContinue d = true) (halts : Halts after) : scanWord (encode (c :: cs) ++ after) = .ok (encode (c :: cs)).length := by
  have split : encode (c :: cs) = encodeChar c ++ encode cs := List.flatMap_cons
  rw [split, List.append_assoc, scanWord, decode?_encodeChar]
  dsimp only
  rw [if_pos starts, List.drop_left, wordTail_encode continues, wordTail_halts halts, Nat.add_zero, List.length_append]

/-- The text starts with an underscore that is a token of its own. -/
def startsLone : Bytes → Bool
  | [] => false
  | b :: rest => b == 95 && !rest.head?.any isWordByte

def opensWord (b : UInt8) : Bool :=
  isWordStartByte b || 0x80 ≤ b

theorem opensWord_encodeChar {more : Bytes} (bytes : encodeChar c = b :: more)
    (starts : isWordStart c = true) : opensWord b = true := by
  rw [opensWord, Bool.or_eq_true, decide_eq_true_eq]
  rcases encodeChar_cases c with ⟨low, one⟩ | ⟨-, high⟩
  · rw [isWordStart, if_pos low] at starts
    rw [one] at bytes
    cases bytes
    exact .inl starts
  · exact .inr (high b (by simp [bytes]))

theorem isInk_of_opensWord (opens : opensWord b = true) : isInk b = true := by
  refine isInk_of_forall fun d mem same => ?_
  subst same
  simp only [List.mem_cons, List.not_mem_nil, or_false] at mem
  rcases mem with rfl | rfl | rfl | rfl | rfl | rfl <;> exact absurd opens (by decide)

theorem lexPlain_word {off : Nat}
    (front : text = encodeChar c ++ rest) (starts : isWordStart c = true) (other : startsLone text = false)
    (scanned : scanWord text = .ok n) :
    lexPlain file leading ⟨off, text⟩ = .ok (cutToken file (wordKind (text.take n)) n leading ⟨off, text⟩) := by
  obtain ⟨b, more, bytes⟩ := List.exists_cons_of_ne_nil (encodeChar_ne_nil c)
  have first : (isWordStartByte b || 0x80 ≤ b) = true := opensWord_encodeChar bytes starts
  rw [bytes, List.cons_append] at front
  subst front
  have shared : (b == 95 && !(more ++ rest).head?.any isWordByte) = false := other
  simp only [lexPlain, shared, first, scanned, Bool.false_eq_true, if_false, if_true]

theorem word_of_lexPlain {c next : Cursor} (lexed : lexPlain file leading c = .ok (t, next)) (word : t.kind.isWord = true) :
    ∃ n, scanWord c.rest = .ok n ∧ startsLone c.rest = false ∧ t.text = c.rest.take n ∧ t.kind = wordKind t.text := by
  have other {kind : TokenKind} {n : Nat} (noWord : kind.isWord = false)
      (lexed : (.ok (cutToken file kind n leading c) : Except LexFault (Token × Cursor)) = .ok (t, next)) : False := by
    cases lexed
    cases noWord.symm.trans word
  unfold lexPlain at lexed
  dsimp only at lexed
  split at lexed
  · exact (other rfl lexed).elim
  next b rest front =>
  split at lexed
  · exact (other rfl lexed).elim
  next shared =>
  split at lexed
  · split at lexed
    · next n scanned =>
      cases lexed
      exact ⟨n, scanned, by rw [front]; simpa [startsLone] using shared, rfl, rfl⟩
    · cases lexed
  split at lexed
  · split at lexed
    · exact (other rfl lexed).elim
    · cases lexed
  split at lexed
  · split at lexed
    · exact (other rfl lexed).elim
    · cases lexed
  split at lexed
  · split at lexed
    · exact (other rfl lexed).elim
    · cases lexed
  split at lexed
  · exact (other rfl lexed).elim
  · cases lexed

/-- The first byte of a word, and what the word is made of. -/
structure IsWord (text : Bytes) : Prop where
  chars : ∃ c cs, text = encode (c :: cs) ∧ isWordStart c = true ∧ ∀ d ∈ cs, isWordContinue d = true
  shared : ∀ after, startsLone (text ++ after) = false

theorem low_of_isWordByte (word : isWordByte b = true) : b < 0x80 := by
  simp only [isWordByte, isWordStartByte, isDecimalByte, Bool.or_eq_true, Bool.and_eq_true, decide_eq_true_eq, beq_iff_eq,
    UInt8.le_iff_toNat_le] at word
  rw [UInt8.lt_iff_toNat_lt]
  rcases word with ((word | word) | rfl) | word
  · exact Nat.lt_of_le_of_lt word.2 (by decide)
  · exact Nat.lt_of_le_of_lt word.2 (by decide)
  · decide
  · exact Nat.lt_of_le_of_lt word.2 (by decide)

theorem wordTail_pos (word : isWordByte b = true) : 0 < wordTail 0 (b :: rest) := by
  have low := low_of_isWordByte word
  have decoded : decode? (b :: rest) = some (Char.ofNat b.toNat, 1) := if_pos low
  have small : b.toNat < 0x80 := UInt8.lt_iff_toNat_lt.mp low
  have code : (Char.ofNat b.toNat).toNat = b.toNat := by
    apply toNat_of_charOfCode?
    rw [charOfCode?, if_pos (by simp; omega)]
  have continues : isWordContinue (Char.ofNat b.toNat) = true := by
    rw [isWordContinue, code, if_pos small]
    simpa using word
  rw [wordTail, decoded]
  dsimp only
  rw [if_pos continues]
  omega

theorem isWord_of_lexPlain {c next : Cursor}
    (lexed : lexPlain file leading c = .ok (t, next)) (word : t.kind.isWord = true) :
    IsWord t.text ∧ t.kind = wordKind t.text := by
  obtain ⟨n, scanned, shared, text, kind⟩ := word_of_lexPlain lexed word
  obtain ⟨d, ds, taken, starts, continues⟩ := scanWord_spec scanned
  refine ⟨⟨⟨d, ds, text.trans taken, starts, continues⟩, fun after => ?_⟩, kind⟩
  have bites := bites_scanWord scanned
  rw [text]
  cases front : c.rest with
  | nil =>
    rw [front] at bites
    exact absurd bites.2 (Nat.not_le.mpr bites.1)
  | cons b rest =>
    rw [front] at scanned shared
    obtain ⟨n, rfl⟩ := Nat.exists_eq_succ_of_ne_zero (Nat.pos_iff_ne_zero.mp bites.1)
    rw [List.take_succ_cons, List.cons_append, startsLone]
    cases under : b == 95 with
    | false => rfl
    | true =>
      rw [startsLone, under, Bool.true_and, Bool.not_eq_false'] at shared
      cases rest with
      | nil => cases shared
      | cons w rest =>
        -- a byte that goes on with a word belongs to the word
        have word : isWordByte w = true := shared
        rw [beq_iff_eq] at under
        subst under
        have length : n + 1 = 1 + wordTail 0 (w :: rest) := (Except.ok.inj scanned).symm
        obtain ⟨n, rfl⟩ := Nat.exists_eq_succ_of_ne_zero (n := n) (by have := @wordTail_pos rest w word; omega)
        rw [List.take_succ_cons, List.cons_append, List.head?_cons, Option.any_some, word]
        rfl

/-- A word is cut off where it does not go on. -/
theorem stands_word (starts : isWordStart c = true)
    (continues : ∀ d ∈ cs, isWordContinue d = true) (other : startsLone (encode (c :: cs) ++ after) = false)
    (halts : Halts after) : StandsBefore (wordKind (encode (c :: cs))) (encode (c :: cs)) after := by
  have split : encode (c :: cs) = encodeChar c ++ encode cs := List.flatMap_cons
  obtain ⟨b, more, bytes⟩ := List.exists_cons_of_ne_nil (encodeChar_ne_nil c)
  have ink : isInk b = true := isInk_of_opensWord (opensWord_encodeChar bytes starts)
  have cut (file : Nat) (leading : List Trivia) (off : Nat) : lexPlain file leading ⟨off, encode (c :: cs) ++ after⟩ =
      .ok (cutToken file (wordKind (encode (c :: cs))) (encode (c :: cs)).length leading ⟨off, encode (c :: cs) ++ after⟩) := by
    have front : encode (c :: cs) ++ after = encodeChar c ++ (encode cs ++ after) := by rw [split, List.append_assoc]
    rw [lexPlain_word front starts other (scanWord_again starts continues halts), List.take_left]
  rw [split, bytes, List.cons_append] at cut ⊢
  exact .of_ink ink cut

theorem IsWord.stands (word : IsWord text) (halts : Halts after) : StandsBefore (wordKind text) text after := by
  obtain ⟨c, cs, rfl, starts, continues⟩ := word.chars
  exact stands_word starts continues (word.shared after) halts

/-! ## Quoted literals -/

theorem lexPlain_string (scanned : scanString (34 :: rest) = .ok n) (file off : Nat) (leading : List Trivia) :
    lexPlain file leading ⟨off, 34 :: rest⟩ = .ok (cutToken file (.literal .string) n leading ⟨off, 34 :: rest⟩) := by
  have quote : (34 == ascii '"') = true := by decide
  have other : ((34 : UInt8) == 95 && !rest.head?.any isWordByte) = false := rfl
  have word : ¬(isWordStartByte 34 || 0x80 ≤ (34 : UInt8)) = true := by decide
  have number : (isDecimalByte 34 || ((34 : UInt8) == 46 && startsWithDigit rest)) = false := rfl
  simp only [lexPlain, other, number, quote, if_neg word, if_true, scanned, Bool.false_eq_true, if_false]

theorem lexPlain_char (scanned : scanChar (39 :: rest) = .ok n) (file off : Nat) (leading : List Trivia) :
    lexPlain file leading ⟨off, 39 :: rest⟩ = .ok (cutToken file (.literal .char) n leading ⟨off, 39 :: rest⟩) := by
  have quote : (39 == ascii '\'') = true := by decide
  have string : (39 == ascii '"') = false := by decide
  have other : ((39 : UInt8) == 95 && !rest.head?.any isWordByte) = false := rfl
  have word : ¬(isWordStartByte 39 || 0x80 ≤ (39 : UInt8)) = true := by decide
  have number : (isDecimalByte 39 || ((39 : UInt8) == 46 && startsWithDigit rest)) = false := rfl
  simp only [lexPlain, other, number, quote, string, if_neg word, if_true, scanned, Bool.false_eq_true, if_false]

/-- A glyph in front of an apostrophe is as wide as it was. -/
theorem glyphWidth_again (b : UInt8) (more : Bytes) : ∃ bytes after, b :: more = b :: bytes ++ after ∧
    glyphWidth (b :: more) = (b :: bytes).length ∧ ∀ after', glyphWidth (b :: bytes ++ 39 :: after') = (b :: bytes).length := by
  cases decoded : decode? (b :: more) with
  | some found =>
    obtain ⟨c, n⟩ := found
    obtain ⟨rfl, after, split⟩ := eq_of_decode? decoded
    obtain ⟨d, bytes, form⟩ := List.exists_cons_of_ne_nil (encodeChar_ne_nil c)
    have same : b = d := by
      rw [form] at split
      exact (List.cons.inj split).1
    subst same
    refine ⟨bytes, after, ?_, ?_, fun after' => ?_⟩
    · rw [← form, split]
    · rw [glyphWidth, decoded, form]
    · rw [← form, glyphWidth, decode?_encodeChar]
  | none =>
    refine ⟨[], more, rfl, by rw [glyphWidth, decoded]; simp, fun after' => ?_⟩
    rw [glyphWidth]
    split
    · next c n found =>
      obtain ⟨rfl, rest, split⟩ := eq_of_decode? found
      rcases encodeChar_cases c with ⟨-, one⟩ | ⟨-, high⟩
      · rw [one]
        rfl
      · -- an apostrophe is not among the bytes of a character of several bytes
        cases form : encodeChar c with
        | nil => exact absurd form (encodeChar_ne_nil c)
        | cons d bytes =>
          cases bytes with
          | nil => rfl
          | cons e bytes =>
            rw [form] at split high
            cases split
            exact absurd (high 39 (by simp)) (by decide)
    · rfl

/-- A character literal is a body between apostrophes that is scanned in the same way whatever follows it. -/
theorem scanChar_again (scanned : scanChar (39 :: rest) = .ok n) :
    ∃ body after, rest = body ++ 39 :: after ∧ n = body.length + 2 ∧
      ∀ after', scanChar (39 :: (body ++ 39 :: after')) = .ok (body.length + 2) := by
  have closed {body after : Bytes} {m : Nat} (split : rest = body ++ after)
      (close : closeChar (39 :: rest) (1 + body.length) = .ok m) (same : m = n) :
      ∃ after, rest = body ++ 39 :: after ∧ n = body.length + 2 := by
    obtain ⟨there, rfl⟩ := closeChar_eq_ok close
    rw [split, Nat.add_comm, List.getElem?_cons_succ, List.getElem?_append_right (Nat.le_refl _), Nat.sub_self] at there
    cases after with
    | nil => cases there
    | cons b after =>
      cases there
      exact ⟨after, split, by omega⟩
  have close (body after' : Bytes) : closeChar (39 :: (body ++ 39 :: after')) (1 + body.length) = .ok (body.length + 2) := by
    have there : (39 :: (body ++ 39 :: after'))[1 + body.length]? = some 39 := by
      rw [Nat.add_comm, List.getElem?_cons_succ, List.getElem?_append_right (Nat.le_refl _), Nat.sub_self]
      rfl
    rw [closeChar, there]
    dsimp only
    rw [if_pos (by decide)]
    exact congrArg _ (by omega)
  rw [scanChar, List.drop_one, List.tail_cons] at scanned
  split at scanned
  · cases scanned
  · next b more =>
    split at scanned
    · cases scanned
    next line =>
    split at scanned
    · cases scanned
    next quote =>
    split at scanned
    · next escape =>
      cases escape
      split at scanned
      · next c width read =>
        obtain ⟨e, after, split, rfl, form⟩ := escapeForm_of_readEscape read
        obtain ⟨after, whole, length⟩ := closed split scanned rfl
        refine ⟨e, after, whole, length, fun after' => ?_⟩
        have read := form.read (39 :: after')
        obtain ⟨e, rfl⟩ := form.head
        rw [List.cons_append] at read
        rw [scanChar, List.drop_one, List.tail_cons, List.cons_append]
        dsimp only
        rw [if_neg (by decide), if_neg (by decide), if_pos (by decide), read]
        exact close (92 :: e) after'
      · cases scanned
    · next escape =>
      obtain ⟨bytes, after, split, width, again⟩ := glyphWidth_again b more
      rw [width] at scanned
      obtain ⟨after, whole, length⟩ := closed split scanned rfl
      refine ⟨b :: bytes, after, whole, length, fun after' => ?_⟩
      rw [scanChar, List.drop_one, List.tail_cons, List.cons_append]
      dsimp only
      rw [if_neg line, if_neg quote, if_neg escape, ← List.cons_append, again]
      exact close (b :: bytes) after'

/-- A quoted literal is cut off again, whatever follows it. -/
theorem stands_string (scanned : scanString (34 :: rest) = .ok n) :
    StandsBefore (.literal .string) ((34 :: rest).take n) after := by
  rw [scanString, List.drop_one, List.tail_cons] at scanned
  obtain ⟨body, value, more, rfl, rfl, spells⟩ := spells_of_stringLength scanned
  have taken : (34 :: (body ++ 34 :: more)).take (1 + body.length + 1) = 34 :: (body ++ [34]) := by
    rw [Nat.add_comm 1, List.take_succ_cons, List.take_length_add_append]
    rfl
  rw [taken]
  refine .of_ink (by decide) fun file leading off => ?_
  have again : scanString (34 :: (body ++ 34 :: after)) = .ok (34 :: (body ++ [34])).length := by
    rw [scanString, List.drop_one, List.tail_cons, spells.scanned, List.length_cons, List.length_append, List.length_singleton]
    exact congrArg _ (by omega)
  have cut := lexPlain_string again file off leading
  rw [List.cons_append, List.append_assoc]
  exact cut

theorem stands_char (scanned : scanChar (39 :: rest) = .ok n) :
    StandsBefore (.literal .char) ((39 :: rest).take n) after := by
  obtain ⟨body, more, rfl, rfl, again⟩ := scanChar_again scanned
  have taken : (39 :: (body ++ 39 :: more)).take (body.length + 2) = 39 :: (body ++ [39]) := by
    rw [List.take_succ_cons, List.take_length_add_append]
    rfl
  rw [taken]
  refine .of_ink (by decide) fun file leading off => ?_
  have cut := lexPlain_char (again after) file off leading
  have length : (39 :: (body ++ [39])).length = body.length + 2 := by simp
  rw [length, List.cons_append, List.append_assoc]
  exact cut

/-! ## Symbols -/

/-- The byte would make another symbol or a comment of this one, or go on with it as a number. -/
def Symbol.joins : Symbol → UInt8 → Bool
  | .plus, b => b == 43 || b == 61
  | .minus, b => b == 45 || b == 61 || b == 62
  | .star, b | .percent, b | .bang, b | .lt, b | .gt, b => b == 61
  | .slash, b => b == 61 || b == 47 || b == 42
  | .assign, b => b == 61 || b == 62
  | .question, b => b == 63 || b == 46
  | .dot, b => b == 46 || isDecimalByte b
  | .questionDot, b => isDecimalByte b
  | _, _ => false

namespace Symbol

def before (s : Symbol) : List Symbol :=
  greedy.takeWhile (· ≠ s)

/-- A symbol that is tried before another one does not stand where that one does, unless what follows joins it. -/
theorem before_apart {s : Symbol} (other : s ≠ .underscore) : ∀ t ∈ s.before, (utf8 t.spelling).isPrefixOf (utf8 s.spelling) = false ∧
    ((utf8 s.spelling).isPrefixOf (utf8 t.spelling) = true →
      ((utf8 t.spelling)[(utf8 s.spelling).length]?).any s.joins = true) := by
  revert other
  cases s <;> decide +kernel

theorem greedy_eq {s : Symbol} (other : s ≠ .underscore) : ∃ later, greedy = s.before ++ s :: later := by
  cases s
  case underscore => exact absurd rfl other
  all_goals exact ⟨_, rfl⟩

section

variable {s : Symbol} {after : Bytes} (other : s ≠ .underscore) (clear : ∀ b ∈ after.head?, s.joins b = false)
include other clear

theorem heads_self : s.heads (utf8 s.spelling ++ after) = true := by
  have starts : Text.startsWith (utf8 s.spelling ++ after) (utf8 s.spelling) = true :=
    List.isPrefixOf_iff_prefix.mpr (List.prefix_append _ _)
  rw [heads, starts, Bool.true_and, Bool.not_eq_true', Bool.and_eq_false_iff]
  by_cases question : s = .questionDot
  · subst question
    refine .inr (Bool.eq_false_iff.mpr fun digit => ?_)
    cases after with
    | nil => cases digit
    | cons b after => cases (clear b rfl).symm.trans digit
  · exact .inl (beq_eq_false_iff_ne.mpr question)

theorem not_heads_before {t : Symbol} (mem : t ∈ s.before) : t.heads (utf8 s.spelling ++ after) = false := by
  obtain ⟨apart, joined⟩ := before_apart other t mem
  rw [heads, Bool.and_eq_false_iff]
  refine .inl (Bool.eq_false_iff.mpr fun starts => ?_)
  have here : utf8 t.spelling <+: utf8 s.spelling ++ after := List.isPrefixOf_iff_prefix.mp starts
  rcases List.prefix_or_prefix_of_prefix here (List.prefix_append _ _) with inside | ⟨more, longer⟩
  · cases apart.symm.trans (List.isPrefixOf_iff_prefix.mpr inside)
  · have starts : (utf8 s.spelling).isPrefixOf (utf8 t.spelling) = true := List.isPrefixOf_iff_prefix.mpr ⟨more, longer⟩
    have joins := joined starts
    rw [← longer] at here joins
    rw [List.getElem?_append_right (Nat.le_refl _), Nat.sub_self] at joins
    obtain ⟨rest, rfl⟩ := (List.prefix_append_right_inj _).mp here
    cases more with
    | nil => cases joins
    | cons b more => cases (clear b rfl).symm.trans joins

/-- A symbol is found at the front of a text, unless what follows joins it. -/
theorem scanSymbol_spelling : scanSymbol (utf8 s.spelling ++ after) = .ok (s, (utf8 s.spelling).length) := by
  have found : greedy.find? (heads (utf8 s.spelling ++ after)) = some s := by
    obtain ⟨later, split⟩ := greedy_eq other
    rw [List.find?_eq_some_iff_append]
    refine ⟨heads_self other clear, s.before, later, split, fun t mem => ?_⟩
    rw [not_heads_before other clear mem]
    rfl
  rw [scanSymbol, found]

/-- A symbol is cut off again, unless what follows joins it. -/
theorem stands : StandsBefore (.symbol s) (utf8 s.spelling) after := by
  have scanned := scanSymbol_spelling other clear
  obtain ⟨b, more, bytes⟩ := List.exists_cons_of_ne_nil s.spelling_ne_nil
  have point : (b == 46 && startsWithDigit (more ++ after)) = false := by
    by_cases dot : s = .dot
    · subst dot
      cases bytes
      cases after with
      | nil => rfl
      | cons b after => exact (Bool.or_eq_false_iff.mp (clear b rfl)).2
    · cases s
      case dot => exact absurd rfl dot
      all_goals
        cases bytes
        rfl
  have mark : (b == 95) = false ∧ (isWordStartByte b || 0x80 ≤ b) = false ∧ isDecimalByte b = false ∧ (b == ascii '"') = false ∧
      (b == ascii '\'') = false ∧ (b = 47 ∨ isInk b = true) := by
    have all : ∀ b ∈ (utf8 s.spelling).head?, (b == 95) = false ∧ (isWordStartByte b || 0x80 ≤ b) = false ∧
        isDecimalByte b = false ∧ (b == ascii '"') = false ∧ (b == ascii '\'') = false ∧ (b = 47 ∨ isInk b = true) := by
      revert other
      clear clear scanned bytes
      cases s <;> decide +kernel
    exact all b (by rw [bytes]; rfl)
  obtain ⟨under, word, digit, string, char, ink⟩ := mark
  rw [bytes] at scanned ⊢
  have cut (file : Nat) (leading : List Trivia) (off : Nat) : lexPlain file leading ⟨off, b :: more ++ after⟩ =
      .ok (cutToken file (.symbol s) (b :: more).length leading ⟨off, b :: more ++ after⟩) := by
    simp only [List.cons_append] at scanned ⊢
    simp only [lexPlain, under, word, digit, point, string, char, scanned, Bool.false_and, Bool.false_or, Bool.false_eq_true, if_false]
  rcases ink with rfl | ink
  · refine ⟨List.cons_ne_nil _ _, ?_, rfl, cut⟩
    by_cases slash : s = .slash
    · subst slash
      cases bytes
      cases after with
      | nil => rfl
      | cons b after =>
        have apart := clear b rfl
        simp only [joins, Bool.or_eq_false_iff, beq_eq_false_iff_ne] at apart
        simp [scanTrivia, apart, isInlineBlank]
    · cases s
      case slash => exact absurd rfl slash
      all_goals cases bytes
      rfl
  · exact .of_ink ink cut

end

end Symbol

/-! ## Tokens -/

def Token.Cut (t : Token) : Prop :=
  ∃ file fuel c next, lexToken file fuel c = .ok (t, next)

theorem Token.Cut.cases {t : Token} (cut : t.Cut) : t.kind = .eof ∨ t.kind = .literal .template ∨
    ∃ file leading c next, lexPlain file leading c = .ok (t, next) := by
  obtain ⟨file, fuel, c, next, lexed⟩ := cut
  cases fuel with
  | zero =>
    cases lexed
    exact .inl rfl
  | succ fuel =>
    rw [lexToken] at lexed
    split at lexed
    · cases lexed
    · split at lexed
      · split at lexed
        · cases lexed
        · cases lexed
          exact .inr (.inl rfl)
      · exact .inr (.inr ⟨_, _, _, _, lexed⟩)

/-- Names, reserved words and literals but for templates. -/
def TokenKind.isTerminal : TokenKind → Bool
  | .ident | .keyword _ | .literal .int | .literal .float | .literal .string | .literal .char => true
  | _ => false

/-- A word or a literal is cut off again where it does not go on. -/
theorem Token.Cut.stands (cut : t.Cut) (terminal : t.kind.isTerminal = true)
    (ends : breaks after = true) : StandsBefore t.kind t.text after := by
  rcases cut.cases with kind | kind | ⟨file, leading, c, next, lexed⟩
  · rw [kind] at terminal
    cases terminal
  · rw [kind] at terminal
    cases terminal
  by_cases word : t.kind.isWord = true
  · obtain ⟨isWord, kind⟩ := isWord_of_lexPlain lexed word
    rw [kind]
    exact isWord.stands (halts_of_breaks ends)
  · obtain ⟨kind, n, scanned, same⟩ := scanned_of_lexPlain lexed
    cases same
    change StandsBefore kind (c.rest.take n) after
    change kind.isTerminal = true at terminal
    change ¬kind.isWord = true at word
    generalize c.rest = text at scanned
    cases scanned with
    | eof | underscore | symbol => cases terminal
    | word =>
      rcases wordKind_cases (text.take n) with same | ⟨k, same⟩ <;> rw [same] at word <;> exact absurd rfl word
    | number starts scanned => exact stands_number starts scanned ends
    | string scanned => exact stands_string scanned
    | char scanned => exact stands_char scanned

theorem Token.Cut.word {t : Token} (cut : t.Cut) (word : t.kind.isWord = true) :
    utf8 t.nameText = t.text ∧ t.kind = wordKind t.text := by
  rcases cut.cases with kind | kind | ⟨file, leading, c, next, lexed⟩
  · rw [kind] at word
    cases word
  · rw [kind] at word
    cases word
  obtain ⟨isWord, kind⟩ := isWord_of_lexPlain lexed word
  obtain ⟨d, ds, text, -, -⟩ := isWord.chars
  refine ⟨?_, kind⟩
  have chars : shownChars t.text = d :: ds := by
    rw [text, shownChars, glyphs_encode, List.map_map]
    exact List.map_id _
  rw [nameText, shown, chars, utf8_eq_encode, text, String.toList_ofList]

/-- A reserved word is spelled in one way. -/
theorem Token.Cut.keyword (cut : t.Cut) {k : Keyword} (kind : t.kind = .keyword k) : t.text = utf8 k.spelling := by
  have same := (cut.word (by rw [kind]; rfl)).2
  rw [kind, wordKind] at same
  split at same
  · next found =>
    cases same
    have spelled := List.find?_some (p := fun k : Keyword => utf8 k.spelling == t.text) found
    exact (beq_iff_eq.mp spelled).symm
  · cases same

end LedgerScript
