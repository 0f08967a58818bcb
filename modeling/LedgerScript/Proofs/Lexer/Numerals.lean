import LedgerScript.Proofs.Lexer.Escapes

/-!
# Numbers are cut off again

A token that was cut from one text is cut off in the same way from any other text that starts with its bytes, if what follows
there is nothing that would belong to it.  For a number this is a letter, a digit, a byte of a character beyond ASCII, or a
point in front of a digit.  Each scanner looks at its bytes from the left, so it is compared on a text and on the text with
more behind it, part by part.
-/

namespace LedgerScript

variable {b : UInt8} {text : Bytes} {n : Nat} {kind : LiteralKind}

open Text

/-! ## What stands at the front -/

/-- No word, number or type goes on with this text. -/
def breaks : Bytes → Bool
  | [] => true
  | b :: rest => !isWordByte b && b < 0x80 && b != 61 && !(b == 46 && startsWithDigit rest)

structure StandsBefore (kind : TokenKind) (text after : Bytes) : Prop where
  filled : text ≠ []
  clear : scanTrivia (text ++ after) = .ok none
  plain : (text ++ after).head?.any isTemplateQuote = false
  cut : ∀ file leading off, lexPlain file leading ⟨off, text ++ after⟩ =
    .ok (cutToken file kind text.length leading ⟨off, text ++ after⟩)

/-- The byte starts neither a blank nor a comment nor a template. -/
def isInk (b : UInt8) : Bool :=
  !isInlineBlank b && b != 10 && b != 47 && b != 96

/-- The bytes that start blanks, comments and templates. -/
theorem isInk_of_forall (other : ∀ d ∈ ([32, 9, 13, 10, 47, 96] : List UInt8), b ≠ d) : isInk b = true := by
  simp only [List.forall_mem_cons] at other
  simp [isInk, isInlineBlank, other]

theorem scanTrivia_ink {rest : Bytes} (ink : isInk b = true) : scanTrivia (b :: rest) = .ok none := by
  simp only [isInk, Bool.and_eq_true, Bool.not_eq_true', bne_iff_ne] at ink
  obtain ⟨⟨⟨blank, line⟩, slash⟩, -⟩ := ink
  unfold scanTrivia
  split
  · next same => cases same
  · next same => exact absurd (List.cons.inj same).1 slash
  · next same => exact absurd (List.cons.inj same).1 slash
  · next same =>
    cases same
    rw [if_neg (by simp [blank]), if_neg line]

theorem StandsBefore.of_ink {kind : TokenKind} {rest after : Bytes} (ink : isInk b = true)
    (cut : ∀ file leading off, lexPlain file leading ⟨off, b :: rest ++ after⟩ =
      .ok (cutToken file kind (b :: rest).length leading ⟨off, b :: rest ++ after⟩)) : StandsBefore kind (b :: rest) after where
  filled := List.cons_ne_nil b rest
  clear := scanTrivia_ink ink
  plain := by
    simp only [isInk, Bool.and_eq_true, bne_iff_ne] at ink
    simpa [isTemplateQuote] using ink.2
  cut := cut

/-- Nothing stands before a token that has no blank in front. -/
theorem lexLeading_clear {file fuel off : Nat} (clear : scanTrivia text = .ok none) :
    lexLeading file fuel ⟨off, text⟩ = .ok ([], ⟨off, text⟩) := by
  cases fuel with
  | zero => rfl
  | succ fuel => rw [lexLeading, clear]

theorem StandsBefore.lexToken {kind : TokenKind} {text after : Bytes} (stands : StandsBefore kind text after) (file off : Nat) :
    lexToken file (lexFuel (text ++ after)) ⟨off, text ++ after⟩ =
      .ok (cutToken file kind text.length [] ⟨off, text ++ after⟩) := by
  rw [lexFuel, LedgerScript.lexToken, lexLeading_clear stands.clear]
  dsimp only
  rw [if_neg (by rw [stands.plain]; decide)]
  exact stands.cut file [] off

/-! ## Digits, fractions and exponents -/

/-- No number goes on with this text, but for its fraction. -/
def Quiet (text : Bytes) : Prop :=
  ∀ b ∈ text.head?, isWordByte b = false ∧ b < 0x80

theorem quiet_of_breaks (ends : breaks text = true) : Quiet text ∧ fractionLength text = 0 := by
  cases text with
  | nil => exact ⟨nofun, rfl⟩
  | cons b rest =>
    simp only [breaks, Bool.and_eq_true, Bool.not_eq_true', decide_eq_true_eq, Bool.and_eq_false_iff] at ends
    obtain ⟨⟨⟨word, low⟩, -⟩, point⟩ := ends
    refine ⟨by simpa [Quiet] using ⟨word, low⟩, ?_⟩
    unfold fractionLength
    split
    · next same =>
      cases same
      rcases point with point | digit
      · cases point
      · rw [if_neg (by simp [digit])]
    · rfl

section

variable {t r : Bytes}

theorem takeWhile_append_of_quiet {p : UInt8 → Bool} (inside : ∀ b, p b = true → isWordByte b = true) (quiet : Quiet r) :
    (t ++ r).takeWhile p = t.takeWhile p := by
  induction t with
  | nil =>
    cases r with
    | nil => rfl
    | cons b r =>
      have other : p b ≠ true := fun found => by
        have := (quiet b rfl).1
        rw [inside b found] at this
        cases this
      rw [List.nil_append, List.takeWhile_cons_of_neg other, List.takeWhile_nil]
  | cons b t ih => rw [List.cons_append, List.takeWhile_cons, List.takeWhile_cons, ih]

theorem isWordByte_of_digit {b : UInt8} (digit : isDecimalByte b = true) : isWordByte b = true := by
  rw [isWordByte, digit, Bool.or_true]

theorem decimalsLength_append (quiet : Quiet r) : decimalsLength (t ++ r) = decimalsLength t := by
  rw [decimalsLength, takeWhile_append_of_quiet (fun b found => ?_) quiet, decimalsLength]
  rcases Bool.or_eq_true _ _ ▸ found with digit | under
  · exact isWordByte_of_digit digit
  · rw [beq_iff_eq] at under
    subst under
    rfl

theorem startsWithDigit_append (quiet : Quiet r) : startsWithDigit (t ++ r) = startsWithDigit t := by
  cases t with
  | cons b t => rfl
  | nil =>
    cases r with
    | nil => rfl
    | cons b r =>
      cases digit : isDecimalByte b with
      | false => exact digit
      | true => cases (isWordByte_of_digit digit).symm.trans (quiet b rfl).1

theorem fractionLength_append (quiet : Quiet r) (some : t = [] → fractionLength r = 0) :
    fractionLength (t ++ r) = fractionLength t := by
  cases t with
  | nil => exact some rfl
  | cons b t =>
    by_cases point : b = 46
    · subst point
      change (if startsWithDigit (t ++ r) = true then 1 + decimalsLength (t ++ r) else 0) = _
      rw [startsWithDigit_append quiet, decimalsLength_append quiet]
      rfl
    · simp [fractionLength, point]

def isExponentByte (b : UInt8) : Bool :=
  b = ascii 'e' || b = ascii 'E'

theorem exponentLength_other {b : UInt8} (other : isExponentByte b = false) : exponentLength (b :: t) = 0 :=
  if_neg (by simpa [isExponentByte] using other)

theorem exponentLength_append (quiet : Quiet r) (some : ∀ e, t = [e] → isExponentByte e = false) :
    exponentLength (t ++ r) = exponentLength t := by
  match t with
  | [] =>
    cases r with
    | nil => rfl
    | cons b r =>
      refine exponentLength_other (Bool.eq_false_iff.mpr fun letter => ?_)
      have word : isWordByte b = true := by
        simp only [isExponentByte, Bool.or_eq_true, decide_eq_true_eq] at letter
        rcases letter with rfl | rfl <;> rfl
      cases word.symm.trans (quiet b rfl).1
  | [e] => rw [exponentLength_other (some e rfl), List.cons_append, exponentLength_other (some e rfl)]
  | e :: s :: more =>
    have signed := startsWithDigit_append (t := more) quiet
    have digits := decimalsLength_append (t := more) quiet
    have all := decimalsLength_append (t := s :: more) quiet
    rw [List.cons_append] at all
    simp only [List.cons_append, exponentLength, signed, digits, all]

theorem exponentLength_ne_one : exponentLength t ≠ 1 := by
  unfold exponentLength
  split
  · split
    · split
      · split
        · next s more digit =>
          have : 0 < decimalsLength (s :: more) := decimalsLength_pos digit
          omega
        · split <;> omega
      · nofun
    · nofun
  · nofun

end

/-! ## Base ten -/

/-- The lengths of the whole part, the fraction and the exponent of a number. -/
def wholeLength (text : Bytes) : Nat :=
  if text.head? = some 46 then 0 else decimalsLength text

/-- The lengths of the whole part, the fraction and the exponent of a number in base ten. -/
structure DecimalParts (text : Bytes) (w f e : Nat) : Prop where
  whole : w = wholeLength text
  fraction : f = fractionLength (text.drop w)
  exponent : e = exponentLength (text.drop (w + f))

/-- What comes after these parts: perhaps a suffix, and then the end. -/
def decimalEnd (kind : LiteralKind) (n : Nat) (text : Bytes) : Except LexStop (LiteralKind × Nat) :=
  match text[n]? with
  | some b =>
    if isFloatSuffix b then finishNumber .float (n + 1) text
    else if isIntSuffix b && kind = .int then finishNumber .int (n + 1) text
    else finishNumber kind n text
  | none => finishNumber kind n text

section

variable {text t r rest : Bytes} {w f e n m : Nat} {k kind : LiteralKind}
variable {b : UInt8}

theorem scanDecimal_eq (parts : DecimalParts text w f e) :
    scanDecimal text = decimalEnd (if f = 0 && e = 0 then .int else .float) (w + f + e) text := by
  obtain ⟨rfl, rfl, rfl⟩ := parts
  rfl

theorem decimalParts_append (fits : w + f ≤ t.length) (quiet : Quiet r) (filled : t ≠ [])
    (noPoint : t.drop w = [] → fractionLength r = 0) (noLetter : ∀ b, t.drop (w + f) = [b] → isExponentByte b = false) :
    DecimalParts (t ++ r) w f e ↔ DecimalParts t w f e := by
  have whole : wholeLength (t ++ r) = wholeLength t := by
    obtain ⟨b, t, rfl⟩ := List.exists_cons_of_ne_nil filled
    rw [wholeLength, wholeLength, decimalsLength_append quiet]
    rfl
  have fraction : fractionLength ((t ++ r).drop w) = fractionLength (t.drop w) := by
    rw [List.drop_append_of_le_length (by omega), fractionLength_append quiet noPoint]
  have exponent : exponentLength ((t ++ r).drop (w + f)) = exponentLength (t.drop (w + f)) := by
    rw [List.drop_append_of_le_length fits, exponentLength_append quiet noLetter]
  constructor
  · rintro ⟨first, second, third⟩
    exact ⟨first.trans whole, second.trans fraction, third.trans exponent⟩
  · rintro ⟨first, second, third⟩
    exact ⟨first.trans whole.symm, second.trans fraction.symm, third.trans exponent.symm⟩

theorem finishNumber_ok (finished : finishNumber k n text = .ok (kind, m)) :
    kind = k ∧ m = n ∧ ∀ b ∈ text[n]?, isWordByte b = false ∧ b < 0x80 := by
  refine ⟨finishNumber_kind finished, finishNumber_eq finished, fun b there => ?_⟩
  rw [finishNumber, there] at finished
  dsimp only at finished
  split at finished
  · cases finished
  · next quiet =>
    rw [Bool.or_eq_true, not_or, Bool.not_eq_true, decide_eq_true_eq] at quiet
    exact ⟨quiet.1, UInt8.not_le.mp quiet.2⟩

theorem getElem?_length_append : (t ++ r)[t.length]? = r.head? := by
  rw [List.getElem?_append_right (Nat.le_refl _), Nat.sub_self, List.head?_eq_getElem?]

theorem finishNumber_again (quiet : Quiet rest) : finishNumber k t.length (t ++ rest) = .ok (k, t.length) := by
  rw [finishNumber, getElem?_length_append]
  cases rest with
  | nil => rfl
  | cons b rest =>
    obtain ⟨word, low⟩ := quiet b rfl
    dsimp only [List.head?_cons]
    rw [if_neg (by simpa [word] using low)]

theorem suffix_letters (suffix : isFloatSuffix b = true ∨ isIntSuffix b = true) :
    isWordByte b = true ∧ isExponentByte b = false := by
  simp only [isFloatSuffix, isIntSuffix, Bool.or_eq_true, beq_iff_eq] at suffix
  rcases suffix with (((rfl | rfl) | rfl) | rfl) | (((rfl | rfl) | rfl) | rfl) <;> decide

/-- A number in base ten ends after its parts, or after a suffix behind them. -/
theorem decimalEnd_ok (ended : decimalEnd k n text = .ok (kind, m)) :
    (∀ b ∈ text[m]?, isWordByte b = false ∧ b < 0x80) ∧
      ((m = n ∧ kind = k) ∨ (m = n + 1 ∧ ∃ b, text[n]? = some b ∧ (isFloatSuffix b = true ∨ isIntSuffix b = true))) := by
  unfold decimalEnd at ended
  split at ended
  · next b there =>
    split at ended
    · next suffix =>
      obtain ⟨-, rfl, quiet⟩ := finishNumber_ok ended
      exact ⟨quiet, .inr ⟨rfl, b, there, .inl suffix⟩⟩
    · split at ended
      · next suffix =>
        obtain ⟨-, rfl, quiet⟩ := finishNumber_ok ended
        exact ⟨quiet, .inr ⟨rfl, b, there, .inr (Bool.and_eq_true _ _ ▸ suffix).1⟩⟩
      · obtain ⟨rfl, rfl, quiet⟩ := finishNumber_ok ended
        exact ⟨quiet, .inl ⟨rfl, rfl⟩⟩
  · obtain ⟨rfl, rfl, quiet⟩ := finishNumber_ok ended
    exact ⟨quiet, .inl ⟨rfl, rfl⟩⟩

theorem decimalEnd_again (ended : decimalEnd k n (t ++ r) = .ok (kind, t.length)) (fits : n ≤ t.length) (quiet : Quiet rest) :
    decimalEnd k n (t ++ rest) = .ok (kind, t.length) := by
  obtain ⟨-, ⟨rfl, rfl⟩ | ⟨length, b, there, suffix⟩⟩ := decimalEnd_ok ended
  · rw [decimalEnd, getElem?_length_append]
    split
    · next b there =>
      have word := (quiet b there).1
      have noSuffix : isFloatSuffix b = false ∧ isIntSuffix b = false := by
        refine ⟨?_, ?_⟩ <;> refine Bool.eq_false_iff.mpr fun suffix => ?_
        · cases word.symm.trans (suffix_letters (.inl suffix)).1
        · cases word.symm.trans (suffix_letters (.inr suffix)).1
      rw [if_neg (by simp [noSuffix]), if_neg (by simp [noSuffix]), finishNumber_again quiet]
    · exact finishNumber_again quiet
  · have inside : n < t.length := by omega
    rw [List.getElem?_append_left inside] at there
    have here : (t ++ rest)[n]? = some b := by rw [List.getElem?_append_left inside, there]
    have here' : (t ++ r)[n]? = some b := by rw [List.getElem?_append_left inside, there]
    rw [decimalEnd, here'] at ended
    rw [decimalEnd, here]
    dsimp only at ended ⊢
    rw [← length] at ended ⊢
    split at ended
    · next float =>
      obtain ⟨rfl, -, -⟩ := finishNumber_ok ended
      rw [if_pos float, finishNumber_again quiet]
    · next noFloat =>
      rw [if_neg noFloat]
      split at ended
      · next int =>
        obtain ⟨rfl, -, -⟩ := finishNumber_ok ended
        rw [if_pos int, finishNumber_again quiet]
      · have := (finishNumber_ok ended).2.1
        omega

/-- A number in base ten is cut off again. -/
theorem scanDecimal_again (filled : t ≠ []) (scanned : scanDecimal (t ++ r) = .ok (kind, t.length)) (ends : breaks rest = true) :
    scanDecimal (t ++ rest) = .ok (kind, t.length) := by
  obtain ⟨quiet, noFraction⟩ := quiet_of_breaks ends
  obtain ⟨w, f, e, parts⟩ : ∃ w f e, DecimalParts (t ++ r) w f e := ⟨_, _, _, rfl, rfl, rfl⟩
  rw [scanDecimal_eq parts] at scanned
  obtain ⟨quiet', length⟩ := decimalEnd_ok scanned
  rw [getElem?_length_append] at quiet'
  have fits : w + f + e ≤ t.length := by rcases length with ⟨same, -⟩ | ⟨same, -⟩ <;> omega
  have noPoint : t.drop w = [] → fractionLength r = 0 := fun nothing => by
    have short := List.drop_eq_nil_iff.mp nothing
    have fraction := parts.fraction
    rw [List.drop_append_of_le_length (by omega), nothing, List.nil_append] at fraction
    omega
  have noLetter (b : UInt8) (last : t.drop (w + f) = [b]) : isExponentByte b = false := by
    have one := congrArg List.length last
    rw [List.length_drop, List.length_singleton] at one
    have none : e ≠ 1 := parts.exponent ▸ exponentLength_ne_one
    rcases length with ⟨same, -⟩ | ⟨same, d, there, suffix⟩
    · omega
    · have nothing : e = 0 := by omega
      rw [nothing, Nat.add_zero, List.getElem?_append_left (by omega)] at there
      have first : t[w + f]? = some b := by
        have head := congrArg List.head? last
        rwa [List.head?_drop] at head
      cases there.symm.trans first
      exact (suffix_letters suffix).2
  have alone := (decimalParts_append (by omega) quiet' filled noPoint noLetter).mp parts
  rw [scanDecimal_eq ((decimalParts_append (by omega) quiet filled (fun _ => noFraction) noLetter).mpr alone)]
  exact decimalEnd_again scanned fits quiet

/-! ## Other bases -/

/-- Where a number in another base ends: after its digits, or after a suffix behind them. -/
def basedEnd (n : Nat) (text : Bytes) : Nat :=
  if (text[n]?).any isIntSuffix then n + 1 else n

theorem basedEnd_append (ended : basedEnd n (t ++ r) = t.length) (quiet : Quiet rest) : basedEnd n (t ++ rest) = t.length := by
  unfold basedEnd at ended ⊢
  split at ended
  · next suffix =>
    have inside : n < t.length := by omega
    rw [List.getElem?_append_left inside] at suffix
    rw [if_pos (by rw [List.getElem?_append_left inside, suffix]), ended]
  · subst ended
    rw [if_neg]
    rw [getElem?_length_append]
    cases rest with
    | nil => nofun
    | cons b rest =>
      intro suffix
      cases (quiet b rfl).1.symm.trans (suffix_letters (.inr suffix)).1

theorem scanBased_again {digit : UInt8 → Bool} {z : UInt8} (inside : ∀ d, digit d = true → isWordByte d = true)
    (scanned : scanBased digit (z :: b :: t ++ r) = .ok (kind, (z :: b :: t).length)) (quiet : Quiet rest) :
    scanBased digit (z :: b :: t ++ rest) = .ok (kind, (z :: b :: t).length) := by
  have words (d : UInt8) (found : (digit d || d == 95) = true) : isWordByte d = true := by
    rcases Bool.or_eq_true _ _ ▸ found with found | under
    · exact inside d found
    · rw [beq_iff_eq] at under
      subst under
      rfl
  have taken (r : Bytes) (quiet : Quiet r) : ((z :: b :: t ++ r).drop 2).takeWhile (fun d => digit d || d == 95) =
      t.takeWhile fun d => digit d || d == 95 :=
    takeWhile_append_of_quiet words quiet
  unfold scanBased at scanned ⊢
  dsimp only at scanned ⊢
  split at scanned
  · cases scanned
  next some =>
  obtain ⟨rfl, length, quiet'⟩ := finishNumber_ok scanned
  rw [← length, getElem?_length_append] at quiet'
  rw [taken r quiet'] at some length
  rw [taken rest quiet, if_neg some]
  have ended : basedEnd _ (z :: b :: t ++ rest) = _ := basedEnd_append length.symm quiet
  rw [basedEnd] at ended
  rw [ended, finishNumber_again quiet]

theorem isWordByte_of_hex {d : UInt8} (hex : isHexByte d = true) : isWordByte d = true := by
  simp only [isHexByte, Bool.or_eq_true, Bool.and_eq_true, decide_eq_true_eq] at hex
  rcases hex with (decimal | small) | capital
  · exact isWordByte_of_digit decimal
  · simp [isWordByte, isWordStartByte, small.1, UInt8.le_trans small.2 (by decide : (102 : UInt8) ≤ 122)]
  · simp [isWordByte, isWordStartByte, capital.1, UInt8.le_trans capital.2 (by decide : (70 : UInt8) ≤ 90)]

theorem baseDigit?_word {digit : UInt8 → Bool} (base : baseDigit? b = some digit) :
    isWordByte b = true ∧ ∀ d, digit d = true → isWordByte d = true := by
  have letter {c c' : Char} (word : isWordByte (ascii c) = true ∧ isWordByte (ascii c') = true)
      (either : (decide (b = ascii c) || decide (b = ascii c')) = true) : isWordByte b = true := by
    rw [Bool.or_eq_true, decide_eq_true_eq, decide_eq_true_eq] at either
    rcases either with rfl | rfl
    · exact word.1
    · exact word.2
  unfold baseDigit? at base
  split at base
  · next either =>
    cases base
    exact ⟨letter (by decide) either, fun d => isWordByte_of_hex⟩
  split at base
  · next either =>
    cases base
    refine ⟨letter (by decide) either, fun d found => ?_⟩
    rw [Bool.or_eq_true, beq_iff_eq, beq_iff_eq] at found
    rcases found with rfl | rfl <;> rfl
  split at base
  · next either =>
    cases base
    refine ⟨letter (by decide) either, fun d found => isWordByte_of_digit ?_⟩
    rw [Bool.and_eq_true, decide_eq_true_eq, decide_eq_true_eq] at found
    simp [isDecimalByte, found.1, UInt8.le_trans found.2 (by decide : (55 : UInt8) ≤ 57)]
  · cases base

theorem scanNumber_ends (scanned : scanNumber text = .ok (kind, m)) : ∀ b ∈ text[m]?, isWordByte b = false ∧ b < 0x80 := by
  have decimal (scanned : scanDecimal text = .ok (kind, m)) : ∀ b ∈ text[m]?, isWordByte b = false ∧ b < 0x80 := by
    rw [scanDecimal_eq ⟨rfl, rfl, rfl⟩] at scanned
    exact (decimalEnd_ok scanned).1
  rw [scanNumber.eq_def] at scanned
  split at scanned
  · split at scanned
    · rw [scanBased] at scanned
      split at scanned
      · cases scanned
      · obtain ⟨-, rfl, quiet⟩ := finishNumber_ok scanned
        exact quiet
    · exact decimal scanned
  · exact decimal scanned

/-- A number without a base letter is in base ten. -/
theorem scanNumber_decimal (plain : ∀ b more, text = 48 :: b :: more → baseDigit? b = none) :
    scanNumber text = scanDecimal text := by
  unfold scanNumber
  split
  · next b more =>
    rw [plain b more rfl]
  · rfl

theorem scanNumber_again (filled : t ≠ []) (scanned : scanNumber (t ++ r) = .ok (kind, t.length)) (ends : breaks rest = true) :
    scanNumber (t ++ rest) = .ok (kind, t.length) := by
  have quiet := (quiet_of_breaks ends).1
  match t with
  | [z] =>
    have plain (r : Bytes) (quiet : Quiet r) (b : UInt8) (more : Bytes) (front : [z] ++ r = 48 :: b :: more) :
        baseDigit? b = none := by
      cases front
      refine Option.eq_none_iff_forall_ne_some.mpr fun digit base => ?_
      cases (quiet b rfl).1.symm.trans (baseDigit?_word base).1
    have quiet' := scanNumber_ends scanned
    rw [getElem?_length_append] at quiet'
    rw [scanNumber_decimal (plain r quiet')] at scanned
    rw [scanNumber_decimal (plain rest quiet)]
    exact scanDecimal_again filled scanned ends
  | z :: b :: t =>
    by_cases based : z = 48 ∧ ∃ digit, baseDigit? b = some digit
    · obtain ⟨rfl, digit, base⟩ := based
      have step (r : Bytes) : scanNumber (48 :: b :: t ++ r) = scanBased digit (48 :: b :: t ++ r) := by
        simp only [List.cons_append, scanNumber, base]
      rw [step] at scanned ⊢
      exact scanBased_again (baseDigit?_word base).2 scanned quiet
    · have plain (r : Bytes) (d : UInt8) (more : Bytes) (front : z :: b :: t ++ r = 48 :: d :: more) : baseDigit? d = none := by
        cases front
        exact Option.eq_none_iff_forall_ne_some.mpr fun digit base => based ⟨rfl, digit, base⟩
      rw [scanNumber_decimal (plain r)] at scanned
      rw [scanNumber_decimal (plain rest)]
      exact scanDecimal_again filled scanned ends

end

/-- The first byte of a number, and of the fraction where nothing stands before the point, belong to it. -/
theorem StartsNumber.take (starts : StartsNumber text)
    (scanned : scanNumber text = .ok (kind, n)) : StartsNumber (text.take n) := by
  have bites := bites_scanNumber starts scanned
  obtain ⟨m, rfl⟩ := Nat.exists_eq_succ_of_ne_zero (Nat.pos_iff_ne_zero.mp bites.1)
  rcases starts with digit | ⟨rest, rfl, digit⟩
  · cases text with
    | nil => cases digit
    | cons b rest => exact .inl digit
  · refine .inr ⟨rest.take m, rfl, ?_⟩
    cases rest with
    | nil => cases digit
    | cons d rest =>
      have decimal : scanDecimal (46 :: d :: rest) = .ok (kind, m + 1) := by
        rw [← scanNumber_decimal (fun b more front => by cases front), scanned]
      rw [scanDecimal_eq ⟨rfl, rfl, rfl⟩] at decimal
      have fraction : fractionLength ((46 :: d :: rest).drop (wholeLength (46 :: d :: rest))) = 1 + decimalsLength (d :: rest) :=
        if_pos digit
      have some := decimalsLength_pos digit
      have long : 1 ≤ m := by
        rcases (decimalEnd_ok decimal).2 with ⟨same, -⟩ | ⟨same, -⟩ <;> omega
      obtain ⟨k, rfl⟩ := Nat.exists_eq_succ_of_ne_zero (Nat.pos_iff_ne_zero.mp long)
      exact digit

theorem noWord_of_number (number : isDecimalByte b = true ∨ b = 46) :
    (isWordStartByte b || 0x80 ≤ b) = false ∧ (b == 95) = false := by
  rcases number with digit | rfl
  · simp only [isDecimalByte, Bool.and_eq_true, decide_eq_true_eq, UInt8.le_iff_toNat_le, UInt8.reduceToNat] at digit
    refine ⟨Bool.eq_false_iff.mpr fun word => ?_, beq_eq_false_iff_ne.mpr fun same => ?_⟩
    · simp only [isWordStartByte, Bool.or_eq_true, Bool.and_eq_true, decide_eq_true_eq, UInt8.le_iff_toNat_le,
        UInt8.reduceToNat, beq_iff_eq] at word
      rcases word with ((word | word) | rfl) | word
      · omega
      · omega
      · exact absurd digit.2 (by decide)
      · omega
    · subst same
      exact absurd digit.2 (by decide)
  · decide

theorem lexPlain_number {file off : Nat} {leading : List Trivia} (starts : StartsNumber text)
    (scanned : scanNumber text = .ok (kind, n)) :
    lexPlain file leading ⟨off, text⟩ = .ok (cutToken file (.literal kind) n leading ⟨off, text⟩) := by
  rcases starts with digit | ⟨rest, rfl, digit⟩
  · cases text with
    | nil => cases digit
    | cons b rest =>
      have decimal : isDecimalByte b = true := digit
      obtain ⟨word, under⟩ := noWord_of_number (.inl decimal)
      simp only [lexPlain, under, word, decimal, scanned, Bool.false_and, Bool.true_or, Bool.false_eq_true, if_false, if_true]
  · obtain ⟨word, under⟩ := noWord_of_number (b := 46) (.inr rfl)
    simp only [lexPlain, under, word, digit, scanned, Bool.false_and, Bool.false_eq_true, if_false]
    rfl

/-- A number is cut off again where it does not go on. -/
theorem stands_number {after : Bytes} (starts : StartsNumber text)
    (scanned : scanNumber text = .ok (kind, n)) (ends : breaks after = true) :
    StandsBefore (.literal kind) (text.take n) after := by
  obtain ⟨some, fits⟩ := bites_scanNumber starts scanned
  have length : (text.take n).length = n := List.length_take_of_le fits
  have again : scanNumber (text.take n ++ after) = .ok (kind, (text.take n).length) := by
    have whole : scanNumber (text.take n ++ text.drop n) = .ok (kind, (text.take n).length) := by
      rw [List.take_append_drop, length, scanned]
    exact scanNumber_again (List.length_pos_iff.mp (by omega)) whole ends
  have front := starts.take scanned
  obtain ⟨b, more, bytes⟩ := List.exists_cons_of_ne_nil (List.length_pos_iff.mp (by omega : 0 < (text.take n).length))
  rw [bytes] at again front ⊢
  have ink : isInk b = true := by
    refine isInk_of_forall fun d mem same => ?_
    subst same
    rcases front with digit | ⟨rest, same, -⟩
    · have decimal : isDecimalByte b = true := digit
      simp only [List.mem_cons, List.not_mem_nil, or_false] at mem
      rcases mem with rfl | rfl | rfl | rfl | rfl | rfl <;> cases decimal
    · cases same
      revert mem
      decide
  have starts' : StartsNumber (b :: more ++ after) := by
    rcases front with digit | ⟨rest, same, digit⟩
    · exact .inl digit
    · cases same
      refine .inr ⟨more ++ after, rfl, ?_⟩
      cases more with
      | nil => cases digit
      | cons d more => exact digit
  exact .of_ink ink fun file leading off => lexPlain_number starts' again

end LedgerScript
