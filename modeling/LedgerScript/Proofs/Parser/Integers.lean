import LedgerScript.Parser.Literal
import LedgerScript.Proofs.Lexer.Lengths
import Mathlib.Data.Nat.Digits.Lemmas

/-!
# Integer literals

`SpellsInteger` says which texts are integer literals, and of which kind and value: a letter for the base, digits of the base
with underscores anywhere between them, and a letter for the kind.  What the lexer takes as an integer literal is such a text.

The parser reads the digits as a word, brings it into a signed word with its sign, and compares that to the bounds of the kind.
The three steps together come to one thing: the number itself is in the range of the kind.
-/

namespace LedgerScript

-- Powers are those of the numbers themselves, as in the definitions.
attribute [local instance (high)] instPowNat

/-! ## What integer literals are -/

/-- A byte is the digit of a value: `0` to `9`, and then `a` to `f` or `A` to `F`. -/
def DigitIs (b : UInt8) (d : Nat) : Prop :=
  (d < 10 ∧ b.toNat = 48 + d) ∨ (10 ≤ d ∧ d < 16 ∧ (b.toNat = 87 + d ∨ b.toNat = 55 + d))

/-- Digits of a base with underscores anywhere among them, and the values of the digits. -/
inductive Digits (base : Nat) : Bytes → List Nat → Prop where
  | nil : Digits base [] []
  | digit {b d text ds} (value : DigitIs b d) (small : d < base) (more : Digits base text ds) : Digits base (b :: text) (d :: ds)
  | underscore {text ds} (more : Digits base text ds) : Digits base (95 :: text) ds

/-- What stands for a base in front of its digits. -/
inductive BasePrefix : Bytes → Nat → Prop where
  | decimal : BasePrefix [] 10
  | hex {b} (letter : b = ascii 'x' ∨ b = ascii 'X') : BasePrefix [48, b] 16
  | binary {b} (letter : b = ascii 'b' ∨ b = ascii 'B') : BasePrefix [48, b] 2
  | octal {b} (letter : b = ascii 'o' ∨ b = ascii 'O') : BasePrefix [48, b] 8

/-- What stands for a kind behind the digits. -/
inductive KindSuffix : Bytes → IntegerKind → Prop where
  | int : KindSuffix [] .int
  | long {b} (letter : b = ascii 'L' ∨ b = ascii 'l') : KindSuffix [b] .long
  | short {b} (letter : b = ascii 's' ∨ b = ascii 'S') : KindSuffix [b] .short

/-- A text is an integer literal of a kind and a value. -/
inductive SpellsInteger : Bytes → IntegerKind → Nat → Prop where
  | mk {front body back : Bytes} {base : Nat} {ds : List Nat} {kind : IntegerKind} (opens : BasePrefix front base)
    (digits : Digits base body ds) (nonempty : ds ≠ []) (closes : KindSuffix back kind) :
    SpellsInteger (front ++ body ++ back) kind (Nat.ofDigits base ds.reverse)

def IntegerKind.InRange : IntegerKind → Int → Prop
  | int, n => -2147483648 ≤ n ∧ n ≤ 2147483647
  | long, n => -9223372036854775808 ≤ n ∧ n ≤ 9223372036854775807
  | short, n => -32768 ≤ n ∧ n ≤ 32767

/-! ## Bytes that are digits -/

section

variable {b : UInt8} {d base : Nat}

theorem digitIs_of_isDecimalByte (decimal : isDecimalByte b = true) : ∃ d < 10, DigitIs b d := by
  simp only [isDecimalByte, Bool.and_eq_true, decide_eq_true_eq, UInt8.le_iff_toNat_le, UInt8.reduceToNat] at decimal
  exact ⟨b.toNat - 48, by omega, .inl ⟨by omega, by omega⟩⟩

theorem digitIs_of_isHexByte (hex : isHexByte b = true) : ∃ d < 16, DigitIs b d := by
  rw [isHexByte, Bool.or_eq_true, Bool.or_eq_true] at hex
  rcases hex with (decimal | lower) | upper
  · obtain ⟨d, small, value⟩ := digitIs_of_isDecimalByte decimal
    exact ⟨d, by omega, value⟩
  · simp only [Bool.and_eq_true, decide_eq_true_eq, UInt8.le_iff_toNat_le, UInt8.reduceToNat] at lower
    exact ⟨b.toNat - 87, by omega, .inr ⟨by omega, by omega, .inl (by omega)⟩⟩
  · simp only [Bool.and_eq_true, decide_eq_true_eq, UInt8.le_iff_toNat_le, UInt8.reduceToNat] at upper
    exact ⟨b.toNat - 55, by omega, .inr ⟨by omega, by omega, .inr (by omega)⟩⟩

theorem DigitIs.isHexByte (value : DigitIs b d) : isHexByte b = true := by
  simp only [LedgerScript.isHexByte, isDecimalByte, Bool.or_eq_true, Bool.and_eq_true, decide_eq_true_eq, UInt8.le_iff_toNat_le,
    UInt8.reduceToNat]
  unfold DigitIs at value
  omega

theorem DigitIs.hexByteValue (value : DigitIs b d) : (hexByteValue b).toNat = d := by
  unfold DigitIs at value
  have bound := b.toNat_lt
  simp only [LedgerScript.hexByteValue, UInt8.le_iff_toNat_le, UInt8.reduceToNat]
  split
  · simp only [UInt8.toNat_sub, UInt8.reduceToNat]
    omega
  · split
    · simp only [UInt8.toNat_add, UInt8.toNat_sub, UInt8.reduceToNat]
      omega
    · simp only [UInt8.toNat_add, UInt8.toNat_sub, UInt8.reduceToNat]
      omega

theorem DigitIs.isDigitOf (value : DigitIs b d) (small : d < base) : isDigitOf base b = true := by
  rw [LedgerScript.isDigitOf, value.isHexByte, value.hexByteValue, Bool.true_and, decide_eq_true small]

theorem DigitIs.ne {c : UInt8} (value : DigitIs b d)
    (other : c.toNat < 48 ∨ (57 < c.toNat ∧ c.toNat < 65) ∨ (70 < c.toNat ∧ c.toNat < 97) ∨ 102 < c.toNat) : b ≠ c := by
  rintro rfl
  unfold DigitIs at value
  omega

end

/-! ## The three parts of a literal -/

section

variable {base : Nat} {front body back : Bytes} {ds : List Nat} {kind : IntegerKind}

/-- The digits of a literal without the underscores. -/
def bareDigits (body : Bytes) : Bytes :=
  body.filter (· ≠ 95)

theorem Digits.each (digits : Digits base body ds) : ∀ b ∈ bareDigits body, ∃ d < base, DigitIs b d := by
  induction digits with
  | nil => exact nofun
  | @digit b d text ds value small more ih =>
    have kept : bareDigits (b :: text) = b :: bareDigits text :=
      List.filter_cons_of_pos (decide_eq_true (value.ne (by decide)))
    rw [kept]
    exact List.forall_mem_cons.mpr ⟨⟨d, small, value⟩, ih⟩
  | underscore more ih => exact ih

theorem Digits.foldl (digits : Digits base body ds) (n : Nat) :
    (bareDigits body).foldl (fun n d => n * base + (hexByteValue d).toNat) n = ds.foldl (fun n d => n * base + d) n := by
  induction digits generalizing n with
  | nil => rfl
  | @digit b d text ds value small more ih =>
    have kept : bareDigits (b :: text) = b :: bareDigits text :=
      List.filter_cons_of_pos (decide_eq_true (value.ne (by decide)))
    rw [kept, List.foldl_cons, List.foldl_cons, value.hexByteValue]
    exact ih _
  | underscore more ih => exact ih n

theorem Digits.ne_nil (digits : Digits base body ds) (nonempty : ds ≠ []) : bareDigits body ≠ [] := by
  induction digits with
  | nil => exact absurd rfl nonempty
  | @digit b d text ds value small more ih =>
    have kept : bareDigits (b :: text) = b :: bareDigits text :=
      List.filter_cons_of_pos (decide_eq_true (value.ne (by decide)))
    rw [kept]
    exact List.cons_ne_nil _ _
  | underscore more ih => exact ih nonempty

theorem Digits.numberInBase (digits : Digits base body ds) :
    numberInBase base (bareDigits body) = Nat.ofDigits base ds.reverse := by
  rw [LedgerScript.numberInBase, digits.foldl, Nat.ofDigits_eq_foldr, List.foldr_reverse]
  refine congrArg (fun f => List.foldl f 0 ds) (funext fun n => funext fun d => ?_)
  rw [Nat.cast_id, Nat.mul_comm, Nat.add_comm]

/-- A number without its underscores. -/
theorem filter_parts (opens : BasePrefix front base) (closes : KindSuffix back kind) :
    (front ++ body ++ back).filter (· ≠ 95) = front ++ (bareDigits body ++ back) := by
  have front_eq : front.filter (· ≠ 95) = front := by
    cases opens with
    | decimal => rfl
    | hex letter | binary letter | octal letter => rcases letter with rfl | rfl <;> rfl
  have back_eq : back.filter (· ≠ 95) = back := by
    cases closes with
    | int => rfl
    | long letter | short letter => rcases letter with rfl | rfl <;> rfl
  rw [List.filter_append, List.filter_append, front_eq, back_eq, List.append_assoc]
  rfl

/-- Where no letter stands for a base, it is ten. -/
theorem splitBase_decimal {text : Bytes} (plain : ∀ b ∈ text, baseDigit? b = none) : splitBase text = (10, text) := by
  unfold splitBase
  split
  · next b rest =>
    have other := plain b (by simp)
    rw [baseDigit?] at other
    split at other
    · cases other
    next notHex =>
    split at other
    · cases other
    next notBinary =>
    split at other
    · cases other
    next notOctal => rw [if_neg notHex, if_neg notBinary, if_neg notOctal, ite_self]
  · rfl

theorem DigitIs.baseDigit?_eq_none {b : UInt8} {d : Nat} (value : DigitIs b d) (small : d < 10) : baseDigit? b = none := by
  have below : b.toNat < 58 := by
    unfold DigitIs at value
    omega
  have neither (c e : UInt8) (above : 58 ≤ c.toNat) (above' : 58 ≤ e.toNat) : ¬(b = c || b = e) = true := by
    rw [Bool.or_eq_true, decide_eq_true_eq, decide_eq_true_eq]
    rintro (rfl | rfl) <;> omega
  rw [baseDigit?, if_neg (neither _ _ (by decide) (by decide)), if_neg (neither _ _ (by decide) (by decide)),
    if_neg (neither _ _ (by decide) (by decide))]

theorem KindSuffix.baseDigit?_eq_none (closes : KindSuffix back kind) : ∀ b ∈ back, baseDigit? b = none := by
  cases closes with
  | int => exact nofun
  | long letter | short letter =>
    intro b mem
    rw [List.mem_singleton.mp mem]
    rcases letter with rfl | rfl <;> rfl

theorem splitBase_parts (opens : BasePrefix front base) (digits : Digits base body ds) (nonempty : ds ≠ [])
    (closes : KindSuffix back kind) : splitBase (front ++ (bareDigits body ++ back)) = (base, bareDigits body ++ back) := by
  have more : bareDigits body ++ back ≠ [] := fun none => digits.ne_nil nonempty (List.append_eq_nil_iff.mp none).1
  cases opens with
  | decimal =>
    refine splitBase_decimal fun b mem => ?_
    rw [List.nil_append, List.mem_append] at mem
    rcases mem with mem | mem
    · obtain ⟨d, small, value⟩ := digits.each b mem
      exact value.baseDigit?_eq_none small
    · exact closes.baseDigit?_eq_none b mem
  | hex letter | binary letter | octal letter =>
    rcases letter with rfl | rfl <;> exact if_neg more

theorem splitSuffix_parts (digits : Digits base body ds) (nonempty : ds ≠ []) (closes : KindSuffix back kind) :
    splitSuffix (bareDigits body ++ back) = some (bareDigits body, kind) := by
  cases closes with
  | int =>
    rw [List.append_nil, splitSuffix, List.getLast?_eq_some_getLast (digits.ne_nil nonempty)]
    obtain ⟨d, small, value⟩ := digits.each _ (List.getLast_mem (digits.ne_nil nonempty))
    have neither (c e : UInt8) (letter : 70 < c.toNat ∧ c.toNat < 97 ∨ 102 < c.toNat)
        (letter' : 70 < e.toNat ∧ e.toNat < 97 ∨ 102 < e.toNat) :
        ¬((bareDigits body).getLast (digits.ne_nil nonempty) = c || (bareDigits body).getLast (digits.ne_nil nonempty) = e) = true := by
      rw [Bool.or_eq_true, decide_eq_true_eq, decide_eq_true_eq]
      rintro (same | same)
      · exact value.ne (.inr (.inr letter)) same
      · exact value.ne (.inr (.inr letter')) same
    exact (if_neg (neither _ _ (by decide) (by decide))).trans (if_neg (neither _ _ (by decide) (by decide)))
  | long letter | short letter =>
    rw [splitSuffix, List.getLast?_concat, List.dropLast_concat]
    rcases letter with rfl | rfl <;> rfl

end

/-! ## Words and signed words -/

theorem readWord_digits {base : Nat} {body : Bytes} {ds : List Nat} (digits : Digits base body ds) (nonempty : ds ≠ []) :
    readWord base (bareDigits body) =
      if Nat.ofDigits base ds.reverse < 2 ^ 64 then some (.ofNat (Nat.ofDigits base ds.reverse)) else none := by
  have all : (bareDigits body).all (isDigitOf base) = true := by
    refine List.all_eq_true.mpr fun b mem => ?_
    obtain ⟨d, small, value⟩ := digits.each b mem
    exact value.isDigitOf small
  rw [readWord, decide_eq_false (digits.ne_nil nonempty), all, digits.numberInBase]
  rfl

def signedValue (negative : Bool) (v : Nat) : Int :=
  if negative then -v else v

theorem signedValue_false (v : Nat) : signedValue false v = v :=
  rfl

theorem signedValue_true (v : Nat) : signedValue true v = -v :=
  rfl

instance (kind : IntegerKind) (n : Int) : Decidable (kind.InRange n) :=
  match kind with
  | .int | .long | .short => inferInstanceAs (Decidable (_ ∧ _))

section

variable {negative : Bool} {v : Nat}

theorem toInt_toInt64 (small : v < 2 ^ 64) : (UInt64.ofNat v).toInt64.toInt = (v : Int).bmod (2 ^ 64) := by
  have word := BitVec.toInt_eq_toNat_bmod (UInt64.ofNat v).toBitVec
  rw [UInt64.toNat_toBitVec, UInt64.toNat_ofNat', Nat.mod_eq_of_lt small] at word
  exact word

theorem lt_word_of_inRange (fits : IntegerKind.long.InRange (signedValue negative v)) : v < 2 ^ 64 := by
  unfold IntegerKind.InRange at fits
  cases negative with
  | false =>
    rw [signedValue_false] at fits
    omega
  | true =>
    rw [signedValue_true] at fits
    omega

theorem signedWord_some (fits : IntegerKind.long.InRange (signedValue negative v)) :
    ∃ n, signedWord negative (.ofNat v) = some n ∧ n.toInt = signedValue negative v := by
  have small := lt_word_of_inRange fits
  unfold signedWord
  cases negative with
  | false =>
    rw [signedValue_false] at fits ⊢
    unfold IntegerKind.InRange at fits
    have below : UInt64.ofNat v < 0x8000000000000000 := by
      simp only [UInt64.lt_iff_toNat_lt, UInt64.toNat_ofNat', Nat.mod_eq_of_lt small, UInt64.reduceToNat]
      omega
    refine ⟨_, if_pos below, ?_⟩
    rw [toInt_toInt64 small, Int.bmod_def]
    split <;> omega
  | true =>
    rw [signedValue_true] at fits ⊢
    unfold IntegerKind.InRange at fits
    have below : UInt64.ofNat v ≤ 0x8000000000000000 := by
      simp only [UInt64.le_iff_toNat_le, UInt64.toNat_ofNat', Nat.mod_eq_of_lt small, UInt64.reduceToNat]
      omega
    refine ⟨_, if_pos below, ?_⟩
    rw [Int64.toInt_neg, toInt_toInt64 small, Int.bmod_def, Int.bmod_def]
    split <;> split <;> omega

theorem signedWord_none (small : v < 2 ^ 64) (large : ¬IntegerKind.long.InRange (signedValue negative v)) :
    signedWord negative (.ofNat v) = none := by
  unfold signedWord
  cases negative with
  | false =>
    rw [signedValue_false] at large
    unfold IntegerKind.InRange at large
    have above : ¬UInt64.ofNat v < 0x8000000000000000 := by
      simp only [UInt64.lt_iff_toNat_lt, UInt64.toNat_ofNat', Nat.mod_eq_of_lt small, UInt64.reduceToNat]
      omega
    rw [if_neg Bool.false_ne_true, if_neg above]
  | true =>
    rw [signedValue_true] at large
    unfold IntegerKind.InRange at large
    have above : ¬UInt64.ofNat v ≤ 0x8000000000000000 := by
      simp only [UInt64.le_iff_toNat_le, UInt64.toNat_ofNat', Nat.mod_eq_of_lt small, UInt64.reduceToNat]
      omega
    rw [if_pos rfl, if_neg above]

end

theorem IntegerKind.holds_iff (kind : IntegerKind) (n : Int) :
    kind.holds n = true ↔ -(2 ^ (kind.bits - 1)) ≤ n ∧ n < 2 ^ (kind.bits - 1) := by
  rw [holds, Bool.and_eq_true, decide_eq_true_eq, decide_eq_true_eq]

/-- The bounds of the narrow kinds are checked, those of the widest hold of every signed word. -/
theorem IntegerKind.fits_iff (kind : IntegerKind) (n : Int64) : kind.fits n = true ↔ kind.InRange n.toInt := by
  have least := n.le_toInt
  have most := n.toInt_lt
  cases kind with
  | int =>
    refine (holds_iff _ _).trans ?_
    simp only [bits, InRange]
    omega
  | long =>
    refine ⟨fun _ => ⟨?_, ?_⟩, fun _ => rfl⟩
    · exact least
    · omega
  | short =>
    refine (holds_iff _ _).trans ?_
    simp only [bits, InRange]
    omega

theorem IntegerKind.InRange.long {kind : IntegerKind} {n : Int} (fits : kind.InRange n) : IntegerKind.long.InRange n := by
  cases kind with
  | int | short =>
    unfold InRange at fits ⊢
    omega
  | long => exact fits

/-! ## Literals -/

def signedText (negative : Bool) (text : Bytes) : Bytes :=
  if negative then ascii '-' :: text else text

section

variable {tok : Token} {kind : IntegerKind} {v : Nat} {negative : Bool} {span : Span}

/-- The signed word that a number with its sign makes. -/
def wordOf (negative : Bool) (v : Nat) : Option Int64 :=
  (if v < 2 ^ 64 then some (.ofNat v) else none).bind (signedWord negative)

/-- An integer literal is what the signed word of its digits gives. -/
theorem numberLiteral_eq (int : tok.kind = .literal .int) (spells : SpellsInteger tok.text kind v) :
    numberLiteral tok negative span =
      match wordOf negative v with
      | none => throw (.overflow (signedText negative tok.text) kind.name tok span)
      | some n =>
        if kind.fits n then pure (.literal span (signedText negative tok.text) (kind.literal n.toInt))
        else throw (.overflow (signedText negative tok.text) kind.name tok span) := by
  unfold numberLiteral
  rw [if_neg (by rw [int]; nofun)]
  generalize tok.text = text at spells
  obtain ⟨opens, digits, nonempty, closes⟩ := spells
  rw [filter_parts opens closes, splitBase_parts opens digits nonempty closes]
  dsimp only
  rw [splitSuffix_parts digits nonempty closes]
  dsimp only
  rw [readWord_digits digits nonempty]
  rfl

theorem numberLiteral_inRange (int : tok.kind = .literal .int) (spells : SpellsInteger tok.text kind v)
    (fits : kind.InRange (signedValue negative v)) :
    numberLiteral tok negative span =
      pure (.literal span (signedText negative tok.text) (kind.literal (signedValue negative v))) := by
  obtain ⟨n, word, value⟩ := signedWord_some fits.long
  have kept : kind.fits n = true := (kind.fits_iff n).mpr (value ▸ fits)
  rw [numberLiteral_eq int spells, wordOf, if_pos (lt_word_of_inRange fits.long), Option.bind_some, word]
  dsimp only
  rw [if_pos kept, value]

theorem numberLiteral_overflow (int : tok.kind = .literal .int) (spells : SpellsInteger tok.text kind v)
    (large : ¬kind.InRange (signedValue negative v)) :
    numberLiteral tok negative span = throw (.overflow (signedText negative tok.text) kind.name tok span) := by
  rw [numberLiteral_eq int spells, wordOf]
  by_cases long : IntegerKind.long.InRange (signedValue negative v)
  · obtain ⟨n, word, value⟩ := signedWord_some long
    have out : ¬kind.fits n = true := fun kept => large (value ▸ (kind.fits_iff n).mp kept)
    rw [if_pos (lt_word_of_inRange long), Option.bind_some, word]
    exact if_neg out
  · by_cases small : v < 2 ^ 64
    · rw [if_pos small, Option.bind_some, signedWord_none small long]
    · rw [if_neg small, Option.bind_none]

end

/-! ## What the lexer takes -/

section

variable {text : Bytes} {n : Nat}
variable {digit : UInt8 → Bool} {b : UInt8}

theorem digits_of_all {base : Nat} (each : ∀ b, digit b = true → ∃ d < base, DigitIs b d) {body : Bytes}
    (all : ∀ b ∈ body, (digit b || b == 95) = true) :
    ∃ ds, Digits base body ds ∧ (body.all (· == 95) = false → ds ≠ []) := by
  induction body with
  | nil => exact ⟨[], .nil, nofun⟩
  | cons b rest ih =>
    rw [List.forall_mem_cons] at all
    obtain ⟨ds, digits, some⟩ := ih all.2
    by_cases blank : b = 95
    · subst blank
      exact ⟨ds, .underscore digits, some⟩
    · rw [beq_eq_false_iff_ne.mpr blank, Bool.or_false] at all
      obtain ⟨d, small, value⟩ := each b all.1
      exact ⟨d :: ds, .digit value small digits, fun _ => List.cons_ne_nil d ds⟩

theorem kindSuffix_of_isIntSuffix (letter : isIntSuffix b = true) : ∃ kind, KindSuffix [b] kind := by
  simp only [isIntSuffix, Bool.or_eq_true, beq_iff_eq] at letter
  rcases letter with ((upper | lower) | lower) | upper
  · exact ⟨.long, .long (.inl upper)⟩
  · exact ⟨.long, .long (.inr lower)⟩
  · exact ⟨.short, .short (.inl lower)⟩
  · exact ⟨.short, .short (.inr upper)⟩

theorem basePrefix_of_baseDigit? (letter : baseDigit? b = some digit) :
    ∃ base, BasePrefix [48, b] base ∧ ∀ c, digit c = true → ∃ d < base, DigitIs c d := by
  unfold baseDigit? at letter
  split at letter
  · next hex =>
    cases letter
    rw [Bool.or_eq_true, decide_eq_true_eq, decide_eq_true_eq] at hex
    exact ⟨16, .hex hex, fun c => digitIs_of_isHexByte⟩
  split at letter
  · next binary =>
    cases letter
    rw [Bool.or_eq_true, decide_eq_true_eq, decide_eq_true_eq] at binary
    refine ⟨2, .binary binary, fun c digit => ?_⟩
    rw [Bool.or_eq_true, beq_iff_eq, beq_iff_eq] at digit
    rcases digit with rfl | rfl
    · exact ⟨0, by decide, .inl (by decide)⟩
    · exact ⟨1, by decide, .inl (by decide)⟩
  split at letter
  · next octal =>
    cases letter
    rw [Bool.or_eq_true, decide_eq_true_eq, decide_eq_true_eq] at octal
    refine ⟨8, .octal octal, fun c digit => ?_⟩
    simp only [Bool.and_eq_true, decide_eq_true_eq, UInt8.le_iff_toNat_le, UInt8.reduceToNat] at digit
    exact ⟨c.toNat - 48, by omega, .inl ⟨by omega, by omega⟩⟩
  · cases letter

/-- Digits, with or without a letter for the kind behind them. -/
theorem spellsInteger_of_take {front body : Bytes} {base m : Nat} {ds : List Nat} (opens : BasePrefix front base)
    (digits : Digits base body ds) (nonempty : ds ≠ []) (taken : text.take m = front ++ body) :
    (∃ kind v, SpellsInteger (text.take m) kind v) ∧
      ((text[m]?).any isIntSuffix = true → ∃ kind v, SpellsInteger (text.take (m + 1)) kind v) := by
  refine ⟨?_, fun suffix => ?_⟩
  · have plain := SpellsInteger.mk opens digits nonempty .int
    rw [List.append_nil, ← taken] at plain
    exact ⟨_, _, plain⟩
  · obtain ⟨b, here, letter⟩ := (Option.any_eq_true _ _).mp suffix
    obtain ⟨kind, closes⟩ := kindSuffix_of_isIntSuffix letter
    rw [List.take_add_one, here, taken]
    exact ⟨_, _, .mk opens digits nonempty closes⟩

theorem spellsInteger_of_scanBased {rest : Bytes} (letter : baseDigit? b = some digit)
    {kind : LiteralKind} (scanned : scanBased digit (48 :: b :: rest) = .ok (kind, n)) :
    ∃ kind v, SpellsInteger ((48 :: b :: rest).take n) kind v := by
  obtain ⟨base, opens, each⟩ := basePrefix_of_baseDigit? letter
  unfold scanBased at scanned
  extract_lets body m at scanned
  obtain ⟨ds, digits, nonempty⟩ := digits_of_all each (List.all_eq_true.mp List.all_takeWhile)
  split at scanned
  · cases scanned
  · next some =>
    have taken : (48 :: b :: rest).take m = [48, b] ++ body := by
      have front : rest.take body.length = body := (List.prefix_iff_eq_take.mp (List.takeWhile_prefix _)).symm
      rw [show m = body.length + 1 + 1 by omega, List.take_succ_cons, List.take_succ_cons, front]
      rfl
    have spelled := spellsInteger_of_take opens digits (nonempty (Bool.not_eq_true _ ▸ some)) taken
    have same : n = if ((48 :: b :: rest)[m]?).any isIntSuffix then m + 1 else m := finishNumber_eq scanned
    rw [same]
    split
    · next suffix => exact spelled.2 suffix
    · exact spelled.1

theorem not_all_underscores (digit : startsWithDigit text = true) :
    (text.takeWhile fun b => isDecimalByte b || b == 95).all (· == 95) = false := by
  cases text with
  | nil => cases digit
  | cons b rest =>
    have decimal : isDecimalByte b = true := digit
    have other : (b == 95) = false := by
      refine beq_eq_false_iff_ne.mpr ?_
      rintro rfl
      cases decimal
    rw [List.takeWhile_cons_of_pos (by rw [decimal, Bool.true_or]), List.all_cons, other, Bool.false_and]

theorem spellsInteger_of_scanDecimal (starts : StartsNumber text) (scanned : scanDecimal text = .ok (.int, n)) :
    ∃ kind v, SpellsInteger (text.take n) kind v := by
  unfold scanDecimal at scanned
  extract_lets whole fraction exponent m kind at scanned
  -- neither a fraction nor an exponent
  have plain (int : kind = .int) : fraction = 0 ∧ exponent = 0 := by
    simp only [kind] at int
    split at int
    · next none => simpa using none
    · cases int
  have spelled (int : kind = .int) : (∃ kind v, SpellsInteger (text.take m) kind v) ∧
      ((text[m]?).any isIntSuffix = true → ∃ kind v, SpellsInteger (text.take (m + 1)) kind v) := by
    obtain ⟨noFraction, noExponent⟩ := plain int
    have digit : startsWithDigit text = true := by
      rcases starts with digit | ⟨rest, rfl, digit⟩
      · exact digit
      · have : fraction = 1 + decimalsLength rest := if_pos digit
        omega
    have notPoint : text.head? ≠ some 46 := by
      intro point
      rw [startsWithDigit, point] at digit
      cases digit
    have whole_eq : whole = decimalsLength text := if_neg notPoint
    have m_eq : m = decimalsLength text := by omega
    obtain ⟨ds, digits, nonempty⟩ :=
      digits_of_all (fun _ => digitIs_of_isDecimalByte) (List.all_eq_true.mp (List.all_takeWhile (l := text)))
    refine spellsInteger_of_take .decimal digits (nonempty (not_all_underscores digit)) ?_
    rw [m_eq]
    exact (List.prefix_iff_eq_take.mp (List.takeWhile_prefix _)).symm
  split at scanned
  · next b here =>
    split at scanned
    · cases finishNumber_kind scanned
    split at scanned
    · next suffix =>
      rw [Bool.and_eq_true, decide_eq_true_eq] at suffix
      rw [finishNumber_eq scanned]
      exact (spelled suffix.2).2 (by rw [here]; exact suffix.1)
    · rw [finishNumber_eq scanned]
      exact (spelled (finishNumber_kind scanned).symm).1
  · rw [finishNumber_eq scanned]
    exact (spelled (finishNumber_kind scanned).symm).1

theorem spellsInteger_of_scanNumber (starts : StartsNumber text) (scanned : scanNumber text = .ok (.int, n)) :
    ∃ kind v, SpellsInteger (text.take n) kind v := by
  rw [scanNumber.eq_def] at scanned
  split at scanned
  · split at scanned
    · next letter => exact spellsInteger_of_scanBased letter scanned
    · exact spellsInteger_of_scanDecimal starts scanned
  · exact spellsInteger_of_scanDecimal starts scanned

end

end LedgerScript
