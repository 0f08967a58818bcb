import LedgerScript.Lexer.Basic
import LedgerScript.Proofs.Text.Utf8

/-!
# Lengths of what is scanned

Every scanner says how many bytes at the front of a text belong to its token.  The bounds are the same for all of them: at
least one byte, and no more than the text has.  `Bites` states them, and there is one lemma per scanner.
-/

namespace LedgerScript

variable {b : UInt8} {rest text : Bytes} {n m : Nat} {kind k : LiteralKind}

def Bites (n : Nat) (text : Bytes) : Prop :=
  0 < n ∧ n ≤ text.length

theorem length_takeWhile_le (p : UInt8 → Bool) (text : Bytes) : (text.takeWhile p).length ≤ text.length :=
  (List.takeWhile_sublist p).length_le

theorem bites_takeWhile {p : UInt8 → Bool} (first : p b = true) : Bites ((b :: rest).takeWhile p).length (b :: rest) := by
  refine ⟨?_, length_takeWhile_le p _⟩
  rw [List.takeWhile_cons_of_pos first]
  exact Nat.succ_pos _

/-! ## Characters and escapes -/

theorem Text.bites_decode {c : Char} (found : Text.decode? text = some (c, n)) : Bites n text := by
  obtain ⟨rfl, rest, rfl⟩ := Text.eq_of_decode? found
  exact ⟨List.length_pos_of_ne_nil (Text.encodeChar_ne_nil c), by simp⟩

theorem bites_readEscape {c : Char} (read : readEscape text = .ok (c, n)) : Bites n text := by
  unfold readEscape at read
  split at read
  · cases read
  · cases read
  · next e b rest =>
    have two {d : Char} (same : (Except.ok (d, 2) : Except (LexCause × Nat) (Char × Nat)) = .ok (c, n)) :
        Bites n (e :: b :: rest) := by
      cases same
      simp [Bites]
    iterate 5
      split at read
      · exact two read
    split at read
    · -- two hexadecimal digits
      split at read
      · split at read
        · cases read
          simp [Bites]
        · cases read
      · cases read
    · split at read
      · -- up to six of them in braces, the closing one behind them
        split at read
        · next more =>
          dsimp only at read
          split at read
          · cases read
          · split at read
            · next closed =>
              split at read
              · cases read
                obtain ⟨inside, -⟩ := List.getElem?_eq_some_iff.mp closed
                simp only [Bites, List.length_cons]
                omega
              · cases read
            · cases read
        · cases read
      · split at read <;> cases read

/-! ## Blanks and comments -/

theorem blockCommentLength?_le {depth : Nat} (found : blockCommentLength? depth n text = some m) :
    n ≤ m ∧ m ≤ n + text.length := by
  fun_induction blockCommentLength? depth n text with
  | case1 n text =>
    cases found
    exact ⟨Nat.le_refl _, Nat.le_add_right _ _⟩
  | case2 => cases found
  | case3 depth n rest ih | case4 depth n rest ih =>
    obtain ⟨least, most⟩ := ih found
    simp only [List.length_cons]
    omega
  | case5 depth n b rest _ _ ih =>
    obtain ⟨least, most⟩ := ih found
    simp only [List.length_cons]
    omega

theorem bites_scanTrivia {k : TriviaKind} (found : scanTrivia text = .ok (some (k, n))) : Bites n text := by
  unfold scanTrivia at found
  split at found
  · cases found
  · cases found
    exact bites_takeWhile rfl
  · dsimp only at found
    split at found
    · next measured =>
      cases found
      have := blockCommentLength?_le measured
      simp only [Bites, List.length_cons]
      omega
    · cases found
  · next b rest _ _ =>
    split at found
    · next blank =>
      cases found
      exact bites_takeWhile blank
    · split at found
      · next same =>
        cases found
        exact bites_takeWhile (by simp [same])
      · cases found

/-! ## Words and numbers -/

theorem wordTail_le (skip : Nat) (text : Bytes) : wordTail skip text ≤ text.length := by
  fun_induction wordTail skip text with
  | case1 => exact Nat.zero_le _
  | case2 skip b rest ih | case3 b rest c width _ _ ih =>
    simp only [List.length_cons]
    omega
  | case4 | case5 => exact Nat.zero_le _

theorem bites_scanWord (scanned : scanWord text = .ok n) : Bites n text := by
  unfold scanWord at scanned
  split at scanned
  · next c width found =>
    split at scanned
    · cases scanned
      obtain ⟨some, fits⟩ := Text.bites_decode found
      have tail := wordTail_le 0 (text.drop width)
      rw [List.length_drop] at tail
      exact ⟨by omega, by omega⟩
    · cases scanned
  · cases scanned

theorem finishNumber_eq (finished : finishNumber kind m text = .ok (k, n)) : n = m := by
  unfold finishNumber at finished
  split at finished
  · split at finished
    · cases finished
    · cases finished
      rfl
  · cases finished
    rfl

theorem lt_length_of_any {p : UInt8 → Bool} (found : (text[n]?).any p = true) : n < text.length := by
  by_contra beyond
  rw [List.getElem?_eq_none (Nat.le_of_not_lt beyond)] at found
  cases found

theorem decimalsLength_le (text : Bytes) : decimalsLength text ≤ text.length :=
  length_takeWhile_le _ text

theorem decimalsLength_pos (digit : startsWithDigit text = true) : 0 < decimalsLength text := by
  cases text with
  | nil => cases digit
  | cons b rest =>
    refine (bites_takeWhile ?_).1
    rw [show isDecimalByte b = true from digit, Bool.true_or]

theorem fractionLength_le (text : Bytes) : fractionLength text ≤ text.length := by
  unfold fractionLength
  split
  · next rest =>
    have := decimalsLength_le rest
    simp only [List.length_cons]
    split <;> omega
  · exact Nat.zero_le _

theorem exponentLength_le (text : Bytes) : exponentLength text ≤ text.length := by
  unfold exponentLength
  split
  · split
    · split
      · next s more =>
        have whole := decimalsLength_le (s :: more)
        have signed := decimalsLength_le more
        simp only [List.length_cons] at whole ⊢
        split
        · omega
        · split <;> omega
      · exact Nat.zero_le _
    · exact Nat.zero_le _
  · exact Nat.zero_le _

def StartsNumber (text : Bytes) : Prop :=
  startsWithDigit text = true ∨ ∃ rest, text = 46 :: rest ∧ startsWithDigit rest = true

theorem bites_scanBased {digit : UInt8 → Bool} {z : UInt8}
    (scanned : scanBased digit (z :: b :: rest) = .ok (k, n)) : Bites n (z :: b :: rest) := by
  unfold scanBased at scanned
  extract_lets body m at scanned
  have body_le : body.length ≤ ((z :: b :: rest).drop 2).length := length_takeWhile_le _ _
  have total : m = 2 + body.length := rfl
  simp only [Bites, List.length_cons, List.length_drop] at body_le ⊢
  clear_value body m
  split at scanned
  · cases scanned
  · have same : n = if (z :: b :: rest)[m]?.any isIntSuffix then m + 1 else m := finishNumber_eq scanned
    split at same
    · next suffix =>
      have inside := lt_length_of_any suffix
      simp only [List.length_cons] at inside
      omega
    · omega

theorem bites_scanDecimal (starts : StartsNumber text) (scanned : scanDecimal text = .ok (k, n)) : Bites n text := by
  unfold scanDecimal at scanned
  extract_lets whole fraction exponent m kind at scanned
  have whole_le : whole ≤ text.length := by
    simp only [whole]
    split
    · exact Nat.zero_le _
    · exact decimalsLength_le text
  have fraction_le : fraction ≤ (text.drop whole).length := fractionLength_le _
  have exponent_le : exponent ≤ (text.drop (whole + fraction)).length := exponentLength_le _
  rw [List.length_drop] at fraction_le exponent_le
  have something : 0 < whole + fraction := by
    rcases starts with digit | ⟨rest, rfl, digit⟩
    · have notPoint : text.head? ≠ some 46 := by
        intro point
        rw [startsWithDigit, point] at digit
        cases digit
      have : whole = decimalsLength text := if_neg notPoint
      have := decimalsLength_pos digit
      omega
    · have : fraction = 1 + decimalsLength rest := if_pos digit
      omega
  have total : m = whole + fraction + exponent := rfl
  clear_value whole fraction exponent kind m
  split at scanned
  · next b found =>
    obtain ⟨inside, -⟩ := List.getElem?_eq_some_iff.mp found
    split at scanned
    · have := finishNumber_eq scanned
      exact ⟨by omega, by omega⟩
    · split at scanned
      all_goals
        have := finishNumber_eq scanned
        exact ⟨by omega, by omega⟩
  · have := finishNumber_eq scanned
    exact ⟨by omega, by omega⟩

theorem bites_scanNumber (starts : StartsNumber text) (scanned : scanNumber text = .ok (k, n)) : Bites n text := by
  unfold scanNumber at scanned
  split at scanned
  · split at scanned
    · exact bites_scanBased scanned
    · exact bites_scanDecimal starts scanned
  · exact bites_scanDecimal starts scanned

/-! ## Quoted literals and symbols -/

theorem stringLength_le {skip : Nat} (measured : stringLength skip n text = .ok m) : m ≤ n + text.length := by
  fun_induction stringLength skip n text with
  | case1 => cases measured
  | case2 skip n b rest ih =>
    have := ih measured
    simp only [List.length_cons]
    omega
  | case3 n rest =>
    cases measured
    simp only [List.length_cons]
    omega
  | case4 n rest _ _ _ _ ih =>
    have := ih measured
    simp only [List.length_cons]
    omega
  | case5 => cases measured
  | case6 => cases measured
  | case7 n b rest _ _ _ ih =>
    have := ih measured
    simp only [List.length_cons]
    omega

theorem stringLength_pos {skip : Nat} (measured : stringLength skip n text = .ok m) : n < m := by
  fun_induction stringLength skip n text with
  | case1 | case5 | case6 => cases measured
  | case3 => cases measured; exact Nat.lt_succ_self _
  | case2 _ _ _ _ ih | case4 _ _ _ _ _ _ ih | case7 _ _ _ _ _ _ ih => exact Nat.lt_of_succ_lt (ih measured)

theorem bites_scanString (scanned : scanString (b :: rest) = .ok n) : Bites n (b :: rest) := by
  have most := stringLength_le scanned
  have least := stringLength_pos scanned
  simp only [List.drop_succ_cons, List.drop_zero] at most
  simp only [Bites, List.length_cons]
  omega

theorem bites_closeChar (closed : closeChar text m = .ok n) : Bites n text := by
  unfold closeChar at closed
  split at closed
  · cases closed
  · next b found =>
    obtain ⟨inside, -⟩ := List.getElem?_eq_some_iff.mp found
    split at closed
    · cases closed
      exact ⟨Nat.succ_pos _, inside⟩
    · split at closed <;> cases closed

theorem bites_scanChar (scanned : scanChar text = .ok n) : Bites n text := by
  unfold scanChar at scanned
  split at scanned
  · cases scanned
  · split at scanned
    · cases scanned
    · split at scanned
      · cases scanned
      · split at scanned
        · split at scanned
          · exact bites_closeChar scanned
          · cases scanned
        · exact bites_closeChar scanned

theorem Symbol.spelling_ne_nil (s : Symbol) : utf8 s.spelling ≠ [] := by
  cases s <;> decide

theorem bites_scanSymbol {s : Symbol} (scanned : scanSymbol text = .ok (s, n)) : Bites n text := by
  unfold scanSymbol at scanned
  split at scanned
  · next found =>
    cases scanned
    have heads := List.find?_some found
    rw [Symbol.heads, Bool.and_eq_true] at heads
    exact ⟨List.length_pos_iff.mpr s.spelling_ne_nil, (List.isPrefixOf_iff_prefix.mp heads.1).length_le⟩
  · cases scanned

/-! ## Plain tokens -/

theorem finishNumber_kind (finished : finishNumber kind m text = .ok (k, n)) : k = kind := by
  unfold finishNumber at finished
  split at finished
  · split at finished <;> cases finished
    rfl
  · cases finished
    rfl

theorem scanNumber_kind (scanned : scanNumber text = .ok (kind, n)) : kind = .int ∨ kind = .float := by
  have finished {k : LiteralKind} {m : Nat} (either : k = .int ∨ k = .float) (done : finishNumber k m text = .ok (kind, n)) :
      kind = .int ∨ kind = .float :=
    finishNumber_kind done ▸ either
  have decimal (scanned : scanDecimal text = .ok (kind, n)) : kind = .int ∨ kind = .float := by
    unfold scanDecimal at scanned
    extract_lets whole fraction exponent m k at scanned
    have either : k = .int ∨ k = .float := by
      simp only [k]
      split
      · exact .inl rfl
      · exact .inr rfl
    split at scanned
    · split at scanned
      · exact finished (.inr rfl) scanned
      split at scanned
      · exact finished (.inl rfl) scanned
      · exact finished either scanned
    · exact finished either scanned
  rw [scanNumber.eq_def] at scanned
  split at scanned
  · split at scanned
    · rw [scanBased] at scanned
      split at scanned
      · cases scanned
      · exact finished (.inl rfl) scanned
    · exact decimal scanned
  · exact decimal scanned

theorem wordKind_cases (text : Bytes) : wordKind text = .ident ∨ ∃ k, wordKind text = .keyword k := by
  unfold wordKind
  split
  · exact .inr ⟨_, rfl⟩
  · exact .inl rfl

/-- What a plain token in front of a text is, and how many of the next bytes it has. -/
inductive Scanned : Bytes → TokenKind → Nat → Prop where
  | eof : Scanned [] .eof 0
  | underscore {rest : Bytes} : Scanned (95 :: rest) (.symbol .underscore) 1
  | word {text : Bytes} {n : Nat} (scanned : scanWord text = .ok n) : Scanned text (wordKind (text.take n)) n
  | number {text : Bytes} {kind : LiteralKind} {n : Nat} (starts : StartsNumber text) (scanned : scanNumber text = .ok (kind, n)) :
    Scanned text (.literal kind) n
  | string {rest : Bytes} {n : Nat} (scanned : scanString (34 :: rest) = .ok n) : Scanned (34 :: rest) (.literal .string) n
  | char {rest : Bytes} {n : Nat} (scanned : scanChar (39 :: rest) = .ok n) : Scanned (39 :: rest) (.literal .char) n
  | symbol {text : Bytes} {s : Symbol} {n : Nat} (scanned : scanSymbol text = .ok (s, n)) : Scanned text (.symbol s) n

theorem scanned_of_lexPlain {file : Nat} {leading : List Trivia} {c : Cursor} {cut : Token × Cursor}
    (lexed : lexPlain file leading c = .ok cut) : ∃ kind n, Scanned c.rest kind n ∧ cut = cutToken file kind n leading c := by
  have done {kind : TokenKind} {n : Nat} (scanned : Scanned c.rest kind n)
      (lexed : (.ok (cutToken file kind n leading c) : Except LexFault (Token × Cursor)) = .ok cut) :
      ∃ kind n, Scanned c.rest kind n ∧ cut = cutToken file kind n leading c :=
    ⟨kind, n, scanned, (Except.ok.inj lexed).symm⟩
  unfold lexPlain at lexed
  dsimp only at lexed
  split at lexed
  · next nothing => exact done (nothing ▸ .eof) lexed
  next b rest front =>
  split at lexed
  · next alone =>
    rw [Bool.and_eq_true, beq_iff_eq] at alone
    rw [alone.1] at front
    exact done (front ▸ .underscore) lexed
  split at lexed
  · split at lexed
    · next scanned => exact done (.word scanned) lexed
    · cases lexed
  split at lexed
  · next number =>
    have starts : StartsNumber c.rest := by
      rw [Bool.or_eq_true, Bool.and_eq_true, beq_iff_eq] at number
      rw [front]
      rcases number with digit | ⟨rfl, digit⟩
      · exact .inl digit
      · exact .inr ⟨rest, rfl, digit⟩
    split at lexed
    · next scanned => exact done (.number starts scanned) lexed
    · cases lexed
  split at lexed
  · next quote =>
    have front : c.rest = 34 :: rest := front.trans (congrArg (· :: rest) (beq_iff_eq.mp quote))
    split at lexed
    · next scanned => exact done (front ▸ .string (front ▸ scanned)) lexed
    · cases lexed
  split at lexed
  · next quote =>
    have front : c.rest = 39 :: rest := front.trans (congrArg (· :: rest) (beq_iff_eq.mp quote))
    split at lexed
    · next scanned => exact done (front ▸ .char (front ▸ scanned)) lexed
    · cases lexed
  split at lexed
  · next scanned => exact done (.symbol scanned) lexed
  · cases lexed

/-- A plain token is the end where nothing is left, and otherwise some of the next bytes. -/
theorem Scanned.cases {text : Bytes} {kind : TokenKind} {n : Nat} (scanned : Scanned text kind n) :
    (text = [] ∧ kind = .eof ∧ n = 0) ∨ (kind ≠ .eof ∧ Bites n text) := by
  cases scanned with
  | eof => exact .inl ⟨rfl, rfl, rfl⟩
  | underscore => exact .inr ⟨nofun, Nat.one_pos, Nat.succ_pos _⟩
  | word scanned =>
    refine .inr ⟨?_, bites_scanWord scanned⟩
    rcases wordKind_cases (text.take n) with same | ⟨k, same⟩ <;> rw [same] <;> nofun
  | number starts scanned => exact .inr ⟨nofun, bites_scanNumber starts scanned⟩
  | string scanned => exact .inr ⟨nofun, bites_scanString scanned⟩
  | char scanned => exact .inr ⟨nofun, bites_scanChar scanned⟩
  | symbol scanned => exact .inr ⟨nofun, bites_scanSymbol scanned⟩

end LedgerScript
