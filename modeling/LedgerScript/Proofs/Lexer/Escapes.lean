import LedgerScript.Proofs.Lexer.Lengths

/-!
# Escapes and what they stand for

An escape has one of a few forms.  `readEscape` reads exactly these, whatever stands behind them, and `decodeEscapes` decodes
each of them to the bytes of the same character.

The body of a literal `Spells` a text if it consists of escapes, which stand for their characters, and of other bytes, which
stand for themselves.  A scanner accepts a body if it spells something without the closing quote and without a newline, and
then `unquote` gives what it spells.
-/

namespace LedgerScript

variable {rest text : Bytes} {c : Char} {n : Nat}

open Text

/-! ## The forms of escapes -/

/-- What an escape looks like, and the character that it stands for. -/
inductive EscapeForm : Bytes → Char → Prop where
  | newline : EscapeForm [92, 110] '\n'
  | tab : EscapeForm [92, 116] '\t'
  | return : EscapeForm [92, 114] '\r'
  | nul : EscapeForm [92, 48] (Char.ofNat 0)
  /-- A backslash, a quote of any sort, or a dollar sign. -/
  | same {b : UInt8} (listed : b ∈ [92, 34, 39, 96, 36]) : EscapeForm [92, b] (Char.ofNat b.toNat)
  | byte {h₁ h₂ : UInt8} (first : isHexByte h₁ = true) (second : isHexByte h₂ = true) :
    EscapeForm [92, 120, h₁, h₂] (Char.ofNat (hexNumber [h₁, h₂]))
  | code {digits : Bytes} {c : Char} (some : digits ≠ []) (few : digits.length ≤ 6) (hex : ∀ d ∈ digits, isHexByte d = true)
    (valid : charOfCode? (hexNumber digits) = .some c) : EscapeForm (92 :: 117 :: 123 :: (digits ++ [125])) c

namespace EscapeForm

variable {e after : Bytes} {c : Char}

theorem head (form : EscapeForm e c) : ∃ rest, e = 92 :: rest := by
  cases form <;> exact ⟨_, rfl⟩

/-- The digits of a code end at the brace behind them. -/
theorem takeWhile_digits {digits : Bytes} (few : digits.length ≤ 6) (hex : ∀ d ∈ digits, isHexByte d = true) (after : Bytes) :
    ((digits ++ 125 :: after).take 6).takeWhile isHexByte = digits := by
  rw [List.take_append, List.takeWhile_append_of_pos fun d mem => hex d (List.mem_of_mem_take mem), List.take_of_length_le few]
  cases 6 - digits.length with
  | zero => exact List.append_nil _
  | succ n => exact List.append_nil _

/-- An escape is read as its character, whatever stands behind it. -/
theorem read (form : EscapeForm e c) (after : Bytes) : readEscape (e ++ after) = .ok (c, e.length) := by
  cases form with
  | newline | tab | «return» | nul => rfl
  | same listed =>
    simp only [List.mem_cons, List.not_mem_nil, or_false] at listed
    rcases listed with rfl | rfl | rfl | rfl | rfl <;> rfl
  | byte first second =>
    have both : (isHexByte _ && isHexByte _) = true := Bool.and_eq_true_iff.mpr ⟨first, second⟩
    exact if_pos both
  | @code digits c some few hex valid =>
    have digits_eq := takeWhile_digits few hex after
    have close : (digits ++ 125 :: after)[digits.length]? = .some 125 := by simp
    have some' : digits.length ≠ 0 := by simpa using some
    rw [readEscape.eq_def]
    dsimp only [List.cons_append]
    rw [if_neg (by decide), if_neg (by decide), if_neg (by decide), if_neg (by decide), if_neg (by decide),
      if_neg (by decide), if_pos (by decide), List.append_assoc, List.singleton_append]
    split
    · next shape =>
      cases shape
      rw [digits_eq, if_neg some', if_pos close, valid]
      simp
    · next absent => cases absent _ rfl

end EscapeForm

theorem escapeForm_of_readEscape (read : readEscape (92 :: rest) = .ok (c, n)) :
    ∃ e after, 92 :: rest = e ++ after ∧ n = e.length ∧ EscapeForm e c := by
  have two {b : UInt8} {more : Bytes} {d : Char} (form : EscapeForm [92, b] d)
      (same : (Except.ok (d, 2) : Except (LexCause × Nat) (Char × Nat)) = .ok (c, n)) :
      ∃ e after, 92 :: b :: more = e ++ after ∧ n = e.length ∧ EscapeForm e c := by
    cases same
    exact ⟨[92, b], more, rfl, rfl, form⟩
  rw [readEscape.eq_def] at read
  split at read
  · cases read
  · cases read
  · next b more shape =>
    cases shape
    split at read
    · next same => exact two (same ▸ .newline) read
    split at read
    · next same => exact two (same ▸ .tab) read
    split at read
    · next same => exact two (same ▸ .return) read
    split at read
    · next same => exact two (same ▸ .nul) read
    split at read
    · next listed => exact two (.same (by simpa [ascii, or_assoc] using listed)) read
    split at read
    · next same =>
      subst same
      split at read
      · next h₁ h₂ after =>
        split at read
        · next hex =>
          cases read
          obtain ⟨first, second⟩ := Bool.and_eq_true_iff.mp hex
          exact ⟨[92, 120, h₁, h₂], after, rfl, rfl, .byte first second⟩
        · cases read
      · cases read
    split at read
    · next same =>
      subst same
      split at read
      · next more =>
        dsimp only at read
        split at read
        · cases read
        · next some =>
          split at read
          · next close =>
            split at read
            · next c' valid =>
              cases read
              obtain ⟨after, front⟩ : ((more.take 6).takeWhile isHexByte) <+: more :=
                (List.takeWhile_prefix _).trans (List.take_prefix 6 more)
              have few : ((more.take 6).takeWhile isHexByte).length ≤ 6 :=
                Nat.le_trans (length_takeWhile_le _ _) (List.length_take_le 6 more)
              have hex : ∀ d ∈ (more.take 6).takeWhile isHexByte, isHexByte d = true := List.all_eq_true.mp List.all_takeWhile
              generalize (more.take 6).takeWhile isHexByte = digits at *
              subst front
              rw [List.getElem?_append_right (Nat.le_refl _), Nat.sub_self] at close
              cases after with
              | nil => cases close
              | cons b after =>
                cases close
                refine ⟨92 :: 117 :: 123 :: (digits ++ [125]), after, ?_, by simp, .code (by simpa using some) few hex valid⟩
                rw [List.cons_append, List.cons_append, List.cons_append, List.append_assoc]
                rfl
            · cases read
          · cases read
      · cases read
    · split at read <;> cases read

/-! ## Decoding -/

theorem decodeEscapes_append (skipped rest : Bytes) : decodeEscapes skipped.length (skipped ++ rest) = decodeEscapes 0 rest := by
  induction skipped with
  | nil => rfl
  | cons b skipped ih => exact ih

theorem codeBytes_eq {code : Nat} (valid : charOfCode? code = some c) : codeBytes code = encodeChar c := by
  rw [codeBytes, valid]
  rfl

theorem hexNumber_two_lt (h₁ h₂ : UInt8) : hexNumber [h₁, h₂] < 0xD800 := by
  have first := (hexByteValue h₁).toNat_lt
  have second := (hexByteValue h₂).toNat_lt
  change (0 * 16 + (hexByteValue h₁).toNat) * 16 + (hexByteValue h₂).toNat < _
  omega

theorem EscapeForm.decode {e : Bytes} (form : EscapeForm e c) (after : Bytes) :
    decodeEscapes 0 (e ++ after) = encodeChar c ++ decodeEscapes 0 after := by
  cases form with
  | newline | tab | «return» | nul => rfl
  | same listed =>
    simp only [List.mem_cons, List.not_mem_nil, or_false] at listed
    rcases listed with rfl | rfl | rfl | rfl | rfl <;> rfl
  | @byte h₁ h₂ first second =>
    have valid : charOfCode? (hexNumber [h₁, h₂]) = some (Char.ofNat (hexNumber [h₁, h₂])) :=
      if_pos (by simp [hexNumber_two_lt])
    rw [← codeBytes_eq valid]
    rfl
  | @code digits c some few hex valid =>
    have digits_eq : (digits ++ 125 :: after).takeWhile (· ≠ 125) = digits := by
      rw [List.takeWhile_append_of_pos]
      · exact List.append_nil _
      · intro d mem
        have digit := hex d mem
        rw [decide_eq_true_iff]
        rintro rfl
        cases digit
    have skipped := decodeEscapes_append (117 :: 123 :: (digits ++ [125])) after
    have length : (117 :: 123 :: (digits ++ [125])).length = digits.length + 3 := by simp
    rw [length, List.cons_append, List.cons_append, List.append_assoc] at skipped
    rw [← codeBytes_eq valid, List.cons_append, List.cons_append, List.cons_append, List.append_assoc]
    change (let ds := ((123 :: (digits ++ 125 :: after)).drop 1).takeWhile (· ≠ 125)
      codeBytes (hexNumber ds) ++ decodeEscapes (ds.length + 3) (117 :: 123 :: (digits ++ 125 :: after))) = _
    simp only [List.drop_one, List.tail_cons, digits_eq]
    exact congrArg _ skipped

/-! ## What a body spells -/

/-- The body of a literal, up to the byte that closes it, and what it stands for: bytes for themselves, escapes for the characters
that are read. -/
inductive Spells (close : UInt8) : Bytes → Bytes → Prop where
  | nil : Spells close [] []
  | raw {b : UInt8} {body value : Bytes} (plain : b ≠ 92) (inside : b ≠ close) (line : b ≠ 10) (rest : Spells close body value) :
    Spells close (b :: body) (b :: value)
  | escape {e body value : Bytes} {c : Char} (read : ∀ after, readEscape (92 :: e ++ after) = .ok (c, e.length + 1))
    (rest : Spells close body value) : Spells close (92 :: e ++ body) (encodeChar c ++ value)

namespace Spells

variable {close : UInt8} {body value : Bytes} {c : Char}

theorem escapeForm {e : Bytes} (read : ∀ after, readEscape (92 :: e ++ after) = .ok (c, e.length + 1)) : EscapeForm (92 :: e) c := by
  obtain ⟨e', after, split, length, form⟩ := escapeForm_of_readEscape (read [])
  have lengths := congrArg List.length split
  rw [List.length_append, ← length] at lengths
  obtain rfl : after = [] := List.length_eq_zero_iff.mp (by simpa using lengths)
  have same : 92 :: e = e' := by simpa using split
  rwa [same]

theorem of_form {e : Bytes} (form : EscapeForm e c) (rest : Spells close body value) :
    Spells close (e ++ body) (encodeChar c ++ value) := by
  obtain ⟨e, rfl⟩ := form.head
  exact .escape form.read rest

theorem raws {bytes : Bytes} (plain : ∀ b ∈ bytes, b ≠ 92 ∧ b ≠ close ∧ b ≠ 10) (rest : Spells close body value) :
    Spells close (bytes ++ body) (bytes ++ value) := by
  induction bytes with
  | nil => exact rest
  | cons b more ih =>
    obtain ⟨first, others⟩ := List.forall_mem_cons.mp plain
    exact .raw first.1 first.2.1 first.2.2 (ih others)

theorem decode (spells : Spells close body value) : decodeEscapes 0 body = value := by
  induction spells with
  | nil => rfl
  | raw plain _ _ _ ih => exact (if_pos plain).trans (congrArg _ ih)
  | escape read _ ih => rw [(escapeForm read).decode, ih]

theorem unquote_eq (spells : Spells close body value) : unquote (close :: body ++ [close]) = value := by
  rw [unquote, if_neg (by simp), List.cons_append, List.drop_one, List.tail_cons, List.dropLast_concat]
  exact spells.decode

end Spells

/-! ## What the scanners accept -/

theorem stringLength_append (skipped rest : Bytes) (n : Nat) :
    stringLength skipped.length n (skipped ++ rest) = stringLength 0 (n + skipped.length) rest := by
  induction skipped generalizing n with
  | nil => rfl
  | cons b skipped ih =>
    rw [List.length_cons, List.cons_append, stringLength, ih, Nat.add_assoc, Nat.add_comm 1]

/-- A body that spells something is accepted up to the quote behind it. -/
theorem Spells.scanned {body value : Bytes} (spells : Spells 34 body value) (n : Nat) (after : Bytes) :
    stringLength 0 n (body ++ 34 :: after) = .ok (n + body.length + 1) := by
  induction spells generalizing n with
  | nil => rfl
  | @raw b body value plain inside line _ ih =>
    have other : ¬ b = ascii '"' := inside
    have bare : ¬ b = ascii '\\' := plain
    rw [List.cons_append, stringLength, if_neg other, if_neg bare, if_neg line, ih, List.length_cons]
    exact congrArg _ (by omega)
  | @escape e body value c read _ ih =>
    have skipped := stringLength_append e (body ++ 34 :: after) (n + 1)
    rw [List.append_assoc, List.cons_append, stringLength, if_neg (by decide), if_pos (by decide), ← List.cons_append, read]
    dsimp only
    rw [Nat.add_sub_cancel, skipped, ih, List.length_append, List.length_cons]
    exact congrArg _ (by omega)

theorem spells_of_stringLength {m : Nat} (scanned : stringLength 0 n text = .ok m) :
    ∃ body value after, text = body ++ 34 :: after ∧ m = n + body.length + 1 ∧ Spells 34 body value := by
  induction length : text.length using Nat.strongRecOn generalizing text n with
  | _ k ih =>
    cases text with
    | nil => cases scanned
    | cons b rest =>
      subst length
      rw [stringLength] at scanned
      split at scanned
      · next quote =>
        cases scanned
        exact ⟨[], [], rest, by rw [quote]; rfl, rfl, .nil⟩
      split at scanned
      · next escape =>
        cases escape
        split at scanned
        · next c width read =>
          obtain ⟨e, after, split, rfl, form⟩ := escapeForm_of_readEscape read
          obtain ⟨e, rfl⟩ := form.head
          obtain rfl : rest = e ++ after := (List.cons.inj split).2
          rw [List.length_cons, Nat.add_sub_cancel, stringLength_append] at scanned
          obtain ⟨body, value, after, rfl, rfl, spells⟩ := ih after.length (by rw [List.length_cons, List.length_append]; omega) scanned rfl
          refine ⟨92 :: e ++ body, encodeChar c ++ value, after, ?_, ?_, .of_form form spells⟩
          · rw [List.append_assoc]
            rfl
          · rw [List.length_append, List.length_cons]
            omega
        · cases scanned
      split at scanned
      · cases scanned
      · next quote escape line =>
        obtain ⟨body, value, after, rfl, rfl, spells⟩ := ih rest.length (by simp) scanned rfl
        exact ⟨b :: body, b :: value, after, rfl, by rw [List.length_cons]; omega, .raw escape quote line spells⟩

theorem closeChar_eq_ok {m : Nat} (closed : closeChar text n = .ok m) : text[n]? = some 39 ∧ m = n + 1 := by
  rw [closeChar] at closed
  split at closed
  · cases closed
  · next b there =>
    split at closed
    · next quote =>
      cases closed
      rw [quote] at there
      exact ⟨there, rfl⟩
    · split at closed <;> cases closed

/-- The bytes of a character, or a stray byte. -/
theorem glyphWidth_bytes {b : UInt8} (line : b ≠ 10) (quote : b ≠ 39) (escape : b ≠ 92) :
    ∃ bytes after, b :: rest = bytes ++ after ∧ glyphWidth (b :: rest) = bytes.length ∧
      ∀ d ∈ bytes, d ≠ 92 ∧ d ≠ 39 ∧ d ≠ 10 := by
  rw [glyphWidth]
  split
  · next c width decoded =>
    obtain ⟨rfl, after, split⟩ := eq_of_decode? decoded
    refine ⟨encodeChar c, after, split, rfl, ?_⟩
    rcases encodeChar_cases c with ⟨-, one⟩ | ⟨-, high⟩
    · rw [one] at split ⊢
      cases split
      simp [line, quote, escape]
    · intro d mem
      have least := high d mem
      refine ⟨?_, ?_, ?_⟩ <;> rintro rfl <;> simp at least
  · exact ⟨[b], rest, rfl, by simp, by simp [line, quote, escape]⟩

theorem spells_of_scanChar (scanned : scanChar (39 :: rest) = .ok n) :
    ∃ body value after, rest = body ++ 39 :: after ∧ n = body.length + 2 ∧ Spells 39 body value := by
  have closed {body value after : Bytes} {m : Nat} (split : rest = body ++ after)
      (close : closeChar (39 :: rest) (1 + body.length) = .ok m) (spells : Spells 39 body value) (same : m = n) :
      ∃ body value after, rest = body ++ 39 :: after ∧ n = body.length + 2 ∧ Spells 39 body value := by
    obtain ⟨there, rfl⟩ := closeChar_eq_ok close
    rw [split, Nat.add_comm, List.getElem?_cons_succ, List.getElem?_append_right (Nat.le_refl _), Nat.sub_self] at there
    cases after with
    | nil => cases there
    | cons b after =>
      cases there
      exact ⟨body, value, after, split, by omega, spells⟩
  rw [scanChar, List.drop_one, List.tail_cons] at scanned
  split at scanned
  · cases scanned
  · next b more =>
    split at scanned
    · cases scanned
    split at scanned
    · cases scanned
    split at scanned
    · next escape =>
      cases escape
      split at scanned
      · next c width read =>
        obtain ⟨e, after, split, rfl, form⟩ := escapeForm_of_readEscape read
        have spells : Spells 39 (e ++ []) (encodeChar c ++ []) := .of_form form .nil
        rw [List.append_nil, List.append_nil] at spells
        exact closed split scanned spells rfl
      · cases scanned
    · next line quote escape =>
      obtain ⟨bytes, after, split, width, plain⟩ : ∃ bytes after, b :: more = bytes ++ after ∧
          glyphWidth (b :: more) = bytes.length ∧ ∀ d ∈ bytes, d ≠ 92 ∧ d ≠ 39 ∧ d ≠ 10 := glyphWidth_bytes line quote escape
      rw [width] at scanned
      have spells : Spells 39 (bytes ++ []) (bytes ++ []) := .raws plain .nil
      rw [List.append_nil] at spells
      exact closed split scanned spells rfl

/-! ## Tokens -/

/-- The text of a quoted literal is a body between two quotes that spells something. -/
theorem spells_of_scanned {kind : TokenKind} (scanned : Scanned text kind n)
    (quoted : kind = .literal .string ∨ kind = .literal .char) :
    ∃ close body value, text.take n = close :: body ++ [close] ∧ Spells close body value := by
  have whole {close : UInt8} {body value after rest : Bytes} (split : rest = body ++ close :: after)
      (spells : Spells close body value) :
      ∃ q b v, (close :: rest).take (body.length + 2) = q :: b ++ [q] ∧ Spells q b v := by
    refine ⟨close, body, value, ?_, spells⟩
    rw [split, List.take_succ_cons, List.take_length_add_append]
    rfl
  have other {kind : TokenKind} (quoted : kind = .literal .string ∨ kind = .literal .char)
      (notString : kind ≠ .literal .string) (notChar : kind ≠ .literal .char) :
      ∃ close body value, text.take n = close :: body ++ [close] ∧ Spells close body value :=
    absurd quoted (not_or.mpr ⟨notString, notChar⟩)
  cases scanned with
  | string scanned =>
    rw [scanString, List.drop_one, List.tail_cons] at scanned
    obtain ⟨body, value, after, inner, rfl, spells⟩ := spells_of_stringLength scanned
    rw [Nat.add_right_comm, Nat.add_comm 1 1, Nat.add_comm]
    exact whole inner spells
  | char scanned =>
    obtain ⟨body, value, after, inner, rfl, spells⟩ := spells_of_scanChar scanned
    exact whole inner spells
  | word =>
    rcases wordKind_cases (text.take n) with same | ⟨k, same⟩
    · exact other quoted (same ▸ nofun) (same ▸ nofun)
    · exact other quoted (same ▸ nofun) (same ▸ nofun)
  | number _ scanned =>
    rcases scanNumber_kind scanned with rfl | rfl
    · exact other quoted nofun nofun
    · exact other quoted nofun nofun
  | eof => exact other quoted nofun nofun
  | underscore => exact other quoted nofun nofun
  | symbol => exact other quoted nofun nofun

theorem spells_of_lexToken {file fuel : Nat} {c next : Cursor} {t : Token} (lexed : lexToken file fuel c = .ok (t, next))
    (quoted : t.kind = .literal .string ∨ t.kind = .literal .char) :
    ∃ close body value, t.text = close :: body ++ [close] ∧ Spells close body value := by
  cases fuel with
  | zero =>
    cases lexed
    rcases quoted with quoted | quoted <;> cases quoted
  | succ fuel =>
    rw [lexToken] at lexed
    split at lexed
    · cases lexed
    · split at lexed
      · split at lexed
        · cases lexed
        · cases lexed
          rcases quoted with quoted | quoted <;> cases quoted
      · obtain ⟨kind, n, scanned, cut⟩ := scanned_of_lexPlain lexed
        cases cut
        exact spells_of_scanned scanned quoted

end LedgerScript
