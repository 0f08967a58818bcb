import LedgerScript.Printer.Basic
import LedgerScript.Proofs.Lexer.Again

/-!
# Texts in quotes

The printer writes a text between quotes or into a template with escapes where the lexer needs them.  What it writes is read
back as the text, as one token.
-/

namespace LedgerScript

variable (c : Char) (cs : List Char) (file : Nat)

open Text

/-! ## String literals -/

theorem upperHex_small : ∀ n < 128, (upperHex n).length ≤ 6 ∧ upperHex n ≠ [] ∧ (upperHex n).all isHexByte = true ∧
    hexNumber (upperHex n) = n := by
  decide +kernel

theorem spells_literalChar {body value : Bytes} (rest : Spells 34 body value) :
    Spells 34 (literalChar c ++ body) (encodeChar c ++ value) := by
  rw [literalChar]
  split
  · next same =>
    subst same
    exact .of_form (.same (by simp)) rest
  split
  · next same =>
    subst same
    exact .of_form (.same (by simp)) rest
  split
  · next same =>
    subst same
    exact .of_form .newline rest
  split
  · next same =>
    subst same
    exact .of_form .tab rest
  split
  · next same =>
    subst same
    exact .of_form .return rest
  split
  · next same =>
    have nul : c = Char.ofNat 0 := by rw [← same, Char.ofNat_toNat]
    subst nul
    exact .of_form .nul rest
  split
  · next control =>
    have small : c.toNat < 128 := by
      simp only [Bool.or_eq_true, decide_eq_true_eq] at control
      omega
    obtain ⟨few, some, hex, number⟩ := upperHex_small c.toNat small
    have valid : charOfCode? (hexNumber (upperHex c.toNat)) = .some c := by rw [number, charOfCode?_toNat]
    exact .of_form (.code some few (List.all_eq_true.mp hex) valid) rest
  · next quote escape line _ _ _ _ =>
    have other {d : Char} (apart : c ≠ d) : c.toNat ≠ d.toNat := fun same => apart (Char.toNat_inj.mp same)
    refine .raws (fun b mem => ⟨?_, ?_, ?_⟩) rest
    · exact ne_of_mem_encodeChar mem (by decide) (other escape)
    · exact ne_of_mem_encodeChar mem (by decide) (other quote)
    · exact ne_of_mem_encodeChar mem (by decide) (other line)

theorem spells_chars : Spells 34 (cs.flatMap literalChar) (encode cs) := by
  induction cs with
  | nil => exact .nil
  | cons c rest ih => exact spells_literalChar c ih

theorem spells_stringLiteral (s : String) :
    ∃ body, stringLiteral (utf8 s) = 34 :: body ++ [34] ∧ Spells 34 body (utf8 s) := by
  refine ⟨s.toList.flatMap literalChar, ?_, ?_⟩
  · rw [stringLiteral, shownChars_utf8]
    rfl
  · rw [utf8_eq_encode]
    exact spells_chars s.toList

/-! ## Single tokens -/

/-- Nothing is in front of a token that starts with such a byte. -/
theorem lexLeading_nil {b : UInt8} {rest : Bytes} (quote : b = 34 ∨ b = 96) (file fuel off : Nat) :
    lexLeading file fuel ⟨off, b :: rest⟩ = .ok ([], ⟨off, b :: rest⟩) := by
  cases fuel with
  | zero => rfl
  | succ fuel => rcases quote with rfl | rfl <;> rfl

theorem lexToken_end (off : Nat) : lexToken file (lexFuel []) ⟨off, []⟩ = .ok (cutToken file .eof 0 [] ⟨off, []⟩) := by
  rfl

/-- A text that is one token to its end. -/
theorem tokenize_single {f : SourceFile} {t : Token} {off : Nat} (some : f.content ≠ [])
    (lexed : lexToken f.id (lexFuel f.content) ⟨0, f.content⟩ = .ok (t, ⟨off, []⟩)) (kind : t.kind ≠ .eof) :
    tokenize f = ([t, (cutToken f.id .eof 0 [] ⟨off, []⟩).1], none) := by
  obtain ⟨n, length⟩ := Nat.exists_eq_succ_of_ne_zero (mt List.length_eq_zero_iff.mp some)
  rw [tokenize, length, lexAll, lexed]
  dsimp only
  rw [if_neg kind, lexAll]
  dsimp only
  rw [lexToken_end]
  rfl

theorem lexToken_stringLiteral (s : String) :
    lexToken file (lexFuel (stringLiteral (utf8 s))) ⟨0, stringLiteral (utf8 s)⟩ =
      .ok (cutToken file (.literal .string) (stringLiteral (utf8 s)).length [] ⟨0, stringLiteral (utf8 s)⟩) := by
  obtain ⟨body, written, spells⟩ := spells_stringLiteral s
  have scanned : scanString (34 :: (body ++ [34])) = .ok (34 :: (body ++ [34])).length := by
    have inner := spells.scanned 1 []
    rw [scanString, List.drop_one, List.tail_cons, inner, List.length_cons, List.length_append, List.length_singleton]
    exact congrArg _ (by omega)
  rw [written, List.cons_append, lexFuel, lexToken, lexLeading_nil (.inl rfl)]
  exact lexPlain_string scanned file 0 []

/-! ## Templates -/

/-- A round of a template takes an escape. -/
theorem lexTemplate_escape {e : Bytes} {c : Char} (form : EscapeForm e c) (file fuel : Nat) (start : Cursor) (off : Nat)
    (after text : Bytes) (parts : List TemplatePart) :
    lexTemplate file (fuel + 1) start ⟨off, e ++ after⟩ text parts =
      lexTemplate file fuel start ⟨off + e.length, after⟩ ((encodeChar c).reverse ++ text) parts := by
  have read := form.read after
  have moved : (⟨off, e ++ after⟩ : Cursor).advance e.length = ⟨off + e.length, after⟩ := by simp [Cursor.advance]
  obtain ⟨e, rfl⟩ := form.head
  rw [List.cons_append] at read moved
  rw [List.cons_append, lexTemplate]
  dsimp only
  rw [if_neg (by decide), if_pos (by decide), read]
  dsimp only
  rw [moved]

/-- A round of a template takes a character that has no meaning there. -/
theorem lexTemplate_char {c : Char} (quote : c.toNat ≠ 96) (escape : c.toNat ≠ 92) (dollar : c.toNat ≠ 36) (file fuel : Nat)
    (start : Cursor) (off : Nat) (after text : Bytes) (parts : List TemplatePart) :
    lexTemplate file (fuel + 1) start ⟨off, encodeChar c ++ after⟩ text parts =
      lexTemplate file fuel start ⟨off + (encodeChar c).length, after⟩ ((encodeChar c).reverse ++ text) parts := by
  have decoded := decode?_encodeChar c after
  have moved : (⟨off, encodeChar c ++ after⟩ : Cursor).advance (encodeChar c).length = ⟨off + (encodeChar c).length, after⟩ := by
    simp [Cursor.advance]
  have taken : (encodeChar c ++ after).take (encodeChar c).length = encodeChar c := by simp
  obtain ⟨b, more, bytes⟩ := List.exists_cons_of_ne_nil (encodeChar_ne_nil c)
  have mem : b ∈ encodeChar c := by simp [bytes]
  have first : b ≠ 96 ∧ b ≠ 92 ∧ b ≠ 36 :=
    ⟨ne_of_mem_encodeChar mem (by decide) quote, ne_of_mem_encodeChar mem (by decide) escape,
      ne_of_mem_encodeChar mem (by decide) dollar⟩
  rw [bytes, List.cons_append] at decoded moved taken ⊢
  rw [lexTemplate]
  dsimp only
  rw [if_neg (by simp [isTemplateQuote, first]), if_neg (by simp [ascii, first]), if_neg (by simp [ascii, first]), decoded]
  dsimp only
  rw [moved, taken]

theorem lexTemplate_templateChar (file fuel : Nat) (start : Cursor) (off : Nat) (after text : Bytes)
    (parts : List TemplatePart) :
    lexTemplate file (fuel + 1) start ⟨off, templateChar c ++ after⟩ text parts =
      lexTemplate file fuel start ⟨off + (templateChar c).length, after⟩ ((encodeChar c).reverse ++ text) parts := by
  have of_code {n : Nat} (same : c.toNat = n) : c = Char.ofNat n := by rw [← same, Char.ofNat_toNat]
  rw [templateChar]
  split
  · next same =>
    rw [of_code same]
    exact lexTemplate_escape (.same (by simp)) ..
  split
  · next same =>
    rw [same]
    exact lexTemplate_escape (.same (by simp)) ..
  split
  · next same =>
    rw [same]
    exact lexTemplate_escape (.same (by simp)) ..
  split
  · next same =>
    rw [of_code same]
    exact lexTemplate_escape .nul ..
  · next quote escape dollar _ =>
    have other {d : Char} (apart : c ≠ d) : c.toNat ≠ d.toNat := fun same => apart (Char.toNat_inj.mp same)
    exact lexTemplate_char quote (other escape) (other dollar) ..

/-- The text of a template is read to the quote behind it. -/
theorem lexTemplate_chars (file fuel : Nat) (start : Cursor) (off : Nat) (after text : Bytes) :
    lexTemplate file (fuel + cs.length + 1) start ⟨off, cs.flatMap templateChar ++ 96 :: after⟩ text [] =
      .ok ([⟨text.reverse ++ encode cs, none⟩], ⟨off + (cs.flatMap templateChar).length + 1, after⟩) := by
  induction cs generalizing off text with
  | nil =>
    simp only [encode, List.flatMap_nil, List.append_nil]
    rfl
  | cons c rest ih =>
    rw [List.length_cons, ← Nat.add_assoc, List.flatMap_cons, List.append_assoc, lexTemplate_templateChar, ih]
    rw [List.reverse_append, List.reverse_reverse, List.append_assoc, List.length_append, Nat.add_assoc off, encode, encode,
      List.flatMap_cons]

theorem templateChar_ne_nil : templateChar c ≠ [] := by
  rw [templateChar]
  split
  · nofun
  split
  · nofun
  split
  · nofun
  split
  · nofun
  · exact encodeChar_ne_nil c

theorem length_le_templateText : cs.length ≤ (cs.flatMap templateChar).length := by
  induction cs with
  | nil => exact Nat.le_refl _
  | cons c rest ih =>
    have some := List.length_pos_of_ne_nil (templateChar_ne_nil c)
    rw [List.flatMap_cons, List.length_append, List.length_cons]
    omega

theorem lexToken_template (s : String) :
    lexToken file (lexFuel (96 :: templateText (utf8 s) ++ [96])) ⟨0, 96 :: templateText (utf8 s) ++ [96]⟩ =
      .ok ({ kind := .literal .template, span := ⟨file, 0, (templateText (utf8 s)).length + 2⟩
             text := 96 :: templateText (utf8 s) ++ [96], parts := [⟨utf8 s, none⟩] },
        ⟨(templateText (utf8 s)).length + 2, []⟩) := by
  rw [templateText, shownChars_utf8, List.cons_append, lexFuel, lexToken, lexLeading_nil (.inr rfl)]
  have few := length_le_templateText s.toList
  obtain ⟨fuel, enough⟩ : ∃ fuel, 3 * (96 :: (s.toList.flatMap templateChar ++ [96])).length + 3 = fuel + s.toList.length + 1 := by
    refine ⟨3 * (96 :: (s.toList.flatMap templateChar ++ [96])).length + 2 - s.toList.length, ?_⟩
    rw [List.length_cons, List.length_append]
    omega
  have read := lexTemplate_chars s.toList file fuel ⟨0, 96 :: (s.toList.flatMap templateChar ++ [96])⟩ 1 [] []
  rw [← enough, ← utf8_eq_encode] at read
  have opened : (96 :: (s.toList.flatMap templateChar ++ [96])).head?.any isTemplateQuote = true := rfl
  have advanced : (⟨0, 96 :: (s.toList.flatMap templateChar ++ [96])⟩ : Cursor).advance 1 =
      ⟨1, s.toList.flatMap templateChar ++ [96]⟩ := rfl
  dsimp only
  rw [if_pos opened, advanced, read]
  have length : 1 + (s.toList.flatMap templateChar).length + 1 = (s.toList.flatMap templateChar).length + 2 := by omega
  have whole : (96 :: (s.toList.flatMap templateChar ++ [96])).length = (s.toList.flatMap templateChar).length + 2 := by simp
  have taken := List.take_length (l := 96 :: (s.toList.flatMap templateChar ++ [96]))
  have dropped := List.drop_length (l := 96 :: (s.toList.flatMap templateChar ++ [96]))
  rw [whole] at taken dropped
  simp only [cutToken, Cursor.span, Cursor.advance, length, Nat.sub_zero, Nat.zero_add, taken, dropped]
  rfl

/-! ## Escapes in all places -/

/-- Escapes mean the same in all places.  What a quoted literal stands for is what its body spells: its bytes for themselves,
and its escapes for the characters that are read.  A text that is printed as a string literal is read back as one token with
this value, and a text that is printed inside a template as one token with this text and no hole. -/
theorem escapes_agree :
    (∀ file fuel c next t, lexToken file fuel c = .ok (t, next) → t.kind = .literal .string ∨ t.kind = .literal .char →
      ∃ close body value, t.text = close :: body ++ [close] ∧ Spells close body value ∧ unquote t.text = value) ∧
    (∀ (f : SourceFile) (s : String), ∃ t stop,
      tokenize { f with content := stringLiteral (utf8 s) } = ([t, stop], none) ∧
        t.kind = .literal .string ∧ stop.kind = .eof ∧ unquote t.text = utf8 s) ∧
    ∀ (f : SourceFile) (s : String), ∃ t stop,
      tokenize { f with content := 96 :: templateText (utf8 s) ++ [96] } = ([t, stop], none) ∧
        t.kind = .literal .template ∧ stop.kind = .eof ∧ t.parts = [⟨utf8 s, none⟩] := by
  refine ⟨fun file fuel c next t lexed quoted => ?_, fun f s => ?_, fun f s => ?_⟩
  · obtain ⟨close, body, value, text, spells⟩ := spells_of_lexToken lexed quoted
    exact ⟨close, body, value, text, spells, by rw [text, spells.unquote_eq]⟩
  · obtain ⟨body, written, spells⟩ := spells_stringLiteral s
    have lexed := lexToken_stringLiteral f.id s
    have rest : (⟨0, stringLiteral (utf8 s)⟩ : Cursor).advance (stringLiteral (utf8 s)).length =
        ⟨(stringLiteral (utf8 s)).length, []⟩ := by simp [Cursor.advance]
    rw [cutToken, rest] at lexed
    refine ⟨_, _, tokenize_single (by rw [written]; nofun) lexed nofun, rfl, rfl, ?_⟩
    rw [List.take_length, written]
    exact spells.unquote_eq
  · exact ⟨_, _, tokenize_single nofun (lexToken_template f.id s) nofun, rfl, rfl, rfl⟩

/-- The literal `"\x41$"` stands for `A$`. -/
theorem escapes_agree_hex :
    ∃ t next, lexToken 0 22 ⟨0, [34, 92, 120, 52, 49, 36, 34]⟩ = .ok (t, next) ∧ unquote t.text = [65, 36] ∧
      ∃ close body, t.text = close :: body ++ [close] ∧ Spells close body [65, 36] := by
  have lexed : lexToken 0 22 ⟨0, [34, 92, 120, 52, 49, 36, 34]⟩ =
      .ok (cutToken 0 (.literal .string) 7 [] ⟨0, [34, 92, 120, 52, 49, 36, 34]⟩) := rfl
  obtain ⟨close, body, value, text, spells, same⟩ := escapes_agree.1 _ _ _ _ _ lexed (.inl rfl)
  have value_eq : value = [65, 36] := same.symm
  exact ⟨_, _, lexed, rfl, close, body, text, value_eq ▸ spells⟩

end LedgerScript
