import Mathlib.Data.List.Basic
import LedgerScript.Proofs.Text.Utf8
import LedgerScript.Text.Quoted

/-!
# Quoted texts are told apart

A text between quotes is that of one text only, and where it ends is clear without looking at what follows it.

Each glyph is written in one of two ways: as the bytes of its character, or as a backslash, a letter and a fixed number of
digits.  The letter tells how many digits there are, and the letter and the digits tell the glyph.
-/

namespace LedgerScript.Text

-- Powers are those of the numbers themselves, as in the definitions.
attribute [local instance (high)] instPowNat

/-! ## Digits -/

theorem hexDigit_inj : ∀ m < 16, ∀ n < 16, hexDigit m = hexDigit n → m = n := by
  decide

theorem length_hexFixed (digits n : Nat) : (hexFixed digits n).length = digits := by
  induction digits generalizing n with
  | zero => rfl
  | succ digits ih => rw [hexFixed, List.length_append, ih, List.length_singleton]

theorem hexFixed_inj {digits m n : Nat} (fewer : m < 16 ^ digits) (fewer' : n < 16 ^ digits)
    (same : hexFixed digits m = hexFixed digits n) : m = n := by
  induction digits generalizing m n with
  | zero => omega
  | succ digits ih =>
    obtain ⟨high, low⟩ := List.append_inj same (by rw [length_hexFixed, length_hexFixed])
    have quotients := ih (Nat.div_lt_of_lt_mul (by omega)) (Nat.div_lt_of_lt_mul (by omega)) high
    have remainders := hexDigit_inj _ (Nat.mod_lt m (by decide)) _ (Nat.mod_lt n (by decide)) (List.head_eq_of_cons_eq low)
    omega

/-! ## Glyphs -/

/-- A glyph that is read from a text: bytes below `0x80` are characters. -/
def Glyph.IsRead : Glyph → Prop
  | .char _ => True
  | .stray b => 0x80 ≤ b

def escapeDigits (letter : UInt8) : Nat :=
  if letter = ascii 'x' then 2
  else if letter = ascii 'u' then 4
  else if letter = ascii 'U' then 8
  else 0

/-- The glyph that a letter and the number of its digits stand for. -/
def escapedAs (letter : UInt8) (n : Nat) : Glyph :=
  if letter = ascii 'x' then if n < 0x80 then .char (Char.ofNat n) else .stray (UInt8.ofNat n)
  else if letter = ascii 'u' || letter = ascii 'U' then .char (Char.ofNat n)
  else
    match (List.range 14).find? fun code => (controlLetter? code).map ascii = some letter with
    | some code => .char (Char.ofNat code)
    | none => .char (Char.ofNat letter.toNat)

inductive Written (mark : Char) (g : Glyph) : Bytes → Prop
  | plain {c : Char} (is : g = .char c) (other : c ≠ mark) (noEscape : c ≠ '\\') : Written mark g (encodeChar c)
  | escaped {letter : UInt8} {n : Nat} (is : g = escapedAs letter n) (fewer : n < 16 ^ escapeDigits letter) :
    Written mark g (ascii '\\' :: letter :: hexFixed (escapeDigits letter) n)

variable {mark c : Char} {g g' : Glyph} {x y : Bytes}

theorem controlLetter?_eq_some {code : Nat} {letter : Char} (found : controlLetter? code = some letter) :
    code < 14 ∧ escapeDigits (ascii letter) = 0 ∧ escapedAs (ascii letter) 0 = .char (Char.ofNat code) := by
  unfold controlLetter? at found
  split at found <;> cases found <;> decide

theorem Written.letter {letter : UInt8} (alone : escapeDigits letter = 0) (is : g = escapedAs letter 0) :
    Written mark g [ascii '\\', letter] := by
  have written : Written mark g (ascii '\\' :: letter :: hexFixed (escapeDigits letter) 0) :=
    .escaped is (Nat.pow_pos (by decide))
  rwa [alone] at written

theorem written_quotedChar (quote : mark = '"' ∨ mark = '\'') (c : Char) : Written mark (.char c) (quotedChar mark c) := by
  have valid : Char.ofNat c.toNat = c := Char.ofNat_toNat c
  rw [quotedChar]
  split
  · next special =>
    have cases : c = '"' ∨ c = '\'' ∨ c = '\\' := by
      rcases quote with rfl | rfl <;> simp only [Bool.or_eq_true, decide_eq_true_eq] at special <;> tauto
    rcases cases with rfl | rfl | rfl <;> exact .letter (by decide) (by decide)
  next ordinary =>
  rw [Bool.or_eq_true, decide_eq_true_eq, decide_eq_true_eq, not_or] at ordinary
  split
  · exact .plain rfl ordinary.1 ordinary.2
  split
  · next letter found =>
    obtain ⟨-, alone, is⟩ := controlLetter?_eq_some found
    exact .letter alone (by rw [is, valid])
  split
  · next control =>
    have small : c.toNat < 0x80 := by
      simp only [Bool.or_eq_true, decide_eq_true_eq] at control
      omega
    refine @Written.escaped mark _ (ascii 'x') c.toNat ?_ (Nat.lt_trans small (by decide))
    rw [escapedAs, if_pos rfl, if_pos small, valid]
  split
  · next small =>
    exact @Written.escaped mark _ (ascii 'u') c.toNat (congrArg Glyph.char valid.symm) small
  · refine @Written.escaped mark _ (ascii 'U') c.toNat (congrArg Glyph.char valid.symm) ?_
    exact Nat.lt_of_lt_of_le c.val.toNat_lt (by decide)

theorem written_quotedGlyph (quote : mark = '"' ∨ mark = '\'') (read : g.IsRead) : Written mark g (quotedGlyph mark g) := by
  cases g with
  | char c => exact written_quotedChar quote c
  | stray b =>
    refine @Written.escaped mark _ (ascii 'x') b.toNat ?_ b.toNat_lt
    have least : ¬ b.toNat < 0x80 := Nat.not_lt.mpr (UInt8.le_iff_toNat_le.mp read)
    rw [escapedAs, if_pos rfl, if_neg least, UInt8.ofNat_toNat]

/-- A written glyph does not start with the quote. -/
theorem Written.head_ne {bytes : Bytes} (quote : mark = '"' ∨ mark = '\'') (written : Written mark g bytes) :
    ∃ b rest, bytes = b :: rest ∧ b ≠ ascii mark := by
  cases written with
  | @plain c is other noEscape =>
    obtain ⟨b, rest, bytes⟩ := List.exists_cons_of_ne_nil (encodeChar_ne_nil c)
    have mem : b ∈ encodeChar c := by simp [bytes]
    refine ⟨b, rest, bytes, ?_⟩
    rcases quote with rfl | rfl
    · exact ne_of_mem_encodeChar mem (by decide) fun same => other (Char.toNat_inj.mp same)
    · exact ne_of_mem_encodeChar mem (by decide) fun same => other (Char.toNat_inj.mp same)
  | escaped => exact ⟨_, _, rfl, by rcases quote with rfl | rfl <;> decide⟩

/-- A plain character does not start with a backslash. -/
theorem encodeChar_append_ne_escape (noEscape : c ≠ '\\') : encodeChar c ++ x ≠ ascii '\\' :: y := by
  intro same
  obtain ⟨b, rest, bytes⟩ := List.exists_cons_of_ne_nil (encodeChar_ne_nil c)
  have mem : b ∈ encodeChar c := by simp [bytes]
  rw [bytes] at same
  have code : c.toNat ≠ (ascii '\\').toNat := fun code => noEscape (Char.toNat_inj.mp code)
  exact ne_of_mem_encodeChar mem (by decide) code (List.head_eq_of_cons_eq same)

theorem encodeChar_append_inj {d : Char} (same : encodeChar c ++ x = encodeChar d ++ y) : c = d ∧ x = y := by
  have decoded := decode?_encodeChar c x
  rw [same, decode?_encodeChar d y] at decoded
  simp only [Option.some.injEq, Prod.mk.injEq] at decoded
  obtain ⟨rfl, -⟩ := decoded
  exact ⟨rfl, List.append_cancel_left same⟩

/-- A written glyph is told by how it starts. -/
theorem Written.append_inj {bytes bytes' : Bytes} (written : Written mark g bytes) (written' : Written mark g' bytes')
    (same : bytes ++ x = bytes' ++ y) : g = g' ∧ x = y := by
  cases written with
  | @plain c is other noEscape =>
    cases written' with
    | plain is' =>
      obtain ⟨rfl, rest⟩ := encodeChar_append_inj same
      exact ⟨is.trans is'.symm, rest⟩
    | escaped => exact absurd same (encodeChar_append_ne_escape noEscape)
  | @escaped letter n is fewer =>
    cases written' with
    | plain is' other noEscape => exact absurd same.symm (encodeChar_append_ne_escape noEscape)
    | @escaped letter' n' is' fewer' =>
      simp only [List.cons_append, List.cons.injEq, true_and] at same
      obtain ⟨rfl, same⟩ := same
      obtain ⟨digits, rest⟩ := List.append_inj same (by rw [length_hexFixed, length_hexFixed])
      obtain rfl := hexFixed_inj fewer fewer' digits
      exact ⟨is.trans is'.symm, rest⟩

/-! ## Texts -/

theorem glyphs_spec (text : Bytes) : (glyphs text).flatMap Glyph.bytes = text ∧ ∀ g ∈ glyphs text, g.IsRead := by
  cases text with
  | nil => exact ⟨rfl, nofun⟩
  | cons b rest =>
    cases decoded : decode? (b :: rest) with
    | none =>
      obtain ⟨spelled, read⟩ := glyphs_spec rest
      have first : glyphs (b :: rest) = .stray b :: glyphs rest := by rw [glyphs, glyphsAfter, decoded, glyphs]
      have high : 0x80 ≤ b := by
        refine UInt8.not_lt.mp fun low => ?_
        have one : decode? (b :: rest) = some (Char.ofNat b.toNat, 1) := if_pos low
        cases one.symm.trans decoded
      rw [first, List.flatMap_cons, spelled, List.forall_mem_cons]
      exact ⟨rfl, high, read⟩
    | some found =>
      obtain ⟨c, n⟩ := found
      obtain ⟨-, after, bytes⟩ := eq_of_decode? decoded
      have filled := List.length_pos_of_ne_nil (encodeChar_ne_nil c)
      have shorter : after.length < (b :: rest).length := by
        rw [bytes, List.length_append]
        omega
      obtain ⟨spelled, read⟩ := glyphs_spec after
      rw [bytes, glyphs_encodeChar_append, List.flatMap_cons, spelled, List.forall_mem_cons]
      exact ⟨rfl, trivial, read⟩
termination_by text.length
decreasing_by
  · exact Nat.lt_succ_self _
  · exact shorter

/-- Glyphs between quotes are told apart, whatever follows them. -/
theorem quotedGlyphs_append_inj (quote : mark = '"' ∨ mark = '\'') {gs gs' : List Glyph} (read : ∀ g ∈ gs, g.IsRead)
    (read' : ∀ g ∈ gs', g.IsRead)
    (same : gs.flatMap (quotedGlyph mark) ++ ascii mark :: x = gs'.flatMap (quotedGlyph mark) ++ ascii mark :: y) :
    gs = gs' ∧ x = y := by
  induction gs generalizing gs' with
  | nil =>
    cases gs' with
    | nil => exact ⟨rfl, List.tail_eq_of_cons_eq same⟩
    | cons g' rest' =>
      obtain ⟨b, more, bytes, other⟩ := (written_quotedGlyph quote (read' g' (by simp))).head_ne quote
      rw [List.flatMap_cons, bytes] at same
      exact absurd (List.head_eq_of_cons_eq same).symm other
  | cons g rest ih =>
    cases gs' with
    | nil =>
      obtain ⟨b, more, bytes, other⟩ := (written_quotedGlyph quote (read g (by simp))).head_ne quote
      rw [List.flatMap_cons, bytes] at same
      exact absurd (List.head_eq_of_cons_eq same) other
    | cons g' rest' =>
      rw [List.flatMap_cons, List.flatMap_cons, List.append_assoc, List.append_assoc] at same
      obtain ⟨rfl, others⟩ := (written_quotedGlyph quote (read g (by simp))).append_inj
        (written_quotedGlyph quote (read' g' (by simp))) same
      obtain ⟨rfl, rest⟩ := ih (fun f mem => read f (by simp [mem])) (fun f mem => read' f (by simp [mem])) others
      exact ⟨rfl, rest⟩

/-- Quoted texts are told apart, whatever follows them. -/
theorem quoted_append_inj {s t : Bytes} (same : quoted s ++ x = quoted t ++ y) : s = t ∧ x = y := by
  simp only [quoted, List.cons_append, List.append_assoc, List.nil_append, List.cons.injEq, true_and] at same
  obtain ⟨spelled, read⟩ := glyphs_spec s
  obtain ⟨spelled', read'⟩ := glyphs_spec t
  obtain ⟨glyphs, rest⟩ := quotedGlyphs_append_inj (.inl rfl) read read' same
  rw [← spelled, glyphs, spelled']
  exact ⟨rfl, rest⟩

theorem quotedSingle_append_inj {d : Char} (same : quotedSingle c ++ x = quotedSingle d ++ y) : c = d ∧ x = y := by
  simp only [quotedSingle, List.cons_append, List.append_assoc, List.nil_append, List.cons.injEq, true_and] at same
  obtain ⟨char, same⟩ := (written_quotedChar (.inr rfl) c).append_inj (written_quotedChar (.inr rfl) d) same
  exact ⟨Glyph.char.inj char, List.tail_eq_of_cons_eq same⟩

end LedgerScript.Text
