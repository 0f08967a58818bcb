import LedgerScript.Text.Utf8
import Mathlib.Data.List.Basic

/-!
# Characters and their bytes

A character below `0x80` is one byte, and any other one has only bytes that are not below `0x80`.  Decoding is the inverse of
encoding: a text that starts with the bytes of a character is decoded to it, and what is decoded has these bytes.
-/

namespace LedgerScript.Text

variable {c : Char}

/-! ## Code points -/

theorem charOfCode?_toNat (c : Char) : charOfCode? c.toNat = some c := by
  have valid : c.toNat < 0xD800 ∨ (0xDFFF < c.toNat ∧ c.toNat < 0x110000) := c.valid
  rw [charOfCode?, if_pos (by simpa using valid), Char.ofNat_toNat]

theorem toNat_of_charOfCode? {code : Nat} (found : charOfCode? code = some c) : c.toNat = code := by
  rw [charOfCode?] at found
  split at found
  · next valid =>
    cases found
    have there : code.isValidChar := by simpa [Nat.isValidChar] using valid
    rw [Char.ofNat, dif_pos there]
    exact UInt32.toNat_ofNatLT
  · cases found

theorem charOfWidth?_toNat {least : Nat} (wide : least ≤ c.toNat) (width : Nat) :
    charOfWidth? c.toNat least width = some (c, width) := by
  rw [charOfWidth?, if_neg (Nat.not_lt.mpr wide), charOfCode?_toNat]
  rfl

theorem charOfWidth?_eq_some {code least width n : Nat} (found : charOfWidth? code least width = some (c, n)) :
    c.toNat = code ∧ least ≤ code ∧ n = width := by
  rw [charOfWidth?] at found
  split at found
  · cases found
  · next wide =>
    obtain ⟨d, same, pair⟩ := Option.map_eq_some_iff.mp found
    cases pair
    exact ⟨toNat_of_charOfCode? same, Nat.not_lt.mp wide, rfl⟩

/-! ## Encoding -/

section

variable {c : Char}
variable {n : Nat} {b : UInt8}

theorem encodeChar_one (small : c.toNat < 0x80) : encodeChar c = [UInt8.ofNat c.toNat] := by
  have one : c.val.toNat ≤ 0x7F := Nat.le_of_lt_succ small
  rw [encodeChar, String.utf8EncodeChar, if_pos one]
  rfl

theorem encodeChar_two (least : 0x80 ≤ c.toNat) (most : c.toNat < 0x800) :
    encodeChar c = [UInt8.ofNat (c.toNat / 64 % 0x20 + 0xC0), UInt8.ofNat (c.toNat % 0x40 + 0x80)] := by
  have one : ¬ c.val.toNat ≤ 0x7F := Nat.not_le.mpr least
  have two : c.val.toNat ≤ 0x7FF := Nat.le_of_lt_succ most
  rw [encodeChar, String.utf8EncodeChar, if_neg one, if_pos two]
  rfl

theorem encodeChar_three (least : 0x800 ≤ c.toNat) (most : c.toNat < 0x10000) :
    encodeChar c = [UInt8.ofNat (c.toNat / 4096 % 0x10 + 0xE0), UInt8.ofNat (c.toNat / 64 % 0x40 + 0x80),
      UInt8.ofNat (c.toNat % 0x40 + 0x80)] := by
  have one : ¬ c.val.toNat ≤ 0x7F := Nat.not_le.mpr (Nat.le_trans (by decide) least)
  have two : ¬ c.val.toNat ≤ 0x7FF := Nat.not_le.mpr least
  have three : c.val.toNat ≤ 0xFFFF := Nat.le_of_lt_succ most
  rw [encodeChar, String.utf8EncodeChar, if_neg one, if_neg two, if_pos three]
  rfl

theorem encodeChar_four (least : 0x10000 ≤ c.toNat) :
    encodeChar c = [UInt8.ofNat (c.toNat / 262144 % 0x08 + 0xF0), UInt8.ofNat (c.toNat / 4096 % 0x40 + 0x80),
      UInt8.ofNat (c.toNat / 64 % 0x40 + 0x80), UInt8.ofNat (c.toNat % 0x40 + 0x80)] := by
  have one : ¬ c.val.toNat ≤ 0x7F := Nat.not_le.mpr (Nat.le_trans (by decide) least)
  have two : ¬ c.val.toNat ≤ 0x7FF := Nat.not_le.mpr (Nat.le_trans (by decide) least)
  have three : ¬ c.val.toNat ≤ 0xFFFF := Nat.not_le.mpr least
  rw [encodeChar, String.utf8EncodeChar, if_neg one, if_neg two, if_neg three]
  rfl

theorem toNat_byte (most : n < 0x100) : (UInt8.ofNat n).toNat = n :=
  UInt8.toNat_ofNat_of_lt' most

theorem high_ofNat (least : 0x80 ≤ n) (most : n < 0x100) : 0x80 ≤ UInt8.ofNat n := by
  rw [UInt8.le_iff_toNat_le, toNat_byte most]
  exact least

/-- A character is one byte below `0x80`, or some bytes that are not. -/
theorem encodeChar_cases (c : Char) :
    (c.toNat < 0x80 ∧ encodeChar c = [UInt8.ofNat c.toNat]) ∨ (0x80 ≤ c.toNat ∧ ∀ b ∈ encodeChar c, 0x80 ≤ b) := by
  by_cases one : c.toNat < 0x80
  · exact .inl ⟨one, encodeChar_one one⟩
  · refine .inr ⟨Nat.not_lt.mp one, ?_⟩
    by_cases two : c.toNat < 0x800
    · rw [encodeChar_two (Nat.not_lt.mp one) two]
      simp only [List.forall_mem_cons]
      refine ⟨high_ofNat ?_ ?_, high_ofNat ?_ ?_, nofun⟩ <;> omega
    · by_cases three : c.toNat < 0x10000
      · rw [encodeChar_three (Nat.not_lt.mp two) three]
        simp only [List.forall_mem_cons]
        refine ⟨high_ofNat ?_ ?_, high_ofNat ?_ ?_, high_ofNat ?_ ?_, nofun⟩ <;> omega
      · rw [encodeChar_four (Nat.not_lt.mp three)]
        simp only [List.forall_mem_cons]
        refine ⟨high_ofNat ?_ ?_, high_ofNat ?_ ?_, high_ofNat ?_ ?_, high_ofNat ?_ ?_, nofun⟩ <;> omega

/-- A byte below `0x80` is only among the bytes of its own character. -/
theorem ne_of_mem_encodeChar {d : UInt8} (mem : b ∈ encodeChar c) (small : d < 0x80) (other : c.toNat ≠ d.toNat) : b ≠ d := by
  rintro rfl
  rcases encodeChar_cases c with ⟨low, one⟩ | ⟨-, high⟩
  · rw [one, List.mem_singleton] at mem
    rw [mem, toNat_byte (Nat.lt_trans low (by decide))] at other
    exact other rfl
  · exact absurd small (UInt8.not_lt.mpr (high b mem))

theorem encodeChar_ne_nil (c : Char) : encodeChar c ≠ [] :=
  String.utf8EncodeChar_ne_nil

/-! ## Decoding -/

theorem isContinuation_ofNat (n : Nat) : isContinuation (UInt8.ofNat (n % 0x40 + 0x80)) = true := by
  have small : (UInt8.ofNat (n % 0x40 + 0x80)).toNat = n % 0x40 + 0x80 := toNat_byte (by omega)
  simp only [isContinuation, UInt8.le_iff_toNat_le, UInt8.lt_iff_toNat_lt, small, Bool.and_eq_true, decide_eq_true_eq]
  exact ⟨Nat.le_add_left _ _, by change _ < 192; omega⟩

theorem continuationBits_ofNat (n : Nat) : continuationBits (UInt8.ofNat (n % 0x40 + 0x80)) = n % 0x40 := by
  rw [continuationBits, toNat_byte (by omega)]
  omega

theorem not_lt_ofNat (most : n < 0x100) (least : b.toNat ≤ n) : ¬ UInt8.ofNat n < b := by
  rw [UInt8.lt_iff_toNat_lt, toNat_byte most]
  exact Nat.not_lt.mpr least

theorem ofNat_lt (most : n < b.toNat) : UInt8.ofNat n < b := by
  rw [UInt8.lt_iff_toNat_lt, toNat_byte (Nat.lt_trans most b.toNat_lt)]
  exact most

theorem decode?_encodeChar (c : Char) (rest : Bytes) : decode? (encodeChar c ++ rest) = some (c, (encodeChar c).length) := by
  by_cases one : c.toNat < 0x80
  · rw [encodeChar_one one]
    change (if UInt8.ofNat c.toNat < 0x80 then _ else _) = _
    rw [if_pos (ofNat_lt one), toNat_byte (Nat.lt_trans one (by decide)), Char.ofNat_toNat]
    rfl
  · by_cases two : c.toNat < 0x800
    · have lead : c.toNat / 64 % 0x20 + 0xC0 < 0xE0 := by omega
      rw [encodeChar_two (Nat.not_lt.mp one) two, List.cons_append, List.cons_append, List.nil_append, decode?,
        if_neg (not_lt_ofNat (by omega) (by simp)), if_neg (not_lt_ofNat (by omega) (by simp)), if_pos (ofNat_lt lead),
        if_pos (isContinuation_ofNat _), continuationBits_ofNat,
        toNat_byte (by omega)]
      have code : (c.toNat / 64 % 0x20 + 0xC0 - 0xC0) * 64 + c.toNat % 0x40 = c.toNat := by omega
      rw [code, charOfWidth?_toNat (Nat.not_lt.mp one)]
      rfl
    · by_cases three : c.toNat < 0x10000
      · have lead : c.toNat / 4096 % 0x10 + 0xE0 < 0xF0 := by omega
        rw [encodeChar_three (Nat.not_lt.mp two) three, List.cons_append, List.cons_append, List.cons_append, List.nil_append,
          decode?, if_neg (not_lt_ofNat (by omega) (by simp)), if_neg (not_lt_ofNat (by omega) (by simp)),
          if_neg (not_lt_ofNat (by omega) (by simp)), if_pos (ofNat_lt lead)]
        dsimp only
        rw [isContinuation_ofNat, isContinuation_ofNat, continuationBits_ofNat, continuationBits_ofNat,
          toNat_byte (by omega)]
        have code : ((c.toNat / 4096 % 0x10 + 0xE0 - 0xE0) * 64 + c.toNat / 64 % 0x40) * 64 + c.toNat % 0x40 = c.toNat := by
          omega
        rw [code, Bool.and_true, if_pos rfl, charOfWidth?_toNat (Nat.not_lt.mp two)]
        rfl
      · have lead : c.toNat / 262144 % 0x08 + 0xF0 < 0xF8 := by omega
        have most : c.toNat < 0x110000 := by
          have valid : c.toNat < 0xD800 ∨ (0xDFFF < c.toNat ∧ c.toNat < 0x110000) := c.valid
          omega
        rw [encodeChar_four (Nat.not_lt.mp three), List.cons_append, List.cons_append, List.cons_append, List.cons_append,
          List.nil_append, decode?, if_neg (not_lt_ofNat (by omega) (by simp)), if_neg (not_lt_ofNat (by omega) (by simp)),
          if_neg (not_lt_ofNat (by omega) (by simp)), if_neg (not_lt_ofNat (by omega) (by simp)), if_pos (ofNat_lt lead)]
        dsimp only
        rw [isContinuation_ofNat, isContinuation_ofNat, isContinuation_ofNat, continuationBits_ofNat, continuationBits_ofNat, continuationBits_ofNat,
          toNat_byte (by omega)]
        have code : (((c.toNat / 262144 % 0x08 + 0xF0 - 0xF0) * 64 + c.toNat / 4096 % 0x40) * 64 + c.toNat / 64 % 0x40) * 64 +
            c.toNat % 0x40 = c.toNat := by omega
        rw [code, Bool.and_true, Bool.and_true, if_pos rfl, charOfWidth?_toNat (Nat.not_lt.mp three)]
        rfl

theorem isContinuation_iff : isContinuation b = true ↔ 0x80 ≤ b.toNat ∧ b.toNat < 0xC0 := by
  simp [isContinuation, UInt8.le_iff_toNat_le, UInt8.lt_iff_toNat_lt]

theorem eq_byte (same : n = b.toNat) : UInt8.ofNat n = b := by
  rw [same, UInt8.ofNat_toNat]

/-- What is decoded stands at the front. -/
theorem eq_of_decode? {text : Bytes} (found : decode? text = some (c, n)) :
    n = (encodeChar c).length ∧ ∃ rest, text = encodeChar c ++ rest := by
  cases text with
  | nil => cases found
  | cons b0 rest =>
    have small := b0.toNat_lt
    rw [decode?.eq_def] at found
    simp only [UInt8.lt_iff_toNat_lt, UInt8.reduceToNat] at found
    split at found
    · next one =>
      cases found
      have same : (Char.ofNat b0.toNat).toNat = b0.toNat := by
        apply toNat_of_charOfCode?
        rw [charOfCode?, if_pos (by simp; omega)]
      rw [encodeChar_one (by omega), eq_byte same]
      exact ⟨rfl, rest, rfl⟩
    split at found
    · cases found
    split at found
    · split at found
      · next b1 rest =>
        split at found
        · next tail =>
          rw [isContinuation_iff] at tail
          obtain ⟨same, least, rfl⟩ := charOfWidth?_eq_some found
          rw [continuationBits] at same least
          rw [encodeChar_two (by omega) (by omega), eq_byte (b := b0) (by omega), eq_byte (b := b1) (by omega)]
          exact ⟨rfl, rest, rfl⟩
        · cases found
      · cases found
    split at found
    · split at found
      · next b1 b2 rest =>
        split at found
        · next tail =>
          rw [Bool.and_eq_true, isContinuation_iff, isContinuation_iff] at tail
          obtain ⟨same, least, rfl⟩ := charOfWidth?_eq_some found
          rw [continuationBits, continuationBits] at same least
          rw [encodeChar_three (by omega) (by omega), eq_byte (b := b0) (by omega), eq_byte (b := b1) (by omega),
            eq_byte (b := b2) (by omega)]
          exact ⟨rfl, rest, rfl⟩
        · cases found
      · cases found
    split at found
    · split at found
      · next b1 b2 b3 rest =>
        split at found
        · next tail =>
          rw [Bool.and_eq_true, Bool.and_eq_true, isContinuation_iff, isContinuation_iff, isContinuation_iff] at tail
          obtain ⟨same, least, rfl⟩ := charOfWidth?_eq_some found
          rw [continuationBits, continuationBits, continuationBits] at same least
          rw [encodeChar_four (by omega), eq_byte (b := b0) (by omega), eq_byte (b := b1) (by omega),
            eq_byte (b := b2) (by omega), eq_byte (b := b3) (by omega)]
          exact ⟨rfl, rest, rfl⟩
        · cases found
      · cases found
    · cases found

end

/-! ## Whole texts -/

/-- The bytes of a string are those of its characters. -/
theorem utf8_eq_encode (s : String) : utf8 s = encode s.toList := by
  obtain ⟨cs, rfl⟩ : ∃ cs, String.ofList cs = s := ⟨s.toList, String.ofList_toList⟩
  rw [utf8, String.toUTF8_eq_toByteArray, String.toByteArray_ofList, List.utf8Encode, List.data_toByteArray,
    List.toList_toArray, String.toList_ofList]
  rfl

theorem glyphsAfter_append (skipped rest : Bytes) : glyphsAfter skipped.length (skipped ++ rest) = glyphsAfter 0 rest := by
  induction skipped with
  | nil => rfl
  | cons b skipped ih => exact ih

theorem glyphs_encodeChar_append (c : Char) (rest : Bytes) : glyphs (encodeChar c ++ rest) = .char c :: glyphs rest := by
  obtain ⟨b, more, bytes⟩ := List.exists_cons_of_ne_nil (encodeChar_ne_nil c)
  have decoded := decode?_encodeChar c rest
  rw [bytes, List.cons_append] at decoded
  rw [glyphs, bytes, List.cons_append, glyphsAfter, decoded]
  dsimp only
  rw [List.length_cons, Nat.add_sub_cancel, glyphsAfter_append, glyphs]

theorem glyphs_encode (cs : List Char) : glyphs (encode cs) = cs.map .char := by
  induction cs with
  | nil => rfl
  | cons c rest ih => rw [encode, List.flatMap_cons, glyphs_encodeChar_append, ← encode, ih, List.map_cons]

/-- The characters of a string are read back from its bytes. -/
theorem shownChars_utf8 (s : String) : shownChars (utf8 s) = s.toList := by
  rw [shownChars, utf8_eq_encode, glyphs_encode, List.map_map]
  exact List.map_id _

end LedgerScript.Text
