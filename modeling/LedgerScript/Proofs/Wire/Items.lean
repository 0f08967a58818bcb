import LedgerScript.Proofs.Wire.Pack
import Mathlib.Tactic.Ring

/-!
# Reading packed items back

`Yields x bytes a` says that a reader takes exactly these bytes from the front and makes this of them, whatever comes behind.
It holds for every item that has been packed: for big-endian numbers, lengths, texts, lists and whole numbers, as long as
they fit into the widths of their forms.
-/

namespace LedgerScript

variable {c : Char} (n : Nat)

namespace Pack

theorem length_bigEndian (width n : Nat) : (bigEndian width n).length = width := by
  induction width with
  | zero => rfl
  | succ width ih => rw [bigEndian, List.length_cons, ih]

/-- The number of some bytes behind others. -/
theorem foldl_bigEndian (width n start : Nat) :
    (bigEndian width n).foldl (fun m (b : UInt8) => m * 256 + b.toNat) start = start * 256 ^ width + n % 256 ^ width := by
  induction width generalizing start with
  | zero => simp [bigEndian, Nat.mod_one]
  | succ width ih =>
    have top : (n / 256 ^ width % 256).toUInt8.toNat = n / 256 ^ width % 256 := by
      simp
    rw [bigEndian, List.foldl_cons, ih, top, pow_succ, Nat.mod_mul]
    ring

theorem ofBigEndian_bigEndian {width n : Nat} (fits : n < 256 ^ width) : ofBigEndian (bigEndian width n) = n := by
  rw [ofBigEndian, foldl_bigEndian, Nat.zero_mul, Nat.zero_add, Nat.mod_eq_of_lt fits]

end Pack

namespace Unpack

variable {α β : Type}
variable {n : Nat}

/-- The reader takes these bytes from the front, and this is what it makes of them. -/
def Yields (x : Unpack α) (bytes : Bytes) (a : α) : Prop :=
  ∀ rest, x (bytes ++ rest) = some (a, rest)

theorem yields_pure (a : α) : Yields (pure a) [] a :=
  fun _ => rfl

theorem Yields.bind {x : Unpack α} {f : α → Unpack β} {p q : Bytes} {a : α} {b : β} (first : Yields x p a)
    (second : Yields (f a) q b) : Yields (x >>= f) (p ++ q) b := by
  intro rest
  change (x (p ++ q ++ rest) >>= fun r => f r.1 r.2) = _
  rw [List.append_assoc, first]
  exact second rest

theorem Yields.map {x : Unpack α} {bytes : Bytes} {a : α} (read : Yields x bytes a) (f : α → β) :
    Yields (do return f (← x)) bytes (f a) := by
  have both := read.bind (f := fun a => pure (f a)) (yields_pure (f a))
  rwa [List.append_nil] at both

theorem yields_byte (c : UInt8) : Yields byte [c] c :=
  fun _ => rfl

theorem yields_take (s : Bytes) : Yields (take s.length) s s :=
  take_append s

theorem yields_number {w : Nat} (fits : n < 256 ^ w) : Yields (number w) (Pack.bigEndian w n) n := by
  have read := (yields_take (Pack.bigEndian w n)).map Pack.ofBigEndian
  rw [Pack.length_bigEndian, Pack.ofBigEndian_bigEndian fits] at read
  exact read

/-! ## Lengths -/

theorem yields_textHead (fits : n < 0x100000000) : Yields (do textLength (← byte)) (Pack.textHead n) (some n) := by
  unfold Pack.textHead
  split
  · next short =>
    obtain ⟨present, inline, code⟩ := textCode n short
    refine Yields.bind (p := [_]) (q := []) (yields_byte _) ?_
    unfold textLength
    rw [present, inline, code]
    exact yields_pure _
  split
  · next small => exact (yields_byte 0xd9).bind ((yields_number small).map some)
  split
  · next middle => exact (yields_byte 0xda).bind ((yields_number middle).map some)
  · exact (yields_byte 0xdb).bind ((yields_number fits).map some)

theorem yields_text {s : Bytes} (fits : s.length < 0x100000000) : Yields text (Pack.text s) s := by
  have read := (yields_textHead fits).bind (f := fun n => take (n.getD 0)) (yields_take s)
  rwa [bind_assoc] at read

/-- The byte that a list of few items starts with. -/
theorem listCode : ∀ n < 16, ((0x90 + n.toUInt8) == 0xc0) = false ∧
    (0x90 ≤ 0x90 + n.toUInt8 && 0x90 + n.toUInt8 < 0xa0) = true ∧ (0x90 + n.toUInt8).toNat - 0x90 = n := by
  decide

theorem yields_listLength (fits : n < 0x100000000) : Yields listLength (Pack.listHead n) (some n) := by
  unfold Pack.listHead
  split
  · next few =>
    obtain ⟨present, inline, code⟩ := listCode n few
    refine Yields.bind (p := [_]) (q := []) (yields_byte _) ?_
    unfold listLengthOf
    rw [present, inline, code]
    exact yields_pure _
  split
  · next small => exact (yields_byte 0xdc).bind ((yields_number small).map some)
  · exact (yields_byte 0xdd).bind ((yields_number fits).map some)

/-! ## Numbers -/

theorem yields_natMod_word (fits : n < 0x10000000000000000) : Yields (natMod 64) (Pack.word n) n := by
  have whole : Yields (do intOf (← byte)) (Pack.word n) (n : Int) :=
    (yields_byte 0xcf).bind ((yields_number (w := 8) fits).map Int.ofNat)
  have read := whole.map fun i : Int => (i % (2 ^ 64 : Nat)).toNat
  have same : ((n : Int) % (2 ^ 64 : Nat)).toNat = n := by omega
  rw [same] at read
  exact read

theorem yields_natMod_byte (b : UInt8) : Yields (natMod 8) [0xcc, b] b.toNat := by
  have whole : Yields (do intOf (← byte)) [0xcc, b] (b.toNat : Int) := by
    intro rest
    change some ((Pack.ofBigEndian [b] : Int), rest) = _
    simp [Pack.ofBigEndian]
  have read := whole.map fun i : Int => (i % (2 ^ 8 : Nat)).toNat
  have same : ((b.toNat : Int) % (2 ^ 8 : Nat)).toNat = b.toNat := by
    have small : b.toNat < 256 := b.toNat_lt
    omega
  rw [same] at read
  exact read

theorem yields_double {bits : Nat} (fits : bits < 0x10000000000000000) :
    Yields double (Pack.double bits) (Float.ofBits bits.toUInt64) :=
  (yields_byte 0xcb).bind ((yields_number (w := 8) fits).map fun n => Float.ofBits n.toUInt64)

theorem yields_bool (b : Bool) : Yields bool (Pack.bool b) b := by
  cases b <;> exact fun _ => rfl

theorem yields_absent : Yields absent Pack.absent () :=
  fun _ => rfl

/-- The byte that a small number is written with. -/
theorem smallCode : ∀ n : Nat, n < 0x80 → (n.toUInt8 == 0xc0) = false ∧ (n.toUInt8 < 0x80 || 0xe0 ≤ n.toUInt8) = true ∧
    Int.bmod n.toUInt8.toNat 256 = n := by
  decide

theorem yields_nat (fits : n < 0x10000000000000000) : Yields (do intOf (← byte)) (Pack.nat n) (n : Int) := by
  unfold Pack.nat
  split
  · next small =>
    obtain ⟨present, inline, code⟩ := smallCode n small
    refine Yields.bind (p := [_]) (q := []) (yields_byte _) ?_
    unfold intOf
    rw [present, inline, code]
    exact yields_pure _
  split
  · next short => exact (yields_byte 0xcc).bind ((yields_number (w := 1) short).map Int.ofNat)
  split
  · next middle => exact (yields_byte 0xcd).bind ((yields_number (w := 2) middle).map Int.ofNat)
  split
  · next long => exact (yields_byte 0xce).bind ((yields_number (w := 4) long).map Int.ofNat)
  · exact (yields_byte 0xcf).bind ((yields_number (w := 8) fits).map Int.ofNat)

/-- A negative number in two's complement. -/
theorem yields_signed {w m : Nat} (fits : 2 * (m + 1) ≤ 256 ^ w) :
    Yields (signed w) (Pack.bigEndian w (256 ^ w - (m + 1))) (.negSucc m) := by
  have read := (yields_number (w := w) (n := 256 ^ w - (m + 1)) (by omega)).map fun n : Nat => Int.bmod n (256 ^ w)
  have same : Int.bmod ((256 ^ w - (m + 1) : Nat) : Int) (256 ^ w) = .negSucc m := by
    generalize 256 ^ w = size at fits
    rw [Int.bmod_def, Int.emod_eq_of_lt (by omega) (by omega), if_neg (by omega)]
    omega
  rw [same] at read
  exact read

/-- The byte that a small negative number is written with. -/
theorem smallNegativeCode : ∀ m < 32, ∃ c : UInt8, Pack.bigEndian 1 (256 ^ 1 - (m + 1)) = [c] ∧ (c == 0xc0) = false ∧
    (c < 0x80 || 0xe0 ≤ c) = true ∧ Int.bmod c.toNat 256 = .negSucc m := by
  intro m small
  refine ⟨(255 - m).toUInt8, ?_⟩
  revert m
  decide

theorem yields_negative {m : Nat} (fits : m < 0x8000000000000000) :
    Yields (do intOf (← byte)) (Pack.int (.negSucc m)) (.negSucc m) := by
  unfold Pack.int
  dsimp only
  split
  · next small =>
    obtain ⟨c, form, present, inline, code⟩ := smallNegativeCode m small
    rw [form]
    refine Yields.bind (p := [_]) (q := []) (yields_byte c) ?_
    unfold intOf
    rw [present, inline, code]
    exact yields_pure _
  split
  · exact (yields_byte 0xd0).bind (yields_signed (w := 1) (by omega))
  split
  · exact (yields_byte 0xd1).bind (yields_signed (w := 2) (by omega))
  split
  · exact (yields_byte 0xd2).bind (yields_signed (w := 4) (by omega))
  · exact (yields_byte 0xd3).bind (yields_signed (w := 8) (by omega))

theorem yields_int {n : Int} (low : -0x8000000000000000 ≤ n) (high : n < 0x8000000000000000) :
    Yields int (Pack.int n) n := by
  have whole : Yields (do intOf (← byte)) (Pack.int n) n := by
    cases n with
    | ofNat n => exact yields_nat (by simp at high; omega)
    | negSucc m => exact yields_negative (by omega)
  have read := whole.map fun i : Int => Int.bmod i (2 ^ 64)
  have same : Int.bmod n (2 ^ 64) = n := Int.bmod_eq_of_le (by omega) (by omega)
  rw [same, bind_assoc] at read
  exact read

end Unpack

/-! ## Decimal digits -/

theorem digit_bounds (digit : c.isDigit = true) : 48 ≤ c.toNat ∧ c.toNat ≤ 57 := by
  simp only [Char.isDigit, Bool.and_eq_true, decide_eq_true_eq, ge_iff_le, UInt32.le_iff_toNat_le] at digit
  exact digit

theorem encodeChar_digit (digit : c.isDigit = true) : String.utf8EncodeChar c = [ascii c] := by
  obtain ⟨-, high⟩ := digit_bounds digit
  have one : c.val.toNat ≤ 127 := Nat.le_trans high (by decide)
  exact if_pos one

theorem toNat_ascii_digit (digit : c.isDigit = true) : (ascii c).toNat = c.toNat := by
  obtain ⟨-, high⟩ := digit_bounds digit
  have small : c.toNat < 256 := by omega
  simp [ascii, Nat.mod_eq_of_lt small]

theorem decimal_eq_map : Text.decimal n = (Nat.toDigits 10 n).map ascii := by
  have digits : ∀ cs : List Char, (∀ c ∈ cs, c.isDigit = true) → cs.flatMap String.utf8EncodeChar = cs.map ascii := by
    intro cs all
    induction cs with
    | nil => rfl
    | cons c rest ih =>
      rw [List.flatMap_cons, encodeChar_digit (all c (by simp)), ih fun d mem => all d (by simp [mem]), List.map_cons]
      rfl
  unfold Text.decimal utf8
  rw [Nat.repr_eq_ofList_toDigits, String.toUTF8_eq_toByteArray, String.toByteArray_ofList, List.utf8Encode,
    digits _ fun c mem => Nat.isDigit_of_mem_toDigits (by decide) (by decide) mem]
  simp

theorem decimal_digits : (Text.decimal n).all isDigitByte = true := by
  rw [decimal_eq_map, List.all_map, List.all_eq_true]
  intro c mem
  have digit : c.isDigit = true := Nat.isDigit_of_mem_toDigits (by decide) (by decide) mem
  simp only [Function.comp, isDigitByte, Bool.and_eq_true, decide_eq_true_eq, UInt8.le_iff_toNat_le]
  rw [toNat_ascii_digit digit]
  exact digit_bounds digit

theorem decimal_ne_nil : Text.decimal n ≠ [] := by
  rw [decimal_eq_map]
  simp [Nat.toDigits_ne_nil]

theorem digitsNumber_decimal : digitsNumber (Text.decimal n) = n := by
  have value : ∀ cs : List Char, (∀ c ∈ cs, c.isDigit = true) → ∀ start, (cs.map ascii).foldl
      (fun m (d : UInt8) => m * 10 + (d.toNat - 48)) start = Nat.ofDigitChars 10 cs start := by
    intro cs all
    induction cs with
    | nil => intro start; rfl
    | cons c rest ih =>
      intro start
      rw [List.map_cons, List.foldl_cons, Nat.ofDigitChars_cons, ih fun d mem => all d (by simp [mem]),
        toNat_ascii_digit (all c (by simp)), Nat.mul_comm]
      rfl
  unfold digitsNumber
  rw [decimal_eq_map, value _ fun c mem => Nat.isDigit_of_mem_toDigits (by decide) (by decide) mem,
    Nat.ofDigitChars_ten_toDigits]

theorem readDigits?_decimal : readDigits? (Text.decimal n) = some n := by
  have filled : (Text.decimal n).isEmpty = false := by simp [decimal_ne_nil]
  unfold readDigits?
  rw [filled, decimal_digits, digitsNumber_decimal]
  rfl

/-- Decimal digits are read as the number that they were made of. -/
theorem readWhole?_decimalInt (i : Int) : readWhole? (Text.decimalInt i) = some i := by
  cases i with
  | ofNat n =>
    obtain ⟨b, rest, form⟩ := List.exists_cons_of_ne_nil (decimal_ne_nil n)
    have digit : isDigitByte b = true := by
      have digits := decimal_digits n
      rw [form, List.all_cons, Bool.and_eq_true] at digits
      exact digits.1
    have minus : (b == ascii '-') = false := by
      cases same : b == ascii '-' with
      | false => rfl
      | true => rw [eq_of_beq same] at digit; cases digit
    have plus : (b == ascii '+') = false := by
      cases same : b == ascii '+' with
      | false => rfl
      | true => rw [eq_of_beq same] at digit; cases digit
    have read := readDigits?_decimal n
    change readWhole? (Text.decimal n) = _
    rw [form] at read ⊢
    simp only [readWhole?, minus, plus, read]
    rfl
  | negSucc n =>
    have read := readDigits?_decimal (n + 1)
    unfold Text.decimalInt readWhole?
    simp only [beq_self_eq_true, if_true, read]
    rfl

end LedgerScript
