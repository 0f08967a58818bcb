import LedgerScript.Value.Arith
import Mathlib.Data.Int.ModEq

/-!
# Arithmetic of whole numbers

Whole numbers are combined as words of 64 bits, and the lowest bits of the outcome become a number of the common kind.  So a
result differs from the exact one by a multiple of how many numbers the kind has: `WholeKind.Reduced` says this of two
integers, and within the range of the kind it leaves no choice.

The operands of a division are cut to the common kind first.  That changes nothing, because neither is wider than it.
-/

namespace LedgerScript

open Value

-- Powers are those of the numbers themselves, as in the definitions.
attribute [local instance (high)] instPowNat

namespace WholeKind

/-! ## Kinds and their numbers -/

def InRange (k : WholeKind) (n : Int) : Prop :=
  -(2 ^ (k.bits - 1) : Nat) ≤ n ∧ n < (2 ^ (k.bits - 1) : Nat)

def counted : WholeKind → WholeKind
  | .char => .int
  | k => k

def wider (k l : WholeKind) : WholeKind :=
  if k.counted.bits < l.counted.bits then l.counted else k.counted

/-- An integer is what another one comes to in the bits of a kind. -/
structure Reduced (k : WholeKind) (exact n : Int) : Prop where
  inRange : k.InRange n
  congruent : n ≡ exact [ZMOD (2 ^ k.bits : Nat)]

section

variable {k l : WholeKind} {m n x y : Int}

instance : Decidable (k.InRange n) :=
  inferInstanceAs (Decidable (_ ∧ _))

theorem promoteWhole_eq (k l : WholeKind) : promoteWhole k l = k.wider l := by
  cases k <;> cases l <;> rfl

theorem wider_wider (k l : WholeKind) : (k.wider l).wider l = k.wider l := by
  cases k <;> cases l <;> rfl

theorem wider_self (k l : WholeKind) : (k.wider l).wider (k.wider l) = k.wider l := by
  cases k <;> cases l <;> rfl

theorem bits_le_wider (k l : WholeKind) : k.bits ≤ (k.wider l).bits ∧ l.bits ≤ (k.wider l).bits := by
  cases k <;> cases l <;> decide

theorem bits_le (k : WholeKind) : k.bits ≤ 64 := by
  cases k <;> decide

theorem bits_pos (k : WholeKind) : 0 < k.bits := by
  cases k <;> decide

theorem InRange.of_bits (fits : k.InRange n) (wider : k.bits ≤ l.bits) : l.InRange n := by
  have more : 2 ^ (k.bits - 1) ≤ 2 ^ (l.bits - 1) := Nat.pow_le_pow_right (by decide) (by omega)
  unfold InRange at fits ⊢
  omega

/-- Half of the numbers of a kind are negative. -/
theorem two_pow_bits (k : WholeKind) : 2 ^ k.bits = 2 * 2 ^ (k.bits - 1) := by
  rw [Nat.mul_comm, ← Nat.pow_succ, Nat.succ_eq_add_one, Nat.sub_add_cancel k.bits_pos]

/-! ## Reduction -/

theorem reduced_wrap (k : WholeKind) (n : Int) : k.Reduced n (k.wrap n) where
  inRange := by
    have low := @Int.le_bmod n (2 ^ k.bits) (Nat.two_pow_pos _)
    have high := @Int.bmod_lt n (2 ^ k.bits) (Nat.two_pow_pos _)
    rw [two_pow_bits] at low high
    unfold InRange wrap
    rw [two_pow_bits]
    omega
  congruent := Int.bmod_emod

/-- A number of a kind comes to itself. -/
theorem Reduced.eq_of_inRange (reduced : k.Reduced x n) (fits : k.InRange x) : n = x := by
  obtain ⟨⟨low, high⟩, congruent⟩ := reduced
  obtain ⟨low', high'⟩ := fits
  have close : (n - x).natAbs < ((2 ^ k.bits : Nat) : Int).natAbs := by
    rw [two_pow_bits]
    omega
  exact Int.eq_of_sub_eq_zero (Int.eq_zero_of_dvd_of_natAbs_lt_natAbs congruent.symm.dvd close)

theorem wrap_of_inRange (fits : k.InRange n) : k.wrap n = n :=
  (reduced_wrap k n).eq_of_inRange fits

theorem Reduced.congr (reduced : k.Reduced x n) (same : x ≡ y [ZMOD (2 ^ k.bits : Nat)]) : k.Reduced y n where
  inRange := reduced.inRange
  congruent := reduced.congruent.trans same

end

end WholeKind

/-! ## Words -/

section

variable {k l : WholeKind} {m n x : Int} {w : Int64}

theorem toInt_of_inRange (fits : k.InRange n) : (Int64.ofInt n).toInt = n := by
  rw [Int64.toInt_ofInt]
  exact WholeKind.wrap_of_inRange (fits.of_bits (l := .long) k.bits_le)

theorem ofInt_eq_zero_iff (fits : k.InRange n) : Int64.ofInt n = 0 ↔ n = 0 := by
  rw [← Int64.toInt_inj, toInt_of_inRange fits]
  rfl

/-- The number that the lowest bits of a word are. -/
theorem ofWord_eq (k : WholeKind) (w : Int64) : ofWord k w = .whole k (k.wrap w.toInt) := by
  cases k with
  | short => exact congrArg _ (Int64.toInt_toInt16 w)
  | int => exact congrArg _ (Int64.toInt_toInt32 w)
  | char => exact congrArg _ (Int64.toInt_toInt32 w)
  | long => exact congrArg _ (Int64.toInt_bmod_size w).symm

/-- A word that an exact result comes to gives the number that it comes to. -/
theorem reduced_ofWord (k : WholeKind) (same : w.toInt ≡ x [ZMOD (2 ^ 64 : Nat)]) : ∃ r, ofWord k w = .whole k r ∧ k.Reduced x r := by
  refine ⟨_, ofWord_eq k w, (k.reduced_wrap w.toInt).congr ?_⟩
  exact same.of_dvd (Int.natCast_dvd_natCast.mpr (Nat.pow_dvd_pow 2 k.bits_le))

/-- Cutting a number to a common kind that has it changes nothing. -/
theorem narrow_of_inRange (fits : k.InRange n) : narrow k (.ofInt n) = .ofInt n := by
  have here := toInt_of_inRange fits
  have same := WholeKind.wrap_of_inRange fits
  rw [← Int64.toInt_inj, here]
  cases k with
  | short => rw [narrow, Int16.toInt_toInt64, Int64.toInt_toInt16, here]; exact same
  | int => rw [narrow, Int32.toInt_toInt64, Int64.toInt_toInt32, here]; exact same
  | char | long => exact here

end

/-! ## Operators -/

def BinaryOp.arithmetic : List BinaryOp :=
  [.add, .sub, .mul, .div, .rem]

/-- The operator divides by its second operand. -/
def BinaryOp.Divides (op : BinaryOp) : Prop :=
  op = .div ∨ op = .rem

/-- The exact result of an operator: a quotient is cut toward zero, and a remainder has the sign of the dividend. -/
inductive BinaryOp.Exactly (m n : Int) : BinaryOp → Int → Prop
  | add : Exactly m n .add (m + n)
  | sub : Exactly m n .sub (m - n)
  | mul : Exactly m n .mul (m * n)
  | div (divisor : n ≠ 0) : Exactly m n .div (m.tdiv n)
  | rem (divisor : n ≠ 0) : Exactly m n .rem (m.tmod n)

theorem BinaryOp.exactly_of_mem {m n : Int} {op : BinaryOp} (mem : op ∈ arithmetic) (divisor : ¬(op.Divides ∧ n = 0)) :
    ∃ x, op.Exactly m n x := by
  simp only [arithmetic, List.mem_cons, List.not_mem_nil, or_false] at mem
  rcases mem with rfl | rfl | rfl | rfl | rfl
  · exact ⟨_, .add⟩
  · exact ⟨_, .sub⟩
  · exact ⟨_, .mul⟩
  · exact ⟨_, .div fun zero => divisor ⟨.inl rfl, zero⟩⟩
  · exact ⟨_, .rem fun zero => divisor ⟨.inr rfl, zero⟩⟩

/-- Combining two values gives an integer, reduced to a kind. -/
def Heap.Yields (h : Heap) (op : BinaryOp) (a b : Value) (k : WholeKind) (exact : Int) : Prop :=
  ∃ r, h.arith op a b = .ok (.whole k r, h) ∧ k.Reduced exact r

section

variable {k l : WholeKind} {m n x : Int} {op : BinaryOp} (h : Heap)

theorem Heap.arith_whole (k l : WholeKind) (m n : Int) (made : wholeArith op (k.wider l) (.ofInt m) (.ofInt n) = some y) :
    h.arith op (.whole k m) (.whole l n) = y.map (·, h) := by
  have combined : h.arith op (.whole k m) (.whole l n) = (numberArith op (.whole k m) (.whole l n)).map (·, h) := by
    cases op <;> rfl
  rw [combined, numberArith, WholeKind.promoteWhole_eq, made]
  rfl

theorem Heap.arith_by_zero (k l : WholeKind) (m : Int) (divides : op.Divides) :
    h.arith op (.whole k m) (.whole l 0) = .error .divisionByZero := by
  have fails : wholeArith op (k.wider l) (.ofInt m) (.ofInt 0) = some (.error .divisionByZero) := by
    rcases divides with rfl | rfl <;> rfl
  exact h.arith_whole k l m 0 fails

/-- A word that the exact result comes to gives what it comes to in the common kind. -/
theorem Heap.yields_of_word {w : Int64} (made : wholeArith op (k.wider l) (.ofInt m) (.ofInt n) = some (.ok (ofWord (k.wider l) w)))
    (same : w.toInt ≡ x [ZMOD (2 ^ 64 : Nat)]) : h.Yields op (.whole k m) (.whole l n) (k.wider l) x := by
  obtain ⟨r, word, reduced⟩ := reduced_ofWord (k.wider l) same
  refine ⟨r, ?_, reduced⟩
  rw [h.arith_whole k l m n made, word]
  rfl

theorem Heap.yields_exactly (left : k.InRange m) (right : l.InRange n) (exact : op.Exactly m n x) :
    h.Yields op (.whole k m) (.whole l n) (k.wider l) x := by
  have dividend := narrow_of_inRange (left.of_bits (WholeKind.bits_le_wider k l).1)
  have divided := narrow_of_inRange (right.of_bits (WholeKind.bits_le_wider k l).2)
  cases exact with
  | add =>
    refine h.yields_of_word rfl ?_
    rw [Int64.toInt_add, toInt_of_inRange left, toInt_of_inRange right]
    exact Int.bmod_emod
  | sub =>
    refine h.yields_of_word rfl ?_
    rw [Int64.toInt_sub, toInt_of_inRange left, toInt_of_inRange right]
    exact Int.bmod_emod
  | mul =>
    refine h.yields_of_word rfl ?_
    rw [Int64.toInt_mul, toInt_of_inRange left, toInt_of_inRange right]
    exact Int.bmod_emod
  | div divisor =>
    have word : Int64.ofInt n ≠ 0 := mt (ofInt_eq_zero_iff right).mp divisor
    refine h.yields_of_word (w := .ofInt m / .ofInt n) ?_ ?_
    · rw [wholeArith, if_neg word, dividend, divided]
    · rw [Int64.toInt_div, toInt_of_inRange left, toInt_of_inRange right]
      exact Int.bmod_emod
  | rem divisor =>
    have word : Int64.ofInt n ≠ 0 := mt (ofInt_eq_zero_iff right).mp divisor
    refine h.yields_of_word (w := .ofInt m % .ofInt n) ?_ ?_
    · rw [wholeArith, if_neg word, dividend, divided]
    · rw [Int64.toInt_mod, toInt_of_inRange left, toInt_of_inRange right]

theorem Value.negate_whole (fits : k.InRange m) :
    ∃ r, (Value.whole k m).negate = .ok (.whole k.counted r) ∧ k.counted.Reduced (-m) r := by
  have word : (-Int64.ofInt m).toInt ≡ -m [ZMOD (2 ^ 64 : Nat)] := by
    rw [Int64.toInt_neg, toInt_of_inRange fits]
    exact Int.bmod_emod
  obtain ⟨r, made, reduced⟩ := reduced_ofWord k.counted word
  refine ⟨r, ?_, reduced⟩
  cases k <;> exact congrArg _ made

theorem Value.step_whole (fits : k.InRange m) {delta : Int} (unit : delta = 1 ∨ delta = -1) :
    ∃ r, (Value.whole k m).step delta = .ok (.whole k r) ∧ k.Reduced (m + delta) r := by
  have small : (Int64.ofInt delta).toInt = delta := by
    rcases unit with rfl | rfl <;> rfl
  have word : (Int64.ofInt m + .ofInt delta).toInt ≡ m + delta [ZMOD (2 ^ 64 : Nat)] := by
    rw [Int64.toInt_add, toInt_of_inRange fits, small]
    exact Int.bmod_emod
  obtain ⟨r, made, reduced⟩ := reduced_ofWord k word
  exact ⟨r, congrArg _ made, reduced⟩

/-- The quotient times the divisor, and the remainder, are the dividend. -/
theorem Heap.division_is_undone (left : k.InRange m) (right : l.InRange n) (divisor : n ≠ 0) :
    ∃ q p r, h.arith .div (.whole k m) (.whole l n) = .ok (.whole (k.wider l) q, h) ∧
      h.arith .mul (.whole (k.wider l) q) (.whole l n) = .ok (.whole (k.wider l) p, h) ∧
      h.arith .rem (.whole k m) (.whole l n) = .ok (.whole (k.wider l) r, h) ∧
      h.arith .add (.whole (k.wider l) p) (.whole (k.wider l) r) = .ok (.whole (k.wider l) m, h) := by
  obtain ⟨q, divided, quotient⟩ := h.yields_exactly left right (.div divisor)
  obtain ⟨p, multiplied, product⟩ := h.yields_exactly quotient.inRange right .mul
  obtain ⟨r, remained, remainder⟩ := h.yields_exactly left right (.rem divisor)
  rw [WholeKind.wider_wider] at multiplied product
  obtain ⟨s, added, sum⟩ := h.yields_exactly product.inRange remainder.inRange .add
  rw [WholeKind.wider_self] at added sum
  have whole : p + r ≡ m [ZMOD (2 ^ (k.wider l).bits : Nat)] := by
    calc
      p + r ≡ q * n + r [ZMOD _] := product.congruent.add_right r
      _ ≡ m.tdiv n * n + m.tmod n [ZMOD _] := (quotient.congruent.mul_right n).add remainder.congruent
      _ = m := Int.tdiv_mul_add_tmod m n
  have same : s = m := (sum.congr whole).eq_of_inRange (left.of_bits (WholeKind.bits_le_wider k l).1)
  subst same
  exact ⟨q, p, r, divided, multiplied, remained, added⟩

end

/-- Arithmetic of whole numbers.  Of the operators, only those that divide fail, and only at zero.  Otherwise the result is the
exact one as far as the wider kind has bits for it.  A number is negated, and moved by one, in the same way; and a quotient
times its divisor, with the remainder, is the dividend. -/
theorem arithmetic_is_exact_up_to_width (h : Heap) {k l : WholeKind} {m n : Int} (left : k.InRange m) (right : l.InRange n) :
    (∀ op ∈ BinaryOp.arithmetic,
      (h.arith op (.whole k m) (.whole l n) = .error .divisionByZero ↔ op.Divides ∧ n = 0) ∧
      (¬(op.Divides ∧ n = 0) → ∃ x, op.Exactly m n x ∧ h.Yields op (.whole k m) (.whole l n) (k.wider l) x)) ∧
    (∃ r, (Value.whole k m).negate = .ok (.whole k.counted r) ∧ k.counted.Reduced (-m) r) ∧
    (∀ delta, delta = 1 ∨ delta = -1 → ∃ r, (Value.whole k m).step delta = .ok (.whole k r) ∧ k.Reduced (m + delta) r) ∧
    (n ≠ 0 → ∃ q p r, h.arith .div (.whole k m) (.whole l n) = .ok (.whole (k.wider l) q, h) ∧
      h.arith .mul (.whole (k.wider l) q) (.whole l n) = .ok (.whole (k.wider l) p, h) ∧
      h.arith .rem (.whole k m) (.whole l n) = .ok (.whole (k.wider l) r, h) ∧
      h.arith .add (.whole (k.wider l) p) (.whole (k.wider l) r) = .ok (.whole (k.wider l) m, h)) := by
  refine ⟨fun op mem => ?_, negate_whole left, fun delta unit => step_whole left unit, h.division_is_undone left right⟩
  have gives (divisor : ¬(op.Divides ∧ n = 0)) :
      ∃ x, op.Exactly m n x ∧ h.Yields op (.whole k m) (.whole l n) (k.wider l) x := by
    obtain ⟨x, exact⟩ := BinaryOp.exactly_of_mem mem divisor
    exact ⟨x, exact, h.yields_exactly left right exact⟩
  refine ⟨⟨fun fails => ?_, ?_⟩, gives⟩
  · by_contra divisor
    obtain ⟨x, -, r, made, -⟩ := gives divisor
    rw [made] at fails
    cases fails
  · rintro ⟨divides, rfl⟩
    exact h.arith_by_zero k l m divides

/-- The least `short` divided by minus one is itself again, which is what 32768 comes to in 16 bits. -/
theorem arithmetic_is_exact_up_to_width_least :
    WholeKind.short.InRange (-32768) ∧ WholeKind.short.InRange (-1) ∧
      Heap.Yields {} .div (.whole .short (-32768)) (.whole .short (-1)) .short 32768 ∧
      Heap.arith {} .div (.whole .short (-32768)) (.whole .short (-1)) = .ok (.whole .short (-32768), {}) := by
  have left : WholeKind.short.InRange (-32768) := by decide
  have right : WholeKind.short.InRange (-1) := by decide
  obtain ⟨combined, -⟩ := arithmetic_is_exact_up_to_width {} left right
  obtain ⟨x, exact, yields⟩ := (combined .div (by decide)).2 (by simp)
  cases exact
  exact ⟨left, right, yields, rfl⟩

end LedgerScript
