import LedgerScript.Ledger.Block

/-!
# Digests by natural numbers

The rounds of a digest can be done on natural numbers instead of machine words, where a single word is turned by a
multiplication and a division.
-/

namespace LedgerScript.Digest

/-- The words of a state as numbers. -/
def numbers (s : Array UInt64) : List Nat :=
  s.toList.map UInt64.toNat

def number (s : List Nat) (i : Nat) : Nat :=
  s[i]?.getD 0

def turnNumber (x n : Nat) : Nat :=
  if n = 0 then x else x <<< n % Nat.pow 2 64 ||| x >>> (64 - n)

def roundNumbers (s : List Nat) (constant : Nat) : List Nat :=
  let parity := List.ofFn fun x : Fin 5 =>
    number s x ^^^ number s (x + 5) ^^^ number s (x + 10) ^^^ number s (x + 15) ^^^ number s (x + 20)
  let mixed := List.ofFn fun i : Fin 25 =>
    number s i ^^^ number parity ((i.val + 4) % 5) ^^^ turnNumber (number parity ((i.val + 1) % 5)) 1
  let moved := List.ofFn fun i : Fin 25 =>
    let source := (i.val % 5 + 3 * (i.val / 5)) % 5 + 5 * (i.val % 5)
    turnNumber (number mixed source) (number (numbers turns) source)
  let rows := List.ofFn fun i : Fin 25 =>
    let row := i.val / 5 * 5
    number moved i ^^^ ((number moved (row + (i.val % 5 + 1) % 5) ^^^ 0xFFFFFFFFFFFFFFFF) &&& number moved (row + (i.val % 5 + 2) % 5))
  rows.modify 0 (· ^^^ constant)

theorem toNat_word (s : Array UInt64) (i : Nat) : (word s i).toNat = number (numbers s) i := by
  rw [word, number, numbers, List.getElem?_map, Array.getElem?_toList]
  cases s[i]? <;> rfl

theorem toNat_turn (x : UInt64) {n : UInt64} (less : n.toNat < 64) : (turn x n).toNat = turnNumber x.toNat n.toNat := by
  rw [turn, turnNumber]
  by_cases none : n = 0
  · rw [if_pos none, if_pos (by rw [none]; rfl)]
  · have some : n.toNat ≠ 0 := fun same => none (UInt64.toNat_inj.mp same)
    have rest : (64 - n).toNat = 64 - n.toNat := UInt64.toNat_sub_of_le _ _ (by rw [UInt64.le_iff_toNat_le]; exact Nat.le_of_lt less)
    rw [if_neg none, if_neg some, UInt64.toNat_or, UInt64.toNat_shiftLeft, UInt64.toNat_shiftRight, rest,
      Nat.mod_eq_of_lt less, Nat.mod_eq_of_lt (by omega : 64 - n.toNat < 64)]

theorem numbers_ofFn {n : Nat} (f : Fin n → UInt64) : numbers (Array.ofFn f) = List.ofFn fun i => (f i).toNat := by
  rw [numbers, Array.toList_ofFn, List.map_ofFn]
  rfl

theorem turns_lt (i : Nat) : (word turns i).toNat < 64 := by
  by_cases inside : i < 25
  · revert i
    decide
  · rw [word, Array.getElem?_eq_none (by simpa [turns] using inside)]
    decide

theorem numbers_modify (s : Array UInt64) (constant : UInt64) :
    numbers (s.modify 0 (· ^^^ constant)) = (numbers s).modify 0 (· ^^^ constant.toNat) := by
  rw [numbers, numbers, Array.toList_modify]
  cases s.toList <;> rfl

theorem numbers_round (s : Array UInt64) (constant : UInt64) : numbers (round s constant) = roundNumbers (numbers s) constant.toNat := by
  rw [round, numbers_modify, roundNumbers]
  simp only [mixRows, turnAndMove, mixColumns, numbers_ofFn, UInt64.toNat_xor, UInt64.toNat_and, toNat_word, toNat_turn _ (turns_lt _),
    toNat_turn _ (by decide : (1 : UInt64).toNat < 64)]
  rfl

theorem numbers_permute (s : Array UInt64) :
    numbers (permute s) = (roundConstants.map UInt64.toNat).foldl roundNumbers (numbers s) := by
  rw [permute, List.foldl_map]
  generalize roundConstants = constants
  induction constants generalizing s with
  | nil => rfl
  | cons constant constants ih => rw [List.foldl_cons, List.foldl_cons, ih, numbers_round]

/-- A digest is not zero if its first byte is not. -/
theorem isZero_ofBytes {bytes : Bytes} (some : number (numbers (absorbAll (bytes.length / rate) (Array.replicate 25 0) bytes)) 0 % 256 ≠ 0) :
    isZero (ofBytes bytes) = false := by
  rw [← toNat_word] at some
  rw [ofBytes, isZero]
  have first : (word (absorbAll (bytes.length / rate) (Array.replicate 25 0) bytes) 0).toUInt8 ≠ 0 := fun same =>
    some ((UInt64.toNat_toUInt8 _).symm.trans (congrArg UInt8.toNat same))
  simp [List.range_succ_eq_map, bytesOf, first]

end LedgerScript.Digest
