import Mathlib.Algebra.Order.Floor.Ring
import Mathlib.Data.Rat.Floor
import LedgerScript.Eval.Builtin
import LedgerScript.Proofs.Value.Arithmetic

/-!
# Ranges

A range has as many numbers as steps of its length fit between its bounds, the last one perhaps in part, and they lie as far
apart as the step is long.  The counter is a word of 64 bits.  All that it meets on its way lies between the bounds, but it
arrives beyond the second one, and there it may have left the word: then it goes on from the other end, and the range has too
many numbers or no end.  Each number that was met becomes one of the kind of the first bound, which may be narrower than the
second.
-/

namespace LedgerScript

namespace Eval

variable {lo hi step : Int}

def rangeSize (lo hi step : Int) : Nat :=
  ⌈((hi - lo : Int) : ℚ) / step⌉.toNat

/-! ## The counter -/

/-- A counter is on its way for as many steps as the range has numbers. -/
theorem isUnderway_iff (moves : step ≠ 0) (n : Nat) :
    isUnderway hi step (lo + n * step) = true ↔ n < rangeSize lo hi step := by
  have steps : n < rangeSize lo hi step ↔ (n : ℚ) < ((hi - lo : Int) : ℚ) / step := by
    rw [rangeSize, Int.lt_toNat, Int.lt_ceil]
    rfl
  rw [steps, isUnderway]
  split
  · next up =>
    have up : (0 : ℚ) < step := Int.cast_pos.mpr up
    rw [lt_div_iff₀ up, decide_eq_true_eq]
    norm_cast
    omega
  · next down =>
    have down : (step : ℚ) < 0 := Int.cast_lt_zero.mpr (by omega)
    rw [lt_div_iff_of_neg down, decide_eq_true_eq]
    norm_cast
    omega

theorem not_isUnderway_rangeSize (moves : step ≠ 0) : isUnderway hi step (lo + rangeSize lo hi step * step) = false := by
  rw [← Bool.not_eq_true, isUnderway_iff moves]
  exact Nat.lt_irrefl _

/-- What a counter meets lies between the bounds. -/
theorem inRange_of_isUnderway {n : Nat} (low : WholeKind.long.InRange lo) (high : WholeKind.long.InRange hi)
    (underway : isUnderway hi step (lo + n * step) = true) : WholeKind.long.InRange (lo + n * step) := by
  unfold WholeKind.InRange at *
  rw [isUnderway] at underway
  split at underway
  · next up =>
    have further : 0 ≤ n * step := Int.mul_nonneg (Int.natCast_nonneg n) (Int.le_of_lt up)
    have below := of_decide_eq_true underway
    omega
  · next down =>
    have further : n * step ≤ 0 := Int.mul_nonpos_of_nonneg_of_nonpos (Int.natCast_nonneg n) (Int.not_lt.mp down)
    have above := of_decide_eq_true underway
    omega

/-- A range between two words has no more numbers than there are words. -/
theorem rangeSize_le (moves : step ≠ 0) (low : WholeKind.long.InRange lo) (high : WholeKind.long.InRange hi) :
    rangeSize lo hi step ≤ 0x10000000000000000 := by
  by_contra more
  have underway := (isUnderway_iff moves _).mpr (Nat.lt_of_not_le more)
  have far := inRange_of_isUnderway low high underway
  unfold WholeKind.InRange at far low
  simp only [WholeKind.bits] at far low
  omega

/-- A counter that has met the numbers of a range up to some place goes on from there. -/
theorem count_advance (moves : step ≠ 0) (low : WholeKind.long.InRange lo) (high : WholeKind.long.InRange hi) (fuel n : Nat)
    (le : n ≤ rangeSize lo hi step) :
    count hi step (fuel + n) lo #[] =
      count hi step fuel (WholeKind.long.wrap (lo + n * step)) ((List.range n).map fun i : Nat => lo + i * step).toArray := by
  induction n generalizing fuel with
  | zero => simp [WholeKind.wrap_of_inRange low]
  | succ n ih =>
    have underway := (isUnderway_iff moves n).mpr le
    have inside := inRange_of_isUnderway low high underway
    have next : lo + n * step + step = lo + (n + 1 : Nat) * step := by push_cast; ring
    rw [← Nat.add_assoc, Nat.add_right_comm, ih (fuel + 1) (Nat.le_of_succ_le le), WholeKind.wrap_of_inRange inside, count,
      if_pos underway, next, List.range_succ, List.map_append]
    simp

theorem size_le_of_count {fuel : Nat} {i : Int} {met ns : Array Int} (counted : count hi step fuel i met = some ns) :
    met.size ≤ ns.size := by
  induction fuel generalizing i met with
  | zero => cases counted
  | succ fuel ih =>
    rw [count] at counted
    split at counted
    · have more := ih counted
      rw [Array.size_push] at more
      exact Nat.le_of_succ_le more
    · cases counted
      exact Nat.le_refl _

/-- A counter that has left its word is on its way again. -/
theorem isUnderway_of_overflow (moves : step ≠ 0) (low : WholeKind.long.InRange lo) (high : WholeKind.long.InRange hi)
    (length : WholeKind.long.InRange step) (overflow : ¬WholeKind.long.InRange (lo + rangeSize lo hi step * step)) :
    isUnderway hi step (WholeKind.long.wrap (lo + rangeSize lo hi step * step)) = true := by
  -- an empty range does not leave its word, so there is a number before the counter does
  obtain ⟨n, size⟩ : ∃ n, rangeSize lo hi step = n + 1 := by
    refine Nat.exists_eq_succ_of_ne_zero fun none => overflow ?_
    rw [none]
    simpa using low
  have last : isUnderway hi step (lo + n * step) = true := (isUnderway_iff moves n).mpr (size ▸ Nat.lt_succ_self n)
  have inside := inRange_of_isUnderway low high last
  have next : lo + rangeSize lo hi step * step = lo + n * step + step := by rw [size]; push_cast; ring
  rw [next] at overflow ⊢
  obtain ⟨fits, congruent⟩ := WholeKind.reduced_wrap .long (lo + n * step + step)
  -- what is left of the counter differs from it by some turns of the word, and the last step was shorter than one turn
  obtain ⟨turns, turned⟩ := congruent.dvd
  unfold WholeKind.InRange at *
  rw [isUnderway] at last ⊢
  simp only [WholeKind.bits] at *
  split
  · next up =>
    rw [if_pos up] at last
    have below := of_decide_eq_true last
    exact decide_eq_true (by omega)
  · next down =>
    rw [if_neg down] at last
    have above := of_decide_eq_true last
    exact decide_eq_true (by omega)

/-- A range is exact if the counter arrives within its word, and otherwise it has too many numbers or no end. -/
theorem rangeOf_spec (moves : step ≠ 0) (low : WholeKind.long.InRange lo) (high : WholeKind.long.InRange hi)
    (length : WholeKind.long.InRange step) :
    if WholeKind.long.InRange (lo + rangeSize lo hi step * step) then
      rangeOf lo hi step = some ((List.range (rangeSize lo hi step)).map fun i : Nat => lo + i * step).toArray
    else ∀ ns ∈ rangeOf lo hi step, rangeSize lo hi step < ns.size := by
  obtain ⟨fuel, enough⟩ := Nat.exists_eq_add_of_le (rangeSize_le moves low high)
  have advanced := count_advance moves low high (fuel + 1) _ (Nat.le_refl (rangeSize lo hi step))
  have start : rangeOf lo hi step = count hi step (fuel + 1 + rangeSize lo hi step) lo #[] := by
    rw [rangeOf, enough, Nat.add_comm (rangeSize lo hi step), Nat.add_right_comm]
  rw [start, advanced, count]
  split
  · next room =>
    rw [WholeKind.wrap_of_inRange room, not_isUnderway_rangeSize moves]
    rfl
  · next overflow =>
    rw [if_pos (isUnderway_of_overflow moves low high length overflow)]
    intro ns counted
    have more := size_le_of_count counted
    rw [Array.size_push, List.size_toArray, List.length_map, List.length_range] at more
    exact more

/-- The second step is the last one, and it leaves the word. -/
example : rangeSize 0 9223372036854775800 5534023222112865484 = 2 ∧
    rangeOf 0 9223372036854775800 5534023222112865484 =
      some #[0, 5534023222112865484, -7378697629483820648, -1844674407370955164, 3689348814741910320] := by
  decide +kernel

/-! ## The built-in function -/

variable {k : WholeKind} {args : List Value}

/-- Arguments that are bounds of a range, and the length of its steps. -/
inductive Bounds : List Value → WholeKind → Int → Int → Int → Prop where
  | below {k : WholeKind} {hi : Int} (integral : k ≠ .char) (high : k.InRange hi) : Bounds [.whole k hi] k 0 hi 1
  | between {k l : WholeKind} {lo hi : Int} (integral : k ≠ .char ∧ l ≠ .char) (low : k.InRange lo) (high : l.InRange hi) :
    Bounds [.whole k lo, .whole l hi] k lo hi 1
  | inSteps {k l m : WholeKind} {lo hi step : Int} (integral : k ≠ .char ∧ l ≠ .char ∧ m ≠ .char) (low : k.InRange lo)
    (high : l.InRange hi) (length : m.InRange step) : Bounds [.whole k lo, .whole l hi, .whole m step] k lo hi step

theorem Bounds.words (bounds : Bounds args k lo hi step) :
    WholeKind.long.InRange lo ∧ WholeKind.long.InRange hi ∧ WholeKind.long.InRange step := by
  cases bounds with
  | below _ high => exact ⟨by decide, high.of_bits k.bits_le, by decide⟩
  | between _ low high => exact ⟨low.of_bits k.bits_le, high.of_bits (WholeKind.bits_le _), by decide⟩
  | inSteps _ low high length =>
    exact ⟨low.of_bits k.bits_le, high.of_bits (WholeKind.bits_le _), length.of_bits (WholeKind.bits_le _)⟩

theorem wholeArg_whole {n : Int} {i : Nat} (integral : k ≠ .char) (here : args[i]? = some (.whole k n)) (span : Span) :
    wholeArg args i span = pure n := by
  have whole : (Value.whole k n).kind.isIntegral = true := by
    cases k <;> first | rfl | exact absurd rfl integral
  rw [wholeArg, arg, here, Option.getD_some]
  exact if_pos whole

/-- Steps that only give something, one after another. -/
theorem mapM_pure {α β : Type} {f : α → Eval β} {g : α → β} {items : List α} (each : ∀ a ∈ items, f a = pure (g a)) :
    items.mapM f = pure (items.map g) := by
  -- the results so far are kept in reverse
  have loop (rest : List α) (done : List β) (each : ∀ a ∈ rest, f a = pure (g a)) :
      List.mapM.loop f rest done = pure (done.reverse ++ rest.map g) := by
    induction rest generalizing done with
    | nil => simp [List.mapM.loop]
    | cons a rest ih =>
      obtain ⟨first, others⟩ := List.forall_mem_cons.mp each
      have later := ih (g a :: done) others
      rw [List.reverse_cons, List.append_assoc, List.singleton_append] at later
      rw [List.mapM.loop, first]
      exact later
  exact loop items [] each

theorem wholeArgs_whole (numbers : List (WholeKind × Int)) (integral : ∀ p ∈ numbers, p.1 ≠ .char) (span : Span) :
    wholeArgs (numbers.map fun p => .whole p.1 p.2) span = pure (numbers.map (·.2)) := by
  rw [wholeArgs, mapM_pure (g := fun i => (numbers[i]?.map (·.2)).getD 0) fun i mem => ?_]
  · congr 1
    refine List.ext_getElem (by simp) fun i less _ => ?_
    simp only [List.length_map, List.length_range] at less
    simp [less]
  · have less : i < numbers.length := by simpa using mem
    rw [List.getElem?_eq_getElem less]
    refine wholeArg_whole (integral _ (List.getElem_mem less)) ?_ span
    rw [List.getElem?_map, List.getElem?_eq_getElem less]
    rfl

theorem callBuiltin_range (bounds : Bounds args k lo hi step) (span : Span) :
    callBuiltin .range args span = newRange (.whole k 0) lo hi step span := by
  cases bounds with
  | @below k hi integral high =>
    have numbers := wholeArgs_whole [(k, hi)] (by simpa using integral) span
    rw [callBuiltin, show wholeArgs [.whole k hi] span = pure [hi] from numbers]
    rfl
  | @between k l lo hi integral low high =>
    have numbers := wholeArgs_whole [(k, lo), (l, hi)] (by simpa using integral) span
    rw [callBuiltin, show wholeArgs [.whole k lo, .whole l hi] span = pure [lo, hi] from numbers]
    rfl
  | @inSteps k l m lo hi step integral low high length =>
    have numbers := wholeArgs_whole [(k, lo), (l, hi), (m, step)] (by simpa using integral) span
    rw [callBuiltin, show wholeArgs [.whole k lo, .whole l hi, .whole m step] span = pure [lo, hi, step] from numbers]
    rfl

theorem map_ofInt {ns : List Int} (held : ∀ n ∈ ns, k.InRange n) : ns.map (Value.ofInt k) = ns.map (.whole k) :=
  List.map_congr_left fun n mem => by rw [Value.ofInt, WholeKind.wrap_of_inRange (held n mem)]

/-- A range is exact if its counter arrives within its word and the kind of the first bound holds all that it meets.  A range
whose counter leaves the word has too many numbers or no end. -/
theorem ranges_are_exact (bounds : Bounds args k lo hi step) (moves : step ≠ 0) (span : Span) :
    (WholeKind.long.InRange (lo + rangeSize lo hi step * step) → (∀ i < rangeSize lo hi step, k.InRange (lo + i * step)) →
      callBuiltin .range args span = newArray ((List.range (rangeSize lo hi step)).map fun i : Nat => .whole k (lo + i * step))) ∧
    (¬WholeKind.long.InRange (lo + rangeSize lo hi step * step) →
      callBuiltin .range args span = crash .noRoom ∨
        ∃ items, rangeSize lo hi step < items.length ∧ callBuiltin .range args span = newArray items) := by
  obtain ⟨low, high, length⟩ := bounds.words
  have counted := rangeOf_spec moves low high length
  have called := callBuiltin_range bounds span
  rw [newRange, if_neg moves] at called
  constructor
  · intro room held
    rw [if_pos room] at counted
    rw [called, counted]
    dsimp only
    rw [map_ofInt (by simpa using held), List.map_map]
    rfl
  · intro overflow
    rw [if_neg overflow] at counted
    cases met : rangeOf lo hi step with
    | none =>
      rw [met] at called
      exact .inl called
    | some ns =>
      rw [met] at called
      exact .inr ⟨_, by simpa using counted ns met, called⟩

/-- A range downwards whose last step goes beyond its second bound, and one whose counter leaves its word. -/
theorem ranges_are_exact_downward :
    callBuiltin .range [.whole .int 10, .whole .short 1, .whole .long (-4)] default =
        newArray [.whole .int 10, .whole .int 6, .whole .int 2] ∧
      (callBuiltin .range [.whole .long 0, .whole .long 9223372036854775800, .whole .long 5534023222112865484] default =
          crash .noRoom ∨
        ∃ items, 2 < items.length ∧
          callBuiltin .range [.whole .long 0, .whole .long 9223372036854775800, .whole .long 5534023222112865484] default =
            newArray items) := by
  constructor
  · have bounds : Bounds [.whole .int 10, .whole .short 1, .whole .long (-4)] .int 10 1 (-4) :=
      .inSteps (by decide) (by decide) (by decide) (by decide)
    have size : rangeSize 10 1 (-4) = 3 := by decide +kernel
    have called := (ranges_are_exact bounds (by decide) default).1
    rw [size] at called
    exact called (by decide) (by decide)
  · have bounds : Bounds [.whole .long 0, .whole .long 9223372036854775800, .whole .long 5534023222112865484] .long 0
        9223372036854775800 5534023222112865484 := .inSteps (by decide) (by decide) (by decide) (by decide)
    have size : rangeSize 0 9223372036854775800 5534023222112865484 = 2 := by decide +kernel
    have overflow := (ranges_are_exact bounds (by decide) default).2
    rw [size] at overflow
    exact overflow (by decide)

end Eval

end LedgerScript
