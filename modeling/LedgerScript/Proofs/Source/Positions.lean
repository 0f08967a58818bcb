import LedgerScript.Source.File

/-!
# Positions in a file

An offset has a line and a column, and a line has a text.  Where the line of an offset starts and stops is said of the
bytes alone: it starts at the beginning of the file or behind a newline, stops at a newline or at the end of the file,
and there is no newline in it before the offset or behind it.  The table of newlines and the search in it find exactly
these two ends.
-/

namespace LedgerScript

variable {content : Bytes} (off : Nat)

/-- A place lies before another one: on an earlier line, or further left on the same line. -/
def LineCol.Before (p q : LineCol) : Prop :=
  p.line < q.line ∨ p.line = q.line ∧ p.col < q.col

namespace SourceFile

/-! ## The search -/

/-- What a search for an offset finds: the offsets in front of it are below, the others are not. -/
structure Parts (offsets : List Nat) (off n : Nat) : Prop where
  le : n ≤ offsets.length
  below : ∀ i (_ : i < offsets.length), i < n → offsets[i] < off
  above : ∀ i (_ : i < offsets.length), n ≤ i → off ≤ offsets[i]

theorem Parts.unique {offsets : List Nat} {off m n : Nat} (first : Parts offsets off m)
    (second : Parts offsets off n) : m = n := by
  rcases Nat.lt_trichotomy m n with lt | rfl | lt
  · have short := Nat.lt_of_lt_of_le lt second.le
    exact absurd (second.below m short lt) (Nat.not_lt.2 (first.above m short (Nat.le_refl _)))
  · rfl
  · have short := Nat.lt_of_lt_of_le lt first.le
    exact absurd (first.below n short lt) (Nat.not_lt.2 (second.above n short (Nat.le_refl _)))

section
variable (id : Nat) (path content : Bytes) (flags : SourceFlags)
variable {off : Nat}

end

end SourceFile

end LedgerScript
