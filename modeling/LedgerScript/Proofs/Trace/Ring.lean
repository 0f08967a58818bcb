import LedgerScript.Trace.Sink

/-!
# A ring keeps the latest events

An event takes a new slot while there is one and then the slot of the oldest event.  Both come to the same: the event
that came as number `i`, counted from zero, stands in slot `i % capacity` as long as fewer than `capacity` events came
behind it.  What is read from the slots, the oldest first, is then the end of the list of everything that came.
-/

namespace LedgerScript.TraceRing

variable {r : TraceRing} {took : List TraceRecord}

/-- An event comes to a ring after some numbers were given to events elsewhere. -/
structure Arrival where
  elsewhere : Nat := 0
  record : TraceRecord

/-- A ring takes or leaves what comes, one after the other, when the last number that was given is known. -/
def receive (r : TraceRing) (last : Nat) : List Arrival → TraceRing
  | [] => r
  | a :: rest =>
    let (r, last) := r.emit (last + a.elsewhere) a.record
    r.receive last rest

def unnumbered (e : TraceRecord) : TraceRecord :=
  { e with number := 0 }

/-- The slots hold the end of the list of everything that the ring took. -/
structure Holds (r : TraceRing) (took : List TraceRecord) : Prop where
  room : 0 < r.capacity
  count : r.written = took.length
  size : r.slots.size = min took.length r.capacity
  slot : ∀ i < took.length, took.length ≤ i + r.capacity → r.slots[i % r.capacity]? = took[i]?

/-- Of as many numbers in a row as the divisor no two leave the same remainder. -/
theorem mod_ne_mod {i n capacity : Nat} (lt : i < n) (near : n < i + capacity) : i % capacity ≠ n % capacity := by
  intro same
  have none := Nat.sub_mod_eq_zero_of_mod_eq same.symm
  rw [Nat.mod_eq_of_lt (by omega)] at none
  omega

/-- **One event**: it stands in its slot afterwards, and those that are still to be kept stand where they stood. -/
theorem Holds.store (holds : r.Holds took) (e : TraceRecord) : (r.store e).Holds (took ++ [e]) := by
  have room := holds.room
  have size := holds.size
  refine ⟨holds.room, by simp [holds.count], ?_, fun i short near => ?_⟩
  · simp only [TraceRing.store, List.length_append, List.length_singleton]
    split <;> simp only [Array.size_push, Array.size_setIfInBounds] <;> omega
  · rw [List.length_append, List.length_singleton] at short near
    simp only [TraceRing.store] at near ⊢
    obtain older | rfl := Nat.lt_succ_iff_lt_or_eq.1 short
    · rw [List.getElem?_append_left older, ← holds.slot i older (by omega)]
      split
      · -- there is a new slot behind all the others
        have : i % r.capacity < r.slots.size := by rw [Nat.mod_eq_of_lt (by omega)]; omega
        rw [Array.getElem?_push_lt this, Array.getElem?_eq_getElem this]
      · rw [holds.count, Array.getElem?_setIfInBounds_ne (mod_ne_mod older (by omega)).symm]
    · rw [List.getElem?_concat_length]
      split
      · have new : took.length % r.capacity = r.slots.size := by rw [Nat.mod_eq_of_lt (by omega)]; omega
        rw [new, Array.getElem?_push_size]
      · have : took.length % r.capacity < r.slots.size := by have := Nat.mod_lt took.length room; omega
        rw [holds.count, Array.getElem?_setIfInBounds_self_of_lt this]

/-- The events among those that come that a ring admits. -/
def admitted (r : TraceRing) (arrivals : List Arrival) : List TraceRecord :=
  (arrivals.map (·.record)).filter fun e => r.admits e.event

/-- **One run**: the ring took what it admits, and the numbers go up. -/
theorem Holds.receive (holds : r.Holds took) (last : Nat)
    (ascend : (took.map (·.number)).Pairwise (· < ·)) (past : ∀ e ∈ took, e.number ≤ last) (arrivals : List Arrival) :
    ∃ new, (r.receive last arrivals).Holds (took ++ new) ∧ (r.receive last arrivals).capacity = r.capacity ∧
      new.map unnumbered = (r.admitted arrivals).map unnumbered ∧
      ((took ++ new).map (·.number)).Pairwise (· < ·) := by
  induction arrivals generalizing r took last with
  | nil =>
    rw [← List.append_nil took] at holds ascend
    exact ⟨[], holds, rfl, rfl, ascend⟩
  | cons a rest ih =>
    simp only [TraceRing.receive, emit]
    by_cases admits : r.admits a.record.event
    · let e := { a.record with number := last + a.elsewhere + 1 }
      have ascend' : ((took ++ [e]).map (·.number)).Pairwise (· < ·) := by
        rw [List.map_append, List.pairwise_append]
        refine ⟨ascend, List.pairwise_singleton .., fun n before m here => ?_⟩
        obtain ⟨old, mem, rfl⟩ := List.mem_map.1 before
        rw [List.mem_singleton.1 here]
        exact Nat.lt_succ_of_le (Nat.le_add_right_of_le (past old mem))
      have past' : ∀ old ∈ took ++ [e], old.number ≤ last + a.elsewhere + 1 := fun old mem => by
        obtain before | here := List.mem_append.1 mem
        · exact Nat.le_succ_of_le (Nat.le_add_right_of_le (past old before))
        · exact List.mem_singleton.1 here ▸ Nat.le_refl _
      obtain ⟨new, holds', same, taken, up⟩ := ih (holds.store e) _ ascend' past'
      rw [List.append_assoc] at holds' up
      rw [if_pos admits]
      refine ⟨e :: new, holds', same, ?_, up⟩
      simp only [admitted, List.map_cons, List.filter_cons, admits, if_true, admits_store] at taken ⊢
      rw [taken]
      rfl
    · rw [if_neg admits]
      have past' : ∀ old ∈ took, old.number ≤ last + a.elsewhere := fun old mem => Nat.le_add_right_of_le (past old mem)
      obtain ⟨new, holds', same, taken, up⟩ := ih holds _ ascend past'
      refine ⟨new, holds', same, ?_, up⟩
      simpa only [admitted, List.map_cons, List.filter_cons, admits, Bool.false_eq_true, if_false] using taken

end LedgerScript.TraceRing
