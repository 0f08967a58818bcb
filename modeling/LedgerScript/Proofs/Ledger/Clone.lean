import LedgerScript.Proofs.Value.Trees

/-!
# Copies of accounts

A copy of an account has a copy of each slot, made one after the other on a heap that only grows.  So what is true of the copy of
a single value, and stays true while the heap grows, is true of all slots of the copy.

In particular a copy of an account shows what the account shows, and nothing that is done to the containers of the copy shows in
the account.
-/

namespace LedgerScript

/-- What copying establishes between a value and its copy, if the value is as it should be. -/
structure CopyLaw (good : Heap → Value → Prop) (copy : Heap → Heap → Value → Value → Prop) : Prop where
  mono : ∀ {h g v}, good h v → h.Extends g → good g v
  make : ∀ {h v}, good h v → ∃ u g, h.deepCopy v = .ok (u, g) ∧ h.Extends g ∧ copy h g v u
  front : ∀ {h h' g v u}, good h v → h.Extends h' → copy h' g v u → copy h g v u
  /-- The heap grows after the copy was made. -/
  back : ∀ {h g g' v u}, copy h g v u → g.Extends g' → copy h g' v u

section

variable {good : Heap → Value → Prop} {copy : Heap → Heap → Value → Value → Prop} (law : CopyLaw good copy)
include law

/-- The slots that are copied one after another. -/
theorem CopyLaw.slots {slots : List (Bytes × Value)} : ∀ {h : Heap} (before : List (Bytes × Value)),
    (∀ s ∈ slots, good h s.2) →
    ∃ copies g, slots.foldlM (fun (p : List (Bytes × Value) × Heap) s => do
        let (v, h) ← Heap.deepCopy p.2 s.2
        return (p.1 ++ [(s.1, v)], h)) (before, h) = (.ok (before ++ copies, g) : Except Crash _) ∧ h.Extends g ∧
      List.Forall₂ (fun s t => t.1 = s.1 ∧ copy h g s.2 t.2) slots copies := by
  induction slots with
  | nil => exact fun before _ => ⟨[], _, by simp; rfl, .refl _, .nil⟩
  | cons s rest ih =>
    intro h before each
    obtain ⟨v, g, made, grows, copied⟩ := law.make (each s (by simp))
    obtain ⟨copies, g', others, grows', later⟩ :=
      ih (before ++ [(s.1, v)]) fun s mem => law.mono (each s (by simp [mem])) grows
    refine ⟨(s.1, v) :: copies, g', ?_, grows.trans grows', .cons ⟨rfl, law.back copied grows'⟩ ?_⟩
    · rw [List.foldlM_cons, made]
      change List.foldlM _ (before ++ [(s.1, v)], g) rest = _
      rw [others]
      simp
    · have old := (List.forall₂_and_left rest copies).mpr ⟨fun t mem => each t (List.mem_cons_of_mem s mem), later⟩
      exact old.imp fun t u ⟨here, same, copied⟩ => ⟨same, law.front here grows copied⟩

/-- A copy of an account has a copy of each slot, and else it is the same. -/
theorem CopyLaw.clone {h : Heap} {a : Account} (each : ∀ s ∈ a.storage, good h s.2) :
    ∃ storage g, a.clone h = .ok ({ a with storage }, g) ∧ h.Extends g ∧
      List.Forall₂ (fun s t => t.1 = s.1 ∧ copy h g s.2 t.2) a.storage storage := by
  obtain ⟨storage, g, made, grows, copies⟩ := law.slots [] each
  refine ⟨storage, g, ?_, grows, copies⟩
  unfold Account.clone
  rw [made]
  rfl

end

/-! ## What the copy of an account shows -/

namespace Heap

variable {h h' g g' : Heap} {S : Ref → Prop} {u v : Value} {r : Ref}

/-- On a larger heap no more is reached. -/
theorem Closed.reaches_back (closed : g.Closed S) (inside : u.Within S) (grows : g.Extends g')
    (reached : g'.Reaches Cell.carried u r) : g.Reaches Cell.carried u r ∧ S r := by
  induction reached with
  | here mem => exact ⟨.here mem, inside _ mem⟩
  | inside _ cell part mem ih =>
    obtain ⟨c, old, new, within⟩ := closed.cell_eq grows ih.2
    cases new.symm.trans cell
    exact ⟨.inside ih.1 old part mem, Cell.within_carried within _ part _ mem⟩

theorem CopyOf.back (copy : h.CopyOf g v u) (grows : g.Extends g') : h.CopyOf g' v u where
  whole := copy.whole.mono grows
  tree d := (copy.whole.holds.treeAt_eq grows d).trans (copy.tree d)
  apart r reached := by
    obtain ⟨S, intact, inside⟩ := copy.whole
    exact copy.apart r (intact.closed.reaches_back inside grows reached).1

theorem CopyOf.front (whole : h.Whole v) (grows : h.Extends h') (copy : h'.CopyOf g v u) : h.CopyOf g v u where
  whole := copy.whole
  tree d := (copy.tree d).trans (whole.holds.treeAt_eq grows d)
  apart r reached := by
    by_cases old : r < h.cells.size
    · left
      rcases copy.apart r reached with ⟨c, there, shared⟩ | new
      · have here := Array.getElem?_eq_getElem old
        cases (grows r _ here).symm.trans there
        exact ⟨_, here, shared⟩
      · exact absurd (Nat.lt_of_lt_of_le old grows.size_le) (Nat.not_lt.mpr new)
    · exact .inr (Nat.le_of_not_lt old)

/-- Whatever is intact is copied. -/
theorem copyLaw : CopyLaw Heap.Whole Heap.CopyOf where
  mono := Whole.mono
  make := Whole.copyOf
  front := CopyOf.front
  back := CopyOf.back

/-! ## Changes to copies -/

/-- Between two heaps only containers change that are reached from some values through what containers carry. -/
def ChangesBelow (g g' : Heap) (us : List Value) : Prop :=
  ∀ r, g'.cells[r]? = g.cells[r]? ∨ (∃ u ∈ us, g.Reaches Cell.carried u r) ∧ ¬ g.Shares r

theorem Shares.mono (common : h.Shares r) (grows : h.Extends g) : g.Shares r := by
  obtain ⟨c, there, shared⟩ := common
  exact ⟨c, grows r c there, shared⟩

/-- What is done to the containers of copies is not done to those of before. -/
theorem ChangesBelow.extends {us : List Value} (changes : g.ChangesBelow g' us) (grows : h.Extends g)
    (apart : ∀ u ∈ us, ∀ r, g.Reaches Cell.carried u r → h.Shares r ∨ h.cells.size ≤ r) : h.Extends g' := by
  intro r c there
  rcases changes r with same | ⟨⟨u, mem, reached⟩, own⟩
  · rw [same]
    exact grows r c there
  · rcases apart u mem r reached with common | new
    · exact absurd (common.mono grows) own
    · exact absurd (Array.getElem?_eq_some_iff.mp there).1 (Nat.not_lt.mpr new)

end Heap

/-- Whatever is intact can be copied.  The copy has a new cell for each container that was copied, one for one, with the same
contents but for the references to what was copied as well, and with the same keys and members.  Nothing that is reached from the
copy through elements, values and fields is reached from the original, functions and classes apart, and so nothing that is done
there shows in the original.  The same is true of a copy of an account with all its slots. -/
theorem copies_are_apart {h : Heap} {v : Value} {a : Account} (whole : h.Whole v) (slots : ∀ s ∈ a.storage, h.Whole s.2) :
    (∃ u g copied, h.deepCopy v = .ok (u, g) ∧ h.Extends g ∧ Value.Renamed h copied v u ∧
      (copied.map (·.1)).Nodup ∧ (copied.map (·.2)).Nodup ∧
      (∀ p ∈ copied, ∃ c c', h.cells[p.1]? = some c ∧ g.cells[p.2]? = some c' ∧ Cell.Renamed h copied c c') ∧
      (∀ d, g.treeAt d u = h.treeAt d v) ∧
      (∀ r, g.Reaches Cell.carried u r → h.Shares r ∨ ¬ h.Reaches Cell.parts v r) ∧
      ∀ g', g.ChangesBelow g' [u] → ∀ d, g'.treeAt d v = h.treeAt d v) ∧
    ∃ storage g, a.clone h = .ok ({ a with storage }, g) ∧ h.Extends g ∧
      List.Forall₂ (fun s t => t.1 = s.1 ∧ ∀ d, g.treeAt d t.2 = h.treeAt d s.2) a.storage storage ∧
      ∀ g', g.ChangesBelow g' (storage.map (·.2)) → ∀ s ∈ a.storage, ∀ d, g'.treeAt d s.2 = h.treeAt d s.2 := by
  constructor
  · have holds := whole.holds
    obtain ⟨S, intact, inside⟩ := whole
    obtain ⟨u, s, made, copied, renamed⟩ := intact.deepCopy inside
    have copy := copied.copyOf intact inside renamed
    refine ⟨u, s.heap, s.copied, made, copied.grows, renamed, copied.once, copied.apart,
      fun p mem => copied.filled p mem nofun, copy.tree, fun r reached => ?_, fun g' changes d => ?_⟩
    · refine (copy.apart r reached).imp_right fun new before => ?_
      obtain ⟨c, there, -⟩ := intact.closed r (intact.closed.of_reaches inside before)
      exact absurd (Array.getElem?_eq_some_iff.mp there).1 (Nat.not_lt.mpr new)
    · refine holds.treeAt_eq (changes.extends copied.grows fun u' mem => ?_) d
      rw [List.mem_singleton.mp mem]
      exact copy.apart
  · obtain ⟨storage, g, made, grows, copies⟩ := Heap.copyLaw.clone slots
    refine ⟨storage, g, made, grows, copies.imp fun s t same => ⟨same.1, same.2.tree⟩, fun g' changes s mem d => ?_⟩
    refine (slots s mem).holds.treeAt_eq (changes.extends grows fun u hu => ?_) d
    obtain ⟨t, ht, rfl⟩ := List.mem_map.mp hu
    obtain ⟨s', -, same⟩ := forall₂_exists copies.flip ht
    exact same.2.apart

/-- A map that is its own value and has an array for its key, as the only slot of an account.  Whatever is done below a copy of
the map, or of the account, the map stays as it is. -/
theorem copies_are_apart_cycle :
    let table : MapTable := { keys := #[.ref .array 0], vals := #[.ref .map 1], index := [(.ref .array 0, 0)] }
    let h : Heap := { cells := #[.array #[.int 1], .map table] }
    let v : Value := .ref .map 1
    let a : Account := { address := [], storage := [(utf8 "notes", v)] }
    h.Whole v ∧ (∃ u g, h.deepCopy v = .ok (u, g) ∧ ∀ g', g.ChangesBelow g' [u] → ∀ d, g'.treeAt d v = h.treeAt d v) ∧
      ∃ storage g, a.clone h = .ok ({ a with storage }, g) ∧
        ∀ g', g.ChangesBelow g' (storage.map (·.2)) → ∀ d, g'.treeAt d v = h.treeAt d v := by
  intro table h v a
  have cells {r : Nat} (here : r < 2) : r = 0 ∨ r = 1 := by omega
  have intact : h.Intact (· < 2) := by
    refine ⟨fun r here => ?_, fun r c here there => ?_⟩
    · rcases cells here with rfl | rfl
      · exact ⟨_, rfl, by decide⟩
      · exact ⟨_, rfl, by decide⟩
    · rcases cells here with rfl | rfl
      · cases there
        trivial
      · cases there
        refine ⟨⟨fun k mem => ?_, fun k mem => ?_, List.pairwise_singleton _ _⟩, rfl⟩
        · rw [List.mem_singleton.mp mem]
          rfl
        · rw [List.mem_singleton.mp mem]
          rfl
  have inside : v.Within (· < 2) := fun r mem => List.mem_singleton.mp mem ▸ Nat.one_lt_two
  have whole : h.Whole v := ⟨_, intact, inside⟩
  have slots : ∀ s ∈ a.storage, h.Whole s.2 := fun s mem => List.mem_singleton.mp mem ▸ whole
  obtain ⟨⟨u, g, -, made, -, -, -, -, -, -, -, untouched⟩, storage, g', cloned, -, -, stays⟩ :=
    copies_are_apart (a := a) whole slots
  exact ⟨whole, ⟨u, g, made, untouched⟩, storage, g', cloned, fun g'' changes => stays g'' changes _ List.mem_cons_self⟩

end LedgerScript
