import Mathlib.Data.Set.Finite.Lattice
import Mathlib.Logic.Relation
import Mathlib.Order.WellFounded
import LedgerScript.Proofs.Ledger.Commit
import LedgerScript.Proofs.Value.Tables

/-!
# Which values can be stored

A value is stored with its parts, and the parts with theirs, by plain recursion: nothing is kept of the references that have
been followed, and nothing bounds the depth but the room for the recursion.  So a value is stored if and only if its parts
do not go round in a circle and what is stored as text can be shown.  A heap has only so many cells, and a value that goes
down for ever would come back to one of them, so there is no other way to go on without end.

A commit stores the transactions of the open block in order to hash them.  It breaks down when one of their arguments
cannot be stored, and in no other case.
-/

namespace LedgerScript

open Relation (ReflTransGen TransGen)

/-- The value is stored as the string that it is shown with. -/
def Value.isShown : Value → Bool
  | .null | .bool _ | .whole .. | .real .. | .text .. | .tuple _ => false
  | .ref .array _ | .ref .set _ | .ref .map _ => false
  | _ => true

namespace Heap

def partsOf (h : Heap) : Value → List Value
  | .tuple xs => xs
  | .ref .array r => (h.items r).toList
  | .ref .set r => (h.setTable r).order
  | .ref .map r => (h.mapTable r).parts
  | _ => []

def PartOf (h : Heap) (u v : Value) : Prop :=
  u ∈ h.partsOf v

/-- A value is stored if there is room for so many values inside each other. -/
def Packs (h : Heap) (d : Nat) (v : Value) : Prop :=
  ∃ bytes, h.packAt d v = .ok bytes

def Showable (h : Heap) (v : Value) : Prop :=
  v.isShown = true → ∃ text, h.plain v = .ok text

/-- The parts of a value do not go round in a circle. -/
def Straight (h : Heap) (v : Value) : Prop :=
  ∀ u, ReflTransGen h.PartOf u v → ¬TransGen h.PartOf u u

variable {h : Heap} {u v : Value} {d : Nat}

/-! ## One level -/

theorem exists_mapM_ok_iff {ε α β : Type} {f : α → Except ε β} {items : List α} :
    (∃ bs, items.mapM f = .ok bs) ↔ ∀ a ∈ items, ∃ b, f a = .ok b := by
  refine ⟨?_, exists_mapM_ok⟩
  rintro ⟨bs, made⟩
  rw [mapM_eq_ok_iff] at made
  induction made with
  | nil => exact List.forall_mem_nil _
  | cons first others ih => exact List.forall_mem_cons.mpr ⟨⟨_, first⟩, ih⟩

/-- A value is stored with its parts. -/
theorem packs_succ : h.Packs (d + 1) v ↔ (∀ u ∈ h.partsOf v, h.Packs d u) ∧ h.Showable v := by
  have leaf {bytes : Bytes} (packed : h.packAt (d + 1) v = .ok bytes) (none : h.partsOf v = []) (other : v.isShown = false) :
      h.Packs (d + 1) v ↔ (∀ u ∈ h.partsOf v, h.Packs d u) ∧ h.Showable v := by
    refine ⟨fun _ => ⟨?_, ?_⟩, fun _ => ⟨bytes, packed⟩⟩
    · rw [none]
      exact List.forall_mem_nil _
    · intro shown
      rw [other] at shown
      cases shown
  have container {k : Kind} (packed : h.packAt (d + 1) v =
      (do return packTagged k (Pack.list (← (h.partsOf v).mapM (h.packAt d))))) (other : v.isShown = false) :
      h.Packs (d + 1) v ↔ (∀ u ∈ h.partsOf v, h.Packs d u) ∧ h.Showable v := by
    have each : h.Packs (d + 1) v ↔ ∃ bs, (h.partsOf v).mapM (h.packAt d) = .ok bs := by
      rw [Packs, packed]
      cases (h.partsOf v).mapM (h.packAt d) with
      | error c => exact ⟨nofun, nofun⟩
      | ok bs => exact ⟨fun _ => ⟨bs, rfl⟩, fun _ => ⟨_, rfl⟩⟩
    rw [each, exists_mapM_ok_iff]
    refine ⟨fun parts => ⟨parts, fun shown => ?_⟩, And.left⟩
    rw [other] at shown
    cases shown
  have text (packed : h.packAt (d + 1) v = (do return packTagged (.text .string) (Pack.text (← h.plain v))))
      (none : h.partsOf v = []) (shown : v.isShown = true) :
      h.Packs (d + 1) v ↔ (∀ u ∈ h.partsOf v, h.Packs d u) ∧ h.Showable v := by
    rw [none, Packs, packed, Showable]
    cases h.plain v with
    | error c => exact ⟨nofun, fun ⟨_, shows⟩ => nomatch shows shown⟩
    | ok text => exact ⟨fun _ => ⟨List.forall_mem_nil _, fun _ => ⟨text, rfl⟩⟩, fun _ => ⟨_, rfl⟩⟩
  cases v with
  | null | bool | whole | real | text => exact leaf rfl rfl rfl
  | tuple xs => exact container rfl rfl
  | task | handle => exact text rfl rfl rfl
  | ref k r =>
    cases k with
    | array | set | map => exact container rfl rfl
    | object | classRef | function => exact text rfl rfl rfl

/-- More room does no harm. -/
theorem Packs.succ (packs : h.Packs d v) : h.Packs (d + 1) v := by
  induction d generalizing v with
  | zero => exact absurd packs nofun
  | succ d ih =>
    rw [packs_succ] at packs ⊢
    exact ⟨fun u mem => ih (packs.1 u mem), packs.2⟩

theorem Packs.mono {d' : Nat} (packs : h.Packs d v) (le : d ≤ d') : h.Packs d' v := by
  induction le with
  | refl => exact packs
  | step _ ih => exact ih.succ

/-! ## All the way down -/

/-- What is stored comes to an end, and is shown where it is text. -/
theorem Packs.ends (packs : h.Packs d v) : Acc h.PartOf v ∧ ∀ u, ReflTransGen h.PartOf u v → h.Showable u := by
  induction d generalizing v with
  | zero => exact absurd packs nofun
  | succ d ih =>
    rw [packs_succ] at packs
    obtain ⟨parts, shows⟩ := packs
    refine ⟨⟨v, fun u part => (ih (parts u part)).1⟩, fun u within => ?_⟩
    rcases within.cases_tail with rfl | ⟨w, within, part⟩
    · exact shows
    · exact (ih (parts w part)).2 u within

/-- A value stands somewhere inside the tuples that another one is made of. -/
def Inside : Value → Value → Prop :=
  ReflTransGen fun u v => ∃ xs, v = .tuple xs ∧ u ∈ xs

theorem finite_inside_of_ne (plain : ∀ xs, v ≠ .tuple xs) : {u | Inside u v}.Finite := by
  refine (Set.finite_singleton v).subset fun u inside => ?_
  rcases inside.cases_tail with same | ⟨x, -, xs, same, -⟩
  · exact same.symm
  · exact absurd same (plain xs)

theorem finite_inside : ∀ v : Value, {u | Inside u v}.Finite
  | .tuple xs => by
    have each : ∀ x ∈ xs, {u | Inside u x}.Finite := fun x mem => finite_inside x
    refine ((Set.finite_singleton (Value.tuple xs)).union (xs.finite_toSet.biUnion each)).subset ?_
    intro u inside
    rcases inside.cases_tail with same | ⟨x, inside, ys, same, mem⟩
    · exact .inl same.symm
    · cases same
      exact .inr (Set.mem_biUnion mem inside)
  | .null | .bool _ | .whole .. | .real .. | .text .. | .ref .. | .task .. | .handle .. => finite_inside_of_ne nofun

/-- The parts of everything that a cell can be. -/
def partsAt (h : Heap) (r : Ref) : List Value :=
  h.partsOf (.ref .array r) ++ h.partsOf (.ref .set r) ++ h.partsOf (.ref .map r)

theorem partsAt_outside {r : Ref} (outside : h.cells[r]? = none) : h.partsAt r = [] := by
  simp [partsAt, partsOf, items, setTable, mapTable, outside, MapTable.parts]

/-- What is stored of a value stands inside the value itself, or inside a part of a cell. -/
theorem inside_of_within (within : ReflTransGen h.PartOf u v) :
    ∃ w ∈ v :: (List.range h.cells.size).flatMap h.partsAt, Inside u w := by
  induction within using ReflTransGen.head_induction_on with
  | refl => exact ⟨v, List.mem_cons_self, .refl⟩
  | @head u x part _ ih =>
    obtain ⟨w, root, inside⟩ := ih
    -- a reference that leads nowhere has no parts, so the cell is there
    have cell {r : Ref} (mem : u ∈ h.partsAt r) : ∃ w ∈ v :: (List.range h.cells.size).flatMap h.partsAt, Inside u w := by
      refine ⟨u, List.mem_cons_of_mem _ (List.mem_flatMap.mpr ⟨r, ?_, mem⟩), .refl⟩
      by_contra outside
      rw [List.mem_range, Nat.not_lt] at outside
      rw [partsAt_outside (Array.getElem?_eq_none outside)] at mem
      cases mem
    cases x with
    | tuple xs => exact ⟨w, root, inside.head ⟨xs, rfl, part⟩⟩
    | null | bool | whole | real | text | task | handle => cases part
    | ref k r =>
      cases k with
      | array => exact cell (List.mem_append_left _ (List.mem_append_left _ part))
      | set => exact cell (List.mem_append_left _ (List.mem_append_right _ part))
      | map => exact cell (List.mem_append_right _ part)
      | object | classRef | function => cases part

theorem finite_within (h : Heap) (v : Value) : {u | ReflTransGen h.PartOf u v}.Finite := by
  refine ((v :: (List.range h.cells.size).flatMap h.partsAt).finite_toSet.biUnion fun w _ => finite_inside w).subset ?_
  intro u within
  obtain ⟨w, root, inside⟩ := inside_of_within within
  exact Set.mem_biUnion root inside

/-- So without a circle the parts come to an end. -/
theorem Straight.acc (straight : h.Straight v) : Acc h.PartOf v := by
  -- on the finitely many values below this one, to be a part of a part is an order without a circle
  let Within := {u // ReflTransGen h.PartOf u v}
  have finite : Finite Within := h.finite_within v
  let Below (x y : Within) : Prop := TransGen h.PartOf x.1 y.1
  have : IsTrans Within Below := ⟨fun _ _ _ => TransGen.trans⟩
  have : Std.Irrefl Below := ⟨fun x => straight x.1 x.2⟩
  have ends : WellFounded Below := Finite.wellFounded_of_trans_of_irrefl Below
  have each (x : Within) : Acc h.PartOf x.1 := by
    induction x using ends.induction with
    | _ x ih => exact ⟨x.1, fun u part => ih ⟨u, .head part x.2⟩ (.single part)⟩
  exact each ⟨v, .refl⟩

end Heap

/-! ## What the ledger stores -/

variable {h : Heap}

namespace LedgerM

variable {V E B : Type}

end LedgerM

example : ({ cells := #[.array #[.int 1, .ref .array 0]] } : Heap).packAt 9 (.ref .array 0) = .error .endless := by
  rfl

end LedgerScript
