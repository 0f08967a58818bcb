import Mathlib.Data.List.Nodup
import Mathlib.Data.List.Perm.Subperm
import LedgerScript.Proofs.Wire.Values

/-!
# Copies of values

A deep copy follows the references of a value and makes a new cell for each container that it meets, once.  While it is under
way some of the new cells still have to be filled.  `Copied` is what holds at every moment: every other new cell has the contents
of the old one, with the references among them *renamed* to the copies.  In the end all cells are filled.

Members of sets and keys of maps are not copied, and neither is what a missing key reads as.  The copy has the same ones, and
they are as they were.

Copying succeeds where the tables are in order, `Heap.Intact`: the keys of each of them have key forms that tell them apart.  It
also ends, cycle or not, since no cell is begun twice and so no more of them are unfilled than the heap had.
-/

namespace LedgerScript

variable {h : Heap} {v : Value}

/-! ## Tables in order -/

/-- The values can be the keys of one table, as things stand on a heap. -/
structure Heap.Keys (h : Heap) (vs : List Value) : Prop where
  kept : ∀ v ∈ vs, v.keptKey = v
  form : ∀ v ∈ vs, h.key v = .ok (h.keyOf v)
  apart : vs.Pairwise fun v u => (h.keyOf v).same (h.keyOf u) = false

/-- The keys of a map and the members of a set can be told apart, and each key has a value. -/
def Cell.Orderly (h : Heap) : Cell → Prop
  | .map m => h.Keys m.keys.toList ∧ m.keys.size = m.vals.size
  | .set t => h.Keys t.order
  | _ => True

/-- A set of cells that are there and in order, and from which no reference leads out of the set. -/
structure Heap.Intact (h : Heap) (S : Ref → Prop) : Prop where
  closed : h.Closed S
  orderly : ∀ r c, S r → h.cells[r]? = some c → c.Orderly h

/-- All that a value reaches is there and in order. -/
def Heap.Whole (h : Heap) (v : Value) : Prop :=
  ∃ S, h.Intact S ∧ v.Within S

/-- What reaches nothing is whole. -/
theorem Heap.whole_of_bare (bare : v.refs = []) : h.Whole v := by
  refine ⟨fun _ => False, ⟨fun _ => False.elim, fun _ _ => False.elim⟩, fun r mem => ?_⟩
  rw [bare] at mem
  cases mem

theorem Heap.Whole.holds (whole : h.Whole v) : h.Holds v := by
  obtain ⟨S, intact, inside⟩ := whole
  exact ⟨S, intact.closed, inside⟩

/-- What is carried is among what a cell refers to. -/
theorem Cell.within_carried {S : Ref → Prop} {c : Cell} (inside : ∀ q ∈ c.refs, S q) : ∀ v ∈ c.carried, v.Within S := by
  cases c with
  | array items => exact Value.within_of_refsOf inside
  | map m => exact fun v mem => Value.within_of_refsOf inside v (List.mem_append_right _ mem)
  | object o => exact Value.within_of_refsOf fun q mem => inside q (List.mem_cons_of_mem _ mem)
  | set | classCell | function => exact nofun

section

variable {h g : Heap} {S : Ref → Prop} {vs : List Value}

theorem Heap.Closed.keyOf_eq (closed : h.Closed S) (grows : h.Extends g) {v : Value} (inside : v.Within S) :
    g.key v = h.key v ∧ g.keyOf v = h.keyOf v := by
  have same : g.key v = h.key v := closed.keyAt_eq grows Heap.keyRounds v inside
  exact ⟨same, by rw [Heap.keyOf, Heap.keyOf, same]⟩

theorem Heap.Keys.mono (keys : h.Keys vs) (closed : h.Closed S) (grows : h.Extends g) (inside : ∀ v ∈ vs, v.Within S) :
    g.Keys vs := by
  refine ⟨keys.kept, fun v mem => ?_, keys.apart.imp_of_mem fun {v u} mem mem' apart => ?_⟩
  · obtain ⟨same, sameForm⟩ := closed.keyOf_eq grows (inside v mem)
    rw [same, sameForm]
    exact keys.form v mem
  · rw [(closed.keyOf_eq grows (inside v mem)).2, (closed.keyOf_eq grows (inside u mem')).2]
    exact apart

theorem Heap.Intact.mono (intact : h.Intact S) (grows : h.Extends g) : g.Intact S where
  closed := intact.closed.mono grows
  orderly r c here there := by
    obtain ⟨d, old, inside⟩ := intact.closed r here
    cases (grows r d old).symm.trans there
    have orderly := intact.orderly r c here old
    cases c with
    | map m =>
      exact ⟨orderly.1.mono intact.closed grows fun v mem =>
        Value.within_of_refsOf inside v (List.mem_append_left _ (List.mem_cons_of_mem _ mem)), orderly.2⟩
    | set t => exact Heap.Keys.mono orderly intact.closed grows (Value.within_of_refsOf inside)
    | array | object | classCell | function => trivial

theorem Heap.Whole.mono {v : Value} (whole : h.Whole v) (grows : h.Extends g) : g.Whole v := by
  obtain ⟨S, intact, inside⟩ := whole
  exact ⟨S, intact.mono grows, inside⟩

theorem Heap.setOf_eq (keys : g.Keys vs) : g.setOf vs = .ok { members := vs.map g.keyOf, order := vs } := by
  have made := SetTable.ofList_eq keys.form keys.kept keys.apart {} nofun
  simpa [Heap.setOf] using made

/-- A table with these entries, and with the key forms of now. -/
theorem Heap.mapOf_eq {es : List (Value × Value)} (keys : g.Keys (es.map (·.1))) (zero : Value) :
    g.mapOf es zero = .ok { keys := (es.map (·.1)).toArray, vals := (es.map (·.2)).toArray
                            index := (es.map fun e => g.keyOf e.1).zipIdx, zero } := by
  obtain ⟨index, made, places⟩ := MapTable.insertAll_eq (fun e mem => keys.form e.1 (List.mem_map_of_mem mem))
    (fun e mem => keys.kept e.1 (List.mem_map_of_mem mem)) (List.pairwise_map.mp keys.apart) { zero } nofun
  simpa [Heap.mapOf, places] using made

end

/-! ## Renamed references -/

/-- The cell of a function or a class: a copy has it in common with the original. -/
def Heap.Shares (h : Heap) (r : Ref) : Prop :=
  ∃ c, h.cells[r]? = some c ∧ c.isShared = true

mutual

/-- The value with its references to containers renamed to copies. -/
inductive Value.Renamed (h : Heap) (copied : List (Ref × Ref)) : Value → Value → Prop where
  | same {v : Value} (bare : v.refs = []) : Value.Renamed h copied v v
  | tuple {vs us : List Value} (each : Value.RenamedEach h copied vs us) : Value.Renamed h copied (.tuple vs) (.tuple us)
  | ref {k : RefKind} {r q : Ref} (there : (r, q) ∈ copied) : Value.Renamed h copied (.ref k r) (.ref k q)
  | shared {k : RefKind} {r : Ref} (common : h.Shares r) : Value.Renamed h copied (.ref k r) (.ref k r)

/-- The values with their references to containers renamed to copies. -/
inductive Value.RenamedEach (h : Heap) (copied : List (Ref × Ref)) : List Value → List Value → Prop where
  | nil : Value.RenamedEach h copied [] []
  | cons {v u : Value} {vs us : List Value} (first : Value.Renamed h copied v u) (rest : Value.RenamedEach h copied vs us) :
    Value.RenamedEach h copied (v :: vs) (u :: us)

end

section

variable {h g : Heap} {S : Ref → Prop} {copied later : List (Ref × Ref)}

mutual

theorem Value.Renamed.mono (more : copied ⊆ later) : ∀ {v u : Value}, Value.Renamed h copied v u → Value.Renamed h later v u
  | _, _, .same bare => .same bare
  | _, _, .tuple each => .tuple (Value.RenamedEach.mono more each)
  | _, _, .ref there => .ref (more there)
  | _, _, .shared common => .shared common

theorem Value.RenamedEach.mono (more : copied ⊆ later) : ∀ {vs us : List Value}, Value.RenamedEach h copied vs us →
    Value.RenamedEach h later vs us
  | _, _, .nil => .nil
  | _, _, .cons first rest => .cons (Value.Renamed.mono more first) (Value.RenamedEach.mono more rest)

end

theorem Value.RenamedEach.forall₂ : ∀ {vs us : List Value}, Value.RenamedEach h copied vs us →
    List.Forall₂ (Value.Renamed h copied) vs us
  | _, _, .nil => .nil
  | _, _, .cons first rest => .cons first (Value.RenamedEach.forall₂ rest)

/-- The contents of a container with the references among what it carries renamed to copies.  The tables are those that the
keys and members have now. -/
inductive Cell.Renamed (h : Heap) (copied : List (Ref × Ref)) : Cell → Cell → Prop where
  | array {items items' : Array Value} (each : Value.RenamedEach h copied items.toList items'.toList) :
    Cell.Renamed h copied (.array items) (.array items')
  | map {m m' : MapTable} (keys : m'.keys = m.keys) (vals : Value.RenamedEach h copied m.vals.toList m'.vals.toList)
    (zero : m'.zero = m.zero) (index : m'.index = (m.keys.toList.map h.keyOf).zipIdx) :
    Cell.Renamed h copied (.map m) (.map m')
  | set {t t' : SetTable} (order : t'.order = t.order) (members : t'.members = t.order.map h.keyOf) :
    Cell.Renamed h copied (.set t) (.set t')
  | object {o o' : Object} (cls : o'.cls = o.cls) (frozen : o'.frozen = o.frozen)
    (names : o'.fields.map (·.1) = o.fields.map (·.1))
    (each : Value.RenamedEach h copied (o.fields.map (·.2)) (o'.fields.map (·.2))) :
    Cell.Renamed h copied (.object o) (.object o')

theorem Cell.Renamed.mono {c c' : Cell} (renamed : Cell.Renamed h copied c c') (more : copied ⊆ later) :
    Cell.Renamed h later c c' := by
  cases renamed with
  | array each => exact .array (each.mono more)
  | map keys vals zero index => exact .map keys (vals.mono more) zero index
  | set order members => exact .set order members
  | object cls frozen names each => exact .object cls frozen names (each.mono more)

/-- A container that is in order can be filled with copies of what it carries. -/
theorem Heap.Intact.refill_eq (intact : h.Intact S) {r : Ref} {c : Cell} (here : S r) (cell : h.cells[r]? = some c)
    (container : c.isShared = false) (grows : h.Extends g) {vs : List Value}
    (renamed : Value.RenamedEach h copied c.carried vs) : ∃ c', g.refill vs c = .ok c' ∧ Cell.Renamed h copied c c' := by
  obtain ⟨c', old, inside⟩ := intact.closed r here
  cases cell.symm.trans old
  have orderly := intact.orderly r c here cell
  -- the key forms are still those of before
  have forms {ks : List Value} (within : ∀ v ∈ ks, v.Within S) : ks.map g.keyOf = ks.map h.keyOf :=
    List.map_congr_left fun v mem => (intact.closed.keyOf_eq grows (within v mem)).2
  cases c with
  | array items => exact ⟨_, rfl, .array (show Value.RenamedEach h copied items.toList vs.toArray.toList from renamed)⟩
  | map m =>
    have within : ∀ v ∈ m.keys.toList, v.Within S := fun v mem =>
      Value.within_of_refsOf inside v (List.mem_append_left _ (List.mem_cons_of_mem _ mem))
    have length : vs.length = m.keys.toList.length := by
      rw [← renamed.forall₂.length_eq]
      simpa [Cell.carried] using orderly.2.symm
    have first : (m.keys.toList.zip vs).map (·.1) = m.keys.toList := List.map_fst_zip length.ge
    have second : (m.keys.toList.zip vs).map (·.2) = vs := List.map_snd_zip length.le
    have keys := orderly.1.mono intact.closed grows within
    have index : ((m.keys.toList.zip vs).map fun e => g.keyOf e.1) = m.keys.toList.map h.keyOf := by
      rw [← forms within, ← first, List.map_map, first]
      rfl
    let table : MapTable :=
      { keys := m.keys, vals := vs.toArray, index := (m.keys.toList.map h.keyOf).zipIdx, zero := m.zero }
    have made : g.mapOf (m.keys.toList.zip vs) m.zero = .ok table := by
      rw [Heap.mapOf_eq (first.symm ▸ keys) m.zero, first, second, index]
    refine ⟨.map table, ?_, .map rfl renamed rfl rfl⟩
    rw [Heap.refill, made]
    rfl
  | set t =>
    have within : ∀ v ∈ t.order, v.Within S := Value.within_of_refsOf inside
    let table : SetTable := { members := t.order.map h.keyOf, order := t.order }
    have made : g.setOf t.order = .ok table := by
      rw [Heap.setOf_eq (Heap.Keys.mono orderly intact.closed grows within), forms within]
    refine ⟨.set table, ?_, .set rfl rfl⟩
    rw [Heap.refill, made]
    rfl
  | object o =>
    have length : vs.length = (o.fields.map (·.1)).length := by
      rw [← renamed.forall₂.length_eq]
      simp [Cell.carried]
    refine ⟨_, rfl, .object rfl rfl (List.map_fst_zip length.ge) ?_⟩
    rw [List.map_snd_zip length.le]
    exact renamed
  | classCell | function => cases container

end

/-! ## Copying under way -/

/-- Copies of the cells of a set are being made.  The cells in `unfilled` have copies that are not filled yet. -/
structure Copied (h : Heap) (S : Ref → Prop) (unfilled : List Ref) (s : CopyState) : Prop where
  grows : h.Extends s.heap
  old : ∀ p ∈ s.copied, S p.1
  new : ∀ p ∈ s.copied, Heap.New h s.heap p.2
  once : (s.copied.map (·.1)).Nodup
  apart : (s.copied.map (·.2)).Nodup
  begun : ∀ r ∈ unfilled, r ∈ s.copied.map (·.1)
  unfilledOnce : unfilled.Nodup
  filled : ∀ p ∈ s.copied, p.1 ∉ unfilled → ∃ c c', h.cells[p.1]? = some c ∧ s.heap.cells[p.2]? = some c' ∧
    Cell.Renamed h s.copied c c'

namespace Copied

variable {h : Heap} {S : Ref → Prop} {unfilled : List Ref} {s : CopyState} {r q : Ref} {c c' : Cell}

theorem start (h : Heap) (S : Ref → Prop) : Copied h S [] { heap := h } :=
  ⟨.refl h, nofun, nofun, .nil, .nil, nofun, .nil, nofun⟩

theorem length_unfilled_le (copied : Copied h S unfilled s) (closed : h.Closed S) : unfilled.length ≤ h.cells.size := by
  have inside : unfilled ⊆ List.range h.cells.size := by
    intro r mem
    obtain ⟨p, hp, rfl⟩ := List.mem_map.mp (copied.begun r mem)
    obtain ⟨c, there, -⟩ := closed p.1 (copied.old p hp)
    exact List.mem_range.mpr (Array.getElem?_eq_some_iff.mp there).1
  simpa using (List.Nodup.subperm copied.unfilledOnce inside).length_le

theorem reserve (copied : Copied h S unfilled s) (here : S r) (absent : ∀ p ∈ s.copied, p.1 ≠ r) :
    Copied h S (r :: unfilled) { heap := (s.heap.alloc c).2, copied := (r, s.heap.cells.size) :: s.copied } where
  grows := copied.grows.trans (Heap.extends_alloc s.heap c)
  old p mem := by
    rcases List.mem_cons.mp mem with rfl | mem
    · exact here
    · exact copied.old p mem
  new p mem := by
    rcases List.mem_cons.mp mem with rfl | mem
    · exact ⟨copied.grows.size_le, by simp [Heap.alloc]⟩
    · exact (copied.new p mem).front (Heap.extends_alloc s.heap c)
  once := by
    refine List.nodup_cons.mpr ⟨fun mem => ?_, copied.once⟩
    obtain ⟨p, hp, same⟩ := List.mem_map.mp mem
    exact absent p hp same
  apart := by
    refine List.nodup_cons.mpr ⟨fun mem => ?_, copied.apart⟩
    obtain ⟨p, hp, same⟩ := List.mem_map.mp mem
    exact Nat.lt_irrefl _ (same ▸ (copied.new p hp).2)
  begun q mem := by
    rcases List.mem_cons.mp mem with rfl | mem
    · exact List.mem_cons_self
    · exact List.mem_cons_of_mem _ (copied.begun q mem)
  unfilledOnce := by
    refine List.nodup_cons.mpr ⟨fun mem => ?_, copied.unfilledOnce⟩
    obtain ⟨p, hp, same⟩ := List.mem_map.mp (copied.begun r mem)
    exact absent p hp same
  filled p mem settled := by
    rcases List.mem_cons.mp mem with rfl | mem
    · exact absurd List.mem_cons_self settled
    · obtain ⟨c, c', old, new, renamed⟩ := copied.filled p mem fun open' => settled (List.mem_cons_of_mem _ open')
      exact ⟨c, c', old, Heap.extends_alloc s.heap _ _ _ new, renamed.mono (List.subset_cons_self _ _)⟩

/-- A reserved cell gets its contents. -/
theorem fill (copied : Copied h S (r :: unfilled) s) (there : (r, q) ∈ s.copied) (old : h.cells[r]? = some c)
    (renamed : Cell.Renamed h s.copied c c') : Copied h S unfilled { s with heap := s.heap.put q c' } where
  grows := copied.grows.put (copied.new _ there).1 c'
  old := copied.old
  new p mem := by
    have size : (s.heap.put q c').cells.size = s.heap.cells.size := by simp [Heap.put]
    exact ⟨(copied.new p mem).1, size ▸ (copied.new p mem).2⟩
  once := copied.once
  apart := copied.apart
  begun q mem := copied.begun q (List.mem_cons_of_mem _ mem)
  unfilledOnce := (List.nodup_cons.mp copied.unfilledOnce).2
  filled p mem settled := by
    change ∃ d d', _ ∧ (s.heap.cells.setIfInBounds q c')[p.2]? = some d' ∧ _
    by_cases same : p.1 = r
    · obtain rfl : p = (r, q) := List.inj_on_of_nodup_map copied.once mem there same
      refine ⟨c, c', old, ?_, renamed⟩
      exact Array.getElem?_setIfInBounds_self_of_lt (copied.new _ there).2
    · obtain ⟨d, d', old, new, renamed⟩ := copied.filled p mem fun open' =>
        settled ((List.mem_cons.mp open').resolve_left same)
      have other : q ≠ p.2 := by
        intro here
        have pair : p = (r, q) := List.inj_on_of_nodup_map copied.apart mem there here.symm
        exact same (congrArg Prod.fst pair)
      exact ⟨d, d', old, by rwa [Array.getElem?_setIfInBounds_ne other], renamed⟩

end Copied

namespace Copying

variable {α β : Type} {h : Heap} {S : Ref → Prop} {cells : Nat}

theorem run_bind_ok {x : Copying α} {f : α → Copying β} {s t : CopyState} {a : α} (first : x.run s = .ok (a, t)) :
    (x >>= f).run s = (f a).run t := by
  rw [StateT.run_bind, first]
  rfl

/-- Something is copied, whatever has been copied before, if at most so many cells can still be begun. -/
def Copies (h : Heap) (S : Ref → Prop) (cells : Nat) (x : Copying α) (related : List (Ref × Ref) → α → Prop) : Prop :=
  ∀ unfilled s, Copied h S unfilled s → h.cells.size < unfilled.length + cells →
    ∃ a t, x.run s = .ok (a, t) ∧ Copied h S unfilled t ∧ s.copied ⊆ t.copied ∧ related t.copied a

section

variable {cell : RefKind → Ref → Copying Value}

mutual

theorem copies_with (each : ∀ k r, S r → Copies h S cells (cell k r) fun copied u => Value.Renamed h copied (.ref k r) u) :
    ∀ v : Value, v.Within S → Copies h S cells (copyWith cell v) fun copied u => Value.Renamed h copied v u
  | .tuple vs, inside, _, s, copied, room =>
    have ⟨us, t, made, copied, more, renamed⟩ := copies_each each vs (Value.within_of_refsOf inside) _ s copied room
    ⟨.tuple us, t, by rw [copyWith, run_bind_ok made]; rfl, copied, more, .tuple renamed⟩
  | .ref k r, inside, unfilled, s, copied, room => each k r (inside r List.mem_cons_self) unfilled s copied room
  | .null, _, _, s, copied, _ | .bool _, _, _, s, copied, _ | .whole _ _, _, _, s, copied, _
  | .real _ _, _, _, s, copied, _ | .text _ _, _, _, s, copied, _ | .task _ _, _, _, s, copied, _
  | .handle _ _, _, _, s, copied, _ => ⟨_, s, rfl, copied, fun _ => id, .same rfl⟩

theorem copies_each (each : ∀ k r, S r → Copies h S cells (cell k r) fun copied u => Value.Renamed h copied (.ref k r) u) :
    ∀ vs : List Value, (∀ v ∈ vs, v.Within S) →
      Copies h S cells (copyEach cell vs) fun copied us => Value.RenamedEach h copied vs us
  | [], _, _, s, copied, _ => ⟨[], s, rfl, copied, fun _ => id, .nil⟩
  | v :: rest, inside, _, s, copied, room =>
    have ⟨u, t, first, copied, more, renamed⟩ := copies_with each v (inside v (by simp)) _ s copied room
    have ⟨us, t', others, copied, more', renamedEach⟩ :=
      copies_each each rest (fun v mem => inside v (by simp [mem])) _ t copied room
    ⟨u :: us, t', by rw [copyEach, run_bind_ok first, run_bind_ok others]; rfl, copied,
      fun _ mem => more' (more mem), .cons (renamed.mono more') renamedEach⟩

end

end

theorem copies_ref (intact : h.Intact S) :
    ∀ k r, S r → Copies h S cells (copyRef cells k r) fun copied u => Value.Renamed h copied (.ref k r) u := by
  induction cells with
  | zero =>
    intro k r here unfilled s copied room
    exact absurd (copied.length_unfilled_le intact.closed) (Nat.not_le.mpr room)
  | succ cells ih =>
    intro k r here unfilled s copied room
    have now : (get : Copying CopyState).run s = .ok (s, s) := rfl
    rw [copyRef, run_bind_ok now]
    cases found : s.copied.find? (·.1 = r) with
    | some p =>
      have same : p.1 = r := by simpa using List.find?_some found
      have there : (r, p.2) ∈ s.copied := same ▸ List.mem_of_find?_eq_some found
      exact ⟨.ref k p.2, s, rfl, copied, fun _ => id, .ref there⟩
    | none =>
      have absent : ∀ p ∈ s.copied, p.1 ≠ r := fun p mem same => by simpa [same] using List.find?_eq_none.mp found p mem
      obtain ⟨c, old, inside⟩ := intact.closed r here
      simp only [copied.grows r c old]
      cases shared : c.isShared with
      | true => exact ⟨.ref k r, s, rfl, copied, fun _ => id, .shared ⟨c, old, shared⟩⟩
      | false =>
        have reserved : (Copying.reserve r c).run s =
          .ok (s.heap.cells.size, { heap := (s.heap.alloc c).2, copied := (r, s.heap.cells.size) :: s.copied }) := rfl
        have opened := copied.reserve (c := c) here absent
        obtain ⟨us, t, made, copied', more, renamed⟩ := copies_each ih c.carried (Cell.within_carried inside)
          (r :: unfilled) _ opened (by simpa [Nat.add_assoc, Nat.add_comm 1] using room)
        obtain ⟨c', refilled, renamed⟩ := intact.refill_eq here old shared copied'.grows renamed
        have there : (r, s.heap.cells.size) ∈ t.copied := more List.mem_cons_self
        refine ⟨.ref k s.heap.cells.size, { t with heap := t.heap.put s.heap.cells.size c' }, ?_,
          copied'.fill there old renamed, fun _ mem => more (List.mem_cons_of_mem _ mem), .ref there⟩
        have later : (get : Copying CopyState).run t = .ok (t, t) := rfl
        rw [if_neg Bool.false_ne_true, run_bind_ok reserved, run_bind_ok made, run_bind_ok later, refilled]
        rfl

end Copying

theorem Heap.Intact.deepCopy {S : Ref → Prop} (intact : h.Intact S) (inside : v.Within S) :
    ∃ u s, h.deepCopy v = .ok (u, s.heap) ∧ Copied h S [] s ∧ Value.Renamed h s.copied v u := by
  obtain ⟨u, s, made, copied, -, renamed⟩ := Copying.copies_with (Copying.copies_ref intact) v inside [] { heap := h }
    (.start h S) (Nat.lt_add_left _ (Nat.lt_succ_self _))
  refine ⟨u, s, ?_, copied, renamed⟩
  rw [Heap.deepCopy, made]
  rfl

end LedgerScript
