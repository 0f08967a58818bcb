import LedgerScript.Proofs.Value.Copies

/-!
# Values as trees

Who only reads a value sees a tree: the value, the values in the container to which it refers, and so on.  The numbers of the
cells do not show, and with a cycle the tree has no end.  `Heap.treeAt` is what is seen down to a depth, and two values are the
same to a reader if the same is seen of both at every depth.

A copy shows the tree of the original, and it is *apart* from it: whatever is reached from the copy through what containers
carry is a new cell, or the cell of a function or a class.  So nothing that is done to those cells shows in the original.
What the copy has in common with the original besides are keys of maps, members of sets, and what missing keys read as.
-/

namespace LedgerScript

/-! ## Trees -/

/-- What a container is apart from the values in it. -/
inductive ContainerForm where
  | array
  | map (size : Nat)
  | set
  | object (cls : Ref) (names frozen : List String)

namespace Cell

/-- What kind of container the cell is; functions and classes are none. -/
def form? : Cell → Option ContainerForm
  | .array _ => some .array
  | .map m => some (.map m.keys.size)
  | .set _ => some .set
  | .object o => some (.object o.cls (o.fields.map (·.1)) o.frozen)
  | .classCell _ | .function _ => none

def parts : Cell → List Value
  | .array items => items.toList
  | .map m => m.zero :: m.keys.toList ++ m.vals.toList
  | .set t => t.order
  | .object o => o.fields.map (·.2)
  | .classCell _ | .function _ => []

theorem within_parts {S : Ref → Prop} {c : Cell} (inside : ∀ q ∈ c.refs, S q) : ∀ v ∈ c.parts, v.Within S := by
  cases c with
  | array | map | set => exact Value.within_of_refsOf inside
  | object o => exact Value.within_of_refsOf fun q mem => inside q (List.mem_cons_of_mem _ mem)
  | classCell | function => exact nofun

end Cell

/-- What is seen of a value: its parts, and what is seen of them. -/
inductive Tree where
  /-- Too deep to be seen. -/
  | hidden
  /-- Something without parts; functions, classes and handles have none. -/
  | leaf (v : Value)
  | tuple (items : List Tree)
  | container (k : RefKind) (form : ContainerForm) (parts : List Tree)

namespace Heap

/-- What is seen of a value down to a depth. -/
def treeAt (h : Heap) : Nat → Value → Tree
  | 0, _ => .hidden
  | d + 1, v =>
    match v with
    | .tuple items => .tuple (items.map (treeAt h d))
    | .ref k r =>
      match h.cells[r]? with
      | none => .leaf (.ref k r)
      | some c =>
        match c.form? with
        | none => .leaf (.ref k r)
        | some form => .container k form (c.parts.map (treeAt h d))
    | v => .leaf v

section

variable {h g : Heap} {S : Ref → Prop} {v : Value} {d : Nat} {k : RefKind} {r : Ref} {c : Cell}

theorem treeAt_ref (cell : h.cells[r]? = some c) : h.treeAt (d + 1) (.ref k r) =
    match c.form? with
    | none => .leaf (.ref k r)
    | some form => .container k form (c.parts.map (h.treeAt d)) := by
  rw [treeAt]
  simp only [cell]

/-- A larger heap shows the same tree. -/
theorem Closed.treeAt_eq (closed : h.Closed S) (grows : h.Extends g) (d : Nat) :
    ∀ v : Value, v.Within S → g.treeAt d v = h.treeAt d v := by
  induction d with
  | zero => exact fun _ _ => rfl
  | succ d ih =>
    intro v inside
    have each {vs : List Value} (within : ∀ v ∈ vs, v.Within S) : vs.map (g.treeAt d) = vs.map (h.treeAt d) :=
      List.map_congr_left fun v mem => ih v (within v mem)
    cases v with
    | null | bool | whole | real | text | task | handle => rfl
    | tuple items => rw [treeAt, treeAt, each (Value.within_of_refsOf inside)]
    | ref k r =>
      obtain ⟨c, old, new, within⟩ := closed.cell_eq grows (inside r List.mem_cons_self)
      rw [treeAt_ref old, treeAt_ref new, each (Cell.within_parts within)]

theorem Holds.treeAt_eq (holds : h.Holds v) (grows : h.Extends g) (d : Nat) : g.treeAt d v = h.treeAt d v := by
  obtain ⟨S, closed, inside⟩ := holds
  exact closed.treeAt_eq grows d v inside

end

/-! ## What is reached -/

/-- The cells that are reached from a value, if of each cell those values are followed. -/
inductive Reaches (h : Heap) (followed : Cell → List Value) (v : Value) : Ref → Prop where
  | here {r : Ref} (mem : r ∈ v.refs) : Reaches h followed v r
  | inside {q r : Ref} {c : Cell} {w : Value} (outer : Reaches h followed v q) (cell : h.cells[q]? = some c)
    (part : w ∈ followed c) (mem : r ∈ w.refs) : Reaches h followed v r

/-- Nothing is reached outside of a closed set. -/
theorem Closed.of_reaches {h : Heap} {S : Ref → Prop} {v : Value} {r : Ref} (closed : h.Closed S) (inside : v.Within S)
    (reached : h.Reaches Cell.parts v r) : S r := by
  induction reached with
  | here mem => exact inside _ mem
  | inside _ cell part mem ih =>
    obtain ⟨c, there, within⟩ := closed _ ih
    cases there.symm.trans cell
    exact Cell.within_parts within _ part _ mem

structure CopyOf (h g : Heap) (v u : Value) : Prop where
  whole : g.Whole u
  tree : ∀ d, g.treeAt d u = h.treeAt d v
  /-- What is reached from the copy is new, or it is a function or a class. -/
  apart : ∀ r, g.Reaches Cell.carried u r → h.Shares r ∨ h.cells.size ≤ r

end Heap

/-! ## Copies -/

section

variable {h : Heap} {S : Ref → Prop} {copied : List (Ref × Ref)}

mutual

/-- What a copy refers to is a copy, or it has been there before. -/
theorem Value.Renamed.refs : ∀ {v u : Value}, Value.Renamed h copied v u → v.Within S →
    ∀ r ∈ u.refs, S r ∧ h.Shares r ∨ r ∈ copied.map (·.2)
  | _, _, .same bare, _, r, mem => by
    rw [bare] at mem
    cases mem
  | _, _, .tuple each, inside, r, mem => Value.RenamedEach.refs each (Value.within_of_refsOf inside) r mem
  | _, _, .ref there, _, r, mem => by
    rw [List.mem_singleton.mp mem]
    exact .inr (List.mem_map_of_mem there)
  | _, _, .shared common, inside, r, mem => by
    rw [List.mem_singleton.mp mem]
    exact .inl ⟨inside _ List.mem_cons_self, common⟩

theorem Value.RenamedEach.refs : ∀ {vs us : List Value}, Value.RenamedEach h copied vs us → (∀ v ∈ vs, v.Within S) →
    ∀ r ∈ Value.refsOf us, S r ∧ h.Shares r ∨ r ∈ copied.map (·.2)
  | _, _, .nil, _, r, mem => by cases mem
  | _, _, .cons first rest, inside, r, mem => by
    rcases List.mem_append.mp mem with mem | mem
    · exact Value.Renamed.refs first (inside _ List.mem_cons_self) r mem
    · exact Value.RenamedEach.refs rest (fun v hv => inside v (List.mem_cons_of_mem _ hv)) r mem

end

namespace Cell.Renamed

variable {c c' : Cell}

theorem form?_eq (renamed : Cell.Renamed h copied c c') : c'.form? = c.form? := by
  cases renamed with
  | array | set => rfl
  | map keys => rw [form?, form?, keys]
  | object cls frozen names => rw [form?, form?, cls, names, frozen]

theorem carried (renamed : Cell.Renamed h copied c c') : Value.RenamedEach h copied c.carried c'.carried := by
  cases renamed with
  | array each => exact each
  | map _ vals => exact vals
  | set => exact .nil
  | object _ _ _ each => exact each

/-- The parts are renamed if they are carried, and else they are the same. -/
theorem parts (renamed : Cell.Renamed h copied c c') :
    List.Forall₂ (fun v u => u = v ∨ Value.Renamed h copied v u) c.parts c'.parts := by
  have each {vs us : List Value} (renamed : Value.RenamedEach h copied vs us) :
      List.Forall₂ (fun v u => u = v ∨ Value.Renamed h copied v u) vs us :=
    renamed.forall₂.imp fun _ _ => .inr
  have same (vs : List Value) : List.Forall₂ (fun v u => u = v ∨ Value.Renamed h copied v u) vs vs :=
    List.forall₂_same.mpr fun _ _ => .inl rfl
  cases renamed with
  | array renamed => exact each renamed
  | map keys vals zero =>
    rw [Cell.parts, Cell.parts, keys, zero]
    exact List.rel_append (.cons (.inl rfl) (same _)) (each vals)
  | set order =>
    rw [Cell.parts, Cell.parts, order]
    exact same _
  | object _ _ _ renamed => exact each renamed

/-- What the new contents refer to is a copy, or it has been there before. -/
theorem refs (renamed : Cell.Renamed h copied c c') (inside : ∀ q ∈ c.refs, S q) :
    ∀ r ∈ c'.refs, S r ∨ r ∈ copied.map (·.2) := by
  have weaken {us : List Value} (each : ∀ r ∈ Value.refsOf us, S r ∧ h.Shares r ∨ r ∈ copied.map (·.2)) :
      ∀ r ∈ Value.refsOf us, S r ∨ r ∈ copied.map (·.2) := fun r mem => (each r mem).imp_left And.left
  have carried := weaken (renamed.carried.refs (Cell.within_carried inside))
  cases renamed with
  | array => exact carried
  | @map m m' keys vals zero =>
    intro r mem
    rw [Cell.refs, zero, keys] at mem
    obtain ⟨w, hw, hr⟩ := Value.of_mem_refsOf mem
    rcases List.mem_append.mp hw with hw | hw
    · exact .inl (Value.within_of_refsOf inside w (List.mem_append_left _ hw) r hr)
    · exact carried r (Value.refs_subset_refsOf hw hr)
  | set order =>
    rw [Cell.refs, order]
    exact fun r mem => .inl (inside r mem)
  | object cls =>
    intro r mem
    rcases List.mem_cons.mp mem with rfl | mem
    · rw [cls]
      exact .inl (inside _ List.mem_cons_self)
    · exact carried r mem

/-- The new contents are in order if the old ones are. -/
theorem orderly (renamed : Cell.Renamed h copied c c') (orderly : c.Orderly h) : c'.Orderly h := by
  cases renamed with
  | array | object => trivial
  | @map m m' keys vals =>
    obtain ⟨told, paired⟩ := orderly
    have length : m'.vals.size = m.vals.size := by simpa using vals.forall₂.length_eq.symm
    rw [Cell.Orderly, keys, length]
    exact ⟨told, paired⟩
  | set order =>
    rw [Cell.Orderly, order]
    exact orderly

end Cell.Renamed

namespace Copied

variable {s : CopyState} {v u : Value}

/-- The old cells and the copies are intact. -/
theorem keeps_intact (copied : Copied h S [] s) (intact : h.Intact S) :
    s.heap.Intact fun r => S r ∨ r ∈ s.copied.map (·.2) where
  closed r here := by
    rcases here with here | mem
    · obtain ⟨c, there, inside⟩ := intact.closed.mono copied.grows r here
      exact ⟨c, there, fun q mem => .inl (inside q mem)⟩
    · obtain ⟨p, hp, rfl⟩ := List.mem_map.mp mem
      obtain ⟨c, c', old, new, renamed⟩ := copied.filled p hp nofun
      obtain ⟨d, there, inside⟩ := intact.closed p.1 (copied.old p hp)
      cases old.symm.trans there
      exact ⟨c', new, renamed.refs inside⟩
  orderly r c here there := by
    rcases here with here | mem
    · exact (intact.mono copied.grows).orderly r c here there
    · obtain ⟨p, hp, rfl⟩ := List.mem_map.mp mem
      obtain ⟨d, c', old, new, renamed⟩ := copied.filled p hp nofun
      cases new.symm.trans there
      obtain ⟨d', cell, inside⟩ := intact.closed p.1 (copied.old p hp)
      cases old.symm.trans cell
      have orderly := renamed.orderly (intact.orderly p.1 d (copied.old p hp) old)
      -- the keys are those of the old cell, so they are as they were
      cases renamed with
      | array | object => trivial
      | map keys =>
        refine ⟨orderly.1.mono intact.closed copied.grows fun w hw => ?_, orderly.2⟩
        rw [keys] at hw
        exact Value.within_of_refsOf inside w (List.mem_append_left _ (List.mem_cons_of_mem _ hw))
      | set order =>
        refine Heap.Keys.mono orderly intact.closed copied.grows fun w hw => ?_
        rw [order] at hw
        exact Value.within_of_refsOf inside w hw

/-- A copy shows the same tree. -/
theorem treeAt_eq (copied : Copied h S [] s) (closed : h.Closed S) (d : Nat) :
    ∀ {v u : Value}, v.Within S → Value.Renamed h s.copied v u → s.heap.treeAt d u = h.treeAt d v := by
  induction d with
  | zero => exact fun _ _ => rfl
  | succ d ih =>
    intro v u inside renamed
    cases renamed with
    | same bare => exact closed.treeAt_eq copied.grows (d + 1) v inside
    | @tuple vs us each =>
      have trees : us.map (s.heap.treeAt d) = vs.map (h.treeAt d) := by
        have within := Value.within_of_refsOf inside
        clear inside
        have pairs := each.forall₂
        clear each
        induction pairs with
        | nil => rfl
        | cons first _ later =>
          rw [List.map_cons, List.map_cons, ih (within _ (by simp)) first, later fun w mem => within w (by simp [mem])]
      rw [Heap.treeAt, Heap.treeAt, trees]
    | @ref k r q there =>
      obtain ⟨c, c', old, new, renamed⟩ := copied.filled _ there nofun
      obtain ⟨d', cell, within⟩ := closed r (inside r List.mem_cons_self)
      cases old.symm.trans cell
      have trees : c'.parts.map (s.heap.treeAt d) = c.parts.map (h.treeAt d) := by
        have within := Cell.within_parts within
        have pairs := renamed.parts
        generalize c.parts = vs at within pairs
        generalize c'.parts = us at pairs
        induction pairs with
        | nil => rfl
        | cons first _ later =>
          have here := within _ List.mem_cons_self
          rw [List.map_cons, List.map_cons, later fun w mem => within w (by simp [mem])]
          rcases first with rfl | first
          · rw [closed.treeAt_eq copied.grows d _ here]
          · rw [ih here first]
      have form : c.form? ≠ none := by cases renamed <;> exact nofun
      rw [Heap.treeAt_ref old, Heap.treeAt_ref new, renamed.form?_eq, trees]
      cases formed : c.form? with
      | none => exact absurd formed form
      | some form => rfl
    | shared common => exact closed.treeAt_eq copied.grows (d + 1) _ inside

/-- Whatever is reached from a copy through what is carried is shared, or it is a copy. -/
theorem reaches (copied : Copied h S [] s) (closed : h.Closed S) (inside : v.Within S)
    (renamed : Value.Renamed h s.copied v u) {r : Ref} (reached : s.heap.Reaches Cell.carried u r) :
    h.Shares r ∨ r ∈ s.copied.map (·.2) := by
  induction reached with
  | here mem => exact (renamed.refs inside _ mem).imp_left And.right
  | @inside q r c w _ cell part mem ih =>
    rcases ih with ⟨d, there, shared⟩ | mem'
    · cases (copied.grows q d there).symm.trans cell
      cases c with
      | classCell | function => cases part
      | array | map | set | object => cases shared
    · obtain ⟨p, hp, rfl⟩ := List.mem_map.mp mem'
      obtain ⟨d, d', old, new, renamed⟩ := copied.filled p hp nofun
      cases new.symm.trans cell
      obtain ⟨e, there, within⟩ := closed p.1 (copied.old p hp)
      cases old.symm.trans there
      exact (renamed.carried.refs (Cell.within_carried within) r (Value.refs_subset_refsOf part mem)).imp_left And.right

end Copied

theorem Copied.copyOf {s : CopyState} {v u : Value} (copied : Copied h S [] s) (intact : h.Intact S) (inside : v.Within S)
    (renamed : Value.Renamed h s.copied v u) : h.CopyOf s.heap v u where
  whole := ⟨_, copied.keeps_intact intact, fun r mem => (renamed.refs inside r mem).imp_left And.left⟩
  tree d := copied.treeAt_eq intact.closed d inside renamed
  apart r reached := by
    refine (copied.reaches intact.closed inside renamed reached).imp_right fun mem => ?_
    obtain ⟨p, hp, rfl⟩ := List.mem_map.mp mem
    exact (copied.new p hp).1

/-- Whatever is intact has a copy. -/
theorem Heap.Whole.copyOf {v : Value} (whole : h.Whole v) :
    ∃ u g, h.deepCopy v = .ok (u, g) ∧ h.Extends g ∧ h.CopyOf g v u := by
  obtain ⟨S, intact, inside⟩ := whole
  obtain ⟨u, s, made, copied, renamed⟩ := intact.deepCopy inside
  exact ⟨u, s.heap, made, copied.grows, copied.copyOf intact inside renamed⟩

end

end LedgerScript
