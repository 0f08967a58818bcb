import LedgerScript.Proofs.Wire.Items
import LedgerScript.Proofs.Wire.Written

/-!
# Reading values back

A value that is read from a store gets new cells.  What is written of it is what was written in the store, as long as the
tree is `Readable`: numbers and lengths fit, and the members of sets and the keys of maps can be told apart.  These are
told apart by their key forms.  A plain member, one without references, has the same key form on every heap, and a member
that is a container of its own is told apart by its cell; a tuple that holds containers is neither, since its key form is a
text that changes with their contents.
-/

namespace LedgerScript

variable {v : Value}

namespace Written

mutual

/-- The value of a tree without references. -/
def plain? : Written → Option Value
  | null => some .null
  | bool b => some (.bool b)
  | whole k n => some (.whole k n)
  | real k bits => some (.real k (k.round (Float.ofBits bits.toUInt64)))
  | text k s => some (.text k s)
  | parts .tuple items => (plainEach items).map .tuple
  | parts _ _ => none

/-- The values of trees without references. -/
def plainEach : List Written → Option (List Value)
  | [] => some []
  | w :: rest =>
    match w.plain?, plainEach rest with
    | some v, some vs => some (v :: vs)
    | _, _ => none

end

/-- The tree of something that can be a key: it is plain, or a container. -/
inductive AsKey : Written → Prop where
  | plain {w : Written} {v : Value} {k : Key} (plain : w.plain? = some v) (kept : v.keptKey = v)
    (key : Heap.key {} v = .ok k) : AsKey w
  | ref (k : RefKind) (items : List Written) : AsKey (.parts (.ref k) items)

/-- Two trees are not of the same key. -/
def Apart (a b : Written) : Prop :=
  ∀ v u, a.plain? = some v → b.plain? = some u → ∀ k l, Heap.key {} v = .ok k → Heap.key {} u = .ok l → k.same l = false

def mapParts (entries : List (Written × Written)) (zero : Option Written) : List Written :=
  entries.flatMap (fun e => [e.1, e.2]) ++ zero.toList

/-- What can be read back, down to a depth. -/
inductive Readable : Nat → Written → Prop where
  | null {d : Nat} : Readable (d + 1) .null
  | bool {d : Nat} (b : Bool) : Readable (d + 1) (.bool b)
  | whole {d : Nat} {k : WholeKind} {n : Int} (fits : k.wrap n = n) : Readable (d + 1) (.whole k n)
  | real {d : Nat} {k : RealKind} {bits : Nat} (small : bits < 0x10000000000000000)
    (fits : storedBits k (k.round (Float.ofBits bits.toUInt64)) = bits) : Readable (d + 1) (.real k bits)
  | text {d : Nat} {k : TextKind} {s : Bytes} (short : s.length < 0x100000000) : Readable (d + 1) (.text k s)
  | tuple {d : Nat} {items : List Written} (few : items.length < 0x100000000) (each : ∀ w ∈ items, Readable d w) :
    Readable (d + 1) (.parts .tuple items)
  | array {d : Nat} {items : List Written} (few : items.length < 0x100000000) (each : ∀ w ∈ items, Readable d w) :
    Readable (d + 1) (.parts (.ref .array) items)
  | set {d : Nat} {items : List Written} (few : items.length < 0x100000000) (each : ∀ w ∈ items, Readable d w)
    (keys : ∀ w ∈ items, AsKey w) (apart : items.Pairwise Apart) : Readable (d + 1) (.parts (.ref .set) items)
  | map {d : Nat} {entries : List (Written × Written)} {zero : Option Written}
    (few : (mapParts entries zero).length < 0x100000000) (each : ∀ w ∈ mapParts entries zero, Readable d w)
    (keys : ∀ e ∈ entries, AsKey e.1) (apart : (entries.map (·.1)).Pairwise Apart) (nonzero : zero ≠ some .null) :
    Readable (d + 1) (.parts (.ref .map) (mapParts entries zero))

end Written

/-! ## Readers on a heap -/

namespace UnpackHeap

variable {α β : Type} {h h' h'' : Heap}
variable {p : Bytes} {a : α}

/-- The reader takes these bytes from the front, and this is what it makes of them on a heap. -/
def Yields (x : UnpackHeap α) (h : Heap) (bytes : Bytes) (a : α) (h' : Heap) : Prop :=
  ∀ rest, x h (bytes ++ rest) = some ((a, h'), rest)

theorem yields_pure (a : α) (h : Heap) : Yields (pure a) h [] a h :=
  fun _ => rfl

theorem Yields.bind {x : UnpackHeap α} {f : α → UnpackHeap β} {q : Bytes} {b : β} (first : Yields x h p a h')
    (second : Yields (f a) h' q b h'') : Yields (x >>= f) h (p ++ q) b h'' := by
  intro rest
  change (x h (p ++ q ++ rest) >>= fun r => f r.1.1 r.1.2 r.2) = _
  rw [List.append_assoc, first]
  exact second rest

theorem Yields.map {x : UnpackHeap α} (read : Yields x h p a h') (f : α → β) : Yields (do return f (← x)) h p (f a) h' := by
  have both := read.bind (f := fun a => pure (f a)) (yields_pure (f a) h')
  rwa [List.append_nil] at both

/-- Something that needs no heap. -/
theorem yields_lift {x : Unpack α} (read : x.Yields p a) (h : Heap) : Yields (liftM x : UnpackHeap α) h p a h := by
  intro rest
  change (x (p ++ rest) >>= fun r => some ((r.1, h), r.2)) = _
  rw [read]
  rfl

end UnpackHeap

/-! ## New cells -/

namespace Heap

variable {g g' g'' : Heap}

theorem Extends.size_le (grows : g.Extends g') : g.cells.size ≤ g'.cells.size := by
  refine Nat.le_of_not_lt fun smaller => ?_
  have there := grows g'.cells.size g.cells[g'.cells.size] (Array.getElem?_eq_getElem smaller)
  simp at there

def New (g g' : Heap) (r : Nat) : Prop :=
  g.cells.size ≤ r ∧ r < g'.cells.size

theorem closed_new_self (g : Heap) : g.Closed (New g g) := by
  intro r new
  exact absurd new.2 (Nat.not_lt.mpr new.1)

theorem New.front {r : Ref} (new : New g g' r) (grows : g'.Extends g'') : New g g'' r :=
  ⟨new.1, Nat.lt_of_lt_of_le new.2 grows.size_le⟩

theorem New.back {r : Ref} (grows : g.Extends g') (new : New g' g'' r) : New g g'' r :=
  ⟨Nat.le_trans grows.size_le new.1, new.2⟩

/-- Cells that are made one after another lead only to such cells. -/
theorem Closed.new_trans (first : g'.Closed (New g g')) (grows : g.Extends g') (grows' : g'.Extends g'')
    (second : g''.Closed (New g' g'')) : g''.Closed (New g g'') := by
  intro r new
  by_cases early : r < g'.cells.size
  · obtain ⟨c, there, inside⟩ := first r ⟨new.1, early⟩
    exact ⟨c, grows' r c there, fun q hq => (inside q hq).front grows'⟩
  · obtain ⟨c, there, inside⟩ := second r ⟨Nat.le_of_not_lt early, new.2⟩
    exact ⟨c, there, fun q hq => .back grows (inside q hq)⟩

theorem Closed.new_alloc (closed : g'.Closed (New g g')) (grows : g.Extends g') {c : Cell}
    (inside : ∀ q ∈ c.refs, New g g' q) :
    (g'.alloc c).2.Closed (New g (g'.alloc c).2) ∧ New g (g'.alloc c).2 g'.cells.size := by
  have size : (g'.alloc c).2.cells.size = g'.cells.size + 1 := by simp [alloc]
  refine ⟨fun r new => ?_, grows.size_le, by omega⟩
  have front (q : Ref) (hq : New g g' q) : New g (g'.alloc c).2 q := hq.front (extends_alloc g' c)
  rcases Nat.lt_or_ge r g'.cells.size with early | late
  · obtain ⟨d, there, within⟩ := closed r ⟨new.1, early⟩
    exact ⟨d, extends_alloc g' c r d there, fun q hq => front q (within q hq)⟩
  · have last : r = g'.cells.size := Nat.le_antisymm (Nat.le_of_lt_succ (Nat.lt_of_lt_of_eq new.2 size)) late
    exact ⟨c, by simp [last, alloc], fun q hq => front q (inside q hq)⟩

end Heap

/-! ## Values that have been read -/

theorem Value.of_mem_refsOf {items : List Value} {r : Ref} (mem : r ∈ refsOf items) : ∃ v ∈ items, r ∈ v.refs := by
  induction items with
  | nil => cases mem
  | cons v rest ih =>
    rcases List.mem_append.mp mem with mem | mem
    · exact ⟨v, by simp, mem⟩
    · obtain ⟨u, hu, hr⟩ := ih mem
      exact ⟨u, by simp [hu], hr⟩

open Heap (New)

structure Restored (g : Heap) (d : Nat) (v : Value) (w : Written) : Prop where
  written : g.writtenAt d v = .ok w
  plain : ∀ x, w.plain? = some x → v = x

/-- A value has been read, with all that it reaches in new cells. -/
structure Made (g g' : Heap) (d : Nat) (v : Value) (w : Written) : Prop extends Restored g' d v w where
  grows : g.Extends g'
  closed : g'.Closed (New g g')
  inside : v.Within (New g g')

/-- Values have been read one after another. -/
structure MadeEach (g g' : Heap) (d : Nat) (vs : List Value) (ws : List Written) : Prop where
  restored : List.Forall₂ (Restored g' d) vs ws
  grows : g.Extends g'
  closed : g'.Closed (New g g')
  inside : ∀ v ∈ vs, v.Within (New g g')
  /-- No two of them are the same container. -/
  separate : vs.Pairwise fun v u => ∀ k r l s, v = .ref k r → u = .ref l s → r ≠ s

section

variable {g g' g'' : Heap} {d : Nat} {v : Value} {vs : List Value} {w : Written} {ws : List Written}

theorem Restored.mono (restored : Restored g' d v w) {S : Ref → Prop} (closed : g'.Closed S) (inside : v.Within S)
    (grows : g'.Extends g'') : Restored g'' d v w :=
  ⟨(closed.writtenAt_eq grows d v inside).trans restored.written, restored.plain⟩

theorem MadeEach.nil (g : Heap) (d : Nat) : MadeEach g g d [] [] :=
  ⟨.nil, .refl g, Heap.closed_new_self g, nofun, .nil⟩

theorem MadeEach.cons (first : Made g g' d v w) (rest : MadeEach g' g'' d vs ws) :
    MadeEach g g'' d (v :: vs) (w :: ws) where
  restored := .cons (first.toRestored.mono first.closed first.inside rest.grows) rest.restored
  grows := first.grows.trans rest.grows
  closed := first.closed.new_trans first.grows rest.grows rest.closed
  inside u mem r hr := by
    rcases List.mem_cons.mp mem with rfl | mem
    · exact (first.inside r hr).front rest.grows
    · exact .back first.grows (rest.inside u mem r hr)
  separate := by
    refine List.Pairwise.cons (fun u mem k r l s hv hu same => ?_) rest.separate
    have early : New g g' r := first.inside r (by simp [hv, Value.refs])
    have late : New g' g'' s := rest.inside u mem s (by simp [hu, Value.refs])
    exact absurd same (Nat.ne_of_lt (Nat.lt_of_lt_of_le early.2 late.1))

theorem MadeEach.plainEach (made : MadeEach g g' d vs ws) {xs : List Value} (plain : Written.plainEach ws = some xs) :
    vs = xs := by
  have restored := made.restored
  clear made
  induction restored generalizing xs with
  | nil =>
    cases plain
    rfl
  | @cons v w vs ws first rest ih =>
    rw [Written.plainEach] at plain
    split at plain
    · next x xs' one more =>
      cases plain
      rw [first.plain x one, ih more]
    · cases plain

theorem MadeEach.refs_new (made : MadeEach g g' d vs ws) {r : Ref} (mem : r ∈ Value.refsOf vs) : New g g' r := by
  obtain ⟨v, hv, hr⟩ := Value.of_mem_refsOf mem
  exact made.inside v hv r hr

theorem MadeEach.mapM_written (made : MadeEach g g' d vs ws) (grows : g'.Extends g'') :
    vs.mapM (g''.writtenAt d) = .ok ws := by
  rw [mapM_congr fun v mem => made.closed.writtenAt_eq grows d v (made.inside v mem)]
  exact mapM_eq_ok_iff.mpr (made.restored.imp fun _ _ restored => restored.written)

end

/-! ## Tables of what has been read -/

section

variable {keyOf : Value → Except Crash Key} {key : Value → Key}

/-- A set of values that can be told apart has them all, in their order. -/
theorem SetTable.ofList_eq {vs : List Value} (keys : ∀ v ∈ vs, keyOf v = .ok (key v))
    (kept : ∀ v ∈ vs, v.keptKey = v) (apart : vs.Pairwise fun v u => (key v).same (key u) = false) :
    ∀ s : SetTable, (∀ m ∈ s.members, ∀ v ∈ vs, m.same (key v) = false) →
      SetTable.ofList keyOf vs s = .ok { members := s.members ++ vs.map key, order := s.order ++ vs } := by
  induction vs with
  | nil => intro s _; simp [ofList]; rfl
  | cons v rest ih =>
    intro s new
    have absent : s.has (key v) = false := by
      rw [has, List.any_eq_false]
      intro m mem
      simp [new m mem v (by simp)]
    have added : s.add (key v) v = (true, { members := s.members ++ [key v], order := s.order ++ [v] }) := by
      simp [add, absent, kept v (by simp)]
    obtain ⟨here, later⟩ := List.pairwise_cons.mp apart
    have step := ih (fun u mem => keys u (by simp [mem])) (fun u mem => kept u (by simp [mem])) later
      { members := s.members ++ [key v], order := s.order ++ [v] } (by
        intro m mem u hu
        rcases List.mem_append.mp mem with mem | mem
        · exact new m mem u (by simp [hu])
        · rw [List.mem_singleton.mp mem]
          exact here u hu)
    unfold ofList at step ⊢
    rw [List.foldlM_cons, keys v (by simp)]
    change (rest.foldlM _ (s.add (key v) v).2) = _
    rw [added, step]
    simp

/-- A map with keys that can be told apart has all entries, in their order. -/
theorem MapTable.insertAll_eq {es : List (Value × Value)} (keys : ∀ e ∈ es, keyOf e.1 = .ok (key e.1))
    (kept : ∀ e ∈ es, e.1.keptKey = e.1) (apart : es.Pairwise fun e f => (key e.1).same (key f.1) = false) :
    ∀ m : MapTable, (∀ i ∈ m.index, ∀ e ∈ es, i.1.same (key e.1) = false) →
      ∃ index, es.foldlM (fun m e => do m.insert (← keyOf e.1) e.1 e.2) m = .ok
        { m with index, keys := m.keys ++ (es.map (·.1)).toArray, vals := m.vals ++ (es.map (·.2)).toArray } ∧
          index = m.index ++ (es.map fun e => key e.1).zipIdx m.keys.size := by
  induction es with
  | nil => intro m _; exact ⟨m.index, by simp; rfl, by simp⟩
  | cons e rest ih =>
    intro m new
    have absent : m.find? (key e.1) = none := by
      rw [find?, Option.map_eq_none_iff, List.find?_eq_none]
      intro i mem
      simp [new i mem e (by simp)]
    have inserted : m.insert (key e.1) e.1 e.2 = .ok { m with
        index := m.index ++ [(key e.1, m.keys.size)], keys := m.keys.push e.1, vals := m.vals.push e.2 } := by
      simp [insert, absent, kept e (by simp)]
    obtain ⟨here, later⟩ := List.pairwise_cons.mp apart
    obtain ⟨index, step, places⟩ := ih (fun f mem => keys f (by simp [mem])) (fun f mem => kept f (by simp [mem])) later
      { m with index := m.index ++ [(key e.1, m.keys.size)], keys := m.keys.push e.1, vals := m.vals.push e.2 } (by
        intro i mem f hf
        rcases List.mem_append.mp mem with mem | mem
        · exact new i mem f (by simp [hf])
        · rw [List.mem_singleton.mp mem]
          exact here f hf)
    refine ⟨index, ?_, by simpa using places⟩
    rw [List.foldlM_cons, keys e (by simp)]
    change (m.insert (key e.1) e.1 e.2 >>= _) = _
    rw [inserted]
    change List.foldlM _ _ rest = _
    rw [step]
    simp

end

/-! ## Keys of what has been read -/

mutual

theorem Written.refs_of_plain? : ∀ (w : Written) {v : Value}, w.plain? = some v → v.refs = []
  | .null, _, plain | .bool _, _, plain | .whole _ _, _, plain | .real _ _, _, plain | .text _ _, _, plain => by
    cases plain
    rfl
  | .parts .tuple items, v, plain => by
    obtain ⟨vs, each, rfl⟩ := Option.map_eq_some_iff.mp plain
    exact Written.refs_of_plainEach items each
  | .parts .null _, _, plain | .parts .bool _, _, plain | .parts (.whole _) _, _, plain | .parts (.real _) _, _, plain
  | .parts (.text _) _, _, plain | .parts (.ref _) _, _, plain | .parts .task _, _, plain
  | .parts (.handle _) _, _, plain => by cases plain

theorem Written.refs_of_plainEach : ∀ (ws : List Written) {vs : List Value}, Written.plainEach ws = some vs →
    Value.refsOf vs = []
  | [], vs, plain => by
    cases plain
    rfl
  | w :: rest, vs, plain => by
    rw [Written.plainEach] at plain
    split at plain
    · next x xs one more =>
      cases plain
      rw [Value.refsOf, Written.refs_of_plain? w one, Written.refs_of_plainEach rest more]
      rfl
    · cases plain

end

theorem Heap.key_plain {w : Written} (plain : w.plain? = some v) (g : Heap) : g.key v = Heap.key {} v := by
  have nothing : Heap.Closed {} fun _ => False := nofun
  have empty : Heap.Extends {} g := by
    intro r c there
    simp at there
  refine nothing.keyAt_eq empty Heap.keyRounds v fun r hr => ?_
  rw [Written.refs_of_plain? w plain] at hr
  cases hr

/-- A key form is that of a reference only for a reference. -/
theorem Heap.key_ref {g : Heap} {k : RefKind} {r : Ref} (key : g.key v = .ok (.ref k r)) : v = .ref k r := by
  change g.keyAt (999 + 1) v = _ at key
  cases v with
  | null | bool | real | task | handle => cases key
  | whole k n => cases k <;> cases key
  | text k s => cases k <;> cases key
  | tuple items =>
    obtain ⟨text, -, key⟩ := of_bind_ok key
    cases key
  | ref l q =>
    cases key
    rfl

theorem Heap.ref_of_written {g : Heap} {d : Nat} {k : RefKind} {items : List Written}
    (written : g.writtenAt d v = .ok (.parts (.ref k) items)) : ∃ r, v = .ref k r := by
  have parts {kind : Kind} {vs : List Value} {d : Nat}
      (written : (do return .parts kind (← vs.mapM (g.writtenAt d)) : Except Crash Written) = .ok (.parts (.ref k) items)) :
      kind = .ref k := by
    obtain ⟨ws, -, made⟩ := of_bind_ok written
    cases made
    rfl
  have shown {v : Value} (written : (do return .text .string (← g.plain v) : Except Crash Written) =
      .ok (.parts (.ref k) items)) : False := by
    obtain ⟨t, -, made⟩ := of_bind_ok written
    cases made
  cases d with
  | zero => cases written
  | succ d =>
    cases v with
    | null | bool | whole | real | text => cases written
    | tuple => cases parts written
    | task | handle => exact (shown written).elim
    | ref l r =>
      cases l with
      | array | set | map =>
        cases parts written
        exact ⟨r, rfl⟩
      | object | classRef | function => exact (shown written).elim

def Heap.keyOf (g : Heap) (v : Value) : Key :=
  match g.key v with
  | .ok k => k
  | .error _ => .null

theorem forall₂_exists {α β : Type} {R : α → β → Prop} {xs : List α} {ys : List β} (all : List.Forall₂ R xs ys) {x : α}
    (mem : x ∈ xs) : ∃ y ∈ ys, R x y := by
  induction all with
  | nil => cases mem
  | @cons a b xs ys first rest ih =>
    rcases List.mem_cons.mp mem with rfl | mem
    · exact ⟨b, by simp, first⟩
    · obtain ⟨y, hy, rel⟩ := ih mem
      exact ⟨y, by simp [hy], rel⟩

section

variable {g : Heap} {d : Nat} {v u : Value} {w w' : Written}

/-- What can be a key is one when it has been read: something plain, or a container. -/
theorem Restored.key_cases (restored : Restored g d v w) (asKey : w.AsKey) :
    v.keptKey = v ∧ g.key v = .ok (g.keyOf v) ∧
      ((w.plain? = some v ∧ Heap.key {} v = .ok (g.keyOf v)) ∨ ∃ k r, v = .ref k r) := by
  cases asKey with
  | @plain _ x k plain kept key =>
    obtain rfl := restored.plain x plain
    have here : g.key v = .ok k := (Heap.key_plain plain g).trans key
    have same : g.keyOf v = k := by rw [Heap.keyOf, here]
    exact ⟨kept, same ▸ here, .inl ⟨plain, same ▸ key⟩⟩
  | ref k items =>
    obtain ⟨r, rfl⟩ := Heap.ref_of_written restored.written
    exact ⟨rfl, rfl, .inr ⟨k, r, rfl⟩⟩

/-- Keys that could be told apart before can be told apart again. -/
theorem Restored.key_apart (restored : Restored g d v w) (restored' : Restored g d u w') (asKey : w.AsKey)
    (asKey' : w'.AsKey) (apart : w.Apart w') (separate : ∀ k r l s, v = .ref k r → u = .ref l s → r ≠ s) :
    (g.keyOf v).same (g.keyOf u) = false := by
  obtain ⟨-, key, plain | ⟨k, r, rfl⟩⟩ := restored.key_cases asKey
  · obtain ⟨-, key', plain' | ⟨l, s, rfl⟩⟩ := restored'.key_cases asKey'
    · exact apart v u plain.1 plain'.1 _ _ plain.2 plain'.2
    · cases form : g.keyOf v with
      | ref k r =>
        rw [form] at key
        have refs := Written.refs_of_plain? w plain.1
        rw [Heap.key_ref key] at refs
        cases refs
      | _ => rfl
  · obtain ⟨-, key', plain' | ⟨l, s, rfl⟩⟩ := restored'.key_cases asKey'
    · cases form : g.keyOf u with
      | ref l s =>
        rw [form] at key'
        have refs := Written.refs_of_plain? w' plain'.1
        rw [Heap.key_ref key'] at refs
        cases refs
      | _ => rfl
    · have differ : (r == s) = false := beq_false_of_ne (separate k r l s rfl rfl)
      change (k == l && r == s) = false
      rw [differ, Bool.and_false]

theorem keys_apart {vs : List Value} {ws : List Written} (restored : List.Forall₂ (Restored g d) vs ws)
    (separate : vs.Pairwise fun v u => ∀ k r l s, v = .ref k r → u = .ref l s → r ≠ s) (asKey : ∀ w ∈ ws, w.AsKey)
    (apart : ws.Pairwise Written.Apart) :
    (∀ v ∈ vs, v.keptKey = v) ∧ (∀ v ∈ vs, g.key v = .ok (g.keyOf v)) ∧
      vs.Pairwise fun v u => (g.keyOf v).same (g.keyOf u) = false := by
  have each : ∀ v ∈ vs, v.keptKey = v ∧ g.key v = .ok (g.keyOf v) := by
    intro v mem
    obtain ⟨w, hw, rel⟩ := forall₂_exists restored mem
    obtain ⟨kept, key, -⟩ := rel.key_cases (asKey w hw)
    exact ⟨kept, key⟩
  refine ⟨fun v mem => (each v mem).1, fun v mem => (each v mem).2, ?_⟩
  clear each
  induction restored with
  | nil => exact .nil
  | @cons v w vs ws first rest ih =>
    obtain ⟨separateHere, separate⟩ := List.pairwise_cons.mp separate
    obtain ⟨apartHere, apart⟩ := List.pairwise_cons.mp apart
    refine .cons (fun u mem => ?_) (ih separate (fun w hw => asKey w (by simp [hw])) apart)
    obtain ⟨w', hw', rel⟩ := forall₂_exists rest mem
    exact first.key_apart rel (asKey w (by simp)) (asKey w' (by simp [hw'])) (apartHere w' hw') (separateHere u mem)

end

/-! ## Reading -/

theorem WholeKind.bounds (k : WholeKind) {n : Int} (fits : k.wrap n = n) :
    -0x8000000000000000 ≤ n ∧ n < 0x8000000000000000 := by
  rw [← fits]
  have low := @Int.le_bmod n (2 ^ k.bits) (Nat.two_pow_pos _)
  have high := @Int.bmod_lt n (2 ^ k.bits) (Nat.two_pow_pos _)
  cases k <;> simp only [WholeKind.wrap, WholeKind.bits] at low high ⊢ <;> omega

namespace UnpackValue

variable {d : Nat} (xs : List (Value × Value))

open UnpackHeap (Yields yields_lift yields_pure)

def readItems (d : Nat) : UnpackValue (List Value) := do
  let n ← (Unpack.listLength : StateT Bytes Option _)
  times (value d) (n.getD 0)

def readPayload (d : Nat) : Option Kind → UnpackValue Value
  | some .null => do (Unpack.absent : StateT Bytes Option _); return .null
  | some .bool => do return .bool (← (Unpack.bool : StateT Bytes Option _))
  | some (.whole k) => do return .ofInt k (← (Unpack.int : StateT Bytes Option _))
  | some (.real k) => do return .ofReal k (← (Unpack.double : StateT Bytes Option _))
  | some (.text k) => do return .text k (← (Unpack.text : StateT Bytes Option _))
  | some .tuple => do return .tuple (← readItems d)
  | some (.ref .array) => do
    let xs ← readItems d
    make (·.newArray xs.toArray)
  | some (.ref .set) => do
    let xs ← readItems d
    let table ← ofCrash ((← get).setOf xs)
    make (·.newSet table)
  | some (.ref .map) => do
    let (es, zero) := entries (← readItems d)
    let table ← ofCrash ((← get).mapOf es zero)
    make (·.newMap table)
  | _ => failure

theorem yields_tagged {k : Kind} {g g' : Heap} {payload : Bytes} {v : Value}
    (read : Yields (readPayload d (some k)) g payload v g') : Yields (value (d + 1)) g (packTagged k payload) v g' := by
  have two : (Unpack.listLength).Yields (Pack.listHead 2) (some 2) := Unpack.yields_listLength (by decide)
  have number : k.number.toUInt8.toNat = k.number := by
    rcases k with _ | _ | k | k | k | _ | k | _ | k <;> first | rfl | (cases k <;> rfl)
  have kind : (Unpack.natMod 8).Yields (Pack.byte k.number) k.number := by
    have byte := Unpack.yields_natMod_byte k.number.toUInt8
    rwa [number] at byte
  have tail : Yields ((liftM (Unpack.natMod 8) : UnpackValue Nat) >>= fun n => readPayload d (Kind.ofNumber? n)) g
      (Pack.byte k.number ++ payload) v g' := by
    refine (yields_lift kind g).bind ?_
    rw [Kind.ofNumber?_number]
    exact read
  rw [value, packTagged, List.append_assoc]
  exact (yields_lift two g).bind tail

section

variable {d : Nat} {ws : List Written}

/-- Values are read one after another. -/
theorem yields_times (each : ∀ w ∈ ws, ∀ g, ∃ v g', Yields (value d) g w.pack v g' ∧ Made g g' d v w) (g : Heap) :
    ∃ vs g', Yields (times (value d) ws.length) g (ws.map Written.pack).flatten vs g' ∧ MadeEach g g' d vs ws := by
  induction ws generalizing g with
  | nil => exact ⟨[], g, yields_pure [] g, .nil g d⟩
  | cons w rest ih =>
    obtain ⟨v, g', read, made⟩ := each w (by simp) g
    obtain ⟨vs, g'', more, madeEach⟩ := ih (fun w mem => each w (by simp [mem])) g'
    exact ⟨v :: vs, g'', read.bind (more.map (v :: ·)), .cons made madeEach⟩

theorem yields_items (few : ws.length < 0x100000000)
    (each : ∀ w ∈ ws, ∀ g, ∃ v g', Yields (value d) g w.pack v g' ∧ Made g g' d v w) (g : Heap) :
    ∃ vs g', Yields (readItems d) g (Pack.list (ws.map Written.pack)) vs g' ∧ MadeEach g g' d vs ws := by
  obtain ⟨vs, g', read, made⟩ := yields_times each g
  have length := Unpack.yields_listLength few
  rw [← List.length_map Written.pack] at length
  refine ⟨vs, g', (yields_lift length g).bind ?_, made⟩
  simpa using read

end

section

variable {g g' : Heap} {d : Nat} {vs : List Value} {ws : List Written}

theorem made_tuple (made : MadeEach g g' d vs ws) : Made g g' (d + 1) (.tuple vs) (.parts .tuple ws) where
  grows := made.grows
  closed := made.closed
  inside r hr := made.refs_new hr
  written := by
    change (do return .parts .tuple (← vs.mapM (g'.writtenAt d)) : Except Crash Written) = _
    rw [made.mapM_written (.refl g')]
    rfl
  plain x plain := by
    obtain ⟨xs, each, rfl⟩ := Option.map_eq_some_iff.mp plain
    rw [made.plainEach each]

theorem made_cell (made : MadeEach g g' d vs ws) {c : Cell} {k : RefKind} (inside : ∀ q ∈ c.refs, New g g' q)
    (written : (g'.alloc c).2.writtenAt (d + 1) (.ref k g'.cells.size) =
      (do return .parts (.ref k) (← vs.mapM ((g'.alloc c).2.writtenAt d)))) :
    Made g (g'.alloc c).2 (d + 1) (.ref k g'.cells.size) (.parts (.ref k) ws) := by
  obtain ⟨closed, new⟩ := made.closed.new_alloc made.grows inside
  refine ⟨⟨?_, nofun⟩, made.grows.trans (Heap.extends_alloc g' c), closed, ?_⟩
  · rw [written, made.mapM_written (Heap.extends_alloc g' c)]
    rfl
  · intro r hr
    rw [List.mem_singleton.mp hr]
    exact new

theorem entries_of_parts {R : Value → Written → Prop} {es : List (Written × Written)} {zero : Option Written} :
    ∀ {vs : List Value}, List.Forall₂ R vs (Written.mapParts es zero) →
      ∃ (xs : List (Value × Value)) (z : Option Value), vs = xs.flatMap (fun e => [e.1, e.2]) ++ z.toList ∧
        entries vs = (xs, z.getD .null) ∧ List.Forall₂ (fun x e => R x.1 e.1) xs es ∧
        (∀ v ∈ z, ∃ w ∈ zero, R v w) := by
  induction es with
  | nil =>
    intro vs all
    cases zero with
    | none =>
      cases all
      exact ⟨[], none, rfl, rfl, .nil, nofun⟩
    | some w =>
      cases all with
      | @cons v _ _ _ rel rest =>
        cases rest
        refine ⟨[], some v, rfl, rfl, .nil, fun u mem => ?_⟩
        cases mem
        exact ⟨w, rfl, rel⟩
  | cons e es ih =>
    intro vs all
    cases all with
    | @cons k _ _ _ first rest =>
      cases rest with
      | @cons v _ vs _ second rest =>
        obtain ⟨xs, z, rfl, read, keys, zeros⟩ := ih rest
        refine ⟨(k, v) :: xs, z, rfl, ?_, .cons first keys, zeros⟩
        rw [entries, read]

end

theorem keys_sublist : List.Sublist (xs.map (·.1)) (xs.flatMap fun e => [e.1, e.2]) := by
  induction xs with
  | nil => exact .slnil
  | cons e rest ih => exact .cons_cons _ (.cons _ ih)

theorem zip_entries : (xs.map (·.1)).zip (xs.map (·.2)) = xs := by
  induction xs with
  | nil => rfl
  | cons e rest ih => rw [List.map_cons, List.map_cons, List.zip_cons_cons, ih]

/-- A map with given entries. -/
def tableOf (xs : List (Value × Value)) (index : List (Key × Nat)) (zero : Value) : MapTable :=
  { keys := (xs.map (·.1)).toArray, vals := (xs.map (·.2)).toArray, index, zero }

theorem parts_tableOf (index : List (Key × Nat)) {z : Option Value} (nonzero : ∀ v ∈ z, v ≠ .null) :
    (tableOf xs index (z.getD .null)).parts = xs.flatMap (fun e => [e.1, e.2]) ++ z.toList := by
  rw [MapTable.parts, tableOf]
  dsimp only
  rw [zip_entries]
  cases z with
  | none => rfl
  | some v =>
    have other := nonzero v rfl
    cases v <;> first | rfl | exact absurd rfl other

theorem refs_tableOf {xs : List (Value × Value)} {index : List (Key × Nat)} {z : Option Value} {q : Ref}
    (mem : q ∈ (Cell.map (tableOf xs index (z.getD .null))).refs) :
    q ∈ Value.refsOf (xs.flatMap (fun e => [e.1, e.2]) ++ z.toList) := by
  change q ∈ Value.refsOf (z.getD .null :: (xs.map (·.1) ++ xs.map (·.2))) at mem
  obtain ⟨v, hv, hq⟩ := Value.of_mem_refsOf mem
  rcases List.mem_cons.mp hv with rfl | hv
  · cases z with
    | none => cases hq
    | some v => exact Value.refs_subset_refsOf (by simp) hq
  · refine Value.refs_subset_refsOf (List.mem_append_left _ (List.mem_flatMap.mpr ?_)) hq
    rcases List.mem_append.mp hv with hv | hv
    · obtain ⟨e, he, rfl⟩ := List.mem_map.mp hv
      exact ⟨e, he, by simp⟩
    · obtain ⟨e, he, rfl⟩ := List.mem_map.mp hv
      exact ⟨e, he, by simp⟩

section

variable {d : Nat} {ws : List Written}

theorem yields_cell {k : RefKind} {g g' : Heap} {vs : List Value} {c : Cell} {f : List Value → UnpackValue Value}
    (read : Yields (readItems d) g (Pack.list (ws.map Written.pack)) vs g')
    (payload : readPayload d (some (.ref k)) = readItems d >>= f)
    (made : ∀ rest, f vs g' rest = some ((.ref k g'.cells.size, (g'.alloc c).2), rest)) :
    Yields (value (d + 1)) g (Written.parts (.ref k) ws).pack (.ref k g'.cells.size) (g'.alloc c).2 := by
  have cell := read.bind (q := []) (f := f) made
  rw [List.append_nil, ← payload] at cell
  rw [Written.pack_parts]
  exact yields_tagged cell

variable (few : ws.length < 0x100000000)
  (each : ∀ w ∈ ws, ∀ g, ∃ v g', Yields (value d) g w.pack v g' ∧ Made g g' d v w)
include few each

theorem yields_array (g : Heap) : ∃ v g', Yields (value (d + 1)) g (Written.parts (.ref .array) ws).pack v g' ∧
    Made g g' (d + 1) v (.parts (.ref .array) ws) := by
  obtain ⟨vs, g', read, made⟩ := yields_items few each g
  refine ⟨.ref .array g'.cells.size, (g'.alloc (.array vs.toArray)).2, yields_cell read rfl fun rest => rfl,
    made_cell made (fun q hq => made.refs_new hq) ?_⟩
  simp [Heap.writtenAt, Heap.items, Heap.alloc, Value.kind]

theorem yields_set (keys : ∀ w ∈ ws, w.AsKey) (apart : ws.Pairwise Written.Apart) (g : Heap) :
    ∃ v g', Yields (value (d + 1)) g (Written.parts (.ref .set) ws).pack v g' ∧
      Made g g' (d + 1) v (.parts (.ref .set) ws) := by
  obtain ⟨vs, g', read, made⟩ := yields_items few each g
  obtain ⟨kept, keyed, distinct⟩ := keys_apart made.restored made.separate keys apart
  have table : g'.setOf vs = .ok { members := vs.map g'.keyOf, order := vs } := by
    have all := SetTable.ofList_eq keyed kept distinct {} nofun
    simpa [Heap.setOf] using all
  refine ⟨.ref .set g'.cells.size, (g'.alloc (.set { members := vs.map g'.keyOf, order := vs })).2,
    yields_cell read rfl fun rest => ?_, made_cell made (fun q hq => made.refs_new hq) ?_⟩
  · change (ofCrash (g'.setOf vs) >>= fun table => make (·.newSet table)) g' _ = _
    rw [table]
    rfl
  · simp [Heap.writtenAt, Heap.setTable, Heap.alloc, Value.kind]

end

theorem yields_map {es : List (Written × Written)} {zero : Option Written}
    (few : (Written.mapParts es zero).length < 0x100000000)
    (each : ∀ w ∈ Written.mapParts es zero, ∀ g, ∃ v g', Yields (value d) g w.pack v g' ∧ Made g g' d v w)
    (keys : ∀ e ∈ es, e.1.AsKey) (apart : (es.map (·.1)).Pairwise Written.Apart) (nonzero : zero ≠ some .null) (g : Heap) :
    ∃ v g', Yields (value (d + 1)) g (Written.parts (.ref .map) (Written.mapParts es zero)).pack v g' ∧
      Made g g' (d + 1) v (.parts (.ref .map) (Written.mapParts es zero)) := by
  obtain ⟨vs, g', read, made⟩ := yields_items few each g
  obtain ⟨xs, z, form, split, rel, zeros⟩ := entries_of_parts made.restored
  have sublist : List.Sublist (xs.map (·.1)) vs := by
    rw [form]
    exact (keys_sublist xs).trans (List.sublist_append_left _ _)
  have restored : List.Forall₂ (Restored g' d) (xs.map (·.1)) (es.map (·.1)) := by
    rw [List.forall₂_map_left_iff, List.forall₂_map_right_iff]
    exact rel
  have asKey : ∀ w ∈ es.map (·.1), w.AsKey := by
    intro w mem
    obtain ⟨e, he, rfl⟩ := List.mem_map.mp mem
    exact keys e he
  obtain ⟨kept, keyed, distinct⟩ := keys_apart restored (made.separate.sublist sublist) asKey apart
  have nonnull : ∀ v ∈ z, v ≠ .null := by
    intro v mem same
    obtain ⟨w, hw, zero⟩ := zeros v mem
    have written := zero.written
    rw [same] at written
    cases d with
    | zero => cases written
    | succ d =>
      cases written
      exact nonzero hw
  obtain ⟨index, table, -⟩ := MapTable.insertAll_eq (fun e he => keyed e.1 (List.mem_map_of_mem he))
    (fun e he => kept e.1 (List.mem_map_of_mem he)) (List.pairwise_map.mp distinct) { zero := z.getD .null } nofun
  have made_table : g'.mapOf xs (z.getD .null) = .ok (tableOf xs index (z.getD .null)) := by
    simpa [Heap.mapOf, tableOf] using table
  refine ⟨.ref .map g'.cells.size, (g'.alloc (.map (tableOf xs index (z.getD .null)))).2,
    yields_cell read rfl fun rest => ?_, made_cell made (fun q hq => ?_) ?_⟩
  · dsimp only
    rw [split]
    change (ofCrash (g'.mapOf xs (z.getD .null)) >>= fun table => make (·.newMap table)) g' _ = _
    rw [made_table]
    rfl
  · refine made.refs_new ?_
    rw [form]
    exact refs_tableOf hq
  · have parts := parts_tableOf xs index nonnull
    rw [← form] at parts
    simp [Heap.writtenAt, Heap.mapTable, Heap.alloc, Value.kind, parts]

theorem yields_value : ∀ {w : Written}, w.Readable d → ∀ g : Heap,
    ∃ v g', Yields (value d) g w.pack v g' ∧ Made g g' d v w := by
  induction d with
  | zero =>
    intro w readable
    cases readable
  | succ d ih =>
    intro w readable g
    -- a value that needs no new cell
    have atom {v : Value} (none : v.refs = []) (written : g.writtenAt (d + 1) v = .ok w)
        (plain : w.plain? = some v) : Made g g (d + 1) v w :=
      ⟨⟨written, fun x same => Option.some.inj (plain.symm.trans same)⟩, .refl g, Heap.closed_new_self g,
        fun r hr => by rw [none] at hr; cases hr⟩
    cases readable with
    | null =>
      exact ⟨.null, g, yields_tagged ((yields_lift Unpack.yields_absent g).map fun _ => Value.null), atom rfl rfl rfl⟩
    | bool b =>
      exact ⟨.bool b, g, yields_tagged ((yields_lift (Unpack.yields_bool b) g).map Value.bool), atom rfl rfl rfl⟩
    | @whole _ k n fits =>
      obtain ⟨low, high⟩ := k.bounds fits
      have read := (yields_lift (Unpack.yields_int low high) g).map (Value.ofInt k)
      rw [Value.ofInt, fits] at read
      exact ⟨.whole k n, g, yields_tagged read, atom rfl rfl rfl⟩
    | @real _ k bits small fits =>
      have read := (yields_lift (Unpack.yields_double small) g).map (Value.ofReal k)
      have written : g.writtenAt (d + 1) (.ofReal k (Float.ofBits bits.toUInt64)) = .ok (.real k bits) := by
        change Except.ok (Written.real k (storedBits k (k.round (Float.ofBits bits.toUInt64)))) = _
        rw [fits]
      exact ⟨_, g, yields_tagged read, atom rfl written rfl⟩
    | @text _ k s short =>
      exact ⟨.text k s, g, yields_tagged ((yields_lift (Unpack.yields_text short) g).map (Value.text k)), atom rfl rfl rfl⟩
    | @tuple _ items few each =>
      obtain ⟨vs, g', read, made⟩ := yields_items few (fun w mem => ih (each w mem)) g
      refine ⟨.tuple vs, g', ?_, made_tuple made⟩
      rw [Written.pack_parts]
      exact yields_tagged (read.map Value.tuple)
    | array few each => exact yields_array few (fun w mem => ih (each w mem)) g
    | set few each keys apart => exact yields_set few (fun w mem => ih (each w mem)) keys apart g
    | map few each keys apart nonzero => exact yields_map few (fun w mem => ih (each w mem)) keys apart nonzero g

end UnpackValue

end LedgerScript
