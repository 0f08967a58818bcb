import LedgerScript.Proofs.Value.Copies

/-!
# Data

Storage and arguments are meant to hold data: null, truth values, numbers, texts, and tuples, arrays, sets and maps of these,
nested to a finite depth.  `Heap.Datum` says so of a value, with the conditions under which storing loses nothing: numbers and
lengths fit, and the members of sets and the keys of maps can be told apart.

A datum stays one on a larger heap, and what is written of it can be read back.
-/

namespace LedgerScript

/-! ## Keys -/

theorem Heap.key_of_refs {v : Value} (none : v.refs = []) (g : Heap) : g.key v = Heap.key {} v := by
  have nothing : Heap.Closed {} fun _ => False := nofun
  have empty : Heap.Extends {} g := by
    intro r c there
    simp at there
  refine nothing.keyAt_eq empty Heap.keyRounds v fun r hr => ?_
  rw [none] at hr
  cases hr

/-- The value can be a key: it is a container, or it has no references. -/
structure Value.Keyed (v : Value) : Prop where
  kept : v.keptKey = v
  form : v.refs = [] ∨ ∃ k r, v = .ref k r
  key : ∃ k, Heap.key {} v = .ok k

/-- The key form of something that can be a key is the same on every heap. -/
theorem Value.Keyed.key_eq {v : Value} (keyed : v.Keyed) (g : Heap) : g.key v = .ok (Heap.keyOf {} v) := by
  obtain ⟨k, key⟩ := keyed.key
  have here : Heap.keyOf {} v = k := by rw [Heap.keyOf, key]
  rw [here]
  rcases keyed.form with none | ⟨kind, r, rfl⟩
  · exact (Heap.key_of_refs none g).trans key
  · exact key

structure Value.Keys (vs : List Value) : Prop where
  each : ∀ v ∈ vs, v.Keyed
  apart : vs.Pairwise fun v u => (Heap.keyOf {} v).same (Heap.keyOf {} u) = false

/-- On every heap they can be told apart. -/
theorem Value.Keys.here {vs : List Value} (keys : Value.Keys vs) (g : Heap) : g.Keys vs := by
  have form (v : Value) (mem : v ∈ vs) : g.keyOf v = Heap.keyOf {} v := by rw [Heap.keyOf, (keys.each v mem).key_eq g]
  refine ⟨fun v mem => (keys.each v mem).kept, fun v mem => ?_, keys.apart.imp_of_mem fun mem mem' apart => ?_⟩
  · rw [(keys.each v mem).key_eq g, form v mem]
  · rwa [form _ mem, form _ mem']

/-- What relates keys and values one by one relates the entries. -/
theorem forall₂_entries {α β : Type} {R : α → β → Prop} {ks vs : List α} {ls us : List β} (keys : List.Forall₂ R ks ls)
    (vals : List.Forall₂ R vs us) :
    List.Forall₂ R ((ks.zip vs).flatMap fun e => [e.1, e.2]) ((ls.zip us).flatMap fun e => [e.1, e.2]) := by
  induction keys generalizing vs us with
  | nil => exact .nil
  | cons key keys ih =>
    cases vals with
    | nil => exact .nil
    | cons val vals => exact .cons key (.cons val (ih vals))

/-! ## Data on a heap -/

namespace Heap

/-- A value that is data, nested to a depth at most. -/
inductive Datum (h : Heap) : Nat → Value → Prop where
  | null {d : Nat} : Datum h (d + 1) .null
  | bool {d : Nat} (b : Bool) : Datum h (d + 1) (.bool b)
  | whole {d : Nat} {k : WholeKind} {n : Int} (fits : k.wrap n = n) : Datum h (d + 1) (.whole k n)
  | real {d : Nat} {k : RealKind} {x : Float} (exact : k.round (Float.ofBits (storedBits k x).toUInt64) = x) :
    Datum h (d + 1) (.real k x)
  | text {d : Nat} {k : TextKind} {s : Bytes} (short : s.length < 0x100000000) : Datum h (d + 1) (.text k s)
  | tuple {d : Nat} {items : List Value} (few : items.length < 0x100000000) (each : ∀ v ∈ items, Datum h d v) :
    Datum h (d + 1) (.tuple items)
  | array {d : Nat} {r : Ref} {items : Array Value} (cell : h.cells[r]? = some (.array items))
    (few : items.size < 0x100000000) (each : ∀ v ∈ items.toList, Datum h d v) : Datum h (d + 1) (.ref .array r)
  | set {d : Nat} {r : Ref} {t : SetTable} (cell : h.cells[r]? = some (.set t)) (few : t.order.length < 0x100000000)
    (each : ∀ v ∈ t.order, Datum h d v) (keys : Value.Keys t.order) : Datum h (d + 1) (.ref .set r)
  | map {d : Nat} {r : Ref} {m : MapTable} (cell : h.cells[r]? = some (.map m)) (paired : m.keys.size = m.vals.size)
    (few : m.parts.length < 0x100000000) (each : ∀ v ∈ m.zero :: m.keys.toList ++ m.vals.toList, Datum h d v)
    (keys : Value.Keys m.keys.toList) : Datum h (d + 1) (.ref .map r)

namespace Datum

variable {h h' : Heap} {d : Nat} {v : Value}

theorem mono (datum : h.Datum d v) (grows : h.Extends h') : h'.Datum d v := by
  induction datum with
  | null => exact .null
  | bool b => exact .bool b
  | whole fits => exact .whole fits
  | real exact => exact .real exact
  | text short => exact .text short
  | tuple few _ ih => exact .tuple few ih
  | array cell few _ ih => exact .array (grows _ _ cell) few ih
  | set cell few _ keys ih => exact .set (grows _ _ cell) few ih keys
  | map cell paired few _ keys ih => exact .map (grows _ _ cell) paired few ih keys

/-- If all that a value reaches was there before the heap grew, it was a datum before. -/
theorem of_extends {S : Ref → Prop} (datum : h'.Datum d v) (grows : h.Extends h') (closed : h.Closed S)
    (inside : v.Within S) : h.Datum d v := by
  -- The same cells are there, with the same contents.
  have before {r : Ref} {c : Cell} (here : S r) (cell : h'.cells[r]? = some c) :
      h.cells[r]? = some c ∧ ∀ q ∈ c.refs, S q := by
    obtain ⟨c', old, new, within⟩ := closed.cell_eq grows here
    cases new.symm.trans cell
    exact ⟨old, within⟩
  induction datum with
  | null => exact .null
  | bool b => exact .bool b
  | whole fits => exact .whole fits
  | real exact => exact .real exact
  | text short => exact .text short
  | tuple few _ ih => exact .tuple few fun v mem => ih v mem (Value.within_of_refsOf inside v mem)
  | array cell few _ ih =>
    obtain ⟨cell, within⟩ := before (inside _ (by simp [Value.refs])) cell
    exact .array cell few fun v mem => ih v mem (Value.within_of_refsOf within v mem)
  | set cell few _ keys ih =>
    obtain ⟨cell, within⟩ := before (inside _ (by simp [Value.refs])) cell
    exact .set cell few (fun v mem => ih v mem (Value.within_of_refsOf within v mem)) keys
  | map cell paired few _ keys ih =>
    obtain ⟨cell, within⟩ := before (inside _ (by simp [Value.refs])) cell
    exact .map cell paired few (fun v mem => ih v mem (Value.within_of_refsOf within v mem)) keys

theorem intact (datum : h.Datum d v) : h.Whole v := by
  -- The cells of data, of whatever depth.
  let S (r : Ref) : Prop := ∃ d k, h.Datum d (.ref k r)
  have inside : ∀ {d : Nat} {v : Value}, h.Datum d v → v.Within S := by
    intro d v datum
    induction datum with
    | null | bool | whole | real | text => exact fun r mem => by cases mem
    | tuple few each ih =>
      intro r mem
      obtain ⟨v, hv, hr⟩ := Value.of_mem_refsOf mem
      exact ih v hv r hr
    | array cell few each =>
      intro r mem
      rw [List.mem_singleton.mp mem]
      exact ⟨_, _, .array cell few each⟩
    | set cell few each keys =>
      intro r mem
      rw [List.mem_singleton.mp mem]
      exact ⟨_, _, .set cell few each keys⟩
    | map cell paired few each keys =>
      intro r mem
      rw [List.mem_singleton.mp mem]
      exact ⟨_, _, .map cell paired few each keys⟩
  have contents {vs : List Value} {d : Nat} (each : ∀ v ∈ vs, h.Datum d v) : ∀ q ∈ Value.refsOf vs, S q := by
    intro q mem
    obtain ⟨v, hv, hq⟩ := Value.of_mem_refsOf mem
    exact inside (each v hv) q hq
  refine ⟨S, ⟨fun r here => ?_, fun r c here there => ?_⟩, inside datum⟩
  · obtain ⟨d, k, datum⟩ := here
    cases datum with
    | array cell few each => exact ⟨_, cell, contents each⟩
    | set cell few each keys => exact ⟨_, cell, contents each⟩
    | map cell paired few each keys => exact ⟨_, cell, contents each⟩
  · obtain ⟨d, k, datum⟩ := here
    cases datum with
    | array cell few each =>
      cases there.symm.trans cell
      trivial
    | set cell few each keys =>
      cases there.symm.trans cell
      exact keys.here h
    | map cell paired few each keys =>
      cases there.symm.trans cell
      exact ⟨keys.here h, paired⟩

/-- The heap holds its data. -/
theorem holds (datum : h.Datum d v) : h.Holds v :=
  datum.intact.holds

theorem writtenAt_eq (datum : h.Datum d v) (grows : h.Extends h') : h'.writtenAt d v = h.writtenAt d v := by
  obtain ⟨S, closed, inside⟩ := datum.holds
  exact closed.writtenAt_eq grows d v inside

end Datum

end Heap

/-! ## What is written of data -/

/-- The tree of a datum: it can be read back, and as a key if the datum can be one. -/
structure Written.TreeOf (h : Heap) (d : Nat) (v : Value) (w : Written) : Prop where
  written : h.writtenAt d v = .ok w
  readable : w.Readable d
  plain : v.refs = [] → w.plain? = some v
  container : ∀ k r, v = .ref k r → ∃ items, w = .parts (.ref k) items

namespace Written.TreeOf

variable {h : Heap} {d : Nat} {v u : Value} {w x : Written} {vs : List Value} {ws : List Written}

theorem asKey (tree : TreeOf h d v w) (keyed : v.Keyed) : w.AsKey := by
  rcases keyed.form with none | ⟨k, r, same⟩
  · obtain ⟨k, key⟩ := keyed.key
    exact .plain (tree.plain none) keyed.kept key
  · obtain ⟨items, rfl⟩ := tree.container k r same
    exact .ref k items

theorem eq_of_plain? (tree : TreeOf h d v w) (keyed : v.Keyed) {y : Value} (plain : w.plain? = some y) : y = v := by
  rcases keyed.form with none | ⟨k, r, same⟩
  · exact Option.some.inj (plain.symm.trans (tree.plain none))
  · obtain ⟨items, rfl⟩ := tree.container k r same
    cases plain

theorem apart (tree : TreeOf h d v w) (tree' : TreeOf h d u x) (keyed : v.Keyed) (keyed' : u.Keyed)
    (differ : (Heap.keyOf {} v).same (Heap.keyOf {} u) = false) : w.Apart x := by
  intro y z plain plain' k l key key'
  obtain rfl := tree.eq_of_plain? keyed plain
  obtain rfl := tree'.eq_of_plain? keyed' plain'
  rw [Heap.keyOf, Heap.keyOf, key, key'] at differ
  exact differ

theorem keys (trees : List.Forall₂ (TreeOf h d) vs ws) (keys : Value.Keys vs) :
    (∀ w ∈ ws, w.AsKey) ∧ ws.Pairwise Written.Apart := by
  induction trees with
  | nil => exact ⟨nofun, .nil⟩
  | @cons v w vs ws tree rest ih =>
    obtain ⟨here, later⟩ := List.pairwise_cons.mp keys.apart
    obtain ⟨asKey, apart⟩ := ih ⟨fun u mem => keys.each u (by simp [mem]), later⟩
    have keyed := keys.each v (by simp)
    refine ⟨?_, .cons (fun x mem => ?_) apart⟩
    · intro x mem
      rcases List.mem_cons.mp mem with rfl | mem
      · exact tree.asKey keyed
      · exact asKey x mem
    · obtain ⟨u, hu, tree'⟩ := forall₂_exists rest.flip mem
      exact tree.apart tree' keyed (keys.each u (by simp [hu])) (here u hu)

theorem mapM_written (trees : List.Forall₂ (TreeOf h d) vs ws) : vs.mapM (h.writtenAt d) = .ok ws :=
  mapM_eq_ok_iff.mpr (trees.imp fun _ _ tree => tree.written)

theorem readable_each (trees : List.Forall₂ (TreeOf h d) vs ws) : ∀ w ∈ ws, w.Readable d := by
  intro w mem
  obtain ⟨v, -, tree⟩ := forall₂_exists trees.flip mem
  exact tree.readable

theorem plainEach (trees : List.Forall₂ (TreeOf h d) vs ws) (none : Value.refsOf vs = []) :
    Written.plainEach ws = some vs := by
  induction trees with
  | nil => rfl
  | @cons v w vs ws tree rest ih =>
    obtain ⟨first, others⟩ := List.append_eq_nil_iff.mp none
    rw [Written.plainEach, tree.plain first, ih others]

theorem null (tree : TreeOf h d v .null) : v = .null := by
  cases d with
  | zero => cases tree.written
  | succ d =>
    cases v with
    | null => rfl
    | bool | whole | real | text => cases tree.written
    | task | handle => cases tree.plain rfl
    | tuple items =>
      obtain ⟨ws, -, made⟩ := of_bind_ok (x := items.mapM (h.writtenAt d)) tree.written
      cases made
    | ref k r =>
      obtain ⟨items, made⟩ := tree.container k r rfl
      cases made

theorem parts {m : MapTable} {kws vws : List Written} (keys : List.Forall₂ (TreeOf h d) m.keys.toList kws)
    (vals : List.Forall₂ (TreeOf h d) m.vals.toList vws) (zero : TreeOf h d m.zero w) :
    ∃ z : Option Written, z ≠ some .null ∧ List.Forall₂ (TreeOf h d) m.parts (mapParts (kws.zip vws) z) := by
  unfold MapTable.parts mapParts
  by_cases none : m.zero = .null
  · refine ⟨Option.none, nofun, List.rel_append (forall₂_entries keys vals) ?_⟩
    rw [none]
    exact .nil
  · refine ⟨some w, ?_, List.rel_append (forall₂_entries keys vals) ?_⟩
    · intro same
      cases same
      exact none zero.null
    · split
      · next same => exact absurd same none
      · exact .cons zero .nil

end Written.TreeOf

open Written (TreeOf)

/-- Every datum has a tree that can be read back. -/
theorem Heap.Datum.tree {h : Heap} {d : Nat} {v : Value} (datum : h.Datum d v) : ∃ w, TreeOf h d v w := by
  -- the trees of several data
  have trees {d : Nat} {vs : List Value} (each : ∀ v ∈ vs, ∃ w, TreeOf h d v w) :
      ∃ ws, List.Forall₂ (TreeOf h d) vs ws := by
    induction vs with
    | nil => exact ⟨[], .nil⟩
    | cons v rest ih =>
      obtain ⟨w, tree⟩ := each v (by simp)
      obtain ⟨ws, others⟩ := ih fun v mem => each v (by simp [mem])
      exact ⟨w :: ws, .cons tree others⟩
  induction datum with
  | null => exact ⟨.null, rfl, .null, fun _ => rfl, by simp⟩
  | bool b => exact ⟨.bool b, rfl, .bool b, fun _ => rfl, by simp⟩
  | @whole d k n fits => exact ⟨.whole k n, rfl, .whole fits, fun _ => rfl, by simp⟩
  | @real d k x exact =>
    have small : storedBits k x < 0x10000000000000000 := by
      unfold storedBits
      split
      · cases k <;> decide
      · exact x.toBits.toNat_lt
    refine ⟨.real k (storedBits k x), rfl, .real small (by rw [exact]), fun _ => ?_, by simp⟩
    rw [Written.plain?, exact]
  | @text d k s short => exact ⟨.text k s, rfl, .text short, fun _ => rfl, by simp⟩
  | @tuple d items few each ih =>
    obtain ⟨ws, made⟩ := trees ih
    refine ⟨.parts .tuple ws, ?_, .tuple (made.length_eq ▸ few) (TreeOf.readable_each made), fun none => ?_, by simp⟩
    · change (do return Written.parts .tuple (← items.mapM (h.writtenAt d)) : Except Crash Written) = _
      rw [TreeOf.mapM_written made]
      rfl
    · rw [Written.plain?, TreeOf.plainEach made none]
      rfl
  | @array d r items cell few each ih =>
    obtain ⟨ws, made⟩ := trees ih
    have length : ws.length = items.size := by rw [← made.length_eq, Array.length_toList]
    refine ⟨.parts (.ref .array) ws, ?_, .array (length ▸ few) (TreeOf.readable_each made), (fun none => by cases none),
      fun k q same => ?_⟩
    · change (do return Written.parts (.ref .array) (← (h.items r).toList.mapM (h.writtenAt d)) : Except Crash Written) = _
      rw [Heap.items, cell, TreeOf.mapM_written made]
      rfl
    · cases same
      exact ⟨ws, rfl⟩
  | @set d r t cell few each keys ih =>
    obtain ⟨ws, made⟩ := trees ih
    obtain ⟨asKey, apart⟩ := TreeOf.keys made keys
    refine ⟨.parts (.ref .set) ws, ?_, .set (made.length_eq ▸ few) (TreeOf.readable_each made) asKey apart,
      (fun none => by cases none), fun k q same => ?_⟩
    · change (do return Written.parts (.ref .set) (← (h.setTable r).order.mapM (h.writtenAt d)) : Except Crash Written) = _
      rw [Heap.setTable, cell, TreeOf.mapM_written made]
      rfl
    · cases same
      exact ⟨ws, rfl⟩
  | @map d r m cell paired few each keys ih =>
    have keyEach : ∀ v ∈ m.keys.toList, ∃ w, TreeOf h d v w := fun v mem => ih v (by simp [Array.mem_toList_iff.mp mem])
    have valEach : ∀ v ∈ m.vals.toList, ∃ w, TreeOf h d v w := fun v mem => ih v (by simp [Array.mem_toList_iff.mp mem])
    obtain ⟨kws, keyTrees⟩ := trees keyEach
    obtain ⟨vws, valTrees⟩ := trees valEach
    obtain ⟨zw, zeroTree⟩ := ih m.zero (by simp)
    obtain ⟨z, nonzero, made⟩ := TreeOf.parts keyTrees valTrees zeroTree
    obtain ⟨asKey, apart⟩ := TreeOf.keys keyTrees keys
    have same : (kws.zip vws).map (·.1) = kws := by
      refine List.map_fst_zip (Nat.le_of_eq ?_)
      rw [← keyTrees.length_eq, ← valTrees.length_eq]
      simpa using paired
    have entryKeys : ∀ e ∈ kws.zip vws, e.1.AsKey := fun e mem => asKey e.1 (same ▸ List.mem_map_of_mem mem)
    refine ⟨.parts (.ref .map) (Written.mapParts (kws.zip vws) z), ?_,
      .map (made.length_eq ▸ few) (TreeOf.readable_each made) entryKeys (by rwa [same]) nonzero,
      (fun none => by cases none), fun k q same => ?_⟩
    · change (do return Written.parts (.ref .map) (← (h.mapTable r).parts.mapM (h.writtenAt d)) : Except Crash Written) = _
      rw [Heap.mapTable, cell, TreeOf.mapM_written made]
      rfl
    · cases same
      exact ⟨_, rfl⟩

end LedgerScript

/-!
## What is written of copies

A copy of a datum is a datum, and the same is written of it as of the original.
-/

namespace LedgerScript

theorem mapM_of_forall₂ {ε α β γ : Type} {f : α → Except ε γ} {g : β → Except ε γ} {xs : List α} {ys : List β}
    (same : List.Forall₂ (fun x y => g y = f x) xs ys) : ys.mapM g = xs.mapM f := by
  induction same with
  | nil => rfl
  | cons first rest ih => rw [List.mapM_cons, List.mapM_cons, first, ih]

theorem MapTable.forall₂_parts {R : Value → Value → Prop} {m m' : MapTable} (keys : List.Forall₂ R m.keys.toList m'.keys.toList)
    (vals : List.Forall₂ R m.vals.toList m'.vals.toList) (zero : m'.zero = m.zero) (self : R m.zero m.zero) :
    List.Forall₂ R m.parts m'.parts := by
  unfold MapTable.parts
  refine List.rel_append (forall₂_entries keys vals) ?_
  rw [zero]
  split
  · exact .nil
  · exact .cons self .nil

namespace Copied

variable {h : Heap} {S : Ref → Prop} {s : CopyState} {d : Nat}
variable {g : Heap} {vs : List Value}

def Faithful (h g : Heap) (d : Nat) (v u : Value) : Prop :=
  g.Datum d u ∧ g.writtenAt d u = h.writtenAt d v

theorem faithful_self {v : Value} (datum : h.Datum d v) (grows : h.Extends g) : Faithful h g d v v :=
  ⟨datum.mono grows, datum.writtenAt_eq grows⟩

theorem faithful_each (each : ∀ v ∈ vs, h.Datum d v) (grows : h.Extends g) : List.Forall₂ (Faithful h g d) vs vs :=
  List.forall₂_same.mpr fun v mem => faithful_self (each v mem) grows

theorem datum_each {us : List Value} (faithful : List.Forall₂ (Faithful h g d) vs us) : ∀ u ∈ us, g.Datum d u := by
  intro u mem
  obtain ⟨v, -, same⟩ := forall₂_exists faithful.flip mem
  exact same.1

theorem mapM_written {us : List Value} (faithful : List.Forall₂ (Faithful h g d) vs us) :
    us.mapM (g.writtenAt d) = vs.mapM (h.writtenAt d) :=
  mapM_of_forall₂ (faithful.imp fun _ _ same => same.2)

theorem faithful (copied : Copied h S [] s) {v : Value} (datum : h.Datum d v) :
    ∀ {u : Value}, Value.Renamed h s.copied v u → Faithful h s.heap d v u := by
  have whole := datum
  -- the copies of several data
  have each {d : Nat} {vs : List Value}
      (ih : ∀ v ∈ vs, ∀ {u : Value}, Value.Renamed h s.copied v u → Faithful h s.heap d v u) :
      ∀ {us : List Value}, Value.RenamedEach h s.copied vs us → List.Forall₂ (Faithful h s.heap d) vs us := by
    intro us renamed
    induction vs generalizing us with
    | nil =>
      cases renamed
      exact .nil
    | cons v rest later =>
      cases renamed with
      | cons first others => exact .cons (ih v (by simp) first) (later (fun v mem => ih v (by simp [mem])) others)
  -- a container of a datum is not shared
  have container {r : Ref} {c : Cell} (cell : h.cells[r]? = some c) (own : c.isShared = false) : ¬ h.Shares r := by
    rintro ⟨c', there, shared⟩
    cases cell.symm.trans there
    rw [own] at shared
    cases shared
  induction datum with
  | null | bool | whole | real | text =>
    intro u renamed
    cases renamed
    exact faithful_self whole copied.grows
  | @tuple d items few members ih =>
    intro u renamed
    cases renamed with
    | same bare => exact faithful_self whole copied.grows
    | @tuple _ us renamed =>
      have same := each (fun v mem => ih v mem (members v mem)) renamed
      refine ⟨.tuple (same.length_eq ▸ few) (datum_each same), ?_⟩
      change (do return Written.parts .tuple (← us.mapM (s.heap.writtenAt d)) : Except Crash Written) =
        (do return Written.parts .tuple (← items.mapM (h.writtenAt d)))
      rw [mapM_written same]
  | @array d r items cell few members ih =>
    intro u renamed
    cases renamed with
    | same bare => cases bare
    | shared common => exact (container cell rfl common).elim
    | @ref _ _ q there =>
      obtain ⟨c, c', old, new, renamed⟩ := copied.filled _ there nofun
      cases cell.symm.trans old
      cases renamed with
      | @array _ items' renamed =>
        have same := each (fun v mem => ih v mem (members v mem)) renamed
        have size : items'.size = items.size := by simpa using same.length_eq.symm
        refine ⟨.array new (size ▸ few) (datum_each same), ?_⟩
        change (do return Written.parts (.ref .array) (← (s.heap.items q).toList.mapM (s.heap.writtenAt d)) :
          Except Crash Written) = (do return Written.parts (.ref .array) (← (h.items r).toList.mapM (h.writtenAt d)))
        rw [Heap.items, new, Heap.items, cell]
        simp only
        rw [mapM_written same]
  | @set d r t cell few members keys ih =>
    intro u renamed
    cases renamed with
    | same bare => cases bare
    | shared common => exact (container cell rfl common).elim
    | @ref _ _ q there =>
      obtain ⟨c, c', old, new, renamed⟩ := copied.filled _ there nofun
      cases cell.symm.trans old
      cases renamed with
      | @set _ t' order members' =>
        have same := faithful_each members copied.grows
        refine ⟨.set new (order ▸ few) (order ▸ datum_each same) (order ▸ keys), ?_⟩
        change (do return Written.parts (.ref .set) (← (s.heap.setTable q).order.mapM (s.heap.writtenAt d)) :
          Except Crash Written) = (do return Written.parts (.ref .set) (← (h.setTable r).order.mapM (h.writtenAt d)))
        rw [Heap.setTable, new, Heap.setTable, cell]
        simp only
        rw [order, mapM_written same]
  | @map d r m cell paired few members keys ih =>
    intro u renamed
    cases renamed with
    | same bare => cases bare
    | shared common => exact (container cell rfl common).elim
    | @ref _ _ q there =>
      obtain ⟨c, c', old, new, renamed⟩ := copied.filled _ there nofun
      cases cell.symm.trans old
      cases renamed with
      | @map _ m' keys' vals zero index =>
        have part {v : Value} (mem : v ∈ m.keys.toList ∨ v ∈ m.vals.toList ∨ v = m.zero) :
            v ∈ m.zero :: m.keys.toList ++ m.vals.toList := by
          rcases mem with mem | mem | mem <;> simp_all
        have zeroSame := faithful_self (members m.zero (part (.inr (.inr rfl)))) copied.grows
        have keySame := faithful_each (fun v mem => members v (part (.inl mem))) copied.grows
        have valSame := each (fun v mem => ih v (part (.inr (.inl mem))) (members v (part (.inr (.inl mem))))) vals
        have same : List.Forall₂ (Faithful h s.heap d) m.parts m'.parts :=
          MapTable.forall₂_parts (keys' ▸ keySame) valSame zero zeroSame
        have size : m'.vals.size = m.vals.size := by simpa using valSame.length_eq.symm
        refine ⟨.map new ?_ (same.length_eq ▸ few) (fun v mem => ?_) (keys' ▸ keys), ?_⟩
        · rw [keys', size, paired]
        · rw [zero, keys'] at mem
          rcases List.mem_append.mp mem with mem | mem
          · rcases List.mem_cons.mp mem with rfl | mem
            · exact zeroSame.1
            · exact datum_each keySame v mem
          · exact datum_each valSame v mem
        · change (do return Written.parts (.ref .map) (← (s.heap.mapTable q).parts.mapM (s.heap.writtenAt d)) :
            Except Crash Written) = (do return Written.parts (.ref .map) (← (h.mapTable r).parts.mapM (h.writtenAt d)))
          rw [Heap.mapTable, new, Heap.mapTable, cell]
          simp only
          rw [mapM_written same]

end Copied

theorem Heap.Datum.deepCopy {h : Heap} {d : Nat} {v : Value} (datum : h.Datum d v) :
    ∃ u g, h.deepCopy v = .ok (u, g) ∧ h.Extends g ∧ Copied.Faithful h g d v u := by
  obtain ⟨S, intact, inside⟩ := datum.intact
  obtain ⟨u, s, made, copied, renamed⟩ := intact.deepCopy inside
  exact ⟨u, s.heap, made, copied.grows, copied.faithful datum renamed⟩

end LedgerScript
