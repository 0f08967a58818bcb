import Mathlib
import LedgerScript.Proofs.Wire.Data

/-!
# Values that are alike

Two values on two heaps are alike if they have the same kinds and payloads and the same parts in the same order, whatever
cells these lie in: `Heap.Alike`.  A map has besides its entries the value of missing keys.

The tree that is written of a value does not tell an object from the string it is shown with.  Of values that are data all
through (`Heap.Genuine`) it tells everything: if the trees are the same, the values are alike.  What is read from a store is
always data, whatever the bytes are.
-/

namespace LedgerScript

/-! ## Reals -/

section

variable {k : RealKind} {x y : Float}

theorem storedBits_number (number : x.isNaN = false) : storedBits k x = x.toBits.toNat := by
  unfold storedBits
  rw [number]
  rfl

/-- The patterns that not-a-number is stored with are none of numbers. -/
theorem storedBits_nan (nan : x.isNaN = true) (number : y.isNaN = false) : storedBits k x ≠ storedBits k y := by
  intro same
  rw [storedBits_number number] at same
  unfold storedBits at same
  rw [nan] at same
  refine Bool.false_ne_true (number.symm.trans ?_)
  cases k with
  | float =>
    have bits : y.toBits = 0x7ff8000000000000 := UInt64.toNat_inj.mp same.symm
    rw [← Float.ofBits_toBits y, bits]
    decide +kernel
  | double =>
    have bits : y.toBits = 0x7ff8000000000001 := UInt64.toNat_inj.mp same.symm
    rw [← Float.ofBits_toBits y, bits]
    decide +kernel

/-- A real is told by what is stored of it. -/
theorem storedBits_injective (same : storedBits k x = storedBits k y) : x = y := by
  cases nan : x.isNaN with
  | true =>
    cases nan' : y.isNaN with
    | true =>
      rw [Float.isNaN_eq_decide_eq_nan, decide_eq_true_eq] at nan nan'
      rw [nan, nan']
    | false => exact absurd same (storedBits_nan nan nan')
  | false =>
    cases nan' : y.isNaN with
    | true => exact absurd same.symm (storedBits_nan nan' nan)
    | false =>
      rw [storedBits_number nan, storedBits_number nan'] at same
      exact Float.toBits_inj.mp (UInt64.toNat_inj.mp same)

end

namespace Heap

/-! ## Data all through -/

/-- A value that is data, and all that it is made of. -/
inductive Genuine (h : Heap) : Value → Prop where
  | null : Genuine h .null
  | bool (b : Bool) : Genuine h (.bool b)
  | whole (k : WholeKind) (n : Int) : Genuine h (.whole k n)
  | real (k : RealKind) (x : Float) : Genuine h (.real k x)
  | text (k : TextKind) (s : Bytes) : Genuine h (.text k s)
  | tuple {items : List Value} (each : ∀ v ∈ items, Genuine h v) : Genuine h (.tuple items)
  | array {r : Ref} {items : Array Value} (cell : h.cells[r]? = some (.array items))
    (each : ∀ v ∈ items.toList, Genuine h v) : Genuine h (.ref .array r)
  | set {r : Ref} {t : SetTable} (cell : h.cells[r]? = some (.set t)) (each : ∀ v ∈ t.order, Genuine h v) :
    Genuine h (.ref .set r)
  | map {r : Ref} {m : MapTable} (cell : h.cells[r]? = some (.map m)) (paired : m.keys.size = m.vals.size)
    (each : ∀ v ∈ m.zero :: m.keys.toList ++ m.vals.toList, Genuine h v) : Genuine h (.ref .map r)

section

variable {h h' : Heap} {v : Value}

theorem Genuine.mono (genuine : h.Genuine v) (grows : h.Extends h') : h'.Genuine v := by
  induction genuine with
  | null => exact .null
  | bool b => exact .bool b
  | whole k n => exact .whole k n
  | real k x => exact .real k x
  | text k s => exact .text k s
  | tuple _ ih => exact .tuple ih
  | array cell _ ih => exact .array (grows _ _ cell) ih
  | set cell _ ih => exact .set (grows _ _ cell) ih
  | map cell paired _ ih => exact .map (grows _ _ cell) paired ih

theorem Datum.genuine {d : Nat} (datum : h.Datum d v) : h.Genuine v := by
  induction datum with
  | null => exact .null
  | bool b => exact .bool b
  | whole => exact .whole ..
  | real => exact .real ..
  | text => exact .text ..
  | tuple _ _ ih => exact .tuple ih
  | array cell _ _ ih => exact .array cell ih
  | set cell _ _ _ ih => exact .set cell ih
  | map cell paired _ _ _ ih => exact .map cell paired ih

end

/-! ## Alike -/

/-- The same kinds and payloads, and the same parts in the same order. -/
inductive Alike (h h' : Heap) : Value → Value → Prop where
  | null : Alike h h' .null .null
  | bool (b : Bool) : Alike h h' (.bool b) (.bool b)
  | whole (k : WholeKind) (n : Int) : Alike h h' (.whole k n) (.whole k n)
  | real (k : RealKind) (x : Float) : Alike h h' (.real k x) (.real k x)
  | text (k : TextKind) (s : Bytes) : Alike h h' (.text k s) (.text k s)
  | tuple {xs ys : List Value} (length : xs.length = ys.length) (each : ∀ {v u}, (v, u) ∈ xs.zip ys → Alike h h' v u) :
    Alike h h' (.tuple xs) (.tuple ys)
  | array {r s : Ref} {xs ys : Array Value} (cell : h.cells[r]? = some (.array xs)) (cell' : h'.cells[s]? = some (.array ys))
    (length : xs.toList.length = ys.toList.length)
    (each : ∀ {v u}, (v, u) ∈ xs.toList.zip ys.toList → Alike h h' v u) : Alike h h' (.ref .array r) (.ref .array s)
  | set {r s : Ref} {t t' : SetTable} (cell : h.cells[r]? = some (.set t)) (cell' : h'.cells[s]? = some (.set t'))
    (length : t.order.length = t'.order.length) (each : ∀ {v u}, (v, u) ∈ t.order.zip t'.order → Alike h h' v u) :
    Alike h h' (.ref .set r) (.ref .set s)
  | map {r s : Ref} {m m' : MapTable} (cell : h.cells[r]? = some (.map m)) (cell' : h'.cells[s]? = some (.map m'))
    (keys : m.keys.toList.length = m'.keys.toList.length)
    (eachKey : ∀ {v u}, (v, u) ∈ m.keys.toList.zip m'.keys.toList → Alike h h' v u)
    (vals : m.vals.toList.length = m'.vals.toList.length)
    (eachVal : ∀ {v u}, (v, u) ∈ m.vals.toList.zip m'.vals.toList → Alike h h' v u) (zero : Alike h h' m.zero m'.zero) :
    Alike h h' (.ref .map r) (.ref .map s)

end Heap

/-! ## Trees tell data -/

def Written.kind : Written → Kind
  | null => .null
  | bool _ => .bool
  | whole k _ => .whole k
  | real k _ => .real k
  | text k _ => .text k
  | parts k _ => k

/-- The parts of a map are its entries and, unless it is null, the value of missing keys. -/
theorem MapTable.parts_eq (m : MapTable) : ∃ z : Option Value, z.getD .null = m.zero ∧
    m.parts = (m.keys.toList.zip m.vals.toList).flatMap (fun e => [e.1, e.2]) ++ z.toList := by
  unfold MapTable.parts
  by_cases none : m.zero = .null
  · exact ⟨.none, none.symm, by rw [none]; rfl⟩
  · refine ⟨some m.zero, rfl, ?_⟩
    split
    · next same => exact absurd same none
    · rfl

/-- What relates the parts of two maps relates their keys, their values, and the values of missing keys. -/
theorem of_forall₂_entries {α β : Type} {R : α → β → Prop} {es : List (α × α)} {z : Option α} {z' : Option β} :
    ∀ {fs : List (β × β)},
      List.Forall₂ R (es.flatMap (fun e => [e.1, e.2]) ++ z.toList) (fs.flatMap (fun f => [f.1, f.2]) ++ z'.toList) →
      List.Forall₂ R (es.map (·.1)) (fs.map (·.1)) ∧ List.Forall₂ R (es.map (·.2)) (fs.map (·.2)) ∧
        List.Forall₂ R z.toList z'.toList := by
  induction es with
  | nil =>
    intro fs all
    cases fs with
    | nil => exact ⟨.nil, .nil, all⟩
    | cons f fs =>
      have length := all.length_eq
      cases z <;> simp at length
  | cons e es ih =>
    intro fs all
    cases fs with
    | nil =>
      have length := all.length_eq
      cases z' <;> simp at length
    | cons f fs =>
      rcases all with _ | ⟨key, _ | ⟨val, rest⟩⟩
      obtain ⟨keys, vals, zeros⟩ := ih rest
      exact ⟨.cons key keys, .cons val vals, zeros⟩

namespace Heap

variable {h h' : Heap} {d : Nat} {v v' : Value} {w : Written} {vs vs' : List Value} {ws : List Written}

theorem Genuine.kind_written (genuine : h.Genuine v) (written : h.writtenAt d v = .ok w) : w.kind = v.kind := by
  cases d with
  | zero => cases written
  | succ d =>
    cases genuine with
    | null | bool | whole | real | text =>
      cases written
      rfl
    | tuple | array | set | map =>
      obtain ⟨ws, -, made⟩ := of_bind_ok written
      cases made
      rfl

/-- What relates values with the same tree relates lists of them. -/
theorem forall₂_of_written {R : Value → Value → Prop} (written : vs.mapM (h.writtenAt d) = .ok ws)
    (written' : vs'.mapM (h'.writtenAt d) = .ok ws)
    (each : ∀ v ∈ vs, ∀ v' ∈ vs', ∀ w, h.writtenAt d v = .ok w → h'.writtenAt d v' = .ok w → R v v') :
    List.Forall₂ R vs vs' := by
  rw [mapM_eq_ok_iff] at written written'
  induction written generalizing vs' with
  | nil =>
    cases written'
    exact .nil
  | @cons v w vs ws first rest ih =>
    cases written' with
    | @cons v' _ vs' _ first' rest' =>
      refine .cons (each v (by simp) v' (by simp) w first first') (ih rest' fun u mem u' mem' => ?_)
      exact each u (by simp [mem]) u' (by simp [mem'])

/-- What relates the parts of two maps relates what they are made of. -/
theorem forall₂_parts {R : Value → Value → Prop} {m m' : MapTable} (paired : m.keys.size = m.vals.size)
    (paired' : m'.keys.size = m'.vals.size) (parts : List.Forall₂ R m.parts m'.parts) (null : R .null .null) :
    List.Forall₂ R m.keys.toList m'.keys.toList ∧ List.Forall₂ R m.vals.toList m'.vals.toList ∧ R m.zero m'.zero := by
  obtain ⟨z, zero, form⟩ := m.parts_eq
  obtain ⟨z', zero', form'⟩ := m'.parts_eq
  rw [form, form'] at parts
  obtain ⟨keys, vals, zeros⟩ := of_forall₂_entries parts
  rw [List.map_fst_zip (by simp [paired]), List.map_fst_zip (by simp [paired'])] at keys
  rw [List.map_snd_zip (by simp [paired]), List.map_snd_zip (by simp [paired'])] at vals
  refine ⟨keys, vals, ?_⟩
  rw [← zero, ← zero']
  cases z <;> cases z' <;> cases zeros
  · exact null
  · assumption

theorem Genuine.alike {d : Nat} : ∀ {v v' : Value} {w : Written}, h.Genuine v → h'.Genuine v' →
    h.writtenAt d v = .ok w → h'.writtenAt d v' = .ok w → h.Alike h' v v' := by
  induction d with
  | zero =>
    intro v v' w _ _ written
    cases written
  | succ d ih =>
    intro v v' w genuine genuine' written written'
    have kind : v.kind = v'.kind := (genuine.kind_written written).symm.trans (genuine'.kind_written written')
    have parts {k k' : Kind} {vs vs' : List Value} (each : ∀ v ∈ vs, h.Genuine v) (each' : ∀ v ∈ vs', h'.Genuine v)
        (written : (do return .parts k (← vs.mapM (h.writtenAt d)) : Except Crash Written) = .ok w)
        (written' : (do return .parts k' (← vs'.mapM (h'.writtenAt d)) : Except Crash Written) = .ok w) :
        List.Forall₂ (h.Alike h') vs vs' := by
      obtain ⟨ws, made, form⟩ := of_bind_ok written
      obtain ⟨ws', made', form'⟩ := of_bind_ok written'
      cases form
      cases form'
      exact forall₂_of_written made made' fun v mem v' mem' w => ih (each v mem) (each' v' mem')
    cases genuine with
    | null =>
      cases genuine' with
      | null => exact .null
      | _ => cases kind
    | bool b =>
      cases genuine' with
      | bool b' =>
        cases written
        cases written'
        exact .bool b
      | _ => cases kind
    | whole k n =>
      cases genuine' with
      | whole k' n' =>
        cases written
        cases written'
        exact .whole k n
      | _ => cases kind
    | real k x =>
      cases genuine' with
      | real k' x' =>
        cases kind
        have bits := Except.ok.inj (written.trans written'.symm)
        rw [storedBits_injective (Written.real.inj bits).2]
        exact .real k x'
      | _ => cases kind
    | text k s =>
      cases genuine' with
      | text k' s' =>
        cases written
        cases written'
        exact .text k s
      | _ => cases kind
    | tuple each =>
      cases genuine' with
      | tuple each' =>
        obtain ⟨length, zip⟩ := List.forall₂_iff_zip.mp (parts each each' written written')
        exact .tuple length zip
      | _ => cases kind
    | array cell each =>
      cases genuine' with
      | array cell' each' =>
        simp only [writtenAt, Heap.items, cell] at written
        simp only [writtenAt, Heap.items, cell'] at written'
        obtain ⟨length, zip⟩ := List.forall₂_iff_zip.mp (parts each each' written written')
        exact .array cell cell' length zip
      | _ => cases kind
    | set cell each =>
      cases genuine' with
      | set cell' each' =>
        simp only [writtenAt, Heap.setTable, cell] at written
        simp only [writtenAt, Heap.setTable, cell'] at written'
        obtain ⟨length, zip⟩ := List.forall₂_iff_zip.mp (parts each each' written written')
        exact .set cell cell' length zip
      | _ => cases kind
    | map cell paired each =>
      cases genuine' with
      | map cell' paired' each' =>
        simp only [writtenAt, Heap.mapTable, cell] at written
        simp only [writtenAt, Heap.mapTable, cell'] at written'
        have all := parts (fun v mem => each v (MapTable.mem_of_parts mem))
          (fun v mem => each' v (MapTable.mem_of_parts mem)) written written'
        obtain ⟨keys, vals, zero⟩ := forall₂_parts paired paired' all .null
        rw [List.forall₂_iff_zip] at keys vals
        exact .map cell cell' keys.1 keys.2 vals.1 vals.2 zero
      | _ => cases kind

end Heap

/-! ## What is read is data -/

/-- Whatever a reader takes from some bytes, it only adds to the heap, and this is true of what it makes. -/
def UnpackHeap.Gives {α : Type} (x : UnpackHeap α) (g : Heap) (post : Heap → α → Prop) : Prop :=
  ∀ bytes a g' rest, x g bytes = some ((a, g'), rest) → g.Extends g' ∧ post g' a

namespace UnpackHeap

variable {α β : Type} {g : Heap} {post : Heap → α → Prop}

theorem gives_pure {a : α} (holds : post g a) : Gives (pure a) g post := by
  intro bytes b g' rest read
  cases read
  exact ⟨.refl g, holds⟩

theorem gives_failure : Gives (failure : UnpackHeap α) g post := by
  intro bytes a g' rest read
  cases read

theorem Gives.bind {x : UnpackHeap α} {f : α → UnpackHeap β} {post' : Heap → β → Prop} (first : Gives x g post)
    (second : ∀ a g', g.Extends g' → post g' a → Gives (f a) g' post') : Gives (x >>= f) g post' := by
  intro bytes b g'' rest read
  change (x g bytes >>= fun r => f r.1.1 r.1.2 r.2) = _ at read
  obtain ⟨⟨⟨a, g'⟩, more⟩, one, two⟩ := Option.bind_eq_some_iff.mp read
  obtain ⟨grows, holds⟩ := first _ _ _ _ one
  obtain ⟨grows', holds'⟩ := second a g' grows holds _ _ _ _ two
  exact ⟨grows.trans grows', holds'⟩

/-- Something that needs no heap. -/
theorem gives_lift {x : Unpack α} : Gives (liftM x : UnpackHeap α) g fun _ _ => True := by
  intro bytes a g' rest read
  change (x bytes >>= fun r => some ((r.1, g), r.2)) = _ at read
  obtain ⟨r, -, same⟩ := Option.bind_eq_some_iff.mp read
  cases same
  exact ⟨.refl g, trivial⟩

theorem gives_get : Gives (get : UnpackHeap Heap) g fun g' a => a = g' := by
  intro bytes a g' rest read
  cases read
  exact ⟨.refl g, rfl⟩

theorem Gives.imp {x : UnpackHeap α} {post' : Heap → α → Prop} (gives : Gives x g post)
    (weaker : ∀ g' a, g.Extends g' → post g' a → post' g' a) : Gives x g post' := by
  intro bytes a g' rest read
  obtain ⟨grows, holds⟩ := gives _ _ _ _ read
  exact ⟨grows, weaker g' a grows holds⟩

end UnpackHeap

theorem Heap.Genuine.keptKey {g : Heap} {v : Value} (genuine : g.Genuine v) : g.Genuine v.keptKey := by
  cases genuine with
  | text k s => cases k <;> exact .text ..
  | null => exact .null
  | bool b => exact .bool b
  | whole k n => exact .whole k n
  | real k x => exact .real k x
  | tuple each => exact .tuple each
  | array cell each => exact .array cell each
  | set cell each => exact .set cell each
  | map cell paired each => exact .map cell paired each

section

variable {keyOf : Value → Except Crash Key} {P : Value → Prop}

/-- The members of a set are some of the values that it was made of, as they are kept. -/
theorem SetTable.ofList_all {vs : List Value} (each : ∀ v ∈ vs, P v.keptKey) : ∀ {s t : SetTable},
    (∀ v ∈ s.order, P v) → ofList keyOf vs s = .ok t → ∀ v ∈ t.order, P v := by
  unfold ofList
  induction vs with
  | nil =>
    intro s t all made
    cases made
    exact all
  | cons v rest ih =>
    intro s t all made
    rw [List.foldlM_cons] at made
    obtain ⟨s', step, made⟩ := of_bind_ok made
    obtain ⟨k, -, step⟩ := of_bind_ok step
    cases step
    refine ih (fun u mem => each u (by simp [mem])) (fun u mem => ?_) made
    unfold add at mem
    split at mem
    · exact all u mem
    · rcases List.mem_append.mp mem with mem | mem
      · exact all u mem
      · rw [List.mem_singleton.mp mem]
        exact each v (by simp)

/-- A map that is made of entries has as many keys as values, each of them one that it was made of. -/
theorem MapTable.insertAll_all {es : List (Value × Value)} (each : ∀ e ∈ es, P e.1.keptKey ∧ P e.2) : ∀ {m t : MapTable},
    m.keys.size = m.vals.size → (∀ v ∈ m.zero :: m.keys.toList ++ m.vals.toList, P v) →
    es.foldlM (fun m e => do m.insert (← keyOf e.1) e.1 e.2) m = .ok t →
    t.keys.size = t.vals.size ∧ ∀ v ∈ t.zero :: t.keys.toList ++ t.vals.toList, P v := by
  induction es with
  | nil =>
    intro m t paired all made
    cases made
    exact ⟨paired, all⟩
  | cons e rest ih =>
    intro m t paired all made
    rw [List.foldlM_cons] at made
    obtain ⟨m', step, made⟩ := of_bind_ok made
    obtain ⟨k, -, step⟩ := of_bind_ok step
    obtain ⟨key, val⟩ := each e (by simp)
    have later : ∀ e ∈ rest, P e.1.keptKey ∧ P e.2 := fun f mem => each f (by simp [mem])
    unfold insert at step
    split at step
    · split at step
      · cases step
        refine ih later (by simpa using paired) (fun v mem => ?_) made
        rcases List.mem_append.mp mem with mem | mem
        · exact all v (List.mem_append_left _ mem)
        · rcases Array.mem_or_eq_of_mem_setIfInBounds (Array.mem_toList_iff.mp mem) with mem | rfl
          · exact all v (by simp [mem])
          · exact val
      · cases step
    · cases step
      refine ih later (by simpa using paired) (fun v mem => ?_) made
      simp only [Array.toList_push, List.mem_append, List.mem_cons, List.not_mem_nil, or_false] at mem
      rcases mem with (rfl | mem | rfl) | mem | rfl
      · exact all _ (by simp)
      · exact all v (by simp [Array.mem_toList_iff.mp mem])
      · exact key
      · exact all v (by simp [Array.mem_toList_iff.mp mem])
      · exact val

end

namespace UnpackValue

open UnpackHeap (Gives gives_pure gives_failure gives_lift gives_get)

variable {g : Heap} {d : Nat}

theorem gives_times {item : UnpackValue Value} (each : ∀ g, Gives item g fun g' v => g'.Genuine v) (n : Nat) (g : Heap) :
    Gives (times item n) g fun g' vs => ∀ v ∈ vs, g'.Genuine v := by
  induction n generalizing g with
  | zero => exact gives_pure nofun
  | succ n ih =>
    refine (each g).bind fun v g' _ genuine => ?_
    have rest := (ih g').imp fun g'' vs grows all => And.intro (genuine.mono grows) all
    refine rest.bind fun vs g'' _ both => gives_pure fun u mem => ?_
    rcases List.mem_cons.mp mem with rfl | mem
    · exact both.1
    · exact both.2 u mem

theorem gives_ofCrash {α : Type} {x : Except Crash α} : Gives (ofCrash x) g fun _ a => x = .ok a := by
  cases x with
  | ok a => exact gives_pure rfl
  | error c => exact gives_failure

theorem gives_make {c : Cell} {f : Heap → Value × Heap} {k : RefKind}
    (made : ∀ g, f g = (.ref k (g.alloc c).1, (g.alloc c).2))
    (genuine : ∀ g', g.Extends g' → ∀ r, g'.cells[r]? = some c → g'.Genuine (.ref k r)) :
    Gives (make f) g fun g' v => g'.Genuine v := by
  intro bytes v g' rest read
  have same : ((Value.ref k (g.alloc c).1, (g.alloc c).2), bytes) = ((v, g'), rest) := by
    rw [← made]
    exact Option.some.inj read
  cases same
  exact ⟨g.extends_alloc c, genuine _ (g.extends_alloc c) _ (by simp [Heap.alloc])⟩

theorem of_mem_entries {P : Value → Prop} : ∀ {vs : List Value}, (∀ v ∈ vs, P v) → P .null →
    (∀ e ∈ (entries vs).1, P e.1 ∧ P e.2) ∧ P (entries vs).2
  | [], _, null => ⟨nofun, null⟩
  | [z], all, _ => ⟨nofun, all z (by simp)⟩
  | k :: v :: rest, all, null => by
    have later : ∀ u ∈ rest, P u := fun u mem => all u (by simp [mem])
    obtain ⟨each, zero⟩ := of_mem_entries later null
    refine ⟨fun e mem => ?_, zero⟩
    have mem : e ∈ (k, v) :: (entries rest).1 := mem
    rcases List.mem_cons.mp mem with rfl | mem
    · exact ⟨all k (by simp), all v (by simp)⟩
    · exact each e mem

theorem gives_payload (items : ∀ g, Gives (readItems d) g fun g' vs => ∀ v ∈ vs, g'.Genuine v) (k : Option Kind) :
    Gives (readPayload d k) g fun g' v => g'.Genuine v := by
  have unread : Gives (failure : UnpackValue Value) g fun g' v => g'.Genuine v := gives_failure
  have atom {α : Type} (x : Unpack α) {f : α → Value} (genuine : ∀ a g, Heap.Genuine g (f a)) :
      Gives (do return f (← (liftM x : UnpackValue α))) g fun g' v => g'.Genuine v :=
    gives_lift.bind fun a g' _ _ => gives_pure (genuine a g')
  cases k with
  | none => exact unread
  | some k =>
    cases k with
    | null => exact atom Unpack.absent fun _ _ => .null
    | bool => exact atom Unpack.bool fun b _ => .bool b
    | whole k => exact atom Unpack.int fun n _ => .whole k _
    | real k => exact atom Unpack.double fun x _ => .real k _
    | text k => exact atom Unpack.text fun s _ => .text k s
    | tuple => exact (items g).bind fun vs g' _ all => gives_pure (.tuple all)
    | task | handle => exact unread
    | ref k =>
      cases k with
      | object | classRef | function => exact unread
      | array =>
        refine (items g).bind fun vs g' _ all => ?_
        refine gives_make (c := .array vs.toArray) (fun _ => rfl) fun g'' grows r cell => ?_
        exact .array cell fun v mem => (all v mem).mono grows
      | set =>
        refine (items g).bind fun vs g' _ all => gives_get.bind fun h g₁ grows same => ?_
        refine gives_ofCrash.bind fun t g₂ grows' made => ?_
        refine gives_make (c := .set t) (fun _ => rfl) fun g₃ grows'' r cell => .set cell fun v mem => ?_
        have genuine : g'.Genuine v := SetTable.ofList_all (s := {}) (fun v mem => (all v mem).keptKey) nofun made v mem
        exact genuine.mono (grows.trans (grows'.trans grows''))
      | map =>
        refine (items g).bind fun vs g' _ all => gives_get.bind fun h g₁ grows same => ?_
        refine gives_ofCrash.bind fun t g₂ grows' made => ?_
        refine gives_make (c := .map t) (fun _ => rfl) fun g₃ grows'' r cell => ?_
        obtain ⟨each, zero⟩ := of_mem_entries all .null
        obtain ⟨paired, genuine⟩ := MapTable.insertAll_all (P := g'.Genuine)
          (fun e mem => ⟨(each e mem).1.keptKey, (each e mem).2⟩) rfl (by simpa using zero) made
        exact .map cell paired fun v mem => (genuine v mem).mono (grows.trans (grows'.trans grows''))

/-- What is read is data, whatever the bytes are. -/
theorem gives_genuine (d : Nat) (g : Heap) : Gives (value d) g fun g' v => g'.Genuine v := by
  induction d generalizing g with
  | zero => exact gives_failure
  | succ d ih =>
    have items (g : Heap) : Gives (readItems d) g fun g' vs => ∀ v ∈ vs, g'.Genuine v :=
      gives_lift.bind fun n g' _ _ => gives_times ih _ g'
    have tail (g : Heap) :
        Gives ((liftM (Unpack.natMod 8) : UnpackValue Nat) >>= fun n => readPayload d (Kind.ofNumber? n)) g
          fun g' v => g'.Genuine v :=
      gives_lift.bind fun n g' _ _ => gives_payload items _
    rw [value]
    refine gives_lift.bind fun n g' _ _ => ?_
    split
    · exact (gives_failure : Gives failure _ fun _ _ => True).bind fun _ g' _ _ => tail g'
    · exact tail g'

end UnpackValue

end LedgerScript
