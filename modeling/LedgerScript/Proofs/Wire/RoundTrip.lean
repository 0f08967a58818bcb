import LedgerScript.Proofs.Value.Tables
import LedgerScript.Proofs.Wire.Alike

/-!
# Stored values are read back

The data of a program are null, truth values, numbers, texts, and tuples, arrays, sets and maps of these, nested to any
finite depth; the members of a set and the keys of a map are without containers.  `Heap.Storable` says so of a value on a
heap.  Lengths are bounded by the format, which has 32 bits for them.

The stored form of such a value is read back as a value that is alike, whatever comes behind it, and the reader stops right
behind it.  So no stored form is the beginning of another one, and only values that are alike have the same.
-/

namespace LedgerScript

/-! ## Storable values -/

namespace Heap

/-- A value that can be stored without loss, nested to a depth at most. -/
inductive Storable (h : Heap) : Nat → Value → Prop where
  | null {d : Nat} : Storable h (d + 1) .null
  | bool {d : Nat} (b : Bool) : Storable h (d + 1) (.bool b)
  | whole {d : Nat} {k : WholeKind} {n : Int} (fits : k.wrap n = n) : Storable h (d + 1) (.whole k n)
  | real {d : Nat} {k : RealKind} {x : Float} (number : x.isNaN = false) (fits : k.round x = x) :
    Storable h (d + 1) (.real k x)
  | text {d : Nat} {k : TextKind} {s : Bytes} (short : s.length < 0x100000000) : Storable h (d + 1) (.text k s)
  | tuple {d : Nat} {items : List Value} (few : items.length < 0x100000000) (each : ∀ v ∈ items, Storable h d v) :
    Storable h (d + 1) (.tuple items)
  | array {d : Nat} {r : Ref} {items : Array Value} (cell : h.cells[r]? = some (.array items))
    (few : items.size < 0x100000000) (each : ∀ v ∈ items.toList, Storable h d v) : Storable h (d + 1) (.ref .array r)
  | set {d : Nat} {r : Ref} {t : SetTable} (cell : h.cells[r]? = some (.set t)) (few : t.order.length < 0x100000000)
    (each : ∀ v ∈ t.order, Storable h d v) (keys : Value.TableKeys t.order) : Storable h (d + 1) (.ref .set r)
  | map {d : Nat} {r : Ref} {m : MapTable} (cell : h.cells[r]? = some (.map m)) (paired : m.keys.size = m.vals.size)
    (few : m.parts.length < 0x100000000) (each : ∀ v ∈ m.zero :: m.keys.toList ++ m.vals.toList, Storable h d v)
    (keys : Value.TableKeys m.keys.toList) : Storable h (d + 1) (.ref .map r)

variable {h h' g : Heap} {d n : Nat} {v u : Value}

theorem Storable.datum (storable : h.Storable d v) : h.Datum d v := by
  induction storable with
  | null => exact .null
  | bool b => exact .bool b
  | whole fits => exact .whole fits
  | @real d k x number fits =>
    refine .real ?_
    rw [storedBits_number number]
    simpa using fits
  | text short => exact .text short
  | tuple few _ ih => exact .tuple few ih
  | array cell few _ ih => exact .array cell few ih
  | set cell few _ keys ih => exact .set cell few ih keys.keys
  | map cell paired few _ keys ih => exact .map cell paired few ih keys.keys

theorem Storable.succ (storable : h.Storable d v) : h.Storable (d + 1) v := by
  induction storable with
  | null => exact .null
  | bool b => exact .bool b
  | whole fits => exact .whole fits
  | real number fits => exact .real number fits
  | text short => exact .text short
  | tuple few _ ih => exact .tuple few ih
  | array cell few _ ih => exact .array cell few ih
  | set cell few _ keys ih => exact .set cell few ih keys
  | map cell paired few _ keys ih => exact .map cell paired few ih keys

theorem Storable.deeper (storable : h.Storable d v) (le : d ≤ n) : h.Storable n v := by
  induction n, le using Nat.le_induction with
  | base => exact storable
  | succ n _ ih => exact ih.succ

/-- A depth that is enough is as good as any larger one. -/
theorem writtenAt_succ {w : Written} (written : h.writtenAt d v = .ok w) : h.writtenAt (d + 1) v = .ok w := by
  induction d generalizing v w with
  | zero => cases written
  | succ d ih =>
    have parts {k : Kind} {vs : List Value}
        (written : (do return Written.parts k (← vs.mapM (h.writtenAt d)) : Except Crash Written) = .ok w) :
        (do return Written.parts k (← vs.mapM (h.writtenAt (d + 1))) : Except Crash Written) = .ok w := by
      obtain ⟨ws, made, form⟩ := of_bind_ok written
      cases form
      rw [mapM_eq_ok_iff.mpr ((mapM_eq_ok_iff.mp made).imp fun v w => ih)]
      rfl
    cases v with
    | null | bool | whole | real | text | task | handle => exact written
    | tuple items => exact parts written
    | ref k r =>
      cases k with
      | array | set | map => exact parts written
      | object | classRef | function => exact written

theorem writtenAt_deeper {w : Written} (written : h.writtenAt d v = .ok w) (le : d ≤ n) : h.writtenAt n v = .ok w := by
  induction n, le using Nat.le_induction with
  | base => exact written
  | succ n _ ih => exact writtenAt_succ ih

end Heap

/-! ## The round trip -/

open Heap (Storable)

/-- What is written of a storable value at any depth that is enough, and what the bytes are read as. -/
theorem Heap.Storable.round_trip {h : Heap} {d : Nat} {v : Value} (storable : h.Storable d v) :
    ∃ w : Written, ∀ n, d ≤ n → h.writtenAt n v = .ok w ∧
      ∀ (g : Heap) (more : Bytes), ∃ u g', UnpackValue.value n g (w.pack ++ more) = some ((u, g'), more) ∧ g.Extends g' ∧
        g'.Genuine u ∧ g'.writtenAt n u = .ok w := by
  obtain ⟨w, tree⟩ := storable.datum.tree
  refine ⟨w, fun n le => ⟨Heap.writtenAt_deeper tree.written le, fun g more => ?_⟩⟩
  obtain ⟨w', tree'⟩ := (storable.deeper le).datum.tree
  obtain rfl : w' = w := Except.ok.inj (tree'.written.symm.trans (Heap.writtenAt_deeper tree.written le))
  obtain ⟨u, g', read, made⟩ := UnpackValue.yields_value tree'.readable g
  obtain ⟨grows, genuine⟩ := UnpackValue.gives_genuine n g _ _ _ _ (read more)
  exact ⟨u, g', read more, grows, genuine, made.written⟩

/-- The stored form of a storable value is read back as a value that is alike, and what comes behind it is left.  So it is
no proper beginning of another stored form, and it is that of no value that is not alike. -/
theorem stored_values_are_read_back {h : Heap} {d : Nat} {v : Value} (storable : h.Storable d v) :
    ∃ bytes : Bytes, (∀ n, d ≤ n → h.packAt n v = .ok bytes) ∧
      (∀ n, d ≤ n → ∀ (g : Heap) (more : Bytes), ∃ u g',
        UnpackValue.value n g (bytes ++ more) = some ((u, g'), more) ∧ g.Extends g' ∧ h.Alike g' v u) ∧
      ∀ (k : Heap) (e : Nat) (u : Value) (more : Bytes), k.Storable e u → k.packAt e u = .ok (bytes ++ more) →
        more = [] ∧ h.Alike k v u := by
  obtain ⟨w, trip⟩ := storable.round_trip
  have packed (n : Nat) (le : d ≤ n) : h.packAt n v = .ok w.pack := by
    rw [Heap.packAt_eq_written, (trip n le).1]
    rfl
  refine ⟨w.pack, packed, fun n le g more => ?_, fun k e u more storable' same => ?_⟩
  · obtain ⟨written, read⟩ := trip n le
    obtain ⟨u, g', read, grows, genuine, written'⟩ := read g more
    exact ⟨u, g', read, grows, storable.datum.genuine.alike genuine written written'⟩
  · -- Both readers take the same bytes from the front.
    obtain ⟨w', trip'⟩ := storable'.round_trip
    have form : w'.pack = w.pack ++ more := by
      rw [Heap.packAt_eq_written, (trip' e (Nat.le_refl e)).1] at same
      exact Except.ok.inj same
    obtain ⟨written, read⟩ := trip (max d e) (Nat.le_max_left d e)
    obtain ⟨written', read'⟩ := trip' (max d e) (Nat.le_max_right d e)
    obtain ⟨x, g, one, -, -, here⟩ := read {} more
    obtain ⟨y, g', two, -, -, there⟩ := read' {} []
    rw [List.append_nil, form, one] at two
    cases two
    obtain rfl : w = w' := Except.ok.inj (here.symm.trans there)
    exact ⟨rfl, storable.datum.genuine.alike storable'.datum.genuine written written'⟩

/-- An array of a number and a map, in which a set stands under a key and a missing key reads as zero. -/
def nestedHeap : Heap where
  cells := #[
    .set { members := [], order := [.tuple [.whole .int 1, .text .string (utf8 "a")], .text .string (utf8 "b")] },
    .map { keys := #[.text .string (utf8 "k")], vals := #[.ref .set 0], zero := .whole .int 0 },
    .array #[.real .double 0.5, .ref .map 1]]

theorem nested_array_is_read_back : nestedHeap.Storable 5 (.ref .array 2) ∧
    ∃ bytes, nestedHeap.pack (.ref .array 2) = .ok bytes ∧
      ∃ u g, UnpackValue.value packDepth {} (bytes ++ bytes) = some ((u, g), bytes) ∧ nestedHeap.Alike g (.ref .array 2) u := by
  have two {d : Nat} {v u : Value} (first : nestedHeap.Storable d v) (second : nestedHeap.Storable d u) :
      ∀ x ∈ [v, u], nestedHeap.Storable d x := by
    simp [first, second]
  have tuple : nestedHeap.Storable 2 (.tuple [.whole .int 1, .text .string (utf8 "a")]) :=
    .tuple (by decide) (two (.whole (by decide)) (.text (by decide)))
  have keys : Value.TableKeys [.tuple [.whole .int 1, .text .string (utf8 "a")], .text .string (utf8 "b")] := by
    refine ⟨fun v mem => ?_, fun v mem => ?_, ?_⟩
    · simp only [List.mem_cons, List.not_mem_nil, or_false] at mem
      rcases mem with rfl | rfl
      · refine .tuple fun v mem => ?_
        simp only [List.mem_cons, List.not_mem_nil, or_false] at mem
        rcases mem with rfl | rfl
        · exact .whole .int 1
        · exact .text .string _
      · exact .text .string _
    · simp only [List.mem_cons, List.not_mem_nil, or_false] at mem
      rcases mem with rfl | rfl <;> rfl
    · refine .cons (fun v mem => ?_) (List.pairwise_singleton _ _)
      rw [List.mem_singleton.mp mem]
      decide +kernel
  have set : nestedHeap.Storable 3 (.ref .set 0) := .set rfl (by decide) (two tuple (.text (by decide))) keys
  have map : nestedHeap.Storable 4 (.ref .map 1) := by
    refine .map rfl rfl (by decide) (fun v mem => ?_) ⟨fun v mem => ?_, fun v mem => ?_, List.pairwise_singleton _ _⟩
    · simp only [List.cons_append, List.nil_append, List.mem_cons, List.not_mem_nil, or_false] at mem
      rcases mem with rfl | rfl | rfl
      · exact .whole (by decide)
      · exact .text (by decide)
      · exact set
    · rw [List.mem_singleton.mp mem]
      exact .text .string _
    · rw [List.mem_singleton.mp mem]
      rfl
  have storable : nestedHeap.Storable 5 (.ref .array 2) :=
    .array rfl (by decide) (two (.real (by decide +kernel) rfl) map)
  obtain ⟨bytes, packed, read, -⟩ := stored_values_are_read_back storable
  obtain ⟨u, g, made, -, alike⟩ := read packDepth (by decide) {} bytes
  exact ⟨storable, bytes, packed packDepth (by decide), u, g, made, alike⟩

end LedgerScript
