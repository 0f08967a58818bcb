import Mathlib.Data.List.Forall2
import LedgerScript.Ledger.Block
import LedgerScript.Proofs.Value.Extension

/-!
# What is written of a value

The stored form of a value does not depend on the cells that it refers to, only on what is in them.  `Written` is the tree
that is left when all references are followed: the kinds and payloads, and the parts of containers in their order.  A
function, an object, a class or a handle is left as the string it is shown with.  The same is done for a transaction.

Packing is then a function of the tree alone.
-/

namespace LedgerScript

/-- What is written of a value.  The parts of a map are its keys and values in turn, and at the end the value of missing
keys unless it is null. -/
inductive Written where
  | null
  | bool (b : Bool)
  | whole (k : WholeKind) (n : Int)
  | real (k : RealKind) (bits : Nat)
  | text (k : TextKind) (s : Bytes)
  | parts (k : Kind) (items : List Written)
  deriving Inhabited, Repr

def MapTable.parts (m : MapTable) : List Value :=
  (m.keys.toList.zip m.vals.toList).flatMap (fun e => [e.1, e.2]) ++
    match m.zero with
    | .null => []
    | z => [z]

theorem MapTable.mem_of_parts {m : MapTable} {v : Value} (mem : v ∈ m.parts) :
    v ∈ m.zero :: m.keys.toList ++ m.vals.toList := by
  rcases List.mem_append.mp mem with mem | mem
  · obtain ⟨e, he, hv⟩ := List.mem_flatMap.mp mem
    obtain ⟨hk, hx⟩ := List.of_mem_zip he
    have pair : v = e.1 ∨ v = e.2 := by simpa using hv
    rcases pair with rfl | rfl
    · simp [Array.mem_toList_iff.mp hk]
    · simp [Array.mem_toList_iff.mp hx]
  · refine List.mem_append_left _ (List.mem_cons.mpr (.inl ?_))
    split at mem
    · cases mem
    · exact List.mem_singleton.mp mem

namespace Written

mutual

/-- The stored form. -/
def pack : Written → Bytes
  | null => packTagged .null Pack.absent
  | bool b => packTagged .bool (Pack.bool b)
  | whole k n => packTagged (.whole k) (Pack.int n)
  | real k bits => packTagged (.real k) (Pack.double bits)
  | text k s => packTagged (.text k) (Pack.text s)
  | parts k items => packTagged k (Pack.list (packEach items))

/-- The stored forms of some values. -/
def packEach : List Written → List Bytes
  | [] => []
  | w :: rest => w.pack :: packEach rest

end

theorem packEach_eq (items : List Written) : packEach items = items.map pack := by
  induction items with
  | nil => rfl
  | cons w rest ih => rw [packEach, ih, List.map_cons]

theorem pack_parts (k : Kind) (items : List Written) :
    (parts k items).pack = packTagged k (Pack.list (items.map pack)) := by
  rw [pack, packEach_eq]

end Written

namespace Heap

def writtenAt (h : Heap) : Nat → Value → Except Crash Written
  | 0, _ => .error .endless
  | depth + 1, v =>
    let parts (vs : List Value) : Except Crash Written := do
      return .parts v.kind (← vs.mapM (h.writtenAt depth))
    match v with
    | .null => .ok .null
    | .bool b => .ok (.bool b)
    | .whole k n => .ok (.whole k n)
    | .real k x => .ok (.real k (storedBits k x))
    | .text k s => .ok (.text k s)
    | .tuple xs => parts xs
    | .ref .array r => parts (h.items r).toList
    | .ref .set r => parts (h.setTable r).order
    | .ref .map r => parts (h.mapTable r).parts
    | v => do return .text .string (← h.plain v)

def written (h : Heap) (v : Value) : Except Crash Written :=
  h.writtenAt packDepth v

end Heap

section

variable {ε α β γ : Type}

theorem mapM_map {f : α → Except ε β} (g : β → γ) (items : List α) :
    items.mapM (fun a => (f a).map g) = (items.mapM f).map (List.map g) := by
  induction items with
  | nil => rfl
  | cons a rest ih =>
    rw [List.mapM_cons, List.mapM_cons, ih]
    cases f a with
    | error e => rfl
    | ok b => cases rest.mapM f <;> rfl

theorem mapM_eq_ok_iff {f : α → Except ε β} {items : List α} {bs : List β} :
    items.mapM f = .ok bs ↔ List.Forall₂ (fun a b => f a = .ok b) items bs := by
  induction items generalizing bs with
  | nil =>
    rw [List.forall₂_nil_left_iff]
    exact ⟨fun h => by cases h; rfl, fun h => by rw [h]; rfl⟩
  | cons a rest ih =>
    rw [List.mapM_cons, List.forall₂_cons_left_iff]
    constructor
    · intro h
      obtain ⟨b, first, h⟩ := of_bind_ok h
      obtain ⟨bs', later, h⟩ := of_bind_ok h
      cases h
      exact ⟨b, bs', first, ih.mp later, rfl⟩
    · rintro ⟨b, bs', first, later, rfl⟩
      rw [first, ih.mpr later]
      rfl

theorem of_map_ok {x : Except ε α} {g : α → β} {b : β} (h : x.map g = .ok b) : ∃ a, x = .ok a ∧ g a = b := by
  cases x with
  | error e => cases h
  | ok a =>
    cases h
    exact ⟨a, rfl, rfl⟩

end

namespace Heap

variable {h : Heap}
variable {h' : Heap}

theorem packAt_eq_written (depth : Nat) : ∀ v : Value, h.packAt depth v = (h.writtenAt depth v).map Written.pack := by
  induction depth with
  | zero => intro v; rfl
  | succ depth ih =>
    intro v
    have parts (k : Kind) (vs : List Value) :
        (do return packTagged k (Pack.list (← vs.mapM (h.packAt depth))) : Except Crash Bytes) =
          (do return Written.parts k (← vs.mapM (h.writtenAt depth)) : Except Crash Written).map Written.pack := by
      rw [mapM_congr fun v _ => ih v, mapM_map]
      cases vs.mapM (h.writtenAt depth) with
      | error c => rfl
      | ok ws => exact congrArg Except.ok (Written.pack_parts k ws).symm
    have shown (v : Value) : (do return packTagged (.text .string) (Pack.text (← h.plain v)) : Except Crash Bytes) =
        (do return Written.text .string (← h.plain v) : Except Crash Written).map Written.pack := by
      cases h.plain v <;> rfl
    cases v with
    | null | bool | whole | real | text => rfl
    | tuple xs => exact parts _ _
    | task | handle => exact shown _
    | ref k r => cases k <;> first | exact parts _ _ | exact shown _

theorem pack_eq_written (v : Value) : h.pack v = (h.written v).map Written.pack :=
  packAt_eq_written packDepth v

theorem Closed.writtenAt_eq {S : Ref → Prop} (closed : h.Closed S) (ext : h.Extends h') (depth : Nat) :
    ∀ v : Value, v.Within S → h'.writtenAt depth v = h.writtenAt depth v := by
  induction depth with
  | zero => intro v hv; rfl
  | succ depth ih =>
    have each {items : List Value} (hi : ∀ v ∈ items, v.Within S) :
        items.mapM (h'.writtenAt depth) = items.mapM (h.writtenAt depth) :=
      mapM_congr fun v hv => ih v (hi v hv)
    intro v hv
    cases v with
    | null | bool | whole | real | text => rfl
    | task | handle => simp only [writtenAt, closed.plain_eq ext hv]
    | tuple items => simp only [writtenAt, each (Value.within_of_refsOf hv)]
    | ref k r =>
      have hr : S r := hv r (by simp [Value.refs])
      cases k with
      | array =>
        obtain ⟨items_eq, inside⟩ := closed.items_eq ext hr
        simp only [writtenAt, items_eq, each inside]
      | set =>
        obtain ⟨table_eq, inside⟩ := closed.setTable_eq ext hr
        simp only [writtenAt, table_eq, each inside]
      | map =>
        obtain ⟨table_eq, inside⟩ := closed.mapTable_eq ext hr
        simp only [writtenAt, table_eq, each fun v mem => inside v (MapTable.mem_of_parts mem)]
      | object | classRef | function => simp only [writtenAt, closed.plain_eq ext hv]

theorem Holds.written_eq {v : Value} (holds : h.Holds v) (ext : h.Extends h') : h'.written v = h.written v := by
  obtain ⟨S, closed, hv⟩ := holds
  exact closed.writtenAt_eq ext packDepth v hv

theorem Holds.pack_eq {v : Value} (holds : h.Holds v) (ext : h.Extends h') : h'.pack v = h.pack v := by
  rw [pack_eq_written, pack_eq_written, holds.written_eq ext]

end Heap

/-! ## Transactions -/

namespace Transaction

/-- What is written of a transaction. -/
structure Wire where
  id : Bytes
  sender : Bytes
  receiver : Bytes
  /-- The decimal digits of the amount. -/
  amount : Bytes
  method : Bytes
  args : List Written
  code : Bytes
  status : UInt8
  deriving Inhabited, Repr

def wire (h : Heap) (tx : Transaction) : Except Crash Wire := do
  return {
    id := tx.id, sender := tx.sender, receiver := tx.receiver, amount := Text.decimalInt tx.amount
    method := tx.method, args := ← tx.args.mapM h.written, code := tx.code, status := tx.status.number.toUInt8 }

/-- The stored form.  Empty methods, arguments and codes are left out. -/
def Wire.pack (w : Wire) : Bytes :=
  Pack.record (
    [("id", Pack.text w.id), ("from", Pack.text w.sender), ("to", Pack.text w.receiver),
      ("amount", Pack.text w.amount)] ++
    (if w.method = [] then [] else [("method", Pack.text w.method)]) ++
    (if w.args.isEmpty then [] else [("args", Pack.list (w.args.map Written.pack))]) ++
    (if w.code = [] then [] else [("code", Pack.text w.code)]) ++
    [("status", [0xcc, w.status])])

/-- The stored form of the transactions of a block. -/
def Wire.packAll (ws : List Wire) : Bytes :=
  Pack.list (ws.map pack)

theorem pack_eq_wire (h : Heap) (tx : Transaction) : tx.pack h = (tx.wire h).map Wire.pack := by
  have args : tx.args.mapM h.pack = (tx.args.mapM h.written).map (List.map Written.pack) := by
    rw [mapM_congr fun v _ => h.pack_eq_written v, mapM_map]
  unfold pack wire
  rw [args]
  cases made : tx.args.mapM h.written with
  | error c => rfl
  | ok ws =>
    -- there are arguments to be written exactly if the transaction has some
    have same : ws.isEmpty = tx.args.isEmpty := by
      rw [Bool.eq_iff_iff, List.isEmpty_iff_length_eq_zero, List.isEmpty_iff_length_eq_zero,
        (mapM_eq_ok_iff.mp made).length_eq]
    change Except.ok _ = Except.ok _
    rw [Wire.pack, same]
    rfl

end Transaction

def ChainBlock.wires (h : Heap) (b : ChainBlock) : Except Crash (List Transaction.Wire) :=
  b.txs.mapM (·.wire h)

theorem ChainBlock.mapM_pack_eq (h : Heap) (b : ChainBlock) :
    b.txs.mapM (·.pack h) = (b.wires h).map (List.map Transaction.Wire.pack) := by
  rw [mapM_congr fun tx _ => tx.pack_eq_wire h, mapM_map, wires]

end LedgerScript
