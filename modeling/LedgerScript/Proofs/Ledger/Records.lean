import LedgerScript.Proofs.Ledger.Stored
import LedgerScript.Proofs.Wire.Values

/-!
# Reading the records of a store back

The record of a block or of an account is a function of what is written of it, its `Image`.  A record whose image is
`Readable` is read back as a block or an account with the same image, with its values in new cells.  The slots of an account
are written in the order of their keys, and so they come back in that order.
-/

namespace LedgerScript

open UnpackHeap (Yields)

/-! ## Records with fields that may be left out -/

namespace Unpack

variable {α : Type} {fields : List (String × (α → Unpack α))} {a b c : α}

theorem Reads.append {items more : List (String × Bytes)} (first : Reads fields a items b) (later : Reads fields b more c) :
    Reads fields a (items ++ more) c := by
  induction first with
  | nil a => exact later
  | cons short known item rest ih => exact .cons short known item (ih later)

theorem Reads.single {name : String} {bytes : Bytes} {field : String × (α → Unpack α)} (short : (utf8 name).length < 32)
    (known : fields.find? (fun f => utf8 f.1 == utf8 name) = some field) (item : (field.2 a).Yields bytes b) :
    Reads fields a [(name, bytes)] b :=
  .cons short known item (.nil b)

/-- A field that is left out if it holds the default. -/
theorem Reads.optional {p : Prop} [Decidable p] {name : String} {bytes : Bytes} (absent : p → a = b)
    (present : Reads fields a [(name, bytes)] b) : Reads fields a (if p then [] else [(name, bytes)]) b := by
  split
  · next left =>
    rw [absent left]
    exact .nil b
  · exact present

end Unpack

theorem length_optional (p : Prop) [Decidable p] (field : String × Bytes) : (if p then [] else [field]).length ≤ 1 := by
  split <;> simp

theorem UnpackHeap.yields_liftUnpack {α : Type} {x : Unpack α} {p : Bytes} {a : α} (read : x.Yields p a) (h : Heap) :
    Yields (liftUnpack x) h p a h := by
  intro rest
  change (x (p ++ rest) >>= fun r => some ((r.1, h), r.2)) = _
  rw [read]
  rfl

/-! ## Transactions -/

open UnpackHeap (yields_liftUnpack)

namespace Transaction

/-- The transaction can be read back. -/
structure Wire.Readable (w : Wire) : Prop where
  id : readId? w.id = some w.id
  idShort : w.id.length < 0x100000000
  sender : w.sender.length < 0x100000000
  receiver : w.receiver.length < 0x100000000
  amount : ∃ n, w.amount = Text.decimalInt n
  amountShort : w.amount.length < 0x100000000
  method : w.method.length < 0x100000000
  few : w.args.length < 0x100000000
  args : ∀ a ∈ w.args, a.Readable packDepth
  code : w.code.length < 0x100000000

theorem yields_unpack {w : Wire} (readable : w.Readable) (g : Heap) :
    ∃ vs g', MadeEach g g' packDepth vs w.args ∧ Yields Transaction.unpack g w.pack
      { id := w.id, sender := w.sender, receiver := w.receiver, amount := w.amount, method := w.method, args := vs,
        code := w.code, status := w.status.toNat } g' := by
  obtain ⟨vs, g', read, made⟩ := UnpackValue.yields_times (fun a mem => UnpackValue.yields_value (readable.args a mem)) g
  have values : Yields unpackValues g (Pack.list (w.args.map Written.pack)) vs g' := by
    have length := Unpack.yields_listLength readable.few
    rw [← List.length_map Written.pack] at length
    exact (UnpackHeap.yields_lift length g).bind (by simpa using read)
  let start : Stored := { id := w.id, sender := w.sender, receiver := w.receiver, amount := w.amount }
  refine ⟨vs, g', made, fun rest => ?_⟩
  refine Unpack.Reads.record_eq ?_ ?_ rest
  · refine .append (b := ({ start with method := w.method, args := vs, code := w.code }, g')) ?_ ?_
    · refine .append (b := ({ start with method := w.method, args := vs }, g')) ?_ ?_
      · refine .append (b := ({ start with method := w.method }, g)) ?_ ?_
        · refine .append (b := (start, g)) ?_ ?_
          · refine .cons (by decide) rfl ((yields_liftUnpack (Unpack.yields_text readable.idShort) g).map _) ?_
            refine .cons (by decide) rfl ((yields_liftUnpack (Unpack.yields_text readable.sender) g).map _) ?_
            refine .cons (by decide) rfl ((yields_liftUnpack (Unpack.yields_text readable.receiver) g).map _) ?_
            exact .single (by decide) rfl ((yields_liftUnpack (Unpack.yields_text readable.amountShort) g).map _)
          · refine .optional (fun none => by rw [none]) (.single (by decide) rfl ?_)
            exact (yields_liftUnpack (Unpack.yields_text readable.method) g).map _
        · refine .optional (fun none => ?_) (.single (by decide) rfl (values.map _))
          rw [List.isEmpty_iff.mp none] at read
          cases read []
          rfl
      · refine .optional (fun none => by rw [none]) (.single (by decide) rfl ?_)
        exact (yields_liftUnpack (Unpack.yields_text readable.code) g').map _
    · exact .single (by decide) rfl ((yields_liftUnpack (Unpack.yields_natMod_byte w.status) g').map _)
  · have method := length_optional (w.method = []) ("method", Pack.text w.method)
    have args := length_optional (w.args.isEmpty = true) ("args", Pack.list (w.args.map Written.pack))
    have code := length_optional (w.code = []) ("code", Pack.text w.code)
    simp only [List.length_append, List.length_cons, List.length_nil]
    omega

theorem number_ofNumber (n : Nat) : (TxStatus.ofNumber n).number = n := by
  match n with
  | 0 | 1 | 2 => rfl
  | n + 3 => rfl

/-- A transaction is read back as one of which the same is written. -/
theorem unpack_wire {w : Wire} (readable : w.Readable) (g : Heap) :
    ∃ s tx g', Yields Transaction.unpack g w.pack s g' ∧ ofStored? s = some tx ∧ g.Extends g' ∧
      ∀ g'', g'.Extends g'' → tx.wire g'' = .ok w := by
  obtain ⟨vs, g', made, read⟩ := yields_unpack readable g
  obtain ⟨n, amount⟩ := readable.amount
  have whole : readWhole? w.amount = some n := by
    rw [amount]
    exact readWhole?_decimalInt n
  let tx : Transaction :=
    { id := w.id, sender := w.sender, receiver := w.receiver, amount := n, method := w.method, args := vs, code := w.code
      status := .ofNumber w.status.toNat }
  refine ⟨_, tx, g', read, ?_, made.grows, fun g'' grows => ?_⟩
  · simp [ofStored?, readable.id, whole, tx]
  · have args : vs.mapM g''.written = .ok w.args := made.mapM_written grows
    unfold wire
    dsimp only [tx]
    rw [args, number_ofNumber, ← amount, Nat.toUInt8_eq, UInt8.ofNat_toNat]
    rfl

end Transaction

/-! ## Blocks -/

namespace ChainBlock

/-- What is written of a block. -/
structure Image where
  number : Nat
  prevHash : Digest
  txs : List Transaction.Wire
  hash : Digest
  isSealed : Bool

def image (h : Heap) (b : ChainBlock) : Except Crash Image := do
  return { number := b.number, prevHash := b.prevHash, txs := ← b.wires h, hash := b.hash, isSealed := b.isSealed }

/-- The stored form. -/
def Image.pack (i : Image) : Bytes :=
  Pack.record [
    ("number", Pack.word i.number), ("prev", Pack.raw i.prevHash), ("txs", Transaction.Wire.packAll i.txs),
    ("hash", Pack.raw i.hash), ("sealed", Pack.bool i.isSealed)]

theorem pack_eq_image (h : Heap) (b : ChainBlock) : b.pack h = (b.image h).map Image.pack := by
  unfold pack image
  rw [b.mapM_pack_eq]
  cases b.wires h <;> rfl

/-- The block can be read back. -/
structure Image.Readable (i : Image) : Prop where
  number : i.number < 0x10000000000000000
  prevHash : i.prevHash.length = 32
  few : i.txs.length < 0x100000000
  txs : ∀ w ∈ i.txs, w.Readable
  hash : i.hash.length = 32

theorem unpackTxs_wires {ws : List Transaction.Wire} (readable : ∀ w ∈ ws, w.Readable) (g : Heap) :
    ∃ ss txs g', Yields (unpackTxs ws.length) g (ws.map Transaction.Wire.pack).flatten ss g' ∧
      ss.mapM Transaction.ofStored? = some txs ∧ g.Extends g' ∧
      ∀ g'', g'.Extends g'' → txs.mapM (·.wire g'') = .ok ws := by
  induction ws generalizing g with
  | nil => exact ⟨[], [], g, UnpackHeap.yields_pure [] g, rfl, .refl g, fun g'' _ => rfl⟩
  | cons w rest ih =>
    obtain ⟨s, tx, g₁, read, made, grows, wire⟩ := Transaction.unpack_wire (readable w (by simp)) g
    obtain ⟨ss, txs, g₂, more, madeEach, grows', wires⟩ := ih (fun w mem => readable w (by simp [mem])) g₁
    refine ⟨s :: ss, tx :: txs, g₂, read.bind (more.map (s :: ·)), ?_, grows.trans grows', fun g'' later => ?_⟩
    · simp [made, madeEach]
    · rw [List.mapM_cons, wire g'' (grows'.trans later), wires g'' later]
      rfl

/-- A block is read back as one with the same image. -/
theorem ofBytes?_image {i : Image} (readable : i.Readable) (g : Heap) :
    ∃ b g', ofBytes? g i.pack = some (b, g') ∧ g.Extends g' ∧ ∀ g'', g'.Extends g'' → b.image g'' = .ok i := by
  obtain ⟨ss, txs, g', read, made, grows, wires⟩ := unpackTxs_wires readable.txs g
  have length := Unpack.yields_listLength readable.few
  rw [← List.length_map Transaction.Wire.pack] at length read
  have record : Yields unpack g i.pack
      { number := i.number, prev := i.prevHash, txs := ss, hash := i.hash, isSealed := i.isSealed } g' := by
    intro rest
    refine Unpack.Reads.record_eq ?_ (by simp) rest
    refine .cons (by decide) rfl ((yields_liftUnpack (Unpack.yields_natMod_word readable.number) g).map _) ?_
    refine .cons (by decide) rfl ((yields_liftUnpack (Unpack.text_raw (by rw [readable.prevHash]; decide)) g).map _) ?_
    refine .cons (by decide) rfl ((yields_liftUnpack length g).bind (read.map _)) ?_
    refine .cons (by decide) rfl ((yields_liftUnpack (Unpack.text_raw (by rw [readable.hash]; decide)) g').map _) ?_
    exact .single (by decide) rfl ((yields_liftUnpack (Unpack.yields_bool i.isSealed) g').map _)
  let b : ChainBlock :=
    { number := i.number, prevHash := i.prevHash, txs, hash := i.hash, isSealed := i.isSealed }
  refine ⟨b, g', ?_, grows, fun g'' later => ?_⟩
  · have whole := record []
    rw [List.append_nil] at whole
    unfold ofBytes?
    rw [whole]
    simp [made, Digest.ofStored_eq readable.prevHash, Digest.ofStored_eq readable.hash, b]
  · have same : b.wires g'' = .ok i.txs := wires g'' later
    unfold image
    rw [same]
    rfl

end ChainBlock

/-! ## The order of texts -/

theorem lexLe_trans : ∀ a b c : Bytes, Text.lexLe a b = true → Text.lexLe b c = true → Text.lexLe a c = true
  | [], _, _, _, _ => rfl
  | _ :: _, [], _, first, _ => by cases first
  | _ :: _, _ :: _, [], _, second => by cases second
  | x :: a, y :: b, z :: c, first, second => by
    simp only [Text.lexLe, Bool.or_eq_true, decide_eq_true_eq, Bool.and_eq_true, beq_iff_eq] at first second ⊢
    rcases first with less | ⟨rfl, first⟩
    · rcases second with less' | ⟨rfl, -⟩
      · exact .inl (UInt8.lt_trans less less')
      · exact .inl less
    · rcases second with less' | ⟨rfl, second⟩
      · exact .inl less'
      · exact .inr ⟨rfl, lexLe_trans a b c first second⟩

theorem lexLe_total : ∀ a b : Bytes, (Text.lexLe a b || Text.lexLe b a) = true
  | [], _ => rfl
  | _ :: _, [] => rfl
  | x :: a, y :: b => by
    have rest := lexLe_total a b
    simp only [Text.lexLe, Bool.or_eq_true, decide_eq_true_eq, Bool.and_eq_true, beq_iff_eq] at rest ⊢
    by_cases same : x = y
    · exact rest.imp (fun h => .inr ⟨same, h⟩) fun h => .inr ⟨same.symm, h⟩
    · rcases UInt8.lt_or_lt_of_ne same with less | more
      · exact .inl (.inl less)
      · exact .inr (.inl more)

theorem lexLe_antisymm : ∀ a b : Bytes, Text.lexLe a b = true → Text.lexLe b a = true → a = b
  | [], [], _, _ => rfl
  | [], _ :: _, _, second => by cases second
  | _ :: _, [], first, _ => by cases first
  | x :: a, y :: b, first, second => by
    simp only [Text.lexLe, Bool.or_eq_true, decide_eq_true_eq, Bool.and_eq_true, beq_iff_eq] at first second
    rcases first with less | ⟨rfl, first⟩
    · rcases second with less' | ⟨rfl, -⟩
      · exact absurd less' (UInt8.lt_asymm less)
      · exact absurd less (UInt8.lt_irrefl _)
    · rcases second with less' | ⟨-, second⟩
      · exact absurd less' (UInt8.lt_irrefl _)
      · rw [lexLe_antisymm a b first second]

/-! ## Accounts -/

namespace Account

/-- What is written of an account; its slots are in the order of their keys. -/
structure Image where
  address : Address
  balance : Int
  nonce : Nat
  code : Bytes
  storage : List (Bytes × Written)

def image (h : Heap) (a : Account) : Except Crash Image := do
  return {
    address := a.address, balance := a.balance, nonce := a.nonce, code := a.code
    storage := ← a.sortedStorage.mapM fun s => do return (s.1, ← h.written s.2) }

/-- The stored form of a slot. -/
def packSlot (s : Bytes × Written) : Bytes :=
  Pack.record [("k", Pack.text s.1), ("v", s.2.pack)]

/-- The stored form. -/
def Image.pack (i : Image) : Bytes :=
  Pack.record (
    [("address", Pack.text i.address), ("balance", Pack.text (Text.decimalInt i.balance)),
      ("nonce", Pack.word i.nonce)] ++
    (if i.code = [] then [] else [("code", Pack.text i.code)]) ++
    [("storage", if i.storage.isEmpty then Pack.absent else Pack.list (i.storage.map packSlot))])

theorem pack_eq_image (h : Heap) (a : Account) : a.pack h = (a.image h).map Image.pack := by
  have slot (s : Bytes × Value) : (do return Pack.record [("k", Pack.text s.1), ("v", ← h.pack s.2)] : Except Crash Bytes) =
      (do return (s.1, ← h.written s.2) : Except Crash (Bytes × Written)).map packSlot := by
    rw [h.pack_eq_written]
    cases h.written s.2 <;> rfl
  unfold pack image
  rw [mapM_congr fun s _ => slot s, mapM_map]
  cases made : a.sortedStorage.mapM fun s => (do return (s.1, ← h.written s.2) : Except Crash (Bytes × Written)) with
  | error c => rfl
  | ok slots =>
    have same : (slots.map packSlot).isEmpty = slots.isEmpty := by simp
    change Except.ok _ = Except.ok _
    rw [Image.pack, same]

/-- The account can be read back. -/
structure Image.Readable (i : Image) : Prop where
  address : i.address.length < 0x100000000
  balance : (Text.decimalInt i.balance).length < 0x100000000
  nonce : i.nonce < 0x10000000000000000
  code : i.code.length < 0x100000000
  few : i.storage.length < 0x100000000
  keys : (i.storage.map (·.1)).Nodup
  sorted : i.storage.Pairwise fun s t => Text.lexLe s.1 t.1 = true
  slots : ∀ s ∈ i.storage, s.1.length < 0x100000000 ∧ s.2.Readable packDepth

theorem yields_slot {s : Bytes × Written} (short : s.1.length < 0x100000000) (readable : s.2.Readable packDepth)
    (g : Heap) : ∃ v g', Yields unpackSlot g (packSlot s) (s.1, v) g' ∧ Made g g' packDepth v s.2 := by
  obtain ⟨v, g', read, made⟩ := UnpackValue.yields_value readable g
  refine ⟨v, g', fun rest => ?_, made⟩
  refine Unpack.Reads.record_eq ?_ (by simp) rest
  refine .cons (by decide) rfl ((yields_liftUnpack (Unpack.yields_text short) g).map _) ?_
  exact .single (by decide) rfl (read.map _)

theorem yields_slots {slots : List (Bytes × Written)}
    (readable : ∀ s ∈ slots, s.1.length < 0x100000000 ∧ s.2.Readable packDepth) (g : Heap) :
    ∃ vs g', Yields (unpackSlots slots.length) g (slots.map packSlot).flatten ((slots.map (·.1)).zip vs) g' ∧
      MadeEach g g' packDepth vs (slots.map (·.2)) := by
  induction slots generalizing g with
  | nil => exact ⟨[], g, UnpackHeap.yields_pure [] g, .nil g packDepth⟩
  | cons s rest ih =>
    obtain ⟨short, value⟩ := readable s (by simp)
    obtain ⟨v, g₁, read, made⟩ := yields_slot short value g
    obtain ⟨vs, g₂, more, madeEach⟩ := ih (fun s mem => readable s (by simp [mem])) g₁
    exact ⟨v :: vs, g₂, read.bind (more.map ((s.1, v) :: ·)), .cons made madeEach⟩

/-- Slots of different keys come one after another. -/
theorem foldl_setSlot {slots : List (Bytes × Value)} : ∀ (a : Account), ((a.storage ++ slots).map (·.1)).Nodup →
    slots.foldl (fun a e => a.setSlot e.1 e.2) a = { a with storage := a.storage ++ slots } := by
  induction slots with
  | nil => intro a _; simp
  | cons s rest ih =>
    intro a distinct
    have new : a.storage.any (·.1 == s.1) = false := by
      rw [List.any_eq_false]
      intro t mem same
      rw [List.map_append, List.nodup_append] at distinct
      exact distinct.2.2 t.1 (List.mem_map_of_mem mem) s.1 (by simp) (eq_of_beq same)
    have set : a.setSlot s.1 s.2 = { a with storage := a.storage ++ [s] } := by
      simp [setSlot, new]
    rw [List.foldl_cons, set, ih]
    · simp
    · simpa using distinct

/-- What is written of slots whose keys and values are known. -/
theorem mapM_slots {h : Heap} {slots : List (Bytes × Written)} : ∀ {vs : List Value},
    vs.mapM h.written = .ok (slots.map (·.2)) →
    ((slots.map (·.1)).zip vs).mapM (fun s => (do return (s.1, ← h.written s.2) : Except Crash (Bytes × Written))) = .ok slots := by
  induction slots with
  | nil => intro vs _; rfl
  | cons s rest ih =>
    intro vs written
    rw [mapM_eq_ok_iff] at written
    rcases written with _ | ⟨first, more⟩
    rw [List.map_cons, List.zip_cons_cons, List.mapM_cons, ih (mapM_eq_ok_iff.mpr more), first]
    rfl

theorem yields_storage {i : Image} (readable : i.Readable) (g : Heap) :
    ∃ vs g', MadeEach g g' packDepth vs (i.storage.map (·.2)) ∧
      ∀ {α : Type} (f : List (Bytes × Value) → α),
        Yields (do let n ← liftUnpack Unpack.listLength; return f (← unpackSlots (n.getD 0))) g
          (if i.storage.isEmpty then Pack.absent else Pack.list (i.storage.map packSlot))
          (f ((i.storage.map (·.1)).zip vs)) g' := by
  obtain ⟨vs, g', read, made⟩ := yields_slots readable.slots g
  refine ⟨vs, g', made, fun f => ?_⟩
  split
  · next empty =>
    rw [List.isEmpty_iff.mp empty] at read ⊢
    have none : Unpack.Yields Unpack.listLength Pack.absent none := fun _ => rfl
    exact (yields_liftUnpack none g).bind (read.map f)
  · have length := Unpack.yields_listLength readable.few
    rw [← List.length_map packSlot] at length read
    exact (yields_liftUnpack length g).bind (read.map f)

/-- An account is read back as one with the same image. -/
theorem ofBytes?_image {i : Image} (readable : i.Readable) (g : Heap) :
    ∃ a g', ofBytes? g i.pack = some (a, g') ∧ g.Extends g' ∧ ∀ g'', g'.Extends g'' → a.image g'' = .ok i := by
  obtain ⟨vs, g', made, read⟩ := yields_storage readable g
  have length : vs.length = (i.storage.map (·.1)).length := by
    rw [made.restored.length_eq, List.length_map, List.length_map]
  have keys : ((i.storage.map (·.1)).zip vs).map (·.1) = i.storage.map (·.1) := List.map_fst_zip length.ge
  let a : Account :=
    { address := i.address, balance := i.balance, nonce := i.nonce, code := i.code
      storage := (i.storage.map (·.1)).zip vs }
  have folded : ((i.storage.map (·.1)).zip vs).foldl (fun a e => a.setSlot e.1 e.2)
      { a with balance := 0, storage := [] } = { a with balance := 0 } := by
    rw [foldl_setSlot _ (by simpa [keys] using readable.keys)]
    rfl
  have record : Yields unpack g i.pack
      { account := { a with balance := 0 }, balance := Text.decimalInt i.balance } g' := by
    intro rest
    refine Unpack.Reads.record_eq ?_ ?_ rest
    · let start : Stored :=
        { account := { address := i.address, nonce := i.nonce }, balance := Text.decimalInt i.balance }
      refine .append (b := ({ start with account := { start.account with code := i.code } }, g)) ?_ ?_
      · refine .append (b := (start, g)) ?_ ?_
        · refine .cons (by decide) rfl ((yields_liftUnpack (Unpack.yields_text readable.address) g).map _) ?_
          refine .cons (by decide) rfl ((yields_liftUnpack (Unpack.yields_text readable.balance) g).map _) ?_
          exact .single (by decide) rfl ((yields_liftUnpack (Unpack.yields_natMod_word readable.nonce) g).map _)
        · refine .optional (fun none => by rw [none]) (.single (by decide) rfl ?_)
          exact (yields_liftUnpack (Unpack.yields_text readable.code) g).map _
      · refine .single (by decide) rfl ?_
        rw [← folded]
        exact read _
    · have code := length_optional (i.code = []) ("code", Pack.text i.code)
      simp only [List.length_append, List.length_cons, List.length_nil]
      omega
  refine ⟨a, g', ?_, made.grows, fun g'' later => ?_⟩
  · have whole := record []
    rw [List.append_nil] at whole
    unfold ofBytes?
    rw [whole]
    simp [readWhole?_decimalInt, a]
  · have sorted : a.sortedStorage = a.storage := by
      refine List.mergeSort_of_pairwise ?_
      have pairs : ((i.storage.map (·.1)).zip vs).map (·.1) |>.Pairwise fun s t => Text.lexLe s t = true := by
        rw [keys]
        exact List.pairwise_map.mpr readable.sorted
      exact List.pairwise_map.mp pairs
    have slots := mapM_slots (made.mapM_written later)
    unfold image
    rw [sorted]
    dsimp only [a]
    rw [slots]
    rfl

end Account

end LedgerScript
