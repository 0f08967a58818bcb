import LedgerScript.Proofs.Ledger.Session
import LedgerScript.Proofs.Wire.Pack
import LedgerScript.Proofs.Wire.Written
import Mathlib.Data.List.Nodup

/-!
# The open block and its record

As long as the arguments of transactions are not changed after the transactions were made, the hash of the open block
fits its contents at all times, and making it anew gives the same hash.  That is `Anchored`.

The store has the record of the open block, unless nothing has entered it yet, and it has no record behind it.  That
is `Kept`.  It holds along every run in which the store takes the open block back whenever a commit fails.  Writing the
open block once more then makes no difference to a ledger that is read from the store.
-/

namespace LedgerScript

variable {V E B : Type}
variable {h h' : Heap} {tx : Transaction} {b : ChainBlock}

/-! ## Stored forms on larger heaps -/

def Transaction.HeldBy (h : Heap) (tx : Transaction) : Prop :=
  ∀ v ∈ tx.args, h.Holds v

theorem Transaction.HeldBy.mono (held : tx.HeldBy h) (ext : h.Extends h') : tx.HeldBy h' :=
  fun v hv => (held v hv).mono ext

theorem Transaction.HeldBy.pack_eq (held : tx.HeldBy h) (ext : h.Extends h') : tx.pack h' = tx.pack h := by
  unfold Transaction.pack
  rw [mapM_congr fun v hv => (held v hv).pack_eq ext]

theorem mapM_pack_eq {txs : List Transaction} (held : ∀ tx ∈ txs, tx.HeldBy h) (ext : h.Extends h') :
    (txs.mapM fun tx => tx.pack h') = txs.mapM fun tx => tx.pack h :=
  mapM_congr fun tx htx => (held tx htx).pack_eq ext

theorem hashOf_eq {txs : List Transaction} (held : ∀ tx ∈ txs, tx.HeldBy h) (ext : h.Extends h')
    (prev : Digest) : ChainBlock.hashOf h' prev txs = ChainBlock.hashOf h prev txs := by
  unfold ChainBlock.hashOf
  rw [mapM_pack_eq held ext]

theorem packBlock_eq (held : ∀ tx ∈ b.txs, tx.HeldBy h) (ext : h.Extends h') : b.pack h' = b.pack h := by
  unfold ChainBlock.pack
  rw [mapM_pack_eq held ext]

/-! ## The open block fits its hash -/

/-- The arguments of transactions are not changed once the transactions are made. -/
def Conduct.immutable : Conduct where
  heap := Heap.Extends
  heap_refl := Heap.Extends.refl
  admits h tx := tx.HeldBy h

/-- The hash of the open block fits its contents, and arguments are where they were. -/
structure Anchored (l : Ledger) (h : Heap) : Prop where
  entered : ∀ tx ∈ l.chain.head.txs, tx.HeldBy h
  begun : ∀ w, (l.working w).tx.HeldBy h
  hash : ChainBlock.hashOf h l.chain.head.prevHash l.chain.head.txs = .ok l.chain.head.hash

namespace Anchored

variable {l l' : Ledger} {h h' : Heap}

/-- Neither a larger heap nor another state of the accounts makes a difference. -/
theorem mono (anchored : Anchored l h) (ext : h.Extends h') (chain : l'.chain = l.chain)
    (begun : ∀ w, (l'.working w).tx = (l.working w).tx) : Anchored l' h' := by
  refine ⟨?_, ?_, ?_⟩
  · rw [chain]
    exact fun tx htx => (anchored.entered tx htx).mono ext
  · intro w
    rw [begun]
    exact (anchored.begun w).mono ext
  · rw [chain, hashOf_eq anchored.entered ext]
    exact anchored.hash

/-- Making the hash anew gives the same hash. -/
theorem takenBack (anchored : Anchored l h) : LedgerM.takenBack h l.chain = l.chain := by
  unfold LedgerM.takenBack
  have same : l.chain.head.rehash h = .ok l.chain.head := by
    unfold ChainBlock.rehash
    rw [anchored.hash]
    rfl
  rw [same]

theorem append (anchored : Anchored l h) {tx : Transaction} (held : tx.HeldBy h) {chain : Chain} {b : ChainBlock}
    {isSealed : Bool} (appended : l.chain.append h tx = .ok (chain, b, isSealed)) :
    (∀ tx ∈ chain.head.txs, tx.HeldBy h) ∧
      ChainBlock.hashOf h chain.head.prevHash chain.head.txs = .ok chain.head.hash := by
  obtain ⟨b', hb, ha⟩ := of_bind_ok appended
  obtain ⟨hash, hh, hb⟩ := of_bind_ok hb
  cases hb
  simp only at ha
  split at ha
  · cases ha
    refine ⟨fun tx' htx => ?_, hh⟩
    rcases List.mem_append.mp htx with htx | htx
    · exact anchored.entered tx' htx
    · rw [List.mem_singleton.mp htx]
      exact held
  · cases ha
    exact ⟨nofun, rfl⟩

end Anchored

theorem Chain.append_spec {c c' : Chain} {isSealed : Bool} (ha : c.append h tx = .ok (c', b, isSealed)) :
    b.number = c.head.number ∧ isSealed = c.isLastFree ∧ c'.head = if isSealed then b.after else b := by
  obtain ⟨b', hb, ha⟩ := of_bind_ok ha
  obtain ⟨hash, -, hh⟩ := of_bind_ok hb
  cases hh
  simp only at ha
  split at ha
  · next room =>
    cases ha
    have free : c.isLastFree = false := by simpa [isLastFree] using room
    exact ⟨rfl, free.symm, rfl⟩
  · next full =>
    cases ha
    have last : c.isLastFree = true := by simpa [isLastFree] using full
    exact ⟨rfl, last.symm, rfl⟩

/-- A new working set comes behind the others. -/
theorem Ledger.working_push_eq (l : Ledger) (k : Working) (w : WorkingId) :
    ({ l with workings := l.workings.push k } : Ledger).working w = if w = l.workings.size then k else l.working w := by
  simp only [Ledger.working, Array.getElem?_push]
  split <;> rfl

open LedgerM in
/-- Every step that leaves arguments alone keeps the open block in order. -/
theorem Session.Step.anchored {s t : Session V E B} {events : List Event} (step : Step .immutable s events t)
    (apart : Apart s) (anchored : Anchored s.state.ledger s.state.heap) : Anchored t.state.ledger t.state.heap := by
  cases step with
  | start tx isView admitted =>
    refine ⟨anchored.entered, fun w => ?_, anchored.hash⟩
    change Transaction.HeldBy s.state.heap
      (({ s.state.ledger with workings := s.state.ledger.workings.push { tx, isView } } : Ledger).working w).tx
    rw [Ledger.working_push_eq]
    split
    · exact admitted
    · exact anchored.begun w
  | @use s t active w mine α x op r h =>
    have alters := op.works s r t (apart.bound w mine) h
    exact anchored.mono alters.grows alters.changes.beside.chain alters.changes.beside.working_tx
  | @commit s t active w mine r h =>
    cases commit_outcome h with
    | unbalanced | crashed => exact anchored
    | refused f sched appended partly back =>
      exact anchored.mono (.refl _) anchored.takenBack fun v => rfl
    | done sched balanced appended grows all =>
      have held : (enteringTx s.ledger w).HeldBy s.heap := anchored.begun w
      obtain ⟨entered, hash⟩ := anchored.append held appended
      refine ⟨fun tx htx => (entered tx htx).mono grows, fun v => (anchored.begun v).mono grows, ?_⟩
      exact (hashOf_eq entered grows _).trans hash
  | @release s t active w mine r h =>
    obtain ⟨sched, locks, hr⟩ := exec_release w s
    cases hr.symm.trans h
    refine anchored.mono (.refl _) rfl fun v => ?_
    exact (Ledger.beside_modifyWorking _ w (f := fun k => { k with held := [] }) fun k => rfl).working_tx v
  | @genesis s t active balances keys r h =>
    obtain ⟨grows, store, -, hl⟩ := genesis_spec h
    exact anchored.mono grows (by rw [hl]) fun v => by rw [hl]; rfl
  | @close s t active r h =>
    obtain ⟨heap, isClosed, store, -, hl⟩ := close_spec h
    exact anchored.mono (heap ▸ .refl _) (by rw [hl]) fun v => by rw [hl]; rfl
  | elsewhere sched heap made refusesBlocks refusesAccounts refuses allowed =>
    exact anchored.mono allowed rfl fun v => rfl

/-! ## The records of the blocks -/

namespace Store

/-- The block of a record comes behind those before it. -/
def readBlock (before : List ChainBlock × Heap) (r : Nat × Bytes) : Except StoreFault (List ChainBlock × Heap) :=
  match ChainBlock.ofBytes? before.2 r.2 with
  | some (b, h) => .ok (before.1 ++ [b], h)
  | none => .error .unreadable

def readBlocks (records : List (Nat × Bytes)) (start : List ChainBlock × Heap) :
    Except StoreFault (List ChainBlock × Heap) :=
  records.foldlM readBlock start

def inOrder (records : List (Nat × Bytes)) : List (Nat × Bytes) :=
  records.mergeSort fun x y => x.1 ≤ y.1

theorem loadBlocks_eq (st : Store) (h : Heap) :
    st.loadBlocks h = if st.isShut then .error .closed else readBlocks (inOrder st.blocks) ([], h) := by
  unfold loadBlocks
  split <;> rfl

theorem inOrder_pairwise (records : List (Nat × Bytes)) : (inOrder records).Pairwise (·.1 ≤ ·.1) := by
  have sorted := @List.pairwise_mergeSort _ (fun x y : Nat × Bytes => decide (x.1 ≤ y.1))
    (fun a b c => by simpa using Nat.le_trans) (fun a b => by simpa using Nat.le_total a.1 b.1) records
  simpa [inOrder] using sorted

/-- Records of different numbers have one order only. -/
theorem inOrder_eq {records sorted : List (Nat × Bytes)} (keys : (records.map (·.1)).Nodup)
    (ascending : sorted.Pairwise (·.1 ≤ ·.1)) (perm : sorted.Perm records) : inOrder records = sorted := by
  have perm' : (inOrder records).Perm records := List.mergeSort_perm records _
  have unique : ∀ x y, x ∈ inOrder records → y ∈ sorted → x.1 ≤ y.1 → y.1 ≤ x.1 → x = y := by
    intro x y hx hy le ge
    exact List.inj_on_of_nodup_map keys (perm'.subset hx) (perm.subset hy) (Nat.le_antisymm le ge)
  exact List.Perm.eq_of_pairwise unique (inOrder_pairwise records) ascending (perm'.trans perm.symm)

section

variable {records : List (Nat × Bytes)} {number : Nat} {bytes : Bytes}

theorem putRecord_keys (keys : (records.map (·.1)).Nodup) (number : Nat) (bytes : Bytes) :
    ((putRecord records number bytes).map (·.1)).Nodup := by
  refine List.nodup_cons.mpr ⟨fun hm => ?_, List.Nodup.sublist (List.Sublist.map _ List.filter_sublist) keys⟩
  obtain ⟨r, hr, e⟩ := List.mem_map.mp hm
  simpa [e] using (List.mem_filter.mp hr).2

theorem putRecord_last {n : Nat} (last : ∀ r ∈ records, r.1 ≤ n) (le : number ≤ n) :
    ∀ r ∈ putRecord records number bytes, r.1 ≤ n := by
  intro r hr
  rcases List.mem_cons.mp hr with rfl | hr
  · exact le
  · exact last r (List.mem_filter.mp hr).1

/-- Where the record does not count, it may be written or not. -/
theorem filter_putRecord {p : Nat × Bytes → Bool} (ignores : ∀ r, r.1 = number → p r = false) :
    (putRecord records number bytes).filter p = records.filter p := by
  have front : ¬ p (number, bytes) = true := by simp [ignores]
  rw [putRecord, List.filter_cons_of_neg front, List.filter_filter]
  refine List.filter_congr fun r hr => ?_
  by_cases e : r.1 = number
  · simp [ignores r e]
  · simp [e]

/-- A record that is written over an equal one. -/
theorem inOrder_putRecord_same (keys : (records.map (·.1)).Nodup) (there : (number, bytes) ∈ records) :
    inOrder (putRecord records number bytes) = inOrder records := by
  refine inOrder_eq (putRecord_keys keys number bytes) (inOrder_pairwise records) ?_
  refine (List.mergeSort_perm records _).trans ?_
  refine (List.perm_ext_iff_of_nodup (List.Nodup.of_map _ keys)
    (List.Nodup.of_map _ (putRecord_keys keys number bytes))).mpr fun r => ?_
  rw [putRecord, List.mem_cons, List.mem_filter, decide_eq_true_iff]
  constructor
  · intro hr
    by_cases e : r.1 = number
    · exact .inl (List.inj_on_of_nodup_map keys hr there e)
    · exact .inr ⟨hr, e⟩
  · rintro (rfl | ⟨hr, -⟩)
    · exact there
    · exact hr

theorem inOrder_putRecord_last (keys : (records.map (·.1)).Nodup) (behind : ∀ r ∈ records, r.1 < number) :
    inOrder (putRecord records number bytes) = inOrder records ++ [(number, bytes)] := by
  have perm' : (inOrder records).Perm records := List.mergeSort_perm records _
  refine inOrder_eq (putRecord_keys keys number bytes) ?_ ?_
  · refine List.pairwise_append.mpr ⟨inOrder_pairwise records, List.pairwise_singleton _ _, fun r hr n hn => ?_⟩
    rw [List.mem_singleton.mp hn]
    exact Nat.le_of_lt (behind r (perm'.subset hr))
  · have others : records.filter (·.1 ≠ number) = records :=
      List.filter_eq_self.mpr fun r hr => by simpa using Nat.ne_of_lt (behind r hr)
    rw [putRecord, others]
    exact (List.perm_append_singleton _ _).trans (perm'.cons _)

end

end Store

open Store (inOrder putRecord readBlocks)

/-- What a store has of an open block that it has no record of: writing it would make no difference. -/
structure Unwritten (b : ChainBlock) (bytes : Bytes) (records : List (Nat × Bytes)) : Prop where
  absent : ∀ r ∈ records, r.1 ≠ b.number
  readable : ∀ h, ChainBlock.ofBytes? h bytes = some (b, h)
  restored : ∀ size h bs h', readBlocks (inOrder records) ([], h) = .ok (bs, h') →
    Chain.restore size (bs ++ [b]) = Chain.restore size bs

/-- The store has the open block as it is, and no block behind it. -/
structure Kept (l : Ledger) (h : Heap) : Prop where
  keys : (l.store.blocks.map (·.1)).Nodup
  last : ∀ r ∈ l.store.blocks, r.1 ≤ l.chain.head.number
  record : ∃ bytes, l.chain.head.pack h = .ok bytes ∧
    ((l.chain.head.number, bytes) ∈ l.store.blocks ∨ Unwritten l.chain.head bytes l.store.blocks)

namespace Kept

variable {l l' : Ledger} {h h' : Heap}

theorem mono (kept : Kept l h) (anchored : Anchored l h) (ext : h.Extends h') (chain : l'.chain = l.chain)
    (blocks : l'.store.blocks = l.store.blocks) : Kept l' h' := by
  obtain ⟨bytes, packed, there⟩ := kept.record
  refine ⟨?_, ?_, bytes, ?_, ?_⟩
  · rw [blocks]
    exact kept.keys
  · rw [blocks, chain]
    exact kept.last
  · rw [chain, packBlock_eq anchored.entered ext]
    exact packed
  · rw [blocks, chain]
    exact there

/-- The open block is written. -/
theorem write {records : List (Nat × Bytes)} {bytes : Bytes} (keys : (records.map (·.1)).Nodup)
    (last : ∀ r ∈ records, r.1 ≤ l.chain.head.number) (packed : l.chain.head.pack h = .ok bytes)
    (blocks : l.store.blocks = putRecord records l.chain.head.number bytes) : Kept l h := by
  refine ⟨?_, ?_, bytes, packed, .inl ?_⟩
  · rw [blocks]
    exact Store.putRecord_keys keys _ _
  · rw [blocks]
    exact Store.putRecord_last last (Nat.le_refl _)
  · rw [blocks]
    exact List.mem_cons_self

/-- Whatever has been written, undoing it leaves the records of before and the one of the open block. -/
theorem undoneBlocks_eq {records written : List (Nat × Bytes)} {b : ChainBlock} {isSealed : Bool} (bytes : Bytes)
    (last : ∀ r ∈ records, r.1 ≤ b.number)
    (partly : LedgerM.Written h b (if isSealed then some b.after else none) records written) :
    LedgerM.undoneBlocks written b.number bytes isSealed = putRecord records b.number bytes := by
  -- The records that may have been written do not count here.
  have same (p : Nat × Bytes → Bool) (first : ∀ r, r.1 = b.number → p r = false)
      (second : isSealed = true → ∀ r, r.1 = b.number + 1 → p r = false) : written.filter p = records.filter p := by
    cases partly with
    | none => rfl
    | first packed => exact Store.filter_putRecord first
    | both packed behind packed' =>
      split at behind
      · next isSealed =>
        cases behind
        exact (Store.filter_putRecord (second isSealed)).trans (Store.filter_putRecord first)
      · cases behind
  unfold LedgerM.undoneBlocks putRecord
  cases isSealed with
  | false =>
    rw [if_neg nofun, same _ (fun r e => by simp [e]) nofun]
  | true =>
    have none : records.filter (fun r => r.1 ≠ b.number + 1 && r.1 ≠ b.number) = records.filter (·.1 ≠ b.number) :=
      List.filter_congr fun r hr => by
        have ne : r.1 ≠ b.number + 1 := Nat.ne_of_lt (Nat.lt_succ_of_le (last r hr))
        simp [ne]
    rw [if_pos rfl, List.filter_cons_of_pos (by simp), List.filter_filter,
      same _ (fun r e => by simp [e]) (fun _ r e => by simp [e]), none]

/-- A commit that fails writes the open block once more, and nothing else stays in the store. -/
theorem written_back (kept : Kept l h) (anchored : Anchored l h) (takes : l.takesBack = true) {tx : Transaction}
    {chain : Chain} {b : ChainBlock} {isSealed : Bool} (appended : l.chain.append h tx = .ok (chain, b, isSealed))
    {blocks written : List (Nat × Bytes)}
    (partly : LedgerM.Written h b (if isSealed then some chain.head else none) l.store.blocks written)
    (back : ∀ bytes, (LedgerM.takenBack h l.chain).head.pack h = .ok bytes →
      l.store.takesBack (LedgerM.takenBack h l.chain).head isSealed = true →
      blocks = LedgerM.undoneBlocks written (LedgerM.takenBack h l.chain).head.number bytes isSealed)
    {bytes : Bytes} (packed : l.chain.head.pack h = .ok bytes) :
    blocks = putRecord l.store.blocks l.chain.head.number bytes := by
  obtain ⟨number, isLast, head⟩ := Chain.append_spec appended
  have next : (if isSealed then some chain.head else none) = if isSealed then some b.after else none := by
    cases isSealed <;> simp [head]
  rw [anchored.takenBack, isLast] at back
  rw [back bytes packed takes, ← isLast, ← number]
  rw [next] at partly
  exact undoneBlocks_eq bytes (fun r hr => number ▸ kept.last r hr) partly

/-- Every step keeps the record of the open block, if what fails is undone. -/
theorem step {s t : Session V E B} {events : List Session.Event} (step : Session.Step .immutable s events t)
    (apart : Session.Apart s) (anchored : Anchored s.state.ledger s.state.heap)
    (undone : ∀ e ∈ events, e.isUndone = true) (kept : Kept s.state.ledger s.state.heap) :
    Kept t.state.ledger t.state.heap := by
  cases step with
  | start tx isView admitted => exact kept.mono anchored (.refl _) rfl rfl
  | @use s t active w mine α x op r h =>
    have alters := op.works s r t (apart.bound w mine) h
    exact kept.mono anchored alters.grows alters.changes.beside.chain (by rw [alters.changes.beside.store])
  | @commit s t active w mine r h =>
    cases LedgerM.commit_outcome h with
    | unbalanced | crashed => exact kept
    | refused f sched appended partly back =>
      have takes : s.ledger.takesBack = true := undone _ (List.mem_singleton_self _)
      obtain ⟨bytes, packed, -⟩ := kept.record
      have blocks := kept.written_back anchored takes appended partly back packed
      have head : (LedgerM.takenBack s.heap s.ledger.chain).head = s.ledger.chain.head := by rw [anchored.takenBack]
      refine .write kept.keys ?_ (head ▸ packed) (head ▸ blocks)
      exact fun r hr => head ▸ kept.last r hr
    | @done chain block isSealed sched heap store balanced appended grows all =>
      have held : (LedgerM.enteringTx s.ledger w).HeldBy s.heap := anchored.begun w
      obtain ⟨entered, -⟩ := anchored.append held appended
      obtain ⟨number, -, head⟩ := Chain.append_spec appended
      obtain ⟨bytes, packed, all⟩ := all
      have last (r) (hr : r ∈ s.ledger.store.blocks) : r.1 ≤ block.number := number ▸ kept.last r hr
      have same : chain.head.pack heap = chain.head.pack s.heap := packBlock_eq entered grows
      cases isSealed with
      | false =>
        cases head
        exact .write kept.keys last (same.trans packed) all
      | true =>
        obtain ⟨bytes', packed', all⟩ := all
        refine .write (Store.putRecord_keys kept.keys block.number bytes) ?_ (same.trans packed') all
        intro r hr
        rw [head]
        exact Nat.le_succ_of_le (Store.putRecord_last last (Nat.le_refl _) r hr)
  | @release s t active w mine r h =>
    obtain ⟨sched, locks, hr⟩ := LedgerM.exec_release w s
    cases hr.symm.trans h
    exact kept.mono anchored (.refl _) rfl rfl
  | @genesis s t active balances keys r h =>
    obtain ⟨grows, store, hb, hl⟩ := LedgerM.genesis_spec h
    exact kept.mono anchored grows (by rw [hl]) (by rw [hl]; exact hb)
  | @close s t active r h =>
    obtain ⟨heap, isClosed, store, hb, hl⟩ := LedgerM.close_spec h
    exact kept.mono anchored (heap ▸ .refl _) (by rw [hl]) (by rw [hl]; exact hb)
  | elsewhere sched heap made refusesBlocks refusesAccounts refuses allowed =>
    exact kept.mono anchored allowed rfl rfl

end Kept

theorem Session.Run.kept {s t : Session V E B} {events : List Session.Event}
    (run : Session.Run .immutable s events t) (apart : Session.Apart s) (anchored : Anchored s.state.ledger s.state.heap) :
    Anchored t.state.ledger t.state.heap ∧
      (Kept s.state.ledger s.state.heap → (∀ e ∈ events, e.isUndone = true) → Kept t.state.ledger t.state.heap) := by
  induction run with
  | refl => exact ⟨anchored, fun kept _ => kept⟩
  | tail run step ih =>
    refine ⟨step.anchored (run.apart apart) ih.1, fun kept undone => ?_⟩
    exact Kept.step step (run.apart apart) ih.1 (fun e he => undone e (List.mem_append_right _ he))
      (ih.2 kept fun e he => undone e (List.mem_append_left _ he))

/-! ## Reading the ledger from the store -/

/-- The accounts and the chain of a ledger that is read from a store, and the heap that they are on. -/
def Store.reopened (st : Store) (blockSize : Int) (h : Heap) : Except LedgerFault (List Account × Chain × Heap) :=
  (Ledger.load blockSize st h).map fun p => (p.1.accounts, p.1.chain, p.2)

/-- Only the chain that the blocks make counts. -/
theorem Store.reopened_congr {st st' : Store} {blockSize : Int} (accounts : ∀ h, st'.loadAccounts h = st.loadAccounts h)
    (unread : ∀ f, st.loadBlocks h = .error f → st'.loadBlocks h = .error f)
    (read : ∀ bs h', st.loadBlocks h = .ok (bs, h') →
      ∃ bs', st'.loadBlocks h = .ok (bs', h') ∧ ∀ size, Chain.restore size bs' = Chain.restore size bs) :
    st'.reopened blockSize h = st.reopened blockSize h := by
  unfold reopened Ledger.load
  simp only
  cases hb : st.loadBlocks h with
  | error f => rw [unread f hb]
  | ok p =>
    obtain ⟨bs', hb', same⟩ := read p.1 p.2 hb
    rw [hb']
    simp only [accounts, same]
    cases st.loadAccounts p.2 <;> rfl

theorem Store.readBlocks_append {records : List (Nat × Bytes)} {r : Nat × Bytes}
    (readable : ∀ h, ChainBlock.ofBytes? h r.2 = some (b, h)) (start : List ChainBlock × Heap) :
    readBlocks (records ++ [r]) start = (readBlocks records start).map fun p => (p.1 ++ [b], p.2) := by
  unfold readBlocks
  rw [List.foldlM_append]
  cases List.foldlM readBlock start records with
  | error f => rfl
  | ok p =>
    have last : readBlock p r = .ok (p.1 ++ [b], p.2) := by rw [readBlock, readable]
    change readBlock p r >>= pure = _
    rw [last]
    rfl

/-- Writing the open block once more makes no difference to a ledger that is read from the store. -/
theorem Kept.reopened_eq {l : Ledger} (kept : Kept l h) {bytes : Bytes}
    (packed : l.chain.head.pack h = .ok bytes) (blockSize : Int) (h' : Heap) :
    Store.reopened { l.store with blocks := putRecord l.store.blocks l.chain.head.number bytes } blockSize h' =
      l.store.reopened blockSize h' := by
  obtain ⟨bytes', packed', there | unwritten⟩ := kept.record
  · cases packed.symm.trans packed'
    have same : Store.loadBlocks { l.store with blocks := putRecord l.store.blocks l.chain.head.number bytes } h' =
        l.store.loadBlocks h' := by
      rw [Store.loadBlocks_eq, Store.loadBlocks_eq, Store.inOrder_putRecord_same kept.keys there]
      rfl
    exact Store.reopened_congr (fun _ => rfl) (fun f hf => same.trans hf) fun bs h'' hb =>
      ⟨bs, same.trans hb, fun _ => rfl⟩
  · cases packed.symm.trans packed'
    have behind (r) (hr : r ∈ l.store.blocks) : r.1 < l.chain.head.number :=
      Nat.lt_of_le_of_ne (kept.last r hr) (unwritten.absent r hr)
    have more : Store.loadBlocks { l.store with blocks := putRecord l.store.blocks l.chain.head.number bytes } h' =
        (l.store.loadBlocks h').map fun p => (p.1 ++ [l.chain.head], p.2) := by
      rw [Store.loadBlocks_eq, Store.loadBlocks_eq, Store.inOrder_putRecord_last kept.keys behind,
        Store.readBlocks_append unwritten.readable]
      change (if l.store.isShut then _ else _) = _
      split <;> rfl
    refine Store.reopened_congr (fun _ => rfl) (fun f hf => by rw [more, hf]; rfl) fun bs h'' hb => ?_
    refine ⟨bs ++ [l.chain.head], by rw [more, hb]; rfl, fun size => ?_⟩
    rw [Store.loadBlocks_eq] at hb
    split at hb
    · cases hb
    · exact unwritten.restored size h' bs h'' hb

theorem Digest.length_bytesOf (n : Nat) : ∀ x, (bytesOf n x).length = n := by
  induction n with
  | zero => intro x; rfl
  | succ n ih =>
    intro x
    rw [bytesOf, List.length_cons, ih]

theorem Digest.length_ofBytes (bytes : Bytes) : (ofBytes bytes).length = 32 := by
  simp only [ofBytes, List.length_flatMap, length_bytesOf]
  rfl

theorem Digest.ofStored_eq {d : Digest} (h : d.length = 32) : ofStored d = d := by
  simp [ofStored, ← h]

/-- A first block is read as it is written, whatever its hash is. -/
theorem ChainBlock.ofBytes?_pack (h h' : Heap) {hash : Digest} (size : hash.length = 32) {bytes : Bytes}
    (packed : pack h ⟨0, Digest.zero, [], hash, false⟩ = .ok bytes) :
    ofBytes? h' bytes = some (⟨0, Digest.zero, [], hash, false⟩, h') := by
  have read : unpack h' (Pack.record [
      ("number", Pack.word 0), ("prev", Pack.raw Digest.zero), ("txs", Pack.list []),
      ("hash", Pack.raw hash), ("sealed", Pack.bool false)] ++ []) =
      some (({ prev := Digest.zero, hash }, h'), []) := by
    refine Unpack.Reads.record_eq ?_ (by simp) []
    refine .cons (by decide) rfl (fun rest => liftUnpack_bind (Unpack.natMod_word_zero rest) rfl) ?_
    refine .cons (by decide) rfl (fun rest => liftUnpack_bind (Unpack.text_raw (by decide) rest) rfl) ?_
    refine .cons (by decide) rfl (fun rest => liftUnpack_bind (x := Unpack.listLength) (a := some 0) rfl rfl) ?_
    refine .cons (by decide) rfl (fun rest => liftUnpack_bind (Unpack.text_raw (by rw [size]; decide) rest) rfl) ?_
    exact .cons (by decide) rfl (fun rest => liftUnpack_bind rfl rfl) (.nil _)
  cases packed
  change (unpack h' (Pack.record _) >>= fun p => _) = _
  rw [List.append_nil] at read
  rw [show ([] : List Bytes).reverse = [] from rfl, read]
  change some ((⟨0, .ofStored Digest.zero, [], .ofStored hash, false⟩ : ChainBlock), h') = _
  rw [Digest.ofStored_eq size, Digest.ofStored_eq (by decide)]
theorem Ledger.load_empty {blockSize : Int} {store : Store} (empty : store.blocks = []) {l : Ledger}
    (loaded : Ledger.load blockSize store h = .ok (l, h')) : Anchored l h' ∧ Kept l h' := by
  have restored : ∃ accounts size, l = { accounts, chain := { blockSize := size }, store } := by
    have none : readBlocks (inOrder store.blocks) ([], h) = .ok ([], h) := by
      rw [empty, inOrder, List.mergeSort_nil]
      rfl
    unfold Ledger.load at loaded
    rw [Store.loadBlocks_eq, none] at loaded
    simp only at loaded
    split at loaded
    · cases loaded
    · next hb =>
      split at hb
      · cases hb
      · cases hb
        split at loaded
        · cases loaded
        · cases loaded
          exact ⟨_, _, rfl⟩
  obtain ⟨accounts, size, rfl⟩ := restored
  refine ⟨⟨nofun, fun w => nofun, rfl⟩, ?_⟩
  have packed : ∃ bytes, ChainBlock.first.pack h' = .ok bytes := ⟨_, rfl⟩
  obtain ⟨bytes, packed⟩ := packed
  have digest : (ChainBlock.emptyHash Digest.zero).length = 32 := Digest.length_ofBytes _
  refine ⟨?_, ?_, bytes, packed, .inr ⟨?_, fun h => ChainBlock.ofBytes?_pack h' h digest packed, ?_⟩⟩
  · rw [empty]
    exact List.nodup_nil
  · rw [empty]
    exact nofun
  · rw [empty]
    exact nofun
  · intro size h bs h' read
    rw [empty, inOrder, List.mergeSort_nil] at read
    cases read
    rfl

end LedgerScript
