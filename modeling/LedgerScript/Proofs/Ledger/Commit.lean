import LedgerScript.Proofs.Ledger.Change

/-!
# How a working set ends

A commit either leaves the committed accounts as they are, or it replaces exactly those that the working set has
copies of.  `LedgerM.Outcome` lists the ways a commit can end, with what has become of the chain and of the store; a
release frees the addresses that the working set holds and nothing else.
-/

namespace LedgerScript

variable {V E B : Type}

namespace Store

def putRecord (blocks : List (Nat × Bytes)) (number : Nat) (bytes : Bytes) : List (Nat × Bytes) :=
  (number, bytes) :: blocks.filter (·.1 ≠ number)

/-- The store would take a block as it is, and, if need be, let go of the one behind it. -/
def takesBack (st : Store) (b : ChainBlock) (sealing : Bool) : Bool :=
  !st.refusesBlocks && !st.refuses (.block b) && !(sealing && st.refuses (.deletion (b.number + 1))) && !st.isShut

theorem putBlock_ok {st st' : Store} {h : Heap} {b : ChainBlock} (hp : st.putBlock h b = .ok st') :
    ∃ bytes, b.pack h = .ok bytes ∧ st' = { st with blocks := putRecord st.blocks b.number bytes } := by
  unfold putBlock at hp
  split at hp
  · cases hp
  · split at hp
    · cases hp
    · next bytes hb =>
      split at hp
      · cases hp
      · cases hp
        exact ⟨bytes, hb, rfl⟩

/-- Writing accounts leaves the blocks alone. -/
theorem putAccounts_ok {st st' : Store} {h h' : Heap} {accounts : List Account}
    (hp : st.putAccounts h accounts = .ok (st', h')) : st'.blocks = st.blocks ∧ h.Extends h' := by
  unfold putAccounts at hp
  cases hk : st.kind with
  | memory =>
    simp only [hk] at hp
    split at hp
    · cases hp
    · refine foldlM_keeps (fun p => p.1.blocks = st.blocks ∧ h.Extends p.2) ?_ _ ⟨rfl, .refl h⟩ hp
      intro p a p' kept hstep
      split at hstep
      · cases hstep
      · next q hc =>
        cases hstep
        exact ⟨kept.1, kept.2.trans (Account.clone_spec hc).1⟩
  | disk =>
    simp only [hk] at hp
    split at hp
    · cases hp
    · obtain ⟨records, -, hp⟩ := of_bind_ok hp
      split at hp
      · cases hp
      · cases hp
        exact ⟨rfl, .refl h⟩

end Store

def Ledger.withBlocks (l : Ledger) (blocks : List (Nat × Bytes)) : Ledger :=
  { l with store := { l.store with blocks } }

namespace LedgerM

variable {s t : LedgerState V E B}
variable (b : ChainBlock)

theorem exec_putBlock (s : LedgerState V E B) :
    (∃ f, exec (putBlock b) s = (.ok (some f), s) ∧ s.ledger.store.putBlock s.heap b = .error f) ∨
    ∃ bytes, b.pack s.heap = .ok bytes ∧ exec (putBlock b) s = (.ok none,
      { s with ledger := s.ledger.withBlocks (Store.putRecord s.ledger.store.blocks b.number bytes) }) := by
  unfold putBlock
  rw [exec_onStore]
  cases hp : s.ledger.store.putBlock s.heap b with
  | error f => exact .inl ⟨f, rfl, rfl⟩
  | ok st =>
    obtain ⟨bytes, hb, rfl⟩ := Store.putBlock_ok hp
    exact .inr ⟨bytes, hb, rfl⟩

/-- The blocks in the store when a block and the one behind it have been written, or only the first of them. -/
inductive Written (h : Heap) (b : ChainBlock) (next : Option ChainBlock) (blocks : List (Nat × Bytes)) :
    List (Nat × Bytes) → Prop where
  | none : Written h b next blocks blocks
  | first {bytes : Bytes} (packed : b.pack h = .ok bytes) :
    Written h b next blocks (Store.putRecord blocks b.number bytes)
  | both {bytes : Bytes} {n : ChainBlock} {bytes' : Bytes} (packed : b.pack h = .ok bytes) (behind : next = some n)
    (packed' : n.pack h = .ok bytes') :
    Written h b next blocks (Store.putRecord (Store.putRecord blocks b.number bytes) n.number bytes')

/-- Both blocks have been written, as far as there are two. -/
def AllWritten (h : Heap) (b : ChainBlock) (next : Option ChainBlock) (blocks blocks' : List (Nat × Bytes)) : Prop :=
  ∃ bytes, b.pack h = .ok bytes ∧
    match next with
    | none => blocks' = Store.putRecord blocks b.number bytes
    | some n => ∃ bytes', n.pack h = .ok bytes' ∧
      blocks' = Store.putRecord (Store.putRecord blocks b.number bytes) n.number bytes'

theorem exec_persist {b : ChainBlock} {next : Option ChainBlock} {changed : List Account}
    {r : Except LedgerFault (Option StoreFault)} (h : exec (persist b next changed) s = (r, t)) :
    (∃ f blocks, r = .ok (some f) ∧ t = { s with ledger := s.ledger.withBlocks blocks } ∧
      Written s.heap b next s.ledger.store.blocks blocks) ∨
    (r = .ok none ∧ s.heap.Extends t.heap ∧ AllWritten s.heap b next s.ledger.store.blocks t.ledger.store.blocks ∧
      ∃ store, t.ledger = { s.ledger with store } ∧
        ({ s.ledger.store with blocks := store.blocks }).putAccounts s.heap changed = .ok (store, t.heap)) := by
  -- What is left to do when the blocks are written.
  have accounts {u : LedgerState V E B} (hl : ∃ blocks, u = { s with ledger := s.ledger.withBlocks blocks })
      (written : Written s.heap b next s.ledger.store.blocks u.ledger.store.blocks)
      (all : AllWritten s.heap b next s.ledger.store.blocks u.ledger.store.blocks)
      (h : exec (onStore fun st h => st.putAccounts h changed) u = (r, t)) :
      (∃ f blocks, r = .ok (some f) ∧ t = { s with ledger := s.ledger.withBlocks blocks } ∧
        Written s.heap b next s.ledger.store.blocks blocks) ∨
      (r = .ok none ∧ s.heap.Extends t.heap ∧
        AllWritten s.heap b next s.ledger.store.blocks t.ledger.store.blocks ∧
        ∃ store, t.ledger = { s.ledger with store } ∧
          ({ s.ledger.store with blocks := store.blocks }).putAccounts s.heap changed = .ok (store, t.heap)) := by
    obtain ⟨blocks, rfl⟩ := hl
    rw [exec_onStore] at h
    split at h
    · next st heap hp =>
      cases h
      obtain ⟨hb, grows⟩ := Store.putAccounts_ok hp
      exact .inr ⟨rfl, grows, hb ▸ all, st, rfl, hb ▸ hp⟩
    · next f hp =>
      cases h
      exact .inl ⟨f, blocks, rfl, rfl, written⟩
  unfold persist at h
  rw [exec_bind] at h
  rcases exec_putBlock b s with ⟨f, hb, -⟩ | ⟨bytes, packed, hb⟩
  · rw [hb] at h
    cases h
    exact .inl ⟨f, s.ledger.store.blocks, rfl, rfl, .none⟩
  · rw [hb] at h
    cases next with
    | none => exact accounts ⟨_, rfl⟩ (.first packed) ⟨bytes, packed, rfl⟩ h
    | some n =>
      simp only at h
      rw [exec_bind] at h
      rcases exec_putBlock n ⟨s.sched, s.heap,
          s.ledger.withBlocks (Store.putRecord s.ledger.store.blocks b.number bytes)⟩ with
        ⟨f, hn, -⟩ | ⟨bytes', packed', hn⟩
      · rw [hn] at h
        cases h
        exact .inl ⟨f, _, rfl, rfl, .first packed⟩
      · rw [hn] at h
        exact accounts ⟨_, rfl⟩ (.both packed rfl packed') ⟨bytes, packed, bytes', packed', rfl⟩ h

/-- The chain with the hash of its open block made anew. -/
def takenBack (h : Heap) (c : Chain) : Chain :=
  match c.head.rehash h with
  | .ok head => { c with head }
  | .error _ => c

theorem exec_takeBack (c : Chain) (s : LedgerState V E B) : exec (takeBack c) s = (.ok (takenBack s.heap c), s) := by
  unfold takeBack takenBack
  rw [exec_bind, exec_get]
  simp only
  cases c.head.rehash s.heap <;> rfl

theorem takenBack_spec (h : Heap) (c : Chain) : ∃ hash, takenBack h c = { c with head := { c.head with hash } } := by
  unfold takenBack
  split
  · next head hr =>
    obtain ⟨hash, -, hh⟩ := of_bind_ok hr
    cases hh
    exact ⟨hash, rfl⟩
  · exact ⟨c.head.hash, rfl⟩

/-- What undoing leaves in the store, if the store takes it. -/
def undoneBlocks (blocks : List (Nat × Bytes)) (number : Nat) (bytes : Bytes) (sealing : Bool) : List (Nat × Bytes) :=
  if sealing then (Store.putRecord blocks number bytes).filter (·.1 ≠ number + 1)
  else Store.putRecord blocks number bytes

theorem exec_putBack (s : LedgerState V E B) :
    ∃ f blocks, exec (putBlock b) s = (.ok f, { s with ledger := s.ledger.withBlocks blocks }) ∧
      ∀ bytes sealing, b.pack s.heap = .ok bytes → s.ledger.store.takesBack b sealing = true →
        blocks = Store.putRecord s.ledger.store.blocks b.number bytes := by
  rcases exec_putBlock b s with ⟨f, hb, refused⟩ | ⟨bytes, packed, hb⟩
  · refine ⟨some f, s.ledger.store.blocks, hb, fun bytes sealing packed takes => ?_⟩
    simp only [Store.takesBack, Bool.and_eq_true, Bool.not_eq_true'] at takes
    obtain ⟨⟨⟨ho, hb⟩, -⟩, hs⟩ := takes
    simp [Store.putBlock, ho, hb, packed, hs] at refused
  · refine ⟨none, _, hb, fun bytes' _ packed' _ => ?_⟩
    cases packed.symm.trans packed'
    rfl

theorem exec_dropBehind (sealing : Bool) (s : LedgerState V E B) :
    ∃ f blocks, exec (dropBehind b sealing) s = (.ok f, { s with ledger := s.ledger.withBlocks blocks }) ∧
      (s.ledger.store.takesBack b sealing = true →
        blocks = if sealing then s.ledger.store.blocks.filter (·.1 ≠ b.number + 1) else s.ledger.store.blocks) := by
  cases sealing with
  | false => exact ⟨none, s.ledger.store.blocks, rfl, fun _ => rfl⟩
  | true =>
    simp only [dropBehind, if_true]
    rw [exec_onStore]
    cases hd : s.ledger.store.deleteBlock (b.number + 1) with
    | error f =>
      refine ⟨some f, s.ledger.store.blocks, rfl, fun takes => ?_⟩
      simp only [Store.takesBack, Bool.and_eq_true, Bool.not_eq_true', Bool.true_and] at takes
      obtain ⟨⟨-, hb⟩, hs⟩ := takes
      simp [Store.deleteBlock, hb, hs] at hd
    | ok st =>
      unfold Store.deleteBlock at hd
      split at hd
      · cases hd
      split at hd
      · cases hd
      cases hd
      exact ⟨none, _, rfl, fun _ => rfl⟩

theorem exec_unpersist (sealing : Bool) (s : LedgerState V E B) :
    ∃ sched blocks, exec (unpersist b sealing) s = (.ok (), ⟨sched, s.heap, s.ledger.withBlocks blocks⟩) ∧
      ∀ bytes, b.pack s.heap = .ok bytes → s.ledger.store.takesBack b sealing = true →
        blocks = undoneBlocks s.ledger.store.blocks b.number bytes sealing := by
  obtain ⟨f, blocks, hput, back⟩ := exec_putBack b s
  obtain ⟨f', blocks', hdel, back'⟩ := exec_dropBehind b sealing
    { s with ledger := s.ledger.withBlocks blocks }
  have same : ∀ bytes, b.pack s.heap = .ok bytes → s.ledger.store.takesBack b sealing = true →
      blocks' = undoneBlocks s.ledger.store.blocks b.number bytes sealing := by
    intro bytes packed takes
    rw [back' takes]
    change (if sealing then blocks.filter (·.1 ≠ b.number + 1) else blocks) = _
    rw [back bytes sealing packed takes, undoneBlocks]
  unfold unpersist
  rw [exec_bind, hput]
  simp only
  rw [exec_bind, hdel]
  simp only
  split
  · exact ⟨_, blocks', rfl, same⟩
  · exact ⟨s.sched, blocks', rfl, same⟩

/-- The sums that a commit compares. -/
def balancesBefore (l : Ledger) (w : WorkingId) : Int :=
  ((l.working w).accounts.map fun a => l.balance a.address).sum

/-- The sums that a commit compares. -/
def balancesAfter (l : Ledger) (w : WorkingId) : Int :=
  ((l.working w).accounts.map (·.balance)).sum

/-- The transaction of a working set as it enters the chain. -/
def enteringTx (l : Ledger) (w : WorkingId) : Transaction :=
  { (l.working w).tx with status := .committed }

/-- How a commit can end, and what it has done then. -/
inductive Outcome (w : WorkingId) (s : LedgerState V E B) : Except LedgerFault Nat → LedgerState V E B → Prop where
  /-- The balances do not add up. -/
  | unbalanced (differ : balancesBefore s.ledger w ≠ balancesAfter s.ledger w) :
    Outcome w s (.error (.conservation (balancesBefore s.ledger w) (balancesAfter s.ledger w))) s
  /-- The transaction has no stored form. -/
  | crashed (c : Crash) (appended : s.ledger.chain.append s.heap (enteringTx s.ledger w) = .error c) :
    Outcome w s (.error (.crash c)) s
  /-- The store has refused, and everything is undone. -/
  | refused {chain : Chain} {block : ChainBlock} {isSealed : Bool} (f : StoreFault) (sched : Scheduler V E B)
    {blocks written : List (Nat × Bytes)}
    (appended : s.ledger.chain.append s.heap (enteringTx s.ledger w) = .ok (chain, block, isSealed))
    (partly : Written s.heap block (if isSealed then some chain.head else none) s.ledger.store.blocks written)
    (back : ∀ bytes, (takenBack s.heap s.ledger.chain).head.pack s.heap = .ok bytes →
      s.ledger.store.takesBack (takenBack s.heap s.ledger.chain).head isSealed = true →
      blocks = undoneBlocks written (takenBack s.heap s.ledger.chain).head.number bytes isSealed) :
    Outcome w s (.error (.persist block.number f))
      ⟨sched, s.heap, ({ s.ledger with chain := takenBack s.heap s.ledger.chain }).withBlocks blocks⟩
  /-- The copies have replaced the committed accounts. -/
  | done {chain : Chain} {block : ChainBlock} {isSealed : Bool} (sched : Scheduler V E B) {heap : Heap} {store : Store}
    (balanced : balancesBefore s.ledger w = balancesAfter s.ledger w)
    (appended : s.ledger.chain.append s.heap (enteringTx s.ledger w) = .ok (chain, block, isSealed))
    (grows : s.heap.Extends heap)
    (all : AllWritten s.heap block (if isSealed then some chain.head else none) s.ledger.store.blocks store.blocks)
    (stored : ({ s.ledger.store with blocks := store.blocks }).putAccounts s.heap (s.ledger.working w).accounts =
      .ok (store, heap)) :
    Outcome w s (.ok block.number)
      ⟨sched, heap, { s.ledger with
        accounts := putAll s.ledger.accounts (s.ledger.working w).accounts, chain, store }⟩

theorem commit_outcome {w : WorkingId} {r : Except LedgerFault Nat} (h : exec (commit w) s = (r, t)) : Outcome w s r t := by
  unfold commit at h
  simp only [exec_bind, exec_working, exec_ledger] at h
  split at h
  · next differ =>
    cases h
    exact .unbalanced (by simpa [balancesBefore, balancesAfter] using differ)
  next same =>
  have balanced : balancesBefore s.ledger w = balancesAfter s.ledger w := by
    simpa [balancesBefore, balancesAfter] using same
  rw [exec_bind, exec_onHeap_read] at h
  cases ha : s.ledger.chain.append s.heap (enteringTx s.ledger w) with
  | error c =>
    rw [show Chain.append s.heap s.ledger.chain { (s.ledger.working w).tx with status := .committed } = _ from ha] at h
    cases h
    exact .crashed c ha
  | ok p =>
    obtain ⟨chain, block, isSealed⟩ := p
    rw [show Chain.append s.heap s.ledger.chain { (s.ledger.working w).tx with status := .committed } = _ from ha] at h
    simp only at h
    rw [exec_bind, exec_modifyLedger] at h
    simp only at h
    rcases of_exec_bind h with ⟨e, hp, -⟩ | ⟨f?, u, hp, h⟩
    · rcases exec_persist hp with ⟨_, _, hr, -⟩ | ⟨hr, -⟩ <;> cases hr
    · rcases exec_persist hp with ⟨f, blocks, hr, rfl, partly⟩ | ⟨hr, grows, all, store, hl, stored⟩
      · cases hr
        simp only at h
        rw [exec_bind, exec_takeBack] at h
        simp only at h
        rw [exec_bind, exec_modifyLedger] at h
        simp only at h
        obtain ⟨sched, blocks', hun, back⟩ := exec_unpersist (takenBack s.heap s.ledger.chain).head isSealed
          ⟨s.sched, s.heap, { ({ s.ledger with chain }).withBlocks blocks with
            chain := takenBack s.heap s.ledger.chain }⟩
        rw [exec_bind, hun] at h
        cases h
        exact .refused f sched ha partly back
      · cases hr
        have entered : ∃ sched, r = .ok block.number ∧ t = ⟨sched, u.heap,
            { u.ledger with accounts := putAll u.ledger.accounts (s.ledger.working w).accounts }⟩ := by
          simp only [exec_bind, exec_modifyLedger, exec_note] at h
          split at h <;> cases h <;> exact ⟨_, rfl, rfl⟩
        obtain ⟨sched, rfl, rfl⟩ := entered
        rw [hl] at all ⊢
        exact .done sched balanced ha grows all stored

end LedgerM

/-! ## Release -/

namespace Ledger

variable {holders : List (Address × WorkingId)}

def OneHolder (holders : List (Address × WorkingId)) : Prop :=
  (holders.map (·.1)).Nodup

def letGo (w : WorkingId) (holders : List (Address × WorkingId)) (address : Address) : List (Address × WorkingId) :=
  if (holders.find? (·.1 == address)).map (·.2) = some w then holders.filter (·.1 != address) else holders

theorem OneHolder.filter (one : OneHolder holders) (p : Address × WorkingId → Bool) : OneHolder (holders.filter p) :=
  List.Nodup.sublist (List.Sublist.map _ (List.filter_sublist)) one

theorem OneHolder.find (one : OneHolder holders) {p : Address × WorkingId}
    (hp : p ∈ holders) : holders.find? (·.1 == p.1) = some p := by
  induction holders with
  | nil => cases hp
  | cons q rest ih =>
    have hq : q.1 ∉ rest.map (·.1) := (List.nodup_cons.mp one).1
    rcases List.mem_cons.mp hp with rfl | hp
    · simp
    · have hne : q.1 ≠ p.1 := fun e => hq (List.mem_map.mpr ⟨p, hp, e.symm⟩)
      simpa [hne] using ih (List.nodup_cons.mp one).2 hp

theorem OneHolder.unique (one : OneHolder holders) {address : Address}
    {v w : WorkingId} (hv : (address, v) ∈ holders) (hw : (address, w) ∈ holders) : v = w := by
  have same : some (address, v) = some (address, w) := (one.find hv).symm.trans (one.find hw)
  exact congrArg Prod.snd (Option.some.inj same)

/-- Only the entry of the working set itself goes. -/
theorem letGo_eq (one : OneHolder holders) (w : WorkingId) (address : Address) :
    letGo w holders address = holders.filter fun p => !(p.1 == address && p.2 == w) := by
  unfold letGo
  split
  · next h =>
    refine List.filter_congr fun p hp => ?_
    by_cases e : p.1 = address
    · have found := one.find hp
      rw [e] at found
      rw [found] at h
      simp [e, Option.some.inj h]
    · have hne : (p.1 == address) = false := by simpa using e
      simp [hne, bne]
  · next h =>
    symm
    rw [List.filter_eq_self]
    intro p hp
    by_cases e : p.1 = address
    · have found := one.find hp
      rw [e] at found
      rw [found] at h
      simpa [e] using h
    · simp [e]

theorem foldl_letGo_eq (w : WorkingId) (addresses : List Address) : ∀ {holders : List (Address × WorkingId)},
    OneHolder holders →
      addresses.foldl (letGo w) holders = holders.filter fun p => !(addresses.contains p.1 && p.2 == w) := by
  induction addresses with
  | nil => intro holders one; simp
  | cons a rest ih =>
    intro holders one
    rw [List.foldl_cons, letGo_eq one, ih (one.filter _), List.filter_filter]
    refine List.filter_congr fun p hp => ?_
    by_cases e : p.1 = a
    · by_cases hw : p.2 = w <;> simp [e, hw]
    · simp [e]

end Ledger

namespace LedgerM

variable {s t : LedgerState V E B}
variable {r : Except LedgerFault Unit} (w : WorkingId)

theorem exec_letGo (h : Address × Bool) (s : LedgerState V E B) :
    ∃ sched locks, exec (letGo w h) s =
      (.ok (), ⟨sched, s.heap, { s.ledger with holders := Ledger.letGo w s.ledger.holders h.1, locks }⟩) := by
  -- The lock goes after the address.
  have unlock (u : LedgerState V E B) : ∃ sched locks, exec (do
      if h.2 then
        let lock ← lockOf h.1
        modifySched (·.releaseLock lock) : LedgerM V E B Unit) u =
      (.ok (), ⟨sched, u.heap, { u.ledger with locks }⟩) := by
    split
    · rcases hl : exec (lockOf h.1) u with ⟨r, v⟩
      obtain ⟨⟨id, rfl⟩, locks, hv, hh⟩ := exec_lockOf hl
      rw [exec_bind, hl]
      exact ⟨v.sched.releaseLock id, locks, by rw [← hv, ← hh]; rfl⟩
    · exact ⟨u.sched, u.ledger.locks, rfl⟩
  unfold letGo
  rw [exec_bind, exec_holder?]
  simp only
  split
  · next mine =>
    have holders : s.ledger.holders.filter (·.1 != h.1) = Ledger.letGo w s.ledger.holders h.1 :=
      (if_pos (eq_of_beq mine)).symm
    rw [exec_bind, exec_modifyLedger, ← holders]
    exact unlock _
  · next other =>
    have holders : Ledger.letGo w s.ledger.holders h.1 = s.ledger.holders :=
      if_neg fun e => other (beq_iff_eq.mpr e)
    rw [holders]
    exact unlock s

theorem exec_forM_letGo (held : List (Address × Bool)) : ∀ s : LedgerState V E B,
    ∃ sched locks, exec (held.forM (letGo w)) s = (.ok (),
      ⟨sched, s.heap, { s.ledger with holders := (held.map Prod.fst).foldl (Ledger.letGo w) s.ledger.holders, locks }⟩) := by
  induction held with
  | nil => intro s; exact ⟨s.sched, s.ledger.locks, rfl⟩
  | cons h rest ih =>
    intro s
    obtain ⟨sched, locks, hh⟩ := exec_letGo w h s
    obtain ⟨sched', locks', hr⟩ :=
      ih ⟨sched, s.heap, { s.ledger with holders := Ledger.letGo w s.ledger.holders h.1, locks }⟩
    refine ⟨sched', locks', ?_⟩
    change exec (letGo w h >>= fun _ => rest.forM (letGo w)) s = _
    rw [exec_bind, hh]
    exact hr

theorem exec_release (s : LedgerState V E B) :
    ∃ sched locks, exec (release w) s = (.ok (), ⟨sched, s.heap,
      ({ s.ledger with
        holders := ((s.ledger.working w).held.map Prod.fst).foldl (Ledger.letGo w) s.ledger.holders, locks }).modifyWorking
          w fun k => { k with held := [] }⟩) := by
  obtain ⟨sched, locks, hh⟩ := exec_forM_letGo w (s.ledger.working w).held s
  refine ⟨sched, locks, ?_⟩
  unfold release
  rw [exec_bind, exec_working]
  simp only
  rw [exec_bind, hh]
  rfl

/-! ## Beginnings -/

@[simp] theorem exec_newWorking (tx : Transaction) (isView : Bool) (s : LedgerState V E B) :
    exec (newWorking tx isView) s = (.ok s.ledger.workings.size,
      { s with ledger := { s.ledger with workings := s.ledger.workings.push { tx, isView } } }) := rfl

def freshAccounts (l : Ledger) (balances : List (Address × Int)) : List Account :=
  ((balances.mergeSort fun x y => Text.lexLe x.1 y.1).filter fun b => (l.account? b.1).isNone).map fun b =>
    { address := b.1, balance := b.2 }

/-- What becomes of initial balances: nothing is new, or the store refuses the new accounts, or it takes them.  In memory the new
accounts are there in any case. -/
theorem genesis_cases {balances : List (Address × Int)} (h : exec (genesis balances) s = (r, t)) :
    (freshAccounts s.ledger balances = [] ∧ r = .ok () ∧ t = s) ∨
      (∃ f, s.ledger.store.putAccounts s.heap (freshAccounts s.ledger balances) = .error f ∧ r = .error (.store f) ∧
        t = { s with ledger := { s.ledger with accounts := s.ledger.accounts ++ freshAccounts s.ledger balances } }) ∨
      ∃ store heap, s.ledger.store.putAccounts s.heap (freshAccounts s.ledger balances) = .ok (store, heap) ∧ r = .ok () ∧
        t = { s with heap, ledger := { s.ledger with accounts := s.ledger.accounts ++ freshAccounts s.ledger balances, store } } := by
  unfold genesis at h
  simp only [exec_bind, exec_ledger] at h
  split at h
  · next empty =>
    cases h
    exact .inl ⟨List.isEmpty_iff.mp empty, rfl, rfl⟩
  · simp only [exec_bind, exec_modifyLedger, exec_onStore] at h
    split at h
    · next hp =>
      split at hp
      · next store heap put =>
        cases hp
        cases h
        exact .inr (.inr ⟨store, heap, put, rfl, rfl⟩)
      · next f put =>
        cases hp
        cases h
        exact .inr (.inl ⟨f, put, rfl, rfl⟩)
    · next hp => split at hp <;> cases hp

theorem genesis_spec {balances : List (Address × Int)}
    (h : exec (genesis balances) s = (r, t)) : s.heap.Extends t.heap ∧
      ∃ store, store.blocks = s.ledger.store.blocks ∧
        t.ledger = { s.ledger with accounts := s.ledger.accounts ++ freshAccounts s.ledger balances, store } := by
  rcases genesis_cases h with ⟨none, -, rfl⟩ | ⟨f, -, -, rfl⟩ | ⟨store, heap, put, -, rfl⟩
  · exact ⟨.refl _, t.ledger.store, rfl, by rw [none, List.append_nil]⟩
  · exact ⟨.refl _, s.ledger.store, rfl, rfl⟩
  · obtain ⟨blocks, grows⟩ := Store.putAccounts_ok put
    exact ⟨grows, store, blocks, rfl⟩

theorem close_spec (h : exec close s = (r, t)) : t.heap = s.heap ∧
    ∃ isClosed store, store.blocks = s.ledger.store.blocks ∧ t.ledger = { s.ledger with isClosed, store } := by
  unfold close at h
  simp only [exec_bind, exec_ledger] at h
  split at h
  · cases h
    exact ⟨rfl, s.ledger.isClosed, s.ledger.store, rfl, rfl⟩
  · simp only [exec_bind, exec_modifyLedger, exec_ledger] at h
    cases hc : s.ledger.store.close with
    | error f =>
      rw [hc] at h
      cases h
      exact ⟨rfl, true, s.ledger.store, rfl, rfl⟩
    | ok st =>
      rw [hc] at h
      cases h
      unfold Store.close at hc
      split at hc
      · cases hc
      · cases hc
        exact ⟨rfl, true, { s.ledger.store with isClosed := true }, rfl, rfl⟩

end LedgerM

/-! ## The transactions of a chain -/

/-- All transactions in the order in which they entered. -/
def Chain.txs (c : Chain) : List Transaction :=
  c.blocks.flatMap (·.txs)

theorem Chain.txs_append {h : Heap} {c c' : Chain} {tx : Transaction} {b : ChainBlock} {isSealed : Bool}
    (ha : c.append h tx = .ok (c', b, isSealed)) : c'.txs = c.txs ++ [tx] := by
  obtain ⟨b', hb, ha⟩ := of_bind_ok ha
  obtain ⟨hash, -, hh⟩ := of_bind_ok hb
  cases hh
  simp only at ha
  split at ha
  · cases ha
    simp [txs, blocks]
  · cases ha
    simp [txs, blocks, ChainBlock.after]

theorem Chain.txs_takenBack (h : Heap) (c : Chain) : (LedgerM.takenBack h c).txs = c.txs := by
  obtain ⟨hash, e⟩ := LedgerM.takenBack_spec h c
  rw [e]
  simp [txs, blocks]

end LedgerScript
