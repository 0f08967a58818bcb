import LedgerScript.Proofs.Ledger.Mirror

/-!
# A ledger and its successor

A ledger can be closed, and another one read from its store.  What is written of the two is the same: of the accounts, in the
order of their addresses, and of all blocks.

This needs two things.  Everything that is committed has to *fit* into records, and nothing but the ledger may change what has
been committed: storage and arguments are values of the program, which keeps references into them.  In a `Steady` run both
are so at every step.  The store then mirrors the ledger all the time, whatever transactions do to their working sets and
whichever of them fail.
-/

namespace LedgerScript

variable {V E B : Type}

/-! ## What is written of a ledger -/

namespace Ledger

/-- What is written of a ledger. -/
structure Image where
  accounts : List Account.Image
  blocks : List ChainBlock.Image

def image (h : Heap) (l : Ledger) : Except Crash Image := do
  return { accounts := ← l.sortedAccounts.mapM (·.image h), blocks := ← l.chain.blocks.mapM (·.image h) }

end Ledger

/-- The store takes what is given to it. -/
structure Store.Willing (st : Store) : Prop where
  isOpen : st.isClosed = false
  blocks : st.refusesBlocks = false
  accounts : st.refusesAccounts = false
  writes : ∀ w, st.refuses w = false

namespace Ledger

/-- Everything that has been committed fits into records, and the values of working sets are there. -/
structure Fit (l : Ledger) (h : Heap) : Prop where
  willing : l.store.Willing
  accounts : ∀ a ∈ l.accounts, a.Fit h
  copies : ∀ a ∈ l.store.accounts, a.Fit h
  blocks : ∀ b ∈ l.chain.blocks, b.Fit h
  args : ∀ w, (l.working w).tx.HeldBy h
  storage : ∀ w, ∀ a ∈ (l.working w).accounts, ∀ s ∈ a.storage, h.Holds s.2

/-- Another heap has the same of everything that has been committed. -/
structure Untouched (l : Ledger) (h h' : Heap) : Prop where
  accounts : ∀ a ∈ l.accounts, a.image h' = a.image h
  copies : ∀ a ∈ l.store.accounts, a.image h' = a.image h
  blocks : ∀ b ∈ l.chain.blocks, b.image h' = b.image h

/-- The store has the accounts and the blocks of the ledger. -/
structure Mirrored (size : Nat) (l : Ledger) (h : Heap) : Prop where
  blockSize : l.chain.blockSize = size
  standing : l.chain.Standing h
  chains : Store.Chains l.store.blocks h l.chain
  mirrors : l.store.Mirrors h l.accounts

end Ledger

namespace Store

variable {st st' : Store} {h h' : Heap} {accounts : List Account}
variable {written : List Account}

theorem Mirrors.mono (mirrors : st.Mirrors h accounts) (same : ∀ a ∈ accounts, a.image h' = a.image h)
    (sameCopies : ∀ a ∈ st.accounts, a.image h' = a.image h) (fit : ∀ a ∈ st.accounts, a.Fit h')
    (kind : st'.kind = st.kind) (records : st'.records = st.records) (copies : st'.accounts = st.accounts) :
    st'.Mirrors h' accounts := by
  cases mirrors with
  | disk isDisk keys has only =>
    refine .disk (kind.trans isDisk) (records ▸ keys) (fun a mem => ?_) (records ▸ only)
    obtain ⟨i, image, there⟩ := has a mem
    exact ⟨i, (same a mem).trans image, records ▸ there⟩
  | memory isMemory distinct _ has only =>
    refine .memory (kind.trans isMemory) (copies ▸ distinct) (copies ▸ fit) (fun a mem => ?_) (copies ▸ only)
    obtain ⟨c, hc, address, image⟩ := has a mem
    exact ⟨c, copies ▸ hc, address, by rw [sameCopies c hc, image, same a mem]⟩

/-- A store that refuses nothing takes accounts that fit. -/
theorem Mirrors.takes (mirrors : st.Mirrors h accounts) (willing : st.Willing)
    (fit : ∀ a ∈ written, a.Fit h) (unique : Distinct written) : ∃ p, st.putAccounts h written = .ok p := by
  unfold putAccounts
  rw [willing.accounts, willing.writes]
  cases mirrors with
  | disk kind =>
    have packed : ∃ new, written.mapM (recordOf h) = .ok new := by
      clear unique
      induction written with
      | nil => exact ⟨[], rfl⟩
      | cons a rest ih =>
        obtain ⟨i, image, -, -⟩ := (fit a (by simp)).image
        obtain ⟨new, others⟩ := ih fun a mem => fit a (by simp [mem])
        have first : recordOf h a = .ok (a.address, i.pack) := by
          rw [recordOf, a.pack_eq_image, image]
          rfl
        exact ⟨_, by rw [List.mapM_cons, first, others]; rfl⟩
    obtain ⟨new, packed⟩ := packed
    have unshut : st.isShut = false := by rw [isShut, willing.isOpen, Bool.false_and]
    simp only [kind, unshut]
    change ∃ p, (written.mapM (recordOf h) >>= _) = Except.ok p
    rw [packed]
    exact ⟨_, rfl⟩
  | memory kind distinct =>
    obtain ⟨after, h', made, -⟩ := putCopies fit unique distinct
    simp only [kind]
    exact ⟨_, made⟩

/-- Written accounts replace the committed ones. -/
theorem merged_putAll (unique : Distinct written) (distinct : Distinct accounts) :
    Merged accounts written (putAll accounts written) where
  mem a mem := by
    have found := accountAt_of_mem (distinct.putAll written) mem
    rw [accountAt_putAll unique] at found
    cases here : accountAt written a.address with
    | some b =>
      rw [here, Option.some_or] at found
      cases found
      exact .inl (mem_of_accountAt here)
    | none =>
      rw [here, Option.none_or] at found
      exact .inr ⟨mem_of_accountAt found, accountAt_eq_none.mp here⟩
  addresses address either := by
    by_contra absent
    have none := accountAt_eq_none.mpr absent
    rw [accountAt_putAll unique, Option.or_eq_none_iff] at none
    rcases either with here | there
    · exact accountAt_eq_none.mp none.1 here
    · exact accountAt_eq_none.mp none.2 there

theorem merged_append (distinct : Distinct (accounts ++ written)) :
    Merged accounts written (accounts ++ written) where
  mem a mem := by
    rcases List.mem_append.mp mem with mem | mem
    · refine .inr ⟨mem, fun among => ?_⟩
      rw [Distinct, List.map_append, List.nodup_append] at distinct
      exact distinct.2.2 a.address (List.mem_map_of_mem mem) a.address among rfl
    · exact .inl mem
  addresses address either := by
    rw [List.map_append, List.mem_append]
    exact either.symm

end Store

/-! ## One step -/

namespace Ledger

variable {size : Nat} {l l' : Ledger} {h h' : Heap}

/-- Nothing has been committed. -/
theorem Mirrored.mono (mirrored : l.Mirrored size h) (untouched : l.Untouched h h') (fit : l'.Fit h')
    (accounts : l'.accounts = l.accounts) (chain : l'.chain = l.chain) (blocks : l'.store.blocks = l.store.blocks)
    (kind : l'.store.kind = l.store.kind) (records : l'.store.records = l.store.records)
    (copies : l'.store.accounts = l.store.accounts) : l'.Mirrored size h' where
  blockSize := by rw [chain, mirrored.blockSize]
  standing := by
    rw [chain]
    exact mirrored.standing.mono (untouched.blocks l.chain.head (by simp [Chain.blocks]))
  chains := by
    rw [chain, blocks]
    exact mirrored.chains.mono untouched.blocks
  mirrors := by
    rw [accounts]
    exact mirrored.mirrors.mono untouched.accounts untouched.copies (copies ▸ fit.copies) kind records copies

/-- Making the hash of the open block anew gives the same hash. -/
theorem Mirrored.takenBack (mirrored : l.Mirrored size h) : LedgerM.takenBack h l.chain = l.chain := by
  unfold LedgerM.takenBack ChainBlock.rehash
  rw [mirrored.standing.hash]
  rfl

end Ledger

namespace LedgerM

variable {size : Nat} {s t : LedgerState V E B} {w : WorkingId} {active : List WorkingId}

/-- A commit that the store has refused is undone, and the open block is written once more. -/
theorem mirrored_refused (mirrored : s.ledger.Mirrored size s.heap) (fit : s.ledger.Fit s.heap) {chain : Chain}
    {block : ChainBlock} {isSealed : Bool} {blocks written : List (Nat × Bytes)}
    (appended : s.ledger.chain.append s.heap (enteringTx s.ledger w) = .ok (chain, block, isSealed))
    (partly : Written s.heap block (if isSealed then some chain.head else none) s.ledger.store.blocks written)
    (back : ∀ bytes, (takenBack s.heap s.ledger.chain).head.pack s.heap = .ok bytes →
      s.ledger.store.takesBack (takenBack s.heap s.ledger.chain).head isSealed = true →
      blocks = undoneBlocks written (takenBack s.heap s.ledger.chain).head.number bytes isSealed) :
    Ledger.Mirrored size (({ s.ledger with chain := takenBack s.heap s.ledger.chain } : Ledger).withBlocks blocks) s.heap := by
  have standing := mirrored.standing
  have head : s.ledger.chain.head ∈ s.ledger.chain.blocks := by simp [Chain.blocks]
  obtain ⟨i, image, -⟩ := (fit.blocks _ head).image (standing.sized _ head)
  have packed : s.ledger.chain.head.pack s.heap = .ok i.pack := by
    rw [ChainBlock.pack_eq_image, image]
    rfl
  have takes : s.ledger.store.takesBack s.ledger.chain.head isSealed = true := by
    simp [Store.takesBack, Store.isShut, fit.willing.isOpen, fit.willing.blocks, fit.willing.writes]
  rw [mirrored.takenBack] at back ⊢
  obtain ⟨number, -, next⟩ := Chain.append_spec appended
  have behind : (if isSealed then some chain.head else none) = if isSealed then some block.after else none := by
    cases isSealed <;> simp [next]
  rw [behind] at partly
  have last : ∀ r ∈ s.ledger.store.blocks, r.1 ≤ block.number := by
    intro r mem
    have among := mirrored.chains.only r mem
    rw [standing.numbered, List.mem_range] at among
    have := standing.head_number.1
    simp only [Chain.blocks, List.length_append, List.length_singleton] at among
    omega
  have undone := Kept.undoneBlocks_eq i.pack last partly
  rw [back i.pack packed takes, ← number, undone, number]
  exact ⟨mirrored.blockSize, standing, mirrored.chains.again standing packed,
    mirrored.mirrors.mono (fun _ _ => rfl) (fun _ _ => rfl) fit.copies rfl rfl rfl⟩

/-- A transaction and the accounts that it has written enter the ledger and the store alike. -/
theorem mirrored_done (mirrored : s.ledger.Mirrored size s.heap) (apart : Isolated s.ledger active) (mine : w ∈ active)
    (fit : s.ledger.Fit s.heap) {chain : Chain} {block : ChainBlock} {isSealed : Bool} {heap : Heap} {store : Store}
    (appended : s.ledger.chain.append s.heap (enteringTx s.ledger w) = .ok (chain, block, isSealed))
    (grows : s.heap.Extends heap)
    (all : AllWritten s.heap block (if isSealed then some chain.head else none) s.ledger.store.blocks store.blocks)
    (stored : ({ s.ledger.store with blocks := store.blocks }).putAccounts s.heap (s.ledger.working w).accounts =
      .ok (store, heap))
    (fit' : Ledger.Fit { s.ledger with
      accounts := putAll s.ledger.accounts (s.ledger.working w).accounts, chain, store } heap) :
    Ledger.Mirrored size { s.ledger with
      accounts := putAll s.ledger.accounts (s.ledger.working w).accounts, chain, store } heap := by
  have standing := mirrored.standing
  have unique := apart.copies_distinct w mine
  -- arguments were there before the copies for the store were made
  have same (b) (mem : b ∈ chain.blocks) : b.image heap = b.image s.heap := by
    refine ChainBlock.image_congr fun tx htx v hv => Heap.Holds.written_eq ?_ grows
    have among : tx ∈ chain.txs := List.mem_flatMap.mpr ⟨b, mem, htx⟩
    rw [Chain.txs_append appended] at among
    rcases List.mem_append.mp among with old | new
    · obtain ⟨b, mem, htx⟩ := List.mem_flatMap.mp old
      exact (((fit.blocks b mem).txs tx htx).args v hv).holds
    · rw [List.mem_singleton.mp new] at hv
      exact fit.args w v hv
  have copies (a) (mem : a ∈ (s.ledger.working w).accounts) : a.Fit s.heap := by
    have found : accountAt (putAll s.ledger.accounts (s.ledger.working w).accounts) a.address = some a := by
      rw [accountAt_putAll unique, accountAt_of_mem unique mem, Option.some_or]
    exact (fit'.accounts a (mem_of_accountAt found)).of_extends grows (fit.storage w a mem)
  have before : ({ s.ledger.store with blocks := store.blocks } : Store).Mirrors s.heap s.ledger.accounts :=
    mirrored.mirrors.mono (fun _ _ => rfl) (fun _ _ => rfl) fit.copies rfl rfl rfl
  refine ⟨(Chain.blockSize_append appended).trans mirrored.blockSize, ?_, ?_, ?_⟩
  · exact (standing.append appended).mono (same chain.head (by simp [Chain.blocks]))
  · exact (mirrored.chains.append standing appended all).mono same
  · exact before.put stored fit.accounts copies unique (Store.merged_putAll unique apart.distinct)

/-- Initial balances enter the ledger and the store alike. -/
theorem mirrored_genesis (mirrored : s.ledger.Mirrored size s.heap) (distinct : Distinct s.ledger.accounts)
    (fit : s.ledger.Fit s.heap) {balances : List (Address × Int)} (keys : (balances.map (·.1)).Nodup)
    {r : Except LedgerFault Unit} (h : exec (genesis balances) s = (r, t)) (fit' : t.ledger.Fit t.heap)
    (untouched : s.ledger.Untouched s.heap t.heap) : t.ledger.Mirrored size t.heap := by
  obtain ⟨grows, store, blocks, eq⟩ := genesis_spec h
  have all := distinct.genesis keys
  have unique : Distinct (freshAccounts s.ledger balances) := by
    rw [Distinct, List.map_append, List.nodup_append] at all
    exact all.2.1
  have fresh (a) (mem : a ∈ freshAccounts s.ledger balances) : a.Fit s.heap := by
    have there : a ∈ t.ledger.accounts := by
      rw [eq]
      exact List.mem_append_right _ mem
    refine (fit'.accounts a there).of_extends grows fun slot stored => ?_
    obtain ⟨b, -, rfl⟩ := List.mem_map.mp mem
    cases stored
  rcases genesis_cases h with ⟨-, -, rfl⟩ | ⟨f, refused, -⟩ | ⟨st, heap, put, -, same⟩
  · exact mirrored
  · obtain ⟨p, taken⟩ := mirrored.mirrors.takes fit.willing fresh unique
    cases refused.symm.trans taken
  · have put : s.ledger.store.putAccounts s.heap (freshAccounts s.ledger balances) = .ok (t.ledger.store, t.heap) := by
      rw [put, same]
    have mirrors := mirrored.mirrors.put put fit.accounts fresh unique (Store.merged_append all)
    refine ⟨?_, ?_, ?_, ?_⟩
    · rw [eq]
      exact mirrored.blockSize
    · rw [eq]
      exact mirrored.standing.mono (untouched.blocks _ (by simp [Chain.blocks]))
    · rw [eq]
      change Store.Chains store.blocks _ _
      rw [blocks]
      exact mirrored.chains.mono untouched.blocks
    · have accounts : t.ledger.accounts = s.ledger.accounts ++ freshAccounts s.ledger balances := by rw [eq]
      rw [accounts]
      exact mirrors

/-- A store that takes everything can be closed. -/
theorem exec_close (willing : s.ledger.store.Willing) : exec close s = (.ok (), if s.ledger.isClosed then s else
    { s with ledger := { s.ledger with isClosed := true, store := { s.ledger.store with isClosed := true } } }) := by
  unfold close
  simp only [exec_bind, exec_ledger]
  split
  · rfl
  · simp only [exec_bind, exec_modifyLedger, exec_ledger]
    have closed : s.ledger.store.close = .ok { s.ledger.store with isClosed := true } := by
      simp [Store.close, Store.isShut, willing.isOpen]
    rw [closed]
    rfl

/-- Opening the store again undoes the closing. -/
theorem close_willing (willing : s.ledger.store.Willing) : ∃ t, exec close s = (.ok (), t) ∧
    { t.ledger.store with isClosed := false } = s.ledger.store ∧ t.ledger.store.kind = s.ledger.store.kind := by
  refine ⟨_, exec_close willing, ?_⟩
  have isOpen := willing.isOpen
  split
  · exact ⟨by rw [← isOpen], rfl⟩
  · exact ⟨by rw [← isOpen], rfl⟩

end LedgerM

namespace Session

variable {size : Nat} {s t : Session V E B} {events : List Event}

theorem Step.mirrored (step : Step .any s events t) (apart : Apart s) (fit : s.state.ledger.Fit s.state.heap)
    (fit' : t.state.ledger.Fit t.state.heap) (untouched : s.state.ledger.Untouched s.state.heap t.state.heap)
    (mirrored : s.state.ledger.Mirrored size s.state.heap) : t.state.ledger.Mirrored size t.state.heap := by
  cases step with
  | start tx isView admitted => exact mirrored.mono untouched fit' rfl rfl rfl rfl rfl rfl
  | @use s t active w mine α x op r h =>
    have beside := (op.works s r t (apart.bound w mine) h).changes.beside
    have store := beside.store
    exact mirrored.mono untouched fit' beside.accounts beside.chain (by rw [store]) (by rw [store]) (by rw [store])
      (by rw [store])
  | @commit s t active w mine r h =>
    cases LedgerM.commit_outcome h with
    | unbalanced | crashed => exact mirrored
    | refused f sched appended partly back => exact LedgerM.mirrored_refused mirrored fit appended partly back
    | done sched balanced appended grows all stored =>
      exact LedgerM.mirrored_done mirrored apart mine fit appended grows all stored fit'
  | @release s t active w mine r h =>
    obtain ⟨sched, locks, hr⟩ := LedgerM.exec_release w s
    cases hr.symm.trans h
    exact mirrored.mono untouched fit' rfl rfl rfl rfl rfl rfl
  | @genesis s t active balances keys r h =>
    exact LedgerM.mirrored_genesis mirrored apart.distinct fit keys h fit' untouched
  | @close s t active r h =>
    rw [LedgerM.exec_close fit.willing] at h
    cases h
    cases closed : s.ledger.isClosed with
    | true => simpa [closed] using mirrored
    | false =>
      have still := fit'.willing.isOpen
      simp [closed] at still
  | elsewhere sched heap made refusesBlocks refusesAccounts refuses allowed =>
    exact mirrored.mono untouched fit' rfl rfl rfl rfl rfl rfl

/-- Steps one after another, such that everything that is committed fits and is changed by nobody else. -/
inductive Steady (s : Session V E B) : Session V E B → Prop where
  | refl (fit : s.state.ledger.Fit s.state.heap) : Steady s s
  | tail {t u : Session V E B} {events : List Event} (steady : Steady s t) (step : Step .any t events u)
    (fit : u.state.ledger.Fit u.state.heap) (untouched : t.state.ledger.Untouched t.state.heap u.state.heap) : Steady s u

theorem Steady.fit (steady : Steady s t) : t.state.ledger.Fit t.state.heap := by
  cases steady with
  | refl fit => exact fit
  | tail _ _ fit _ => exact fit

theorem Steady.apart (steady : Steady s t) (apart : Apart s) : Apart t := by
  induction steady with
  | refl => exact apart
  | tail _ step _ _ ih => exact step.apart ih

theorem Steady.mirrored (steady : Steady s t) (apart : Apart s) (mirrored : s.state.ledger.Mirrored size s.state.heap) :
    t.state.ledger.Mirrored size t.state.heap := by
  induction steady with
  | refl => exact mirrored
  | tail steady step fit untouched ih => exact step.mirrored (steady.apart apart) steady.fit fit untouched ih

end Session

/-! ## The successor -/

namespace Ledger

variable {size : Nat} {l : Ledger} {h : Heap}

theorem mirrored_empty {n : Int} {store : Store} {h h' : Heap} {l : Ledger} (empty : store.Empty)
    (loaded : Ledger.load n store h = .ok (l, h')) : l.Mirrored (if n ≤ 0 then 16 else n.toNat) h' := by
  rw [empty.load loaded]
  refine ⟨rfl, ⟨rfl, rfl, rfl, ?_⟩, ⟨?_, nofun, .inr ⟨empty.blocks, rfl, rfl⟩, ?_⟩, ?_⟩
  · intro b mem
    rw [List.mem_singleton.mp mem]
    exact ⟨show List.length Digest.zero = 32 by decide, Digest.length_ofBytes _⟩
  · rw [empty.blocks]
    exact List.nodup_nil
  · rw [empty.blocks]
    exact nofun
  · cases kind : store.kind with
    | disk =>
      refine .disk kind ?_ nofun ?_
      · rw [empty.records]
        exact List.nodup_nil
      · rw [empty.records]
        exact nofun
    | memory =>
      refine .memory kind ?_ ?_ nofun ?_
      · rw [empty.accounts]
        exact List.nodup_nil
      · rw [empty.accounts]
        exact nofun
      · rw [empty.accounts]
        exact nofun

/-- The ledger that is read from the store of a mirrored one has the same image. -/
theorem Mirrored.load (mirrored : l.Mirrored size h) (fit : l.Fit h) (distinct : Distinct l.accounts) {n : Int}
    (sized : (if n ≤ 0 then 16 else n.toNat) = size) {g : Heap} (same : l.store.kind = .memory → h.Extends g) :
    ∃ i l' g', l.image h = .ok i ∧ Ledger.load n l.store g = .ok (l', g') ∧ l'.image g' = .ok i ∧
      l'.chain.blockSize = l.chain.blockSize := by
  have unshut : l.store.isShut = false := by rw [Store.isShut, fit.willing.isOpen, Bool.false_and]
  obtain ⟨blockImages, madeBlocks, -, -⟩ := Store.chainImages fit.blocks mirrored.standing
  obtain ⟨accountImages, madeAccounts, addresses, -⟩ := Account.images fit.accounts
  obtain ⟨bs, g₁, readBlocks, grows, blocks⟩ := mirrored.chains.load mirrored.standing unshut fit.blocks madeBlocks g
  obtain ⟨as, g₂, readAccounts, grows', accounts⟩ := mirrored.mirrors.load fit.accounts distinct unshut madeAccounts
    fun kind => (same kind).trans grows
  have agree {h : Heap} (a b : Account) (x y : Account.Image) (hx : a.image h = .ok x) (hy : b.image h = .ok y) :
      Text.lexLe a.address b.address = Account.imageLe x y := by
    rw [Account.imageLe, Account.address_of_image hx, Account.address_of_image hy]
  have sorted : l.sortedAccounts.mapM (·.image h) = .ok (accountImages.mergeSort Account.imageLe) :=
    mapM_mergeSort agree madeAccounts
  let l' : Ledger := { accounts := as, chain := .restore (if n ≤ 0 then 16 else n.toNat) bs, store := l.store }
  have sorted' : l'.sortedAccounts.mapM (·.image g₂) = .ok (accountImages.mergeSort Account.imageLe) := by
    have again := mapM_mergeSort agree (accounts g₂ (.refl g₂))
    have ordered : (accountImages.mergeSort Account.imageLe).Pairwise fun i j => Account.imageLe i j = true :=
      List.pairwise_mergeSort (fun i j k => lexLe_trans i.address j.address k.address)
        (fun i j => lexLe_total i.address j.address) accountImages
    rw [List.mergeSort_of_pairwise ordered] at again
    exact again
  refine ⟨⟨accountImages.mergeSort Account.imageLe, blockImages⟩, l', g₂, ?_, ?_, ?_, ?_⟩
  · unfold image
    rw [sorted, madeBlocks]
    rfl
  · unfold Ledger.load
    simp only
    rw [readBlocks]
    simp only
    rw [readAccounts]
  · unfold image
    rw [sorted', blocks g₂ grows']
    rfl
  · rw [mirrored.blockSize, ← sized]
    change (Chain.restore _ bs).blockSize = _
    unfold Chain.restore
    split
    · rfl
    · split <;> rfl

end Ledger

/-! ## What both of them answer -/

/-- The order of accounts does not matter. -/
theorem accountAt_perm {accounts others : List Account} (distinct : Distinct accounts) (perm : accounts.Perm others)
    (address : Address) : accountAt others address = accountAt accounts address := by
  have addresses := perm.map fun a => a.address
  have distinct' : Distinct others := addresses.nodup_iff.mp distinct
  cases found : accountAt accounts address with
  | some a =>
    rw [← accountAt_address found]
    exact accountAt_of_mem distinct' (perm.subset (mem_of_accountAt found))
  | none =>
    rw [accountAt_eq_none] at found ⊢
    exact fun mem => found (addresses.symm.subset mem)

namespace Ledger

def Image.account? (i : Image) (address : Address) : Option Account.Image :=
  i.accounts.find? (·.address == address)

variable {l l' : Ledger} {h h' : Heap} {i : Image}

theorem of_image (made : l.image h = .ok i) : List.Forall₂ (fun a j => a.image h = .ok j) l.sortedAccounts i.accounts ∧
    List.Forall₂ (fun b j => b.image h = .ok j) l.chain.blocks i.blocks := by
  obtain ⟨accounts, sorted, made⟩ := of_bind_ok made
  obtain ⟨blocks, chain, made⟩ := of_bind_ok made
  cases made
  exact ⟨mapM_eq_ok_iff.mp sorted, mapM_eq_ok_iff.mp chain⟩

theorem account?_image (made : l.image h = .ok i) (distinct : Distinct l.accounts) (address : Address) :
    (l.account? address).map (fun a => (a.balance, a.nonce, a.code)) =
      (i.account? address).map fun j => (j.balance, j.nonce, j.code) := by
  have sorted : l.account? address = accountAt l.sortedAccounts address :=
    (accountAt_perm distinct (List.mergeSort_perm l.accounts _).symm address).symm
  rw [sorted, Image.account?, accountAt]
  have each := (of_image made).1
  generalize l.sortedAccounts = accounts at each
  generalize i.accounts = images at each
  induction each with
  | nil => rfl
  | @cons a j accounts images first rest ih =>
    obtain ⟨storage, -, made⟩ := of_bind_ok first
    cases made
    rw [List.find?_cons, List.find?_cons]
    cases here : a.address == address with
    | true => rfl
    | false => exact ih

theorem distinct_of_image (made : l.image h = .ok i) : Distinct l.accounts ↔ (i.accounts.map (·.address)).Nodup := by
  have same : i.accounts.map (·.address) = l.sortedAccounts.map (·.address) := by
    have each := (of_image made).1
    generalize l.sortedAccounts = accounts at each
    generalize i.accounts = images at each
    induction each with
    | nil => rfl
    | cons first _ ih => rw [List.map_cons, List.map_cons, Account.address_of_image first, ih]
  rw [same]
  exact ((List.mergeSort_perm l.accounts _).map (·.address)).nodup_iff.symm

theorem eq_of_images {b b' : ChainBlock} {j : ChainBlock.Image} (image : b.image h = .ok j) (image' : b'.image h' = .ok j) :
    b'.number = b.number ∧ b'.prevHash = b.prevHash ∧ b'.hash = b.hash ∧
      ChainBlock.hashOf h' b'.prevHash b'.txs = ChainBlock.hashOf h b.prevHash b.txs := by
  obtain ⟨ws, wires, made⟩ := of_bind_ok image
  obtain ⟨ws', wires', made'⟩ := of_bind_ok image'
  cases made
  have same := Except.ok.inj made'
  rw [ChainBlock.Image.mk.injEq] at same
  obtain ⟨number, prevHash, rfl, hash, -⟩ := same
  refine ⟨number, prevHash, hash, ?_⟩
  unfold ChainBlock.hashOf
  rw [b.mapM_pack_eq, b'.mapM_pack_eq, wires, wires', prevHash]

theorem verifyAfter_of_images {bs bs' : List ChainBlock} {is : List ChainBlock.Image} {prev prev' : Option ChainBlock}
    (first : List.Forall₂ (fun b j => b.image h = .ok j) bs is) (second : List.Forall₂ (fun b j => b.image h' = .ok j) bs' is)
    (before : prev'.map (fun b => (b.number, b.hash)) = prev.map fun b => (b.number, b.hash)) :
    verifyAfter h' prev' bs' = verifyAfter h prev bs := by
  induction first generalizing bs' prev prev' with
  | nil =>
    cases second
    rfl
  | @cons b i bs is image _ ih =>
    cases second with
    | @cons b' _ bs' _ image' later =>
      obtain ⟨number, prevHash, hash, hashes⟩ := eq_of_images image image'
      have behind : verifyAfter h' (some b') bs' = verifyAfter h (some b) bs := ih later (by simp [number, hash])
      rw [verifyAfter.eq_def, verifyAfter.eq_def h]
      dsimp only
      rw [hashes, number, prevHash, hash, behind]
      cases prev with
      | none =>
        cases prev' with
        | none => rfl
        | some p => cases before
      | some p =>
        cases prev' with
        | none => cases before
        | some p' =>
          have same : p'.number = p.number ∧ p'.hash = p.hash := by simpa using before
          simp only [same]

/-- Ledgers with the same image have the same balances, give new contracts the same addresses, and their chains are both
right or have the same fault. -/
theorem answers_of_image (made : l.image h = .ok i) (made' : l'.image h' = .ok i) (distinct : Distinct l.accounts) :
    (∀ address, l'.balance address = l.balance address ∧ l'.contractAddress address = l.contractAddress address) ∧
      l'.chain.verify h' = l.chain.verify h := by
  have distinct' : Distinct l'.accounts := (distinct_of_image made').mpr ((distinct_of_image made).mp distinct)
  refine ⟨fun address => ?_, verifyAfter_of_images (of_image made).2 (of_image made').2 rfl⟩
  have same := (account?_image made' distinct' address).trans (account?_image made distinct address).symm
  unfold Ledger.balance Ledger.contractAddress
  cases here : l.account? address <;> cases there : l'.account? address <;> rw [here, there] at same <;> simp_all

end Ledger

open Session in
/-- A ledger on an empty store, in memory or on disk, and a run in which the store refuses nothing, everything that is
committed fits into records, and nobody changes it in place.  Then the ledger can be closed, and one that is read from the
store with the same block size has the same accounts and the same blocks, as far as they are written.  A store on disk can
be read into any heap, and one in memory into what has become of the heap since. -/
theorem restart_equal {n : Int} {store : Store} {h h' : Heap} {l : Ledger} (empty : store.Empty)
    (loaded : Ledger.load n store h = .ok (l, h')) {sched : Scheduler V E B} {s : Session V E B}
    (steady : Steady ⟨⟨sched, h', l⟩, []⟩ s) :
    ∃ t, LedgerM.exec LedgerM.close s.state = (.ok (), t) ∧
      ∀ g, (t.ledger.store.kind = .memory → s.state.heap.Extends g) →
        ∃ i l' g', s.state.ledger.image s.state.heap = .ok i ∧
          Ledger.load n { t.ledger.store with isClosed := false } g = .ok (l', g') ∧ l'.image g' = .ok i ∧
          l'.chain.blockSize = s.state.ledger.chain.blockSize ∧
          (∀ address, l'.balance address = s.state.ledger.balance address ∧
            l'.contractAddress address = s.state.ledger.contractAddress address) ∧
          l'.chain.verify g' = s.state.ledger.chain.verify s.state.heap := by
  have apart : Apart s := steady.apart (empty.opened loaded sched).apart
  have mirrored := steady.mirrored (empty.opened loaded sched).apart (Ledger.mirrored_empty empty loaded)
  have fit := steady.fit
  obtain ⟨t, closed, reopened, kind⟩ := LedgerM.close_willing fit.willing
  refine ⟨t, closed, fun g same => ?_⟩
  obtain ⟨i, l', g', image, read, image', blockSize⟩ := mirrored.load fit apart.distinct rfl (kind ▸ same)
  exact ⟨i, l', g', image, reopened.symm ▸ read, image', blockSize, Ledger.answers_of_image image image' apart.distinct⟩

namespace Session

/-- A heap with one array, and a ledger on an empty disk. -/
def onDisk : Session Unit Unit Unit :=
  ⟨⟨{}, { cells := #[.array #[.whole .int 7]] },
    { chain := .restore 16 [], store := { kind := .disk } }⟩, []⟩

def storingCall : Transaction :=
  { id := transactionId 1, sender := [97], receiver := [98], amount := 0, method := [109], args := [],
    code := [] }

theorem load_onDisk : Ledger.load 16 { kind := .disk } onDisk.state.heap =
    .ok (onDisk.state.ledger, onDisk.state.heap) := by
  simp only [Ledger.load, Store.loadBlocks, Store.loadAccounts, List.mergeSort_nil]
  rfl

def storing : LedgerState Unit Unit Unit :=
  (LedgerM.exec (LedgerM.store 0 [98] [107] (.ref .array 0)) (onDisk.start storingCall false).state).2

theorem datum_onDisk : onDisk.state.heap.Datum packDepth (.ref .array 0) := by
  refine .array (d := packDepth - 1) rfl (by decide) fun v mem => ?_
  rw [List.mem_singleton.mp mem]
  exact .whole (d := packDepth - 2) (by decide)

theorem fit_storingCall : storingCall.Fit onDisk.state.heap :=
  ⟨by decide +kernel, by decide, by decide, by decide +kernel, by decide, by decide, nofun, by decide⟩

/-- Before the commit there is nothing to be fit but the first block. -/
theorem fit_onDisk (l : Ledger) (store : l.store = { kind := .disk }) (accounts : l.accounts = [])
    (chain : l.chain = onDisk.state.ledger.chain) (workings : ∀ w, (l.working w).tx.args = [])
    (storage : ∀ w, ∀ a ∈ (l.working w).accounts, a.storage = [([107], .ref .array 0)]) :
    l.Fit onDisk.state.heap where
  willing := by
    rw [store]
    exact ⟨rfl, rfl, rfl, fun _ => rfl⟩
  accounts := by
    rw [accounts]
    exact nofun
  copies := by
    rw [store]
    exact nofun
  blocks b mem := by
    rw [chain] at mem
    rw [List.mem_singleton.mp mem]
    exact ⟨by decide, by decide, nofun⟩
  args w v mem := by
    rw [workings w] at mem
    cases mem
  storage w a mem s hs := by
    rw [storage w a mem] at hs
    rw [List.mem_singleton.mp hs]
    exact datum_onDisk.holds

theorem untouched_onDisk (l : Ledger) (h : Heap) : l.Untouched h h :=
  ⟨fun _ _ => rfl, fun _ _ => rfl, fun _ _ => rfl⟩

theorem steady_storing : ∃ u, Steady onDisk ⟨u, [0]⟩ ∧
    u.ledger.accounts = [{ address := [98], storage := [([107], .ref .array 0)] }] ∧ u.ledger.store.kind = .disk := by
  have one (w : WorkingId) (k : Working) : (#[k][w]?.getD default : Working) = if w = 0 then k else default := by
    cases w <;> simp
  have begun : Steady onDisk (onDisk.start storingCall false) := by
    refine .tail (.refl (fit_onDisk _ rfl rfl rfl ?_ ?_)) (Step.start storingCall false trivial)
      (fit_onDisk _ rfl rfl rfl ?_ ?_) (untouched_onDisk _ _)
    · exact fun w => rfl
    · intro w a mem
      cases mem
    · intro w
      rw [show (onDisk.start storingCall false).state.ledger.working w = _ from one w _]
      split <;> rfl
    · intro w a mem
      rw [show (onDisk.start storingCall false).state.ledger.working w = _ from one w _] at mem
      split at mem <;> cases mem
  have working (w : WorkingId) : storing.ledger.working w = if w = 0 then _ else default := one w _
  have stored : Steady onDisk ⟨storing, [0]⟩ := by
    refine .tail begun (Step.use (s := (onDisk.start storingCall false).state) (List.mem_singleton_self 0)
      (.store [98] [107] (.ref .array 0)) rfl) (fit_onDisk _ rfl rfl rfl ?_ ?_) (untouched_onDisk _ _)
    · intro w
      rw [working]
      split <;> rfl
    · intro w a mem
      rw [working] at mem
      split at mem
      · rw [List.mem_singleton.mp mem]
        rfl
      · cases mem
  rcases done : LedgerM.exec (LedgerM.commit 0) storing with ⟨r, u⟩
  have ok : r.toOption = some 0 := by
    have computed : (LedgerM.exec (LedgerM.commit 0) storing).1.toOption = some 0 := by decide +kernel
    rw [done] at computed
    exact computed
  have step : Step .any ⟨storing, [0]⟩ _ ⟨u, [0]⟩ := Step.commit (List.mem_singleton_self 0) done
  cases LedgerM.commit_outcome done with
  | unbalanced | crashed | refused => cases ok
  | @done chain block isSealed sched heap store balanced appended grows all put =>
    obtain ⟨rfl, new, -, eq⟩ := Store.putAccounts_disk rfl put
    generalize kept : store.blocks = blocks at eq
    subst eq
    refine ⟨_, .tail stored step ⟨?_, ?_, ?_, ?_, ?_, ?_⟩ (untouched_onDisk _ _), rfl, rfl⟩
    · exact ⟨rfl, rfl, rfl, fun _ => rfl⟩
    · intro a mem
      rw [List.mem_singleton.mp mem]
      refine ⟨by decide, by decide +kernel, by decide, by decide, by decide, List.nodup_singleton _, ?_, ?_⟩
      · intro s hs
        rw [List.mem_singleton.mp hs]
        decide
      · intro s hs
        rw [List.mem_singleton.mp hs]
        exact datum_onDisk
    · exact nofun
    · intro b mem
      obtain ⟨hash, -, ⟨-, rfl, rfl⟩ | ⟨full, -, -⟩⟩ := Chain.append_cases appended
      · rw [List.mem_singleton.mp mem]
        refine ⟨show 0 < 0x10000000000000000 by decide, show 1 < 0x100000000 by decide, fun tx htx => ?_⟩
        rw [List.mem_singleton.mp htx]
        exact { fit_storingCall with }
      · exact absurd full (by decide)
    · exact stored.fit.args
    · exact stored.fit.storage

/-- The array comes back from the disk, with the account and the block. -/
theorem restart_equal_array : ∃ (s : Session Unit Unit Unit) (t : LedgerState Unit Unit Unit) (i : Ledger.Image)
    (l' : Ledger) (g' : Heap), Steady onDisk s ∧
      s.state.ledger.accounts = [{ address := [98], storage := [([107], .ref .array 0)] }] ∧
      LedgerM.exec LedgerM.close s.state = (.ok (), t) ∧ s.state.ledger.image s.state.heap = .ok i ∧
      Ledger.load 16 { t.ledger.store with isClosed := false } {} = .ok (l', g') ∧ l'.image g' = .ok i := by
  obtain ⟨u, steady, accounts, onDisk⟩ := steady_storing
  obtain ⟨t, closed, reopened⟩ := restart_equal ⟨rfl, rfl, rfl⟩ load_onDisk steady
  have kind : t.ledger.store.kind = .disk := by
    obtain ⟨t', closed', -, kind⟩ := LedgerM.close_willing steady.fit.willing
    cases closed.symm.trans closed'
    rw [kind, onDisk]
  obtain ⟨i, l', g', image, read, image', -⟩ := reopened {} fun memory => nomatch memory.symm.trans kind
  exact ⟨_, t, i, l', g', steady, accounts, closed, image, read, image'⟩

end Session

end LedgerScript
