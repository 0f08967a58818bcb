import LedgerScript.Proofs.Ledger.Rollback

/-!
# How the chain grows

A chain on an empty store begins with one open block.  Every commit that succeeds puts its transaction at the end of the
open block, and nothing else ever changes the chain: what a failed commit has appended is taken back.  So at every moment
* the hashes and the links of the blocks are right, and the blocks are numbered from zero without gaps;
* all blocks but the last one are sealed and full, and the last one is open and has room;
* the transactions of all blocks are those that have been committed, each once and in the order of their commits, and
  a receipt names the block that its transaction is in.

Values that are arguments of transactions are *frozen*: they keep their stored form.  All other values may change.
-/

namespace LedgerScript

variable {V E B : Type}

/-! ## Frozen values -/

/-- Frozen values stay where they are, and keep their stored form. -/
def Heap.Preserves (frozen : Value → Prop) (h h' : Heap) : Prop :=
  ∀ v, frozen v → h.Holds v → h'.Holds v ∧ h'.pack v = h.pack v

theorem Heap.Extends.preserves {h h' : Heap} (ext : h.Extends h') (frozen : Value → Prop) : h.Preserves frozen h' :=
  fun _ _ holds => ⟨holds.mono ext, holds.pack_eq ext⟩

def Transaction.FrozenIn (frozen : Value → Prop) (h : Heap) (tx : Transaction) : Prop :=
  ∀ v ∈ tx.args, frozen v ∧ h.Holds v

/-- The arguments of transactions are frozen. -/
def Conduct.freezing (frozen : Value → Prop) : Conduct where
  heap := Heap.Preserves frozen
  heap_refl _ _ _ holds := ⟨holds, rfl⟩
  admits h tx := tx.FrozenIn frozen h

section

variable {frozen : Value → Prop} {h h' : Heap}

theorem Transaction.FrozenIn.mono {tx : Transaction} (held : tx.FrozenIn frozen h) (same : h.Preserves frozen h') :
    tx.FrozenIn frozen h' := by
  intro v hv
  obtain ⟨isFrozen, holds⟩ := held v hv
  exact ⟨isFrozen, (same v isFrozen holds).1⟩

/-- The hash only depends on the stored forms of the arguments. -/
theorem hashOf_congr {txs : List Transaction} (same : ∀ tx ∈ txs, ∀ v ∈ tx.args, h'.pack v = h.pack v) (prev : Digest) :
    ChainBlock.hashOf h' prev txs = ChainBlock.hashOf h prev txs := by
  have packed : txs.mapM (·.pack h') = txs.mapM (·.pack h) := mapM_congr fun tx htx => by
    unfold Transaction.pack
    rw [mapM_congr (same tx htx)]
  unfold ChainBlock.hashOf
  rw [packed]

theorem hashOf_frozen {txs : List Transaction} (held : ∀ tx ∈ txs, tx.FrozenIn frozen h)
    (same : h.Preserves frozen h') (prev : Digest) : ChainBlock.hashOf h' prev txs = ChainBlock.hashOf h prev txs := by
  refine hashOf_congr (fun tx htx v hv => ?_) prev
  obtain ⟨isFrozen, holds⟩ := held tx htx v hv
  exact (same v isFrozen holds).2

end

/-! ## Verified blocks -/

theorem hashOf_nil (h : Heap) (prev : Digest) : ChainBlock.hashOf h prev [] = .ok (ChainBlock.emptyHash prev) := rfl

/-- A block fits behind another one, or is a first block. -/
def ChainBlock.Follows (b : ChainBlock) : Option ChainBlock → Prop
  | none => Digest.isZero b.prevHash = true
  | some p => b.number = p.number + 1 ∧ b.prevHash = p.hash

section

variable {h h' : Heap} {prev : Option ChainBlock} {b : ChainBlock}

theorem verifyAfter_cons (rest : List ChainBlock) : verifyAfter h prev (b :: rest) = none ↔
    ChainBlock.hashOf h b.prevHash b.txs = .ok b.hash ∧ b.Follows prev ∧ verifyAfter h (some b) rest = none := by
  rw [verifyAfter.eq_def]
  dsimp only
  cases hashed : ChainBlock.hashOf h b.prevHash b.txs with
  | error c => simp
  | ok hash =>
    by_cases fits : hash = b.hash
    · cases prev with
      | none => by_cases zero : Digest.isZero b.prevHash = true <;> simp [fits, ChainBlock.Follows, zero]
      | some p =>
        by_cases number : b.number = p.number + 1
        · by_cases link : b.prevHash = p.hash <;> simp [fits, ChainBlock.Follows, number, link]
        · simp [fits, ChainBlock.Follows, number]
    · simp [fits]

/-- One more block is verified behind the last one. -/
theorem verifyAfter_append (blocks : List ChainBlock) : verifyAfter h prev (blocks ++ [b]) = none ↔
    verifyAfter h prev blocks = none ∧ ChainBlock.hashOf h b.prevHash b.txs = .ok b.hash ∧
      b.Follows (blocks.getLast?.or prev) := by
  induction blocks generalizing prev with
  | nil =>
    rw [List.nil_append, verifyAfter_cons]
    simp [verifyAfter]
  | cons c rest ih =>
    have last : (c :: rest).getLast?.or prev = rest.getLast?.or (some c) := by
      cases rest with
      | nil => rfl
      | cons d rest => simp [List.getLast?_eq_some_getLast]
    rw [List.cons_append, verifyAfter_cons, verifyAfter_cons, ih, last]
    simp only [and_assoc]

theorem verifyAfter_congr {blocks : List ChainBlock}
    (same : ∀ b ∈ blocks, ChainBlock.hashOf h' b.prevHash b.txs = ChainBlock.hashOf h b.prevHash b.txs) :
    verifyAfter h' prev blocks = verifyAfter h prev blocks := by
  induction blocks generalizing prev with
  | nil => rfl
  | cons b rest ih =>
    have behind : ∀ p, verifyAfter h' p rest = verifyAfter h p rest :=
      fun p => ih fun c mem => same c (List.mem_cons_of_mem b mem)
    unfold verifyAfter
    rw [same b List.mem_cons_self, behind]

end

/-! ## Well-formed chains -/

namespace Chain

/-- The blocks are linked, numbered, and full up to the open one. -/
structure WellFormed (c : Chain) (h : Heap) (size : Nat) : Prop where
  verified : c.verify h = none
  numbered : c.blocks.map (·.number) = List.range c.blocks.length
  full : ∀ b ∈ c.blocks.dropLast, b.isSealed = true ∧ b.txs.length = size
  room : ∀ b ∈ c.blocks.getLast?, b.isSealed = false ∧ b.txs.length < size

/-- The transactions in the order in which they entered, each with the number of its block. -/
def entries (c : Chain) : List (Transaction × Nat) :=
  c.blocks.flatMap fun b => b.txs.map fun tx => (tx, b.number)

variable {c c' : Chain} {h h' : Heap} {size : Nat} {tx : Transaction} {b : ChainBlock} {isSealed : Bool}

theorem dropLast_blocks (c : Chain) : c.blocks.dropLast = c.earlier := by
  simp [blocks]

theorem getLast?_blocks (c : Chain) : c.blocks.getLast? = some c.head := by
  simp [blocks]

/-- What a transaction that enters the chain makes of it: the open block has one more transaction, and if it is full now
it is sealed and another one opens. -/
theorem append_cases (appended : c.append h tx = .ok (c', b, isSealed)) :
    ∃ hash, ChainBlock.hashOf h c.head.prevHash (c.head.txs ++ [tx]) = .ok hash ∧
      ((c.head.txs.length + 1 < c.blockSize ∧ b = { c.head with txs := c.head.txs ++ [tx], hash } ∧
          c' = { c with head := b }) ∨
        (c.blockSize ≤ c.head.txs.length + 1 ∧ b = { c.head with txs := c.head.txs ++ [tx], hash, isSealed := true } ∧
          c' = { c with earlier := c.earlier ++ [b], head := b.after })) := by
  obtain ⟨b', made, appended⟩ := of_bind_ok appended
  obtain ⟨hash, hashed, made⟩ := of_bind_ok made
  cases made
  refine ⟨hash, hashed, ?_⟩
  simp only at appended
  split at appended
  · next room =>
    cases appended
    exact .inl ⟨by simpa using room, rfl, rfl⟩
  · next full =>
    cases appended
    exact .inr ⟨by simpa using full, rfl, rfl⟩

/-- The number that the commit gives is that of the block which the transaction is in. -/
theorem entries_append (appended : c.append h tx = .ok (c', b, isSealed)) : c'.entries = c.entries ++ [(tx, b.number)] := by
  obtain ⟨hash, -, ⟨-, rfl, rfl⟩ | ⟨-, rfl, rfl⟩⟩ := append_cases appended
  · simp [entries, blocks]
  · simp [entries, blocks, ChainBlock.after]

theorem blockSize_append (appended : c.append h tx = .ok (c', b, isSealed)) : c'.blockSize = c.blockSize := by
  obtain ⟨hash, -, ⟨-, -, rfl⟩ | ⟨-, -, rfl⟩⟩ := append_cases appended <;> rfl

namespace WellFormed

/-- The open block has the hash of its contents and fits behind the sealed ones. -/
theorem head_verified (wf : c.WellFormed h size) : verifyAfter h none c.earlier = none ∧
    ChainBlock.hashOf h c.head.prevHash c.head.txs = .ok c.head.hash ∧ c.head.Follows c.earlier.getLast? := by
  have verified : verifyAfter h none (c.earlier ++ [c.head]) = none := wf.verified
  rw [verifyAfter_append, Option.or_none] at verified
  exact verified

theorem mono (wf : c.WellFormed h size)
    (same : ∀ b ∈ c.blocks, ChainBlock.hashOf h' b.prevHash b.txs = ChainBlock.hashOf h b.prevHash b.txs) :
    c.WellFormed h' size :=
  ⟨(verifyAfter_congr same).trans wf.verified, wf.numbered, wf.full, wf.room⟩

/-- One more transaction in the open block, which gets another hash. -/
theorem enter (wf : c.WellFormed h size) {hash : Digest} (isSealed : Bool)
    (hashed : ChainBlock.hashOf h c.head.prevHash (c.head.txs ++ [tx]) = .ok hash) :
    verifyAfter h none (c.earlier ++ [{ c.head with txs := c.head.txs ++ [tx], hash, isSealed }]) = none := by
  obtain ⟨earlier, -, follows⟩ := wf.head_verified
  rw [verifyAfter_append, Option.or_none]
  refine ⟨earlier, hashed, ?_⟩
  -- what a block follows does not depend on its own transactions
  generalize c.earlier.getLast? = last at follows
  cases last <;> exact follows

theorem append (wf : c.WellFormed h size) (sized : c.blockSize = size)
    (appended : c.append h tx = .ok (c', b, isSealed)) : c'.WellFormed h size := by
  have numbered := wf.numbered
  have full := wf.full
  have room := wf.room c.head (getLast?_blocks c)
  rw [dropLast_blocks] at full
  obtain ⟨hash, hashed, ⟨fits, rfl, rfl⟩ | ⟨filled, rfl, rfl⟩⟩ := append_cases appended
  · refine ⟨wf.enter c.head.isSealed hashed, ?_, ?_, ?_⟩
    · simpa [blocks] using numbered
    · rw [dropLast_blocks]
      exact full
    · intro b last
      rw [getLast?_blocks] at last
      cases last
      exact ⟨room.1, by simpa [sized] using fits⟩
  · refine ⟨(verifyAfter_append _).mpr ⟨wf.enter true hashed, hashOf_nil h _, ?_⟩, ?_, ?_, ?_⟩
    · simp [ChainBlock.Follows, ChainBlock.after]
    · have ready : c.earlier.map (·.number) = List.range c.earlier.length ∧ c.head.number = c.earlier.length := by
        simpa [blocks, List.range_succ] using numbered
      simp [blocks, ChainBlock.after, List.range_succ, ready.1, ready.2]
    · intro b mem
      rw [dropLast_blocks] at mem
      rcases List.mem_append.mp mem with mem | mem
      · exact full b mem
      · rw [List.mem_singleton.mp mem]
        refine ⟨rfl, ?_⟩
        simp only [List.length_append, List.length_singleton]
        omega
    · intro b last
      rw [getLast?_blocks] at last
      cases last
      refine ⟨rfl, ?_⟩
      show 0 < size
      omega

end WellFormed

end Chain

/-! ## Ledgers with such a chain -/

structure Grown (frozen : Value → Prop) (size : Nat) (l : Ledger) (h : Heap) : Prop where
  wellFormed : l.chain.WellFormed h size
  blockSize : l.chain.blockSize = size
  entered : ∀ b ∈ l.chain.blocks, ∀ tx ∈ b.txs, tx.FrozenIn frozen h
  begun : ∀ w, (l.working w).tx.FrozenIn frozen h

namespace Grown

variable {frozen : Value → Prop} {size : Nat} {l l' : Ledger} {h h' : Heap}

theorem mono (grown : Grown frozen size l h) (same : h.Preserves frozen h') (chain : l'.chain = l.chain)
    (begun : ∀ w, (l'.working w).tx = (l.working w).tx) : Grown frozen size l' h' := by
  refine ⟨?_, ?_, ?_, ?_⟩
  · rw [chain]
    exact grown.wellFormed.mono fun b mem => hashOf_frozen (grown.entered b mem) same _
  · rw [chain]
    exact grown.blockSize
  · rw [chain]
    exact fun b mem tx htx => (grown.entered b mem tx htx).mono same
  · intro w
    rw [begun]
    exact (grown.begun w).mono same

theorem anchored (grown : Grown frozen size l h) : Anchored l h where
  entered tx htx v hv := (grown.entered l.chain.head (by simp [Chain.blocks]) tx htx v hv).2
  begun w v hv := (grown.begun w v hv).2
  hash := grown.wellFormed.head_verified.2.1

theorem append (grown : Grown frozen size l h) {w : WorkingId} {chain : Chain} {b : ChainBlock} {isSealed : Bool}
    (appended : l.chain.append h (LedgerM.enteringTx l w) = .ok (chain, b, isSealed)) :
    Grown frozen size { l with chain } h := by
  refine ⟨grown.wellFormed.append grown.blockSize appended, ?_, ?_, grown.begun⟩
  · exact (Chain.blockSize_append appended).trans grown.blockSize
  · intro b' mem tx htx
    have txs : tx ∈ chain.txs := List.mem_flatMap.mpr ⟨b', mem, htx⟩
    rw [Chain.txs_append appended] at txs
    rcases List.mem_append.mp txs with old | new
    · obtain ⟨b', mem, htx⟩ := List.mem_flatMap.mp old
      exact grown.entered b' mem tx htx
    · rw [List.mem_singleton.mp new]
      exact grown.begun w

/-- What has entered the chain after a commit that ends in this way. -/
def logged (l : Ledger) (w : WorkingId) : Except LedgerFault Nat → List (Transaction × Nat)
  | .ok number => [(LedgerM.enteringTx l w, number)]
  | .error _ => []

theorem commit {s t : LedgerState V E B} {w : WorkingId} {r : Except LedgerFault Nat}
    (grown : Grown frozen size s.ledger s.heap) (committed : LedgerM.exec (LedgerM.commit w) s = (r, t)) :
    Grown frozen size t.ledger t.heap ∧ t.ledger.chain.entries = s.ledger.chain.entries ++ logged s.ledger w r := by
  cases LedgerM.commit_outcome committed with
  | unbalanced | crashed => exact ⟨grown, (List.append_nil _).symm⟩
  | refused f sched appended partly back =>
    have same : LedgerM.takenBack s.heap s.ledger.chain = s.ledger.chain := grown.anchored.takenBack
    refine ⟨grown.mono (Heap.Extends.preserves (.refl _) frozen) same fun v => rfl, ?_⟩
    exact (congrArg Chain.entries same).trans (List.append_nil _).symm
  | done sched balanced appended grows all =>
    exact ⟨(grown.append appended).mono (grows.preserves frozen) rfl fun v => rfl, Chain.entries_append appended⟩

end Grown

/-! ## Runs -/

namespace Session

variable {frozen : Value → Prop} {size : Nat} {s t : Session V E B} {events : List Event}

/-- Every step that leaves frozen values alone keeps the chain well-formed, and nothing leaves the chain. -/
theorem Step.grown (step : Step (.freezing frozen) s events t) (apart : Apart s)
    (grown : Grown frozen size s.state.ledger s.state.heap) :
    Grown frozen size t.state.ledger t.state.heap ∧
      s.state.ledger.chain.entries <+: t.state.ledger.chain.entries := by
  cases step with
  | start tx isView admitted =>
    refine ⟨⟨grown.wellFormed, grown.blockSize, grown.entered, fun w => ?_⟩, List.prefix_rfl⟩
    change Transaction.FrozenIn frozen s.state.heap
      (({ s.state.ledger with workings := s.state.ledger.workings.push { tx, isView } } : Ledger).working w).tx
    rw [Ledger.working_push_eq]
    split
    · exact admitted
    · exact grown.begun w
  | @use s t active w mine α x op r h =>
    have alters := op.works s r t (apart.bound w mine) h
    have beside := alters.changes.beside
    exact ⟨grown.mono (alters.grows.preserves frozen) beside.chain beside.working_tx,
      (congrArg Chain.entries beside.chain) ▸ List.prefix_rfl⟩
  | @commit s t active w mine r h =>
    obtain ⟨grown, entries⟩ := grown.commit h
    exact ⟨grown, _, entries.symm⟩
  | @release s t active w mine r h =>
    obtain ⟨sched, locks, released⟩ := LedgerM.exec_release w s
    cases released.symm.trans h
    refine ⟨grown.mono (Heap.Extends.preserves (.refl _) frozen) rfl fun v => ?_, List.prefix_rfl⟩
    exact (Ledger.beside_modifyWorking _ w (f := fun k => { k with held := [] }) fun k => rfl).working_tx v
  | @genesis s t active balances keys r h =>
    obtain ⟨grows, store, -, eq⟩ := LedgerM.genesis_spec h
    exact ⟨grown.mono (grows.preserves frozen) (by rw [eq]) fun v => by rw [eq]; rfl, eq ▸ List.prefix_rfl⟩
  | @close s t active r h =>
    obtain ⟨heap, isClosed, store, -, eq⟩ := LedgerM.close_spec h
    have same : s.heap.Preserves frozen t.heap := heap ▸ Heap.Extends.preserves (.refl _) frozen
    exact ⟨grown.mono same (by rw [eq]) fun v => by rw [eq]; rfl, eq ▸ List.prefix_rfl⟩
  | elsewhere sched heap made refusesBlocks refusesAccounts refuses allowed =>
    exact ⟨grown.mono allowed rfl fun v => rfl, List.prefix_rfl⟩

/-- As long as no transaction is under way the chain stays as it is. -/
theorem Step.idle_chain {c : Conduct} {s t : LedgerState V E B} (step : Step c ⟨s, []⟩ events ⟨t, []⟩) :
    t.ledger.chain = s.ledger.chain := by
  generalize before : (⟨s, []⟩ : Session V E B) = s₀ at step
  generalize after : (⟨t, []⟩ : Session V E B) = t₀ at step
  cases step with
  | start tx isView admitted => cases before; cases after
  | use mine op h => cases before; cases mine
  | commit mine h => cases before; cases mine
  | release mine h => cases before; cases mine
  | genesis keys h =>
    cases before
    cases after
    obtain ⟨-, store, -, eq⟩ := LedgerM.genesis_spec h
    rw [eq]
  | close h =>
    cases before
    cases after
    obtain ⟨heap, isClosed, store, -, eq⟩ := LedgerM.close_spec h
    rw [eq]
  | elsewhere => cases before; cases after; rfl

theorem Run.grown (run : Run (.freezing frozen) s events t) (apart : Apart s)
    (grown : Grown frozen size s.state.ledger s.state.heap) :
    Grown frozen size t.state.ledger t.state.heap ∧
      s.state.ledger.chain.entries <+: t.state.ledger.chain.entries := by
  induction run with
  | refl => exact ⟨grown, List.prefix_rfl⟩
  | tail run step ih =>
    obtain ⟨grown, kept⟩ := step.grown (run.apart apart) ih.1
    exact ⟨grown, ih.2.trans kept⟩

end Session

/-! ## Transactions one after another -/

/-- What a receipt says about the chain: the transaction and the block that it is in, if it has been committed. -/
def Receipt.entry? {F : Type} (r : Receipt F) : Option (Transaction × Nat) :=
  if r.status = .committed then some (r.tx, r.block) else none

namespace LedgerScriptM

open Session (Apart Run Step)

variable {frozen : Value → Prop} {size : Nat} {s t : LedgerScriptState}

/-- Transactions are carried out one after another, and these are their receipts.  In between accounts may be credited,
values that are not frozen may change, and so may what the store refuses. -/
inductive Calls (frozen : Value → Prop) (s : LedgerScriptState) :
    List (Receipt BodyFault) → LedgerScriptState → Prop where
  | refl : Calls frozen s [] s
  | call {receipts : List (Receipt BodyFault)} {t u : LedgerScriptState} (calls : Calls frozen s receipts t)
    {tx : Transaction} (args : tx.FrozenIn frozen t.state.heap) (before after : Bool) {contract : Option Contract}
    (body : ∀ k, contract = some k → ∀ w, Program (.freezing frozen) false w (k w)) {receipt : Receipt BodyFault}
    (applied : exec (transact tx before after contract) t = (.ok receipt, u)) : Calls frozen s (receipts ++ [receipt]) u
  | between {receipts : List (Receipt BodyFault)} {t u : LedgerScriptState} (calls : Calls frozen s receipts t)
    {events : List Session.Event} (step : Step (.freezing frozen) ⟨t.state, []⟩ events ⟨u.state, []⟩) :
    Calls frozen s receipts u

/-- Only the working set has changed, if there is such a one. -/
def Stays (w : WorkingId) (s t : LedgerState Unit Unit Unit) : Prop :=
  w < s.ledger.workings.size → Ledger.Beside w s.ledger t.ledger

theorem covers_stays (c : Conduct) : Covers c Stays where
  refl w s _ := .refl w s.ledger
  trans first second bound := by
    have before := first bound
    exact before.trans (second (by rw [before.size]; exact bound))
  operation op _ _ _ h bound := (op.works _ _ _ bound h).changes.beside
  heap w s heap _ _ := .refl w s.ledger
  sched w s sched _ := .refl w s.ledger

/-- A transaction enters the chain from its working set if and only if its receipt says so, and into the block that the
receipt names. -/
theorem perform_entries {w : WorkingId} {tx : Transaction} {interrupted : Bool} {contract : Option Contract}
    (body : ∀ k, contract = some k → ∀ w, Program (.freezing frozen) false w (k w))
    (bound : w < s.state.ledger.workings.size) (mine : (s.state.ledger.working w).tx = tx)
    (grown : ∀ r u, exec (work w tx interrupted contract) s = (r, u) → Grown frozen size u.state.ledger u.state.heap)
    {receipt : Receipt BodyFault}
    (performed : exec (tryCatch (perform w tx interrupted contract) (rollback tx)) s = (.ok receipt, t)) :
    t.state.ledger.chain.entries = s.state.ledger.chain.entries ++ receipt.entry?.toList := by
  have covers := covers_stays (.freezing frozen)
  have stays : Along (Stays w) (work w tx interrupted contract) := by
    refine covers.work tx interrupted fun k hk => ?_
    refine covers.program ?_ (body k hk w)
    exact nofun
  rw [exec_tryCatch] at performed
  rcases hp : exec (perform w tx interrupted contract) s with ⟨r, u⟩
  rw [hp] at performed
  rcases perform_cases hp with ⟨f, worked, rfl⟩ | ⟨v, m, f, worked, failed, rfl⟩ | ⟨v, m, n, worked, committed, ended⟩
  · obtain ⟨sched, rolledBack⟩ := exec_rollback tx f u
    cases rolledBack.symm.trans performed
    have beside := stays s _ _ worked bound
    exact (congrArg Chain.entries beside.chain).trans (List.append_nil _).symm
  · obtain ⟨sched, rolledBack⟩ := exec_rollback tx (.ledger f) u
    cases rolledBack.symm.trans performed
    have beside := stays s _ _ worked bound
    have entries := ((grown _ _ worked).commit failed).2
    rw [beside.chain] at entries
    exact entries
  · rw [ended] at performed
    obtain ⟨same, rfl⟩ := Prod.mk.inj performed
    have beside := stays s _ _ worked bound
    have entries := ((grown _ _ worked).commit committed).2
    rw [beside.chain] at entries
    rw [entries, Grown.logged, LedgerM.enteringTx, beside.working_tx, mine, ← Except.ok.inj same]
    rfl

theorem transact_entries {tx : Transaction} {before after : Bool} {contract : Option Contract}
    (args : tx.FrozenIn frozen s.state.heap) (body : ∀ k, contract = some k → ∀ w, Program (.freezing frozen) false w (k w))
    (apart : Apart ⟨s.state, []⟩) (grown : Grown frozen size s.state.ledger s.state.heap) {receipt : Receipt BodyFault}
    (applied : exec (transact tx before after contract) s = (.ok receipt, t)) :
    t.state.ledger.chain.entries = s.state.ledger.chain.entries ++ receipt.entry?.toList := by
  rcases transact_cases applied with ⟨f, failed⟩ | ⟨receipt', u, performed, same, released⟩
  · obtain ⟨sched, rolledBack⟩ := exec_rollback tx f s
    cases rolledBack.symm.trans failed
    exact (List.append_nil _).symm
  · cases same
    have started : Step (.freezing frozen) ⟨s.state, []⟩ [] ⟨(opened s tx).state, [s.state.ledger.workings.size]⟩ :=
      .start tx false args
    have covers := covers_conducted (.freezing frozen)
    have conducted : Along (Conducted (.freezing frozen) s.state.ledger.workings.size)
        (work s.state.ledger.workings.size tx after contract) :=
      covers.work tx after fun k hk => (body k hk _).conducted
    have along : ∀ r v, exec (work s.state.ledger.workings.size tx after contract) (opened s tx) = (r, v) →
        Grown frozen size v.state.ledger v.state.heap := by
      intro r v worked
      have started' := started.apart apart
      obtain ⟨events, run, -⟩ := conducted _ _ _ worked _ started' (List.mem_singleton_self _)
      exact (run.grown started' (started.grown apart grown).1).1
    have entries := perform_entries (s := opened s tx) body (by simp [opened]) (by simp [opened, Ledger.working]) along
      performed
    obtain ⟨sched, locks, eq⟩ := LedgerM.exec_release s.state.ledger.workings.size u.state
    have chain : t.state.ledger.chain = u.state.ledger.chain := by
      have ends : t.state = _ := congrArg Prod.snd (released.symm.trans eq)
      rw [ends]
      rfl
    rw [chain]
    exact entries

/-- The chain has what the receipts say. -/
theorem Calls.grown {receipts : List (Receipt BodyFault)} (calls : Calls frozen s receipts t)
    (apart : Apart ⟨s.state, []⟩) (grown : Grown frozen size s.state.ledger s.state.heap) :
    Apart ⟨t.state, []⟩ ∧ Grown frozen size t.state.ledger t.state.heap ∧
      t.state.ledger.chain.entries = s.state.ledger.chain.entries ++ receipts.filterMap Receipt.entry? := by
  induction calls with
  | refl => exact ⟨apart, grown, (List.append_nil _).symm⟩
  | @call receipts t u calls tx args before after contract body receipt applied ih =>
    obtain ⟨apart, grown, entries⟩ := ih
    obtain ⟨events, run, -⟩ := freeRun_transact (fun k hk w => (body k hk w).conducted) applied args apart
    refine ⟨run.apart apart, (run.grown apart grown).1, ?_⟩
    rw [transact_entries args body apart grown applied, entries, List.filterMap_append, List.append_assoc]
    cases here : receipt.entry? <;> simp [here]
  | between calls step ih =>
    obtain ⟨apart, grown, entries⟩ := ih
    exact ⟨step.apart apart, (step.grown apart grown).1, (congrArg Chain.entries step.idle_chain).trans entries⟩

end LedgerScriptM

/-! ## Ledgers on empty stores -/

structure Store.Empty (store : Store) : Prop where
  blocks : store.blocks = []
  accounts : store.accounts = []
  records : store.records = []

section

variable {n : Int} {store : Store} {h h' : Heap} {l : Ledger}

theorem Store.Empty.load (empty : store.Empty) (loaded : Ledger.load n store h = .ok (l, h')) :
    l = { accounts := [], chain := { blockSize := if n ≤ 0 then 16 else n.toNat }, store } := by
  have blocks : ∀ h bs h', store.loadBlocks h = .ok (bs, h') → bs = [] := by
    intro h bs h' read
    rw [Store.loadBlocks_eq, empty.blocks, Store.inOrder, List.mergeSort_nil] at read
    split at read
    · cases read
    · cases read
      rfl
  have accounts : ∀ h as h', store.loadAccounts h = .ok (as, h') → as = [] := by
    intro h as h' read
    unfold Store.loadAccounts at read
    rw [empty.accounts, empty.records, List.mergeSort_nil, List.mergeSort_nil] at read
    cases shut : store.isShut with
    | true => simp [shut] at read; cases read
    | false =>
      rw [shut] at read
      cases kind : store.kind <;> rw [kind] at read <;> cases read <;> rfl
  unfold Ledger.load at loaded
  simp only at loaded
  split at loaded
  · cases loaded
  · next bs h₁ read =>
    split at loaded
    · cases loaded
    · next as h₂ read' =>
      cases loaded
      rw [blocks _ _ _ read, accounts _ _ _ read']
      rfl

theorem Store.Empty.grown (empty : store.Empty) (loaded : Ledger.load n store h = .ok (l, h')) (frozen : Value → Prop) :
    Grown frozen (if n ≤ 0 then 16 else n.toNat) l h' := by
  rw [empty.load loaded]
  refine ⟨⟨?_, rfl, ?_, ?_⟩, rfl, ?_, fun w => nofun⟩
  · have first : ChainBlock.first.Follows none := show Digest.isZero Digest.zero = true by decide
    have verified := (verifyAfter_cons []).mpr ⟨hashOf_nil h' Digest.zero, first, rfl⟩
    exact verified
  · rw [Chain.dropLast_blocks]
    exact nofun
  · intro b last
    rw [Chain.getLast?_blocks] at last
    cases last
    refine ⟨rfl, ?_⟩
    show 0 < _
    split <;> omega
  · intro b mem tx htx
    rw [List.mem_singleton.mp mem] at htx
    cases htx

theorem Store.Empty.opened (empty : store.Empty) (loaded : Ledger.load n store h = .ok (l, h'))
    (sched : Scheduler V E B) : Session.Opened ⟨⟨sched, h', l⟩, []⟩ :=
  ⟨rfl, ⟨n, store, h, loaded⟩, by rw [empty.load loaded]; exact List.nodup_nil⟩

end

end LedgerScript
