import LedgerScript.Proofs.Ledger.Isolation
import LedgerScript.Proofs.Ledger.Program
import LedgerScript.Proofs.Ledger.Stored

/-!
# Rolled-back transactions

A transaction that is rolled back leaves no trace, wherever it failed: before it began, at an address that somebody
else holds, at its transfer, in its contract, or when the store refused its block or its accounts.  The accounts, the
chain and the holders of addresses are as before, and a ledger that is read from the store is the same as before.
-/

namespace LedgerScript

namespace LedgerScriptM

open LedgerState (Alters)

/-- How a transaction that has a working set comes to be rolled back: it fails before it commits, or its commit
fails. -/
inductive Fails (w : WorkingId) (s : LedgerState Unit Unit Unit) : LedgerState Unit Unit Unit → Prop where
  | early {t : LedgerState Unit Unit Unit} (worked : Alters w s t) (sched : Scheduler Unit Unit Unit) :
    Fails w s { t with sched }
  | late {t u : LedgerState Unit Unit Unit} (worked : Alters w s t) {f : LedgerFault}
    (failed : LedgerM.exec (LedgerM.commit w) t = (.error f, u)) (sched : Scheduler Unit Unit Unit) :
    Fails w s { u with sched }

section

variable {w : WorkingId} {tx : Transaction} {interrupted : Bool} {contract : Option Contract} {s t : LedgerScriptState}

/-- What is worked on to the end either commits, or its commit fails; the receipt names the block of the commit. -/
theorem perform_cases {r : Except BodyFault (Receipt BodyFault)} (h : exec (perform w tx interrupted contract) s = (r, t)) :
    (∃ f, exec (work w tx interrupted contract) s = (.error f, t) ∧ r = .error f) ∨
    (∃ v u f, exec (work w tx interrupted contract) s = (.ok v, u) ∧
      LedgerM.exec (LedgerM.commit w) u.state = (.error f, t.state) ∧ r = .error (.ledger f)) ∨
    ∃ v u n, exec (work w tx interrupted contract) s = (.ok v, u) ∧
      LedgerM.exec (LedgerM.commit w) u.state = (.ok n, t.state) ∧
      r = .ok (.committed tx (t.state.ledger.working w).events v n) := by
  unfold perform at h
  rw [exec_bind] at h
  rcases hw : exec (work w tx interrupted contract) s with ⟨e | v, u⟩
  · rw [hw] at h
    cases h
    exact .inl ⟨e, rfl, rfl⟩
  · rw [hw] at h
    simp only at h
    rw [exec_bind, exec_lift] at h
    rcases hc : LedgerM.exec (LedgerM.commit w) u.state with ⟨f | n, t'⟩
    · rw [hc] at h
      cases h
      exact .inr (.inl ⟨v, u, f, rfl, hc, rfl⟩)
    · rw [hc] at h
      simp only [Except.mapError] at h
      rw [exec_bind, exec_lift, LedgerM.exec_working] at h
      cases h
      exact .inr (.inr ⟨v, u, n, rfl, hc, rfl⟩)

theorem perform_fails (body : ∀ k, contract = some k → Along (Worked w) (k w))
    (bound : w < s.state.ledger.workings.size) {receipt : Receipt BodyFault}
    (h : exec (tryCatch (perform w tx interrupted contract) (rollback tx)) s = (.ok receipt, t))
    (rolledBack : receipt.status = .rolledBack) : (∃ f, receipt = .rolledBack tx f.reason f) ∧ Fails w s.state t.state := by
  have worked := (covers_worked (c := .immutable) fun _ _ h => h).work tx interrupted body
  rw [exec_tryCatch] at h
  rcases hp : exec (perform w tx interrupted contract) s with ⟨r, u⟩
  rw [hp] at h
  rcases perform_cases hp with ⟨f, hw, rfl⟩ | ⟨v, m, f, hw, hc, rfl⟩ | ⟨v, m, n, -, -, rfl⟩
  · obtain ⟨sched, hr⟩ := exec_rollback tx f u
    cases hr.symm.trans h
    exact ⟨⟨f, rfl⟩, .early (worked s _ _ hw bound) sched⟩
  · obtain ⟨sched, hr⟩ := exec_rollback tx (.ledger f) u
    cases hr.symm.trans h
    exact ⟨⟨.ledger f, rfl⟩, .late (worked s _ _ hw bound) hc sched⟩
  · cases h
    cases rolledBack

end

/-- The ledger as it is after a transaction was undone: only the open block may have been written once more. -/
structure Undone (w : WorkingId) (s t : LedgerState Unit Unit Unit) : Prop where
  accounts : t.ledger.accounts = s.ledger.accounts
  chain : t.ledger.chain = s.ledger.chain
  holders : t.ledger.holders.filter (·.2 != w) = s.ledger.holders.filter (·.2 != w)
  heap : s.heap.Extends t.heap
  stored : Kept s.ledger s.heap → s.ledger.takesBack = true → t.ledger.store = s.ledger.store ∨
    ∃ bytes, s.ledger.chain.head.pack s.heap = .ok bytes ∧ t.ledger.store =
      { s.ledger.store with blocks := Store.putRecord s.ledger.store.blocks s.ledger.chain.head.number bytes }

namespace Undone

variable {w : WorkingId} {s t u : LedgerState Unit Unit Unit}

theorem of_alters (h : Alters w s t) : Undone w s t where
  accounts := h.changes.beside.accounts
  chain := h.changes.beside.chain
  holders := h.changes.beside.holders
  heap := h.grows
  stored _ _ := .inl h.changes.beside.store

theorem of_commit (begun : Anchored s.ledger s.heap) (worked : Alters w s t) {f : LedgerFault}
    (failed : LedgerM.exec (LedgerM.commit w) t = (.error f, u)) : Undone w s u := by
  have before := of_alters worked
  have beside := worked.changes.beside
  have anchored : Anchored t.ledger t.heap := begun.mono worked.grows beside.chain beside.working_tx
  cases LedgerM.commit_outcome failed with
  | unbalanced | crashed => exact before
  | @refused chain block isSealed f sched blocks written appended partly back =>
    refine ⟨before.accounts, anchored.takenBack.trans before.chain, before.holders, before.heap, fun kept takes => .inr ?_⟩
    have kept' : Kept t.ledger t.heap := kept.mono begun worked.grows beside.chain (by rw [beside.store])
    have takes' : t.ledger.takesBack = true := by
      rw [Ledger.takesBack, beside.chain, beside.store]
      exact takes
    obtain ⟨bytes, packed, -⟩ := kept.record
    have packed' : t.ledger.chain.head.pack t.heap = .ok bytes := by
      rw [beside.chain, packBlock_eq begun.entered worked.grows]
      exact packed
    have writtenBack := kept'.written_back anchored takes' appended partly back packed'
    refine ⟨bytes, packed, ?_⟩
    change { t.ledger.store with blocks } = _
    rw [writtenBack, beside.chain, beside.store]

theorem of_fails (begun : Anchored s.ledger s.heap) (h : Fails w s t) : Undone w s t := by
  cases h with
  | early worked sched =>
    have undone := of_alters worked
    exact ⟨undone.accounts, undone.chain, undone.holders, undone.heap, undone.stored⟩
  | late worked failed sched =>
    have undone := of_commit begun worked failed
    exact ⟨undone.accounts, undone.chain, undone.holders, undone.heap, undone.stored⟩

/-- Reading the ledger from the store makes no difference. -/
theorem reopened_eq (h : Undone w s t) (kept : Kept s.ledger s.heap) (takes : s.ledger.takesBack = true)
    (blockSize : Int) (heap : Heap) : t.ledger.store.reopened blockSize heap = s.ledger.store.reopened blockSize heap := by
  rcases h.stored kept takes with same | ⟨bytes, packed, written⟩
  · rw [same]
  · rw [written]
    exact kept.reopened_eq packed blockSize heap

end Undone

theorem Fails.apart {w : WorkingId} {s t : LedgerState Unit Unit Unit} (h : Fails w s t) {active : List WorkingId}
    (apart : Session.Apart ⟨s, active⟩) (mine : w ∈ active) : Session.Apart ⟨t, active⟩ := by
  cases h with
  | early worked sched => exact Isolated.changes apart mine worked.changes
  | @late u v worked f failed sched =>
    have before : Session.Apart ⟨u, active⟩ := Isolated.changes apart mine worked.changes
    exact (Session.Step.commit (c := .any) mine failed).apart before

end LedgerScriptM

/-! ## Transactions -/

open LedgerScriptM Session in
/-- A ledger on a store without blocks has its open block in order.  From every ledger of that kind, and from every
state that a run reaches which leaves values alone, a transaction with any contract over its working set gives a
receipt.  If the transaction is rolled back, then
* the accounts, the chain and the holders of addresses are as before, and nothing on the heap has changed;
* the receipt has no events, and the transaction is marked;
* a ledger that is read from the store is the same as before, provided that the store takes back what was written
  whenever a commit fails. -/
theorem rolledBack_unchanged :
    (∀ {blockSize : Int} {store : Store} {h h' : Heap} {l : Ledger}, store.blocks = [] →
      Ledger.load blockSize store h = .ok (l, h') → Anchored l h' ∧ Kept l h') ∧
    (∀ {s₀ : Session Unit Unit Unit} {s : LedgerScriptState} {active : List WorkingId} {events : List Event},
      Opened s₀ → Anchored s₀.state.ledger s₀.state.heap → Run .immutable s₀ events ⟨s.state, active⟩ →
      ∀ tx before after (contract : Option Contract), tx.HeldBy s.state.heap →
        (∀ k, contract = some k → ∀ w, Program .immutable false w (k w)) →
        ∃ receipt t, exec (transact tx before after contract) s = (.ok receipt, t) ∧
          (receipt.status = .rolledBack →
            t.state.ledger.accounts = s.state.ledger.accounts ∧ t.state.ledger.chain = s.state.ledger.chain ∧
            t.state.ledger.holders = s.state.ledger.holders ∧ s.state.heap.Extends t.state.heap ∧
            receipt.events = [] ∧ receipt.tx = { tx with status := .rolledBack } ∧
            (Kept s₀.state.ledger s₀.state.heap → (∀ e ∈ events, e.isUndone = true) →
              s.state.ledger.takesBack = true → ∀ blockSize h,
                t.state.ledger.store.reopened blockSize h = s.state.ledger.store.reopened blockSize h))) := by
  refine ⟨fun empty loaded => Ledger.load_empty empty loaded, ?_⟩
  intro s₀ s active events opened anchored₀ run tx before after contract held body
  have apart := run.apart opened.apart
  obtain ⟨anchored, keeps⟩ := run.kept opened.apart anchored₀
  rcases h : exec (transact tx before after contract) s with ⟨r, t⟩
  rcases transact_cases h with ⟨f, hf⟩ | ⟨receipt, u, hu, rfl, hr⟩
  · obtain ⟨sched, hs⟩ := exec_rollback tx f s
    cases hs.symm.trans hf
    exact ⟨_, _, rfl, fun _ => ⟨rfl, rfl, rfl, .refl _, rfl, rfl, fun _ _ _ _ _ => rfl⟩⟩
  · refine ⟨receipt, t, rfl, fun rolledBack => ?_⟩
    have started : Step .immutable ⟨s.state, active⟩ [] (Session.start ⟨s.state, active⟩ tx false) := .start tx false held
    have covers := covers_worked (c := .immutable) fun _ _ h => h
    have new : s.state.ledger.workings.size < (LedgerScriptM.opened s tx).state.ledger.workings.size := by
      simp [LedgerScriptM.opened]
    have works (k) (hk : contract = some k) (w) : Along (Worked w) (k w) := by
      refine covers.program (fun nested => ?_) (body k hk w)
      cases nested
    obtain ⟨⟨f, rfl⟩, fails⟩ := perform_fails (fun k hk => works k hk _) new hu rolledBack
    have undone := Undone.of_fails (started.anchored apart anchored) fails
    have apart' := fails.apart (started.apart apart) List.mem_cons_self
    obtain ⟨sched, locks, hl⟩ := LedgerM.exec_release s.state.ledger.workings.size u.state
    have released := congrArg Prod.snd (hr.symm.trans hl)
    simp only at released
    rw [released]
    refine ⟨undone.accounts, undone.chain, ?_, undone.heap, rfl, rfl, fun kept₀ allUndone takes blockSize heap => ?_⟩
    · have others : s.state.ledger.holders.filter (·.2 != s.state.ledger.workings.size) = s.state.ledger.holders :=
        List.filter_eq_self.mpr fun p hp => by
          have older := apart.bound p.2 ((apart.holder_iff p.1 p.2).mp hp).1
          simpa using Nat.ne_of_lt older
      exact (Isolated.released apart' _).trans (undone.holders.trans others)
    · have kept := Kept.step started apart anchored (by simp) (keeps kept₀ allUndone)
      exact undone.reopened_eq kept takes blockSize heap

/-- A payment from an account that has nothing. -/
def unpaid : Transaction :=
  { id := [], sender := [97], receiver := [98], amount := 5, method := [], args := [], code := [] }

theorem lockOrder_unpaid : LedgerM.lockOrder unpaid = [[97], [98]] := by
  have sorted : ([unpaid.sender, unpaid.receiver].filter (· != [])).mergeSort Text.lexLe = [[97], [98]] :=
    List.mergeSort_of_pairwise (by decide)
  exact (congrArg List.eraseDups sorted).trans rfl

open LedgerScriptM Session in
theorem rolledBack_unchanged_unpaid :
    ∃ receipt t, exec (transact unpaid false false none) ⟨empty.state, []⟩ = (.ok receipt, t) ∧
      receipt.status = .rolledBack ∧ t.state.ledger.accounts = [] ∧ receipt.tx = { unpaid with status := .rolledBack } ∧
      ∀ blockSize h, t.state.ledger.store.reopened blockSize h = empty.state.ledger.store.reopened blockSize h := by
  obtain ⟨anchored, kept⟩ := rolledBack_unchanged.1 rfl load_empty
  obtain ⟨receipt, t, h, unchanged⟩ := rolledBack_unchanged.2 (s := ⟨empty.state, []⟩) opened_empty anchored .refl
    unpaid false false none (by simp [Transaction.HeldBy, unpaid]) (by simp)
  have status : (exec (transact unpaid false false none) ⟨empty.state, []⟩).1.toOption.map (·.status) =
      some .rolledBack := by
    simp only [transact, perform, work, lockOrder_unpaid]
    rfl
  rw [h] at status
  have rolledBack : receipt.status = .rolledBack := Option.some.inj status
  obtain ⟨accounts, -, -, -, -, tx, stored⟩ := unchanged rolledBack
  exact ⟨receipt, t, h, rolledBack, accounts, tx, stored kept (by simp) rfl⟩

end LedgerScript
