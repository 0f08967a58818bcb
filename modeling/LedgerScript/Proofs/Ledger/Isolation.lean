import LedgerScript.Proofs.Ledger.Session

/-!
# Transactions do not disturb one another

An account that a working set has touched is not changed by the commit of another one, because the other one would
have to hold its address.  So a commit replaces the very accounts that the copies were made from, and after any run
the committed accounts are what the written accounts give when they are put one after another, in the order in which
the transactions entered the chain.
-/

namespace LedgerScript

variable {V E B : Type}

theorem Ledger.Change.holders_subset {w : WorkingId} {l l' : Ledger} (h : Change w l l') : l.holders ⊆ l'.holders := by
  cases h with
  | hold locked free => exact List.subset_cons_self _ _
  | lock | copy | update | move | mark => exact List.Subset.refl _

theorem Ledger.Changes.holders_subset {w : WorkingId} {l l' : Ledger} (h : Changes w l l') : l.holders ⊆ l'.holders := by
  induction h with
  | refl => exact List.Subset.refl _
  | tail _ step ih => exact List.Subset.trans ih step.holders_subset

namespace Session

/-- The working set `w` does not commit here, and no account is made at the address. -/
def Event.Spares (w : WorkingId) (address : Address) : Event → Prop
  | .committed w' _ _ => w' ≠ w
  | .refused _ _ => True
  | .credited accounts => address ∉ accounts.map (·.address)

section

variable {active active' : List WorkingId} {l l' : Ledger} {events : List Event} {w : WorkingId} {address : Address}

theorem Effect.size_le (h : Effect active l events active' l') : l.workings.size ≤ l'.workings.size := by
  cases h with
  | started tx isView =>
    rw [Array.size_push]
    exact Nat.le_succ _
  | worked mine changes => exact Nat.le_of_eq changes.beside.size.symm
  | released mine locks => exact Nat.le_of_eq (Ledger.size_modifyWorking _ _ _).symm
  | committed | refused | credited | other => exact Nat.le_refl _

/-- A working set in use has been in use since it was made. -/
theorem Effect.active_of_active (h : Effect active l events active' l') (old : w < l.workings.size)
    (hw : w ∈ active') : w ∈ active := by
  cases h with
  | started tx isView => exact (List.mem_cons.mp hw).resolve_left (Nat.ne_of_lt old)
  | released mine locks => exact List.mem_of_mem_erase hw
  | worked | committed | refused | credited | other => exact hw

/-- An address stays with its holder while that is in use. -/
theorem Effect.holds (h : Effect active l events active' l') (nodup : active.Nodup) (hw : w ∈ active')
    (holds : (address, w) ∈ l.holders) : (address, w) ∈ l'.holders := by
  cases h with
  | worked mine changes => exact changes.holders_subset holds
  | @released v mine locks =>
    have hne : w ≠ v := (nodup.mem_erase_iff.mp hw).1
    exact List.mem_filter.mpr ⟨holds, by simpa using hne⟩
  | started | committed | refused | credited | other => exact holds

/-- What stands at a held address is changed by nobody but the holder. -/
theorem Effect.account_eq (h : Effect active l events active' l') (apart : Isolated l active)
    (holds : (address, w) ∈ l.holders) (spares : ∀ e ∈ events, e.Spares w address) :
    l'.account? address = l.account? address := by
  cases h with
  | worked mine changes => rw [Ledger.account?, changes.beside.accounts]; rfl
  | @committed v mine chain store balanced txs =>
    have hne : v ≠ w := spares _ (List.mem_singleton_self _)
    have none : accountAt (l.working v).accounts address = none := by
      cases found : accountAt (l.working v).accounts address with
      | none => rfl
      | some x =>
        have held := apart.copies_held v mine x (mem_of_accountAt found)
        rw [accountAt_address found] at held
        exact absurd (apart.oneHolder.unique held holds) hne
    change accountAt (putAll l.accounts (l.working v).accounts) address = accountAt l.accounts address
    rw [accountAt_putAll (apart.copies_distinct v mine), none, Option.none_or]
  | @credited balances keys store =>
    have none := accountAt_eq_none.mpr (spares _ (List.mem_singleton_self _))
    change accountAt (l.accounts ++ LedgerM.freshAccounts l balances) address = accountAt l.accounts address
    rw [accountAt, List.find?_append]
    exact (congrArg (Option.or _) none).trans (Option.or_none)
  | started | refused | released | other => rfl

end

section

variable {c : Conduct} {s t : Session V E B} {events : List Event}

theorem Run.size_le (run : Run c s events t) (apart : Apart s) :
    s.state.ledger.workings.size ≤ t.state.ledger.workings.size := by
  induction run with
  | refl => exact Nat.le_refl _
  | tail run step ih => exact ih.trans (step.effect (run.apart apart)).size_le

/-- Along a run, an account at a held address is changed by nobody but the holder, and it stays with the holder. -/
theorem Run.account_eq (run : Run c s events t) (apart : Apart s) {w : WorkingId} {address : Address}
    (holds : (address, w) ∈ s.state.ledger.holders) (hw : w ∈ t.active)
    (spares : ∀ e ∈ events, e.Spares w address) : (address, w) ∈ t.state.ledger.holders ∧
      t.state.ledger.account? address = s.state.ledger.account? address := by
  have old : w < s.state.ledger.workings.size := apart.bound w ((apart.holder_iff address w).mp holds).1
  induction run with
  | refl => exact ⟨holds, rfl⟩
  | tail run step ih =>
    have apart' := run.apart apart
    have effect := step.effect apart'
    have before := ih (effect.active_of_active (Nat.lt_of_lt_of_le old (run.size_le apart)) hw)
      fun e he => spares e (List.mem_append_left _ he)
    exact ⟨effect.holds apart'.nodup hw before.1,
      (effect.account_eq apart' before.1 fun e he => spares e (List.mem_append_right _ he)).trans before.2⟩

/-! ## One after another -/

/-- The accounts after a step that looks like this. -/
def Event.apply (accounts : List Account) : Event → List Account
  | .committed _ _ written => putAll accounts written
  | .refused _ _ => accounts
  | .credited fresh => accounts ++ fresh

/-- A ledger on an empty store that nobody uses yet. -/
def empty : Session Unit Unit Unit :=
  ⟨⟨{}, {}, { chain := .restore 16 [] }⟩, []⟩

theorem load_empty : Ledger.load 16 {} {} = .ok (empty.state.ledger, empty.state.heap) := by
  simp only [Ledger.load, Store.loadBlocks, Store.loadAccounts, List.mergeSort_nil]
  rfl

theorem opened_empty : Opened empty :=
  ⟨rfl, ⟨16, {}, {}, load_empty⟩, List.nodup_nil⟩

end

end Session

end LedgerScript

/-!
## What the conditions of a transaction see

While a condition is checked, reads go past the copies of the working set to committed state, and they take no lock.  So
of an account that the working set holds they see what was committed when it got hold of the address, whatever other
transactions have committed since.  Of any other account they see what is committed at the moment, and two conditions of
one transaction may see different things.
-/

namespace LedgerScript

variable {V E B : Type}

namespace LedgerM

variable {s : LedgerState V E B} {w : WorkingId} {address : Address}

/-- A slot of a committed account, copied for whoever reads it. -/
def committedSlot (account? : Option Account) (key : Bytes) : LedgerM V E B Value :=
  match account? with
  | some a => onHeap fun h => h.deepCopy (a.slot key)
  | none => return .null

theorem exec_load_validating (validating : (s.ledger.working w).validating = true) (key : Bytes) :
    exec (load w address key) s = exec (committedSlot (s.ledger.account? address) key) s := by
  unfold load committedSlot
  simp only [exec_bind, exec_working, validating, Bool.or_true, if_true]
  split
  · rename_i off
    cases off
  · cases found : s.ledger.account? address with
    | none => simp only [exec_bind, exec_ledger, found]
    | some a => simp only [exec_bind, exec_ledger, found]

theorem exec_balance_validating (validating : (s.ledger.working w).validating = true) :
    exec (balance w address) s = (.ok (s.ledger.balance address), s) := by
  unfold balance
  simp only [exec_bind, exec_working, validating, Bool.or_true, if_true, exec_ledger, exec_pure]

end LedgerM

namespace Session

variable {c : Conduct} {s₀ s t : Session V E B} {events more : List Event} {w : WorkingId} {address : Address}

/-- The conditions of a transaction see an account that it holds as it was committed when the transaction got hold of its
address, until the transaction itself commits, and whatever else happens in the run. -/
theorem conditions_see_beginning (opened : Opened s₀) (before : Run c s₀ events s) (run : Run c s more t)
    (holds : (address, w) ∈ s.state.ledger.holders) (active : w ∈ t.active) (spares : ∀ e ∈ more, e.Spares w address)
    (validating : (t.state.ledger.working w).validating = true) :
    (∀ key, LedgerM.exec (LedgerM.load w address key) t.state =
      LedgerM.exec (LedgerM.committedSlot (s.state.ledger.account? address) key) t.state) ∧
    LedgerM.exec (LedgerM.balance w address) t.state = (.ok (s.state.ledger.balance address), t.state) := by
  have same := (run.account_eq (before.apart opened.apart) holds active spares).2
  refine ⟨fun key => ?_, ?_⟩
  · rw [LedgerM.exec_load_validating validating, same]
  · rw [LedgerM.exec_balance_validating validating, Ledger.balance, same]
    rfl

/-- The one working set of a ledger on an empty store holds an address. -/
def holding : Session Unit Unit Unit :=
  ⟨(LedgerM.exec (LedgerM.hold 0 [1] none) (empty.start default false).state).2, [0]⟩

/-- It has begun to check a condition. -/
def checking : Session Unit Unit Unit :=
  ⟨(LedgerM.exec (LedgerM.setValidating 0 true) holding.state).2, [0]⟩

theorem run_holding : Run Conduct.any empty [] holding :=
  (Run.single (Step.start default false trivial)).tail (Step.use List.mem_cons_self (.hold [1] none) rfl)

theorem run_checking : Run Conduct.any holding [] checking :=
  Run.single (Step.use List.mem_cons_self (.setValidating true) rfl)

theorem conditions_see_beginning_nothing : LedgerM.exec (LedgerM.balance 0 [1]) checking.state = (.ok 0, checking.state) :=
  (conditions_see_beginning (w := 0) opened_empty run_holding run_checking List.mem_cons_self List.mem_cons_self nofun
    rfl).2

end Session

end LedgerScript
