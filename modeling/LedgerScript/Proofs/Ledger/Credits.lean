import LedgerScript.Proofs.Ledger.Restart

/-!
# Initial balances

Initial balances are credited in memory before the store is asked, and nothing is taken back if it refuses.  So what is in memory
afterwards does not depend on the store, whereas the store has all the new accounts or is as it was.
-/

namespace LedgerScript

def openedAt (balances : List (Address × Int)) (address : Address) : Option Account :=
  (balances.find? (·.1 == address)).map fun b => { address := b.1, balance := b.2 }

/-! ## What a store has -/

namespace Store

def written? (s : Store) (address : Address) : Option (Account ⊕ Bytes) :=
  match s.kind with
  | .memory => (accountAt s.accounts address).map .inl
  | .disk => (s.records.find? (·.1 == address)).map fun r => .inr r.2

def Has (s : Store) (h : Heap) (a : Account) : Prop :=
  match s.kind with
  | .memory => s.written? a.address = some (.inl a)
  | .disk => ∃ bytes, a.pack h = .ok bytes ∧ s.written? a.address = some (.inr bytes)

section

variable {st st' : Store} {h h' : Heap} {written : List Account}

/-- Looking something up does not depend on what else was left out. -/
theorem find?_filter_same {α : Type} {p q : α → Bool} (items : List α) (kept : ∀ x, q x = true → p x = true) :
    (items.filter p).find? q = items.find? q := by
  rw [List.find?_filter]
  congr 1
  funext x
  cases here : q x with
  | true => simp [kept x here]
  | false => simp

theorem putCopy_bare {a : Account} (bare : a.storage = []) :
    putCopy (st, h) a = .ok ({ st with accounts := a :: st.accounts.filter (·.address != a.address) }, h) := by
  obtain ⟨address, balance, nonce, code, storage⟩ := a
  cases bare
  rfl

/-- Accounts without slots are taken into a store in memory as they are. -/
theorem putCopies_bare (st : Store) (h : Heap) (bare : ∀ a ∈ written, a.storage = []) (unique : Distinct written) :
    ∃ after, written.foldlM putCopy (st, h) = .ok ({ st with accounts := after }, h) ∧
      ∀ address, accountAt after address = (accountAt written address).or (accountAt st.accounts address) := by
  induction written generalizing st with
  | nil => exact ⟨st.accounts, rfl, fun _ => rfl⟩
  | cons a rest ih =>
    obtain ⟨apart, unique⟩ := List.nodup_cons.mp unique
    obtain ⟨first, others⟩ := List.forall_mem_cons.mp bare
    obtain ⟨after, made, found⟩ := ih { st with accounts := a :: st.accounts.filter (·.address != a.address) } others unique
    refine ⟨after, ?_, fun address => ?_⟩
    · rw [List.foldlM_cons, putCopy_bare first]
      exact made
    · rw [found]
      by_cases here : a.address = address
      · subst here
        rw [accountAt_eq_none.mpr apart]
        simp [accountAt]
      · have behind (as : List Account) : accountAt (a :: as) address = accountAt as address := by simp [accountAt, here]
        have others : accountAt (st.accounts.filter (·.address != a.address)) address = accountAt st.accounts address := by
          refine find?_filter_same st.accounts fun b same => ?_
          rw [beq_iff_eq] at same
          simpa [same] using Ne.symm here
        rw [behind, behind, others]

theorem find?_recordOf {new : List (Address × Bytes)} (made : List.Forall₂ (fun a r => recordOf h a = .ok r) written new)
    (address : Address) : (accountAt written address = none ∧ new.find? (·.1 == address) = none) ∨
      ∃ a bytes, accountAt written address = some a ∧ a.pack h = .ok bytes ∧ new.find? (·.1 == address) = some (address, bytes) := by
  induction made with
  | nil => exact .inl ⟨rfl, rfl⟩
  | @cons a r written new first _ ih =>
    unfold recordOf at first
    cases packed : a.pack h with
    | error c => rw [packed] at first; cases first
    | ok bytes =>
      rw [packed] at first
      cases first
      by_cases here : a.address = address
      · exact .inr ⟨a, bytes, by simp [accountAt, here], packed, by simp [here]⟩
      · simpa [accountAt, here] using ih

/-- The store has what it took, and everything else in it is as it was. -/
theorem written?_putAccounts (bare : ∀ a ∈ written, a.storage = []) (unique : Distinct written)
    (put : st.putAccounts h written = .ok (st', h')) : h' = h ∧
      (∀ a, accountAt written a.address = some a → st'.Has h a) ∧
      ∀ address, accountAt written address = none → st'.written? address = st.written? address := by
  cases kind : st.kind with
  | memory =>
    obtain ⟨after, made, found⟩ := putCopies_bare st h bare unique
    unfold putAccounts at put
    simp only [kind] at put
    split at put
    · cases put
    · change written.foldlM putCopy (st, h) = _ at put
      cases made.symm.trans put
      refine ⟨rfl, fun a there => ?_, fun address absent => ?_⟩
      · simp only [Has, written?, kind, found, there, Option.some_or, Option.map_some]
      · simp only [written?, kind, found, absent, Option.none_or]
  | disk =>
    obtain ⟨rfl, new, made, rfl⟩ := putAccounts_disk kind put
    have records := find?_recordOf (mapM_eq_ok_iff.mp made)
    refine ⟨rfl, fun a there => ?_, fun address absent => ?_⟩
    · rcases records a.address with ⟨absent, -⟩ | ⟨b, bytes, here, packed, first⟩
      · cases there.symm.trans absent
      · cases there.symm.trans here
        simp only [Has, written?, kind, List.find?_append, first, Option.some_or, Option.map_some]
        exact ⟨bytes, packed, rfl⟩
    · rcases records address with ⟨-, none⟩ | ⟨b, bytes, here, -⟩
      · simp only [written?, kind, List.find?_append, none, Option.none_or]
        rw [find?_filter_same]
        intro r same
        rw [beq_iff_eq] at same
        have other := List.find?_eq_none.mp none
        simpa [same] using other
      · cases absent.symm.trans here

end

end Store

/-! ## What is credited -/

namespace LedgerM

variable {V E B : Type} {s t : LedgerState V E B}
variable (l : Ledger)

theorem perm_freshAccounts (balances : List (Address × Int)) :
    ((balances.filter fun b => (l.account? b.1).isNone).map fun b => ({ address := b.1, balance := b.2 } : Account)).Perm
      (freshAccounts l balances) :=
  ((List.mergeSort_perm _ _).symm.filter _).map _

theorem distinct_listed {balances : List (Address × Int)} (keys : (balances.map (·.1)).Nodup) :
    Distinct ((balances.filter fun b => (l.account? b.1).isNone).map fun b => ({ address := b.1, balance := b.2 } : Account)) := by
  rw [Distinct, List.map_map]
  exact keys.sublist (List.Sublist.map _ List.filter_sublist)

theorem accountAt_freshAccounts {balances : List (Address × Int)} (keys : (balances.map (·.1)).Nodup) (address : Address) :
    accountAt (freshAccounts l balances) address = if (l.account? address).isNone then openedAt balances address else none := by
  rw [accountAt_perm (distinct_listed l keys) (perm_freshAccounts l balances), accountAt, List.find?_map, List.find?_filter, openedAt]
  cases there : (l.account? address).isNone with
  | true =>
    rw [if_pos rfl]
    congr 2
    funext b
    by_cases here : b.1 = address
    · simp [here, there]
    · simp [here]
  | false =>
    rw [if_neg Bool.false_ne_true, Option.map_eq_none_iff, List.find?_eq_none]
    rintro b - both
    simp only [Function.comp, beq_iff_eq, decide_eq_true_eq] at both
    rw [both.2, there] at both
    cases both.1

/-- Initial balances are credited whatever the store says.  In memory every address that had no account gets the one that is listed
for it, and no other account changes; the total grows by what is credited.  If the store refuses, that is the error, and the store is
as it was.  Otherwise it has the new accounts, and what it has at other addresses is unchanged. -/
theorem genesis_credits {balances : List (Address × Int)} {r : Except LedgerFault Unit} (keys : (balances.map (·.1)).Nodup)
    (run : exec (genesis balances) s = (r, t)) :
    (∀ address, t.ledger.account? address = (s.ledger.account? address).or (openedAt balances address)) ∧
    t.ledger.total = s.ledger.total + ((balances.filter fun b => (s.ledger.account? b.1).isNone).map (·.2)).sum ∧
    ((∃ f, r = .error (.store f) ∧ t.ledger.store = s.ledger.store) ∨
      r = .ok () ∧ (∀ a, s.ledger.account? a.address = none → openedAt balances a.address = some a → t.ledger.store.Has t.heap a) ∧
        ∀ address, s.ledger.account? address ≠ none ∨ openedAt balances address = none →
          t.ledger.store.written? address = s.ledger.store.written? address) := by
  have fresh := accountAt_freshAccounts s.ledger keys
  have found (address : Address) : accountAt (s.ledger.accounts ++ freshAccounts s.ledger balances) address =
      (s.ledger.account? address).or (openedAt balances address) := by
    rw [accountAt, List.find?_append]
    change (s.ledger.account? address).or (accountAt (freshAccounts s.ledger balances) address) = _
    rw [fresh]
    cases s.ledger.account? address <;> rfl
  have credited : ((s.ledger.accounts ++ freshAccounts s.ledger balances).map (·.balance)).sum =
      s.ledger.total + ((balances.filter fun b => (s.ledger.account? b.1).isNone).map (·.2)).sum := by
    rw [List.map_append, List.sum_append, ← ((perm_freshAccounts s.ledger balances).map (·.balance)).sum_eq, List.map_map]
    rfl
  rcases genesis_cases run with ⟨none, rfl, rfl⟩ | ⟨f, -, rfl, rfl⟩ | ⟨store, heap, put, rfl, rfl⟩
  · rw [none, List.append_nil] at found credited
    refine ⟨found, credited, .inr ⟨rfl, fun a absent opened => ?_, fun _ _ => rfl⟩⟩
    have nowhere := fresh a.address
    rw [none, absent, opened] at nowhere
    cases nowhere
  · exact ⟨found, credited, .inl ⟨f, rfl, rfl⟩⟩
  · have bare : ∀ a ∈ freshAccounts s.ledger balances, a.storage = [] := by
      intro a mem
      obtain ⟨b, -, rfl⟩ := List.mem_map.mp mem
      rfl
    have unique : Distinct (freshAccounts s.ledger balances) :=
      ((perm_freshAccounts s.ledger balances).map Account.address).nodup_iff.mp (distinct_listed s.ledger keys)
    obtain ⟨rfl, has, kept⟩ := Store.written?_putAccounts bare unique put
    refine ⟨found, credited, .inr ⟨rfl, fun a absent opened => has a ?_, fun address either => kept address ?_⟩⟩
    · rw [fresh, absent, opened]
      rfl
    · rw [fresh]
      rcases either with there | nothing
      · rw [if_neg]
        rwa [Option.isNone_iff_eq_none]
      · rw [nothing, ite_self]

def shut : LedgerState Unit Unit Unit :=
  ⟨{}, {}, { chain := .restore 1 [], store := { kind := .disk, isClosed := true }, accounts := [{ address := [98], balance := 7 }] }⟩

/-- The store refuses, but the new account is there and has its balance. -/
theorem genesis_credits_shut : (([([97], 5), ([98], 9)] : List (Address × Int)).map (·.1)).Nodup ∧
    ∃ t, exec (genesis [([97], 5), ([98], 9)]) shut = (.error (.store .closed), t) ∧
      t.ledger.account? [97] = some { address := [97], balance := 5 } ∧ t.ledger.total = 12 ∧ t.ledger.store.records = [] := by
  have keys : (([([97], 5), ([98], 9)] : List (Address × Int)).map (·.1)).Nodup := by decide
  have fresh : freshAccounts shut.ledger [([97], 5), ([98], 9)] = [{ address := [97], balance := 5 }] := by
    rw [freshAccounts, List.mergeSort_of_pairwise (by decide)]
    rfl
  obtain ⟨bytes, packed⟩ : ∃ bytes, ({ address := [97], balance := 5 } : Account).pack {} = .ok bytes := by
    simp only [Account.pack, Account.sortedStorage, List.mergeSort_nil]
    exact ⟨_, rfl⟩
  have refused : shut.ledger.store.putAccounts shut.heap (freshAccounts shut.ledger [([97], 5), ([98], 9)]) = .error .closed := by
    rw [fresh]
    simp [shut, Store.putAccounts, packed]
    rfl
  rcases run : exec (genesis [([97], 5), ([98], 9)]) shut with ⟨r, t⟩
  obtain ⟨found, credited, store⟩ := genesis_credits keys run
  rcases genesis_cases run with ⟨none, -⟩ | ⟨f, put, rfl, -⟩ | ⟨_, _, put, -⟩
  · cases fresh.symm.trans none
  · cases refused.symm.trans put
    refine ⟨keys, t, rfl, found [97], credited, ?_⟩
    rcases store with ⟨-, -, same⟩ | ⟨ok, -⟩
    · rw [same]
      rfl
    · cases ok
  · cases refused.symm.trans put

end LedgerM

end LedgerScript
