import LedgerScript.Ledger.Lawful
import LedgerScript.Proofs.Ledger.Commit

/-!
# Solvency

A ledger is *solvent* at an address if neither the committed account there nor any copy of it in a working set has a balance
below zero.  A transfer takes from a copy no more than that has, and gives no less than nothing; what else an operation does
to copies leaves balances as they are.  So every operation keeps the ledger solvent, whichever working set it is for and
whether it fails or not, and this does not depend on who holds which address, nor on what is true of other addresses.  Copies
that outlive a rollback do no harm: they are solvent too.

Only initial balances come from outside, for addresses that have no account yet.  Nothing here looks at what is credited, so
whoever credits has to.
-/

namespace LedgerScript

variable {V E B α β : Type}

/-- If the account is at the address, its balance is not below zero. -/
def Account.SolventAt (address : Address) (a : Account) : Prop :=
  a.address = address → 0 ≤ a.balance

/-- No account at the address has a balance below zero. -/
def FundedAt (address : Address) (accounts : List Account) : Prop :=
  ∀ a ∈ accounts, a.SolventAt address

namespace FundedAt

variable {address : Address} {accounts written : List Account} {a : Account}

theorem nil : FundedAt address [] :=
  List.forall_mem_nil _

theorem append (funded : FundedAt address accounts) (more : FundedAt address written) :
    FundedAt address (accounts ++ written) :=
  fun a mem => (List.mem_append.mp mem).elim (funded a) (more a)

theorem putAccount (funded : FundedAt address accounts) (enough : a.SolventAt address) :
    FundedAt address (Ledger.putAccount accounts a) := by
  unfold Ledger.putAccount
  split
  · intro b mem
    obtain ⟨c, mem', rfl⟩ := List.mem_map.mp mem
    split
    · exact enough
    · exact funded c mem'
  · exact funded.append fun b mem => List.mem_singleton.mp mem ▸ enough

theorem putAll (funded : FundedAt address accounts) (more : FundedAt address written) :
    FundedAt address (putAll accounts written) := by
  induction written generalizing accounts with
  | nil => exact funded
  | cons a rest ih =>
    obtain ⟨enough, more⟩ := List.forall_mem_cons.mp more
    exact ih (funded.putAccount enough) more

end FundedAt

/-- Neither the account at the address nor a copy of it has a balance below zero. -/
structure Ledger.SolventAt (address : Address) (l : Ledger) : Prop where
  accounts : FundedAt address l.accounts
  copies : ∀ w, FundedAt address (l.working w).accounts

namespace Ledger.SolventAt

variable {l l' : Ledger} {address : Address} {w : WorkingId}

theorem of_eq (solvent : l.SolventAt address) (accounts : l'.accounts = l.accounts) (workings : l'.workings = l.workings) :
    l'.SolventAt address := by
  refine ⟨accounts ▸ solvent.accounts, fun w => ?_⟩
  rw [working, workings]
  exact solvent.copies w

theorem balance_nonneg (solvent : l.SolventAt address) : 0 ≤ l.balance address := by
  unfold balance
  split
  · next a there => exact solvent.accounts a (List.mem_of_find?_eq_some there) (accountAt_address there)
  · exact Int.le_refl 0

theorem modifyWorking (solvent : l.SolventAt address) {f : Working → Working}
    (keeps : ∀ k, FundedAt address k.accounts → FundedAt address (f k).accounts) : (l.modifyWorking w f).SolventAt address := by
  refine ⟨solvent.accounts, fun v => ?_⟩
  have before := solvent.copies v
  simp only [working, Ledger.modifyWorking, Array.getElem?_modify] at before ⊢
  split
  · cases here : l.workings[v]? with
    | none => exact .nil
    | some k =>
      rw [here] at before
      exact keeps k before
  · exact before

/-- A new working set has no copies. -/
theorem push (solvent : l.SolventAt address) (tx : Transaction) (isView : Bool) :
    ({ l with workings := l.workings.push { tx, isView } } : Ledger).SolventAt address := by
  refine ⟨solvent.accounts, fun v => ?_⟩
  have before := solvent.copies v
  simp only [working, Array.getElem?_push] at before ⊢
  split
  · exact .nil
  · exact before

end Ledger.SolventAt

namespace LedgerM

open Ledger (SolventAt)

/-! ## Operations that keep a ledger solvent -/

/-- From a ledger on that is solvent at the address, an operation leads to one that is so whether it fails or not, and this is
true of what it gives. -/
def Affords (here : Address) (x : LedgerM V E B α) (post : α → Prop) : Prop :=
  ∀ s r t, s.ledger.SolventAt here → exec x s = (r, t) → t.ledger.SolventAt here ∧ ∀ a, r = .ok a → post a

/-- From a ledger on that is solvent at the address, an operation leads to one that is so. -/
abbrev KeepsSolvent (here : Address) (x : LedgerM V E B α) : Prop :=
  x.Affords here fun _ => True

section

variable {here : Address} {w : WorkingId} {post : α → Prop} {after : β → Prop} {address : Address} {a : Account}
variable {x : LedgerM V E B α}

theorem affords_pure {a : α} (holds : post a) : (pure a : LedgerM V E B α).Affords here post := by
  intro s r t solvent h
  cases h
  exact ⟨solvent, fun b same => by cases same; exact holds⟩

theorem affords_throw (f : LedgerFault) : (throw f : LedgerM V E B α).Affords here post := by
  intro s r t solvent h
  cases h
  exact ⟨solvent, nofun⟩

theorem Affords.bind {f : α → LedgerM V E B β} (first : x.Affords here post)
    (rest : ∀ a, post a → (f a).Affords here after) : (x >>= f).Affords here after := by
  intro s r t solvent h
  rcases of_exec_bind h with ⟨e, hx, rfl⟩ | ⟨a, u, hx, hu⟩
  · exact ⟨(first s _ t solvent hx).1, nofun⟩
  · obtain ⟨solvent', holds⟩ := first s _ u solvent hx
    exact rest a (holds a rfl) u r t solvent' hu

theorem affords_ite {c : Prop} [Decidable c] {y : LedgerM V E B α} (yes : c → x.Affords here post)
    (no : ¬c → y.Affords here post) : (if c then x else y).Affords here post := by
  split
  · next holds => exact yes holds
  · next fails => exact no fails

theorem Affords.keeps (affords : x.Affords here post) : x.KeepsSolvent here :=
  fun s r t solvent h => ⟨(affords s r t solvent h).1, fun _ _ => trivial⟩

theorem affords_ledger : (ledger : LedgerM V E B Ledger).Affords here (SolventAt here) := by
  intro s r t solvent h
  cases h
  exact ⟨solvent, fun l same => by cases same; exact solvent⟩

theorem affords_working : (working w : LedgerM V E B Working).Affords here fun k => FundedAt here k.accounts := by
  intro s r t solvent h
  cases h
  exact ⟨solvent, fun k same => by cases same; exact solvent.copies w⟩

theorem keepsSolvent_modifyLedger {f : Ledger → Ledger} (keeps : ∀ l : Ledger, l.SolventAt here → (f l).SolventAt here) :
    (modifyLedger f : LedgerM V E B Unit).KeepsSolvent here := by
  intro s r t solvent h
  cases h
  exact ⟨keeps s.ledger solvent, fun _ _ => trivial⟩

theorem keepsSolvent_modifyWorking {f : Working → Working}
    (keeps : ∀ k, FundedAt here k.accounts → FundedAt here (f k).accounts) :
    (modifyWorking w f : LedgerM V E B Unit).KeepsSolvent here :=
  keepsSolvent_modifyLedger fun _ solvent => solvent.modifyWorking keeps

theorem keepsSolvent_modifySched (f : Scheduler V E B → Scheduler V E B) :
    (modifySched f : LedgerM V E B Unit).KeepsSolvent here := by
  intro s r t solvent h
  cases h
  exact ⟨solvent, fun _ _ => trivial⟩

theorem affords_onHeap {f : Heap → Except Crash (α × Heap)} (holds : ∀ h a h', f h = .ok (a, h') → post a) :
    (onHeap f : LedgerM V E B α).Affords here post := by
  intro s r t solvent h
  rw [exec_onHeap] at h
  split at h
  · next a heap made =>
    cases h
    exact ⟨solvent, fun b same => by cases same; exact holds _ _ _ made⟩
  · cases h
    exact ⟨solvent, nofun⟩

/-! ## Addresses -/

theorem keepsSolvent_holder? : (holder? address : LedgerM V E B (Option WorkingId)).KeepsSolvent here := by
  intro s r t solvent h
  cases h
  exact ⟨solvent, fun _ _ => trivial⟩

theorem keepsSolvent_lockOf : (lockOf address : LedgerM V E B ObjectId).KeepsSolvent here := by
  intro s r t solvent h
  obtain ⟨-, locks, same, -⟩ := exec_lockOf h
  exact ⟨solvent.of_eq (by rw [same]) (by rw [same]), fun _ _ => trivial⟩

theorem keepsSolvent_lockNeeded : (lockNeeded w address : LedgerM V E B (Option ObjectId)).KeepsSolvent here := by
  have inTask : (inTask : LedgerM V E B Bool).KeepsSolvent here := by
    intro s r t solvent h
    cases h
    exact ⟨solvent, fun _ _ => trivial⟩
  refine keepsSolvent_holder?.bind fun holder _ => affords_ite (fun _ => affords_pure trivial) fun _ => ?_
  refine inTask.bind fun running _ => affords_ite (fun _ => ?_) fun _ => affords_pure trivial
  exact keepsSolvent_lockOf.bind fun lock _ => affords_pure trivial

theorem keepsSolvent_hold (lock? : Option ObjectId) : (hold w address lock? : LedgerM V E B Unit).KeepsSolvent here := by
  refine keepsSolvent_holder?.bind fun holder _ => ?_
  cases holder with
  | none =>
    refine Affords.bind (keepsSolvent_modifyLedger fun l solvent => solvent.of_eq rfl rfl) fun _ _ => ?_
    exact keepsSolvent_modifyWorking fun k => id
  | some other =>
    refine affords_ite (fun _ => affords_pure trivial) fun _ => ?_
    cases lock? with
    | none => exact affords_throw _
    | some lock => exact (keepsSolvent_modifySched _).bind fun _ _ => affords_throw _

theorem keepsSolvent_tryHold : (tryHold w address : LedgerM V E B Unit).KeepsSolvent here := by
  refine Affords.bind keepsSolvent_lockNeeded fun lock? _ => ?_
  cases lock? with
  | none => exact keepsSolvent_hold none
  | some lock =>
    have rest (taken : Bool) : (if taken then hold w address (some lock) else throw (.conflict address) :
        LedgerM V E B Unit).KeepsSolvent here := affords_ite (fun _ => keepsSolvent_hold _) fun _ => affords_throw _
    intro s r t solvent h
    exact rest (s.sched.tryLock lock).1 { s with sched := (s.sched.tryLock lock).2 } r t solvent h

/-! ## Copies -/

/-- A copy has what the account has, and a new account has nothing. -/
theorem affords_touch : (touch w address : LedgerM V E B Account).Affords here (Account.SolventAt here) := by
  refine Affords.bind affords_working fun k funded => ?_
  split
  · next a there => exact affords_pure (funded a (List.mem_of_find?_eq_some there))
  · refine Affords.bind keepsSolvent_tryHold fun _ _ => Affords.bind affords_ledger fun l solvent => ?_
    have kept (a : Account) (enough : a.SolventAt here) : (do
        modifyWorking w fun k => { k with accounts := k.accounts ++ [a] }
        return a : LedgerM V E B Account).Affords here (Account.SolventAt here) := by
      refine Affords.bind (keepsSolvent_modifyWorking fun k funded => ?_) fun _ _ => affords_pure enough
      exact funded.append fun b mem => List.mem_singleton.mp mem ▸ enough
    split
    · next committed there =>
      refine Affords.bind (affords_onHeap fun h a h' cloned => ?_) kept
      obtain ⟨-, storage, same⟩ := Account.clone_spec cloned
      have enough : committed.SolventAt here := solvent.accounts committed (List.mem_of_find?_eq_some there)
      rw [same]
      exact enough
    · exact Affords.bind (affords_pure fun _ => Int.le_refl 0) kept

theorem keepsSolvent_update (enough : a.SolventAt here) : (update w a : LedgerM V E B Unit).KeepsSolvent here :=
  keepsSolvent_modifyWorking fun _ funded => funded.putAccount enough

/-- Nobody gives what he does not have, and nobody is given less than nothing. -/
theorem keepsSolvent_transfer (sender receiver : Address) (amount : Int) :
    (transfer w sender receiver amount : LedgerM V E B Unit).KeepsSolvent here := by
  refine Affords.bind affords_working fun k _ => affords_ite (fun _ => affords_throw _) fun _ => ?_
  refine affords_ite (fun _ => affords_throw _) fun positive => ?_
  refine Affords.bind affords_touch fun _ _ => Affords.bind affords_touch fun _ _ => Affords.bind affords_touch fun source _ => ?_
  refine affords_ite (fun _ => affords_throw _) fun enough => ?_
  refine (keepsSolvent_update fun _ => Int.sub_nonneg_of_le (Int.not_lt.mp enough)).bind fun _ _ => ?_
  refine Affords.bind affords_touch fun target rich => keepsSolvent_update fun same => ?_
  exact Int.add_nonneg (rich same) (Int.not_lt.mp positive)

theorem keepsSolvent_deploy (sender address : Address) (code : Bytes) :
    (deploy w sender address code : LedgerM V E B Unit).KeepsSolvent here := by
  refine Affords.bind affords_touch fun a enough => affords_ite (fun _ => affords_throw _) fun _ => ?_
  refine (keepsSolvent_update (a := { a with code }) enough).bind fun _ _ => ?_
  exact Affords.bind affords_touch fun s enough => keepsSolvent_update enough

theorem keepsSolvent_prepare (tx : Transaction) : (prepare w tx : LedgerM V E B Unit).KeepsSolvent here := by
  have paid : (do
      if tx.amount != 0 then transfer w tx.sender tx.receiver tx.amount : LedgerM V E B Unit).KeepsSolvent here :=
    affords_ite (fun _ => keepsSolvent_transfer _ _ _) fun _ => affords_pure trivial
  exact affords_ite (fun _ => (keepsSolvent_deploy _ _ _).bind fun _ _ => paid) fun _ => paid

theorem keepsSolvent_load (key : Bytes) : (load w address key : LedgerM V E B Value).KeepsSolvent here := by
  refine Affords.bind affords_working fun k _ => affords_ite (fun _ => ?_) fun _ => ?_
  · split
    · exact affords_pure trivial
    · refine Affords.bind affords_ledger fun l _ => ?_
      split
      · exact affords_onHeap fun _ _ _ _ => trivial
      · exact affords_pure trivial
  · exact Affords.bind affords_touch fun _ _ => affords_pure trivial

theorem keepsSolvent_store (key : Bytes) (v : Value) : (store w address key v : LedgerM V E B Unit).KeepsSolvent here := by
  refine Affords.bind affords_working fun k _ => affords_ite (fun _ => affords_throw _) fun _ => ?_
  refine Affords.bind affords_touch fun a enough => keepsSolvent_update fun same => ?_
  obtain ⟨address, balance⟩ := Account.setSlot_keeps a key v
  rw [balance]
  exact enough (address.symm.trans same)

theorem keepsSolvent_code : (code w address : LedgerM V E B Bytes).KeepsSolvent here := by
  refine Affords.bind affords_working fun k _ => ?_
  split
  · exact affords_pure trivial
  · refine Affords.bind affords_ledger fun l _ => ?_
    split <;> exact affords_pure trivial

theorem keepsSolvent_balance : (balance w address : LedgerM V E B Int).KeepsSolvent here := by
  refine Affords.bind affords_working fun k _ => affords_ite (fun _ => ?_) fun _ => ?_
  · exact Affords.bind affords_ledger fun l _ => affords_pure trivial
  · exact Affords.bind affords_touch fun _ _ => affords_pure trivial

/-! ## Transactions -/

theorem keepsSolvent_commit : (commit w : LedgerM V E B Nat).KeepsSolvent here := by
  intro s r t solvent h
  refine ⟨?_, fun _ _ => trivial⟩
  cases commit_outcome h with
  | unbalanced | crashed => exact solvent
  | refused => exact solvent.of_eq rfl rfl
  | done => exact ⟨solvent.accounts.putAll (solvent.copies w), solvent.copies⟩

theorem keepsSolvent_release : (release w : LedgerM V E B Unit).KeepsSolvent here := by
  intro s r t solvent h
  obtain ⟨sched, locks, same⟩ := exec_release w s
  cases same.symm.trans h
  refine ⟨SolventAt.modifyWorking ?_ fun k => id, fun _ _ => trivial⟩
  exact solvent.of_eq rfl rfl

/-- Only an address that has no account yet is credited. -/
theorem solventAt_genesis {balances : List (Address × Int)} {s t : LedgerState V E B} {r : Except LedgerFault Unit}
    (h : exec (genesis balances) s = (r, t)) (solvent : s.ledger.SolventAt here)
    (enough : s.ledger.account? here = none → ∀ n, (here, n) ∈ balances → 0 ≤ n) : t.ledger.SolventAt here := by
  obtain ⟨-, store, -, same⟩ := genesis_spec h
  have funded : FundedAt here (freshAccounts s.ledger balances) := by
    rintro a mem rfl
    obtain ⟨⟨address, n⟩, fresh, rfl⟩ := List.mem_map.mp mem
    obtain ⟨among, none⟩ := List.mem_filter.mp fresh
    exact enough (Option.isNone_iff_eq_none.mp none) n (List.mem_mergeSort.mp among)
  rw [same]
  exact ⟨solvent.accounts.append funded, solvent.copies⟩

end

end LedgerM

namespace LedgerOp

/-- Initial balances are credited. -/
def isCredit : LedgerOp α → Bool
  | genesis _ => true
  | _ => false

open LedgerM in
/-- Whatever is done with a ledger that is solvent at an address, it stays so, initial balances apart. -/
theorem keepsSolvent {here : Address} {op : LedgerOp α} (other : op.isCredit = false) :
    (op.run : LedgerM V E B α).KeepsSolvent here := by
  cases op with
  | newWorking tx isView =>
    intro s r t solvent h
    cases h
    exact ⟨solvent.push tx isView, fun _ _ => trivial⟩
  | working w => exact affords_working.keeps
  | lockNeeded w address => exact keepsSolvent_lockNeeded
  | hold w address lock? => exact keepsSolvent_hold lock?
  | prepare w tx => exact keepsSolvent_prepare tx
  | load w address key => exact keepsSolvent_load key
  | store w address key v => exact keepsSolvent_store key v
  | code w address => exact keepsSolvent_code
  | balance w address => exact keepsSolvent_balance
  | transfer w sender receiver amount => exact keepsSolvent_transfer sender receiver amount
  | emit w e =>
    refine Affords.bind affords_working fun k _ => affords_ite (fun _ => affords_throw _) fun _ => ?_
    exact keepsSolvent_modifyWorking fun k => id
  | fail w f => exact keepsSolvent_modifyWorking fun k => id
  | setValidating w on =>
    refine Affords.bind affords_working fun k _ => ?_
    exact Affords.bind (keepsSolvent_modifyWorking fun k => id) fun _ _ => affords_pure trivial
  | commit w => exact keepsSolvent_commit
  | release w => exact keepsSolvent_release
  | noteRollback tx reason =>
    intro s r t solvent h
    cases h
    exact ⟨solvent, fun _ _ => trivial⟩
  | genesis balances => cases other

end LedgerOp

end LedgerScript
