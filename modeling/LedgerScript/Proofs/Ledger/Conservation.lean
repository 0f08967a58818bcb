import LedgerScript.Proofs.Ledger.Isolation
import LedgerScript.Proofs.Ledger.Program

/-!
# Native value is conserved

The copies of a working set have together as much value as the committed accounts that they stand for.  Transfers
keep the sum of the copies, and since the working set holds their addresses, nobody else changes the committed side.
Only balances that come from outside can break the equation, by making an account that a working set has a copy of.

So as long as nothing is credited a commit never finds that value was lost or made, and the sum of all balances stays
what it was.
-/

namespace LedgerScript

variable {V E B : Type}

namespace Ledger

variable {l l' : Ledger} {w : WorkingId}

/-- The copies have together as much value as what they stand for. -/
def Balanced (l : Ledger) (w : WorkingId) : Prop :=
  LedgerM.balancesBefore l w = LedgerM.balancesAfter l w

theorem balance_eq (l : Ledger) (address : Address) :
    l.balance address = ((accountAt l.accounts address).map (·.balance)).getD 0 := by
  unfold balance account? accountAt
  cases l.accounts.find? (·.address == address) <;> rfl

/-- The copies change, and both sums change alike. -/
theorem Balanced.modify (h : Balanced l w) (hw : w < l.workings.size) {f : Working → Working} {d : Int}
    (before : ((f (l.working w)).accounts.map fun a => l.balance a.address).sum = LedgerM.balancesBefore l w + d)
    (after : ((f (l.working w)).accounts.map (·.balance)).sum = LedgerM.balancesAfter l w + d) :
    Balanced (l.modifyWorking w f) w := by
  unfold Balanced LedgerM.balancesBefore LedgerM.balancesAfter
  rw [working_modifyWorking hw]
  change ((f (l.working w)).accounts.map fun a => l.balance a.address).sum = _
  rw [before, after, h]

/-- Putting a copy back changes the committed side by nothing. -/
theorem sum_balances_put {copies : List Account} (unique : Distinct copies) {x y : Account}
    (old : accountAt copies y.address = some x) :
    ((putAccount copies y).map fun a => l.balance a.address).sum = (copies.map fun a => l.balance a.address).sum := by
  rw [sum_putAccount unique, old]
  have same : x.address = y.address := accountAt_address old
  simp [same]

theorem Change.balanced (step : Change w l l') (hw : w < l.workings.size)
    (unique : Distinct (l.working w).accounts) (h : Balanced l w) : Balanced l' w := by
  cases step with
  | lock locks => exact h
  | @hold address locked free =>
    exact Balanced.modify (l := { l with holders := (address, w) :: l.holders }) (d := 0) h hw
      (Int.add_zero _).symm (Int.add_zero _).symm
  | copy x new mine cloned =>
    obtain ⟨storage, hx⟩ := cloned
    have same : x.balance = l.balance x.address := by
      have hb := congrArg Account.balance hx
      rw [hb, balance_eq]
      change _ = ((l.account? x.address).map (·.balance)).getD 0
      cases l.account? x.address <;> rfl
    refine h.modify hw (d := x.balance) ?_ ?_
    · simp [LedgerM.balancesBefore, same]
    · simp [LedgerM.balancesAfter]
  | @update x y old balance =>
    refine h.modify hw (d := 0) ?_ ?_
    · exact (sum_balances_put unique old).trans (Int.add_zero _).symm
    · change ((putAccount (l.working w).accounts y).map (·.balance)).sum = _
      rw [sum_putAccount unique, show accountAt _ _ = some x from old, LedgerM.balancesAfter]
      simp [balance]
  | move source target amount atSource atTarget =>
    have unique' := unique.putAccount { source with balance := source.balance - amount }
    refine h.modify hw (d := 0) ?_ ?_
    · have first := sum_balances_put (l := l) unique (y := { source with balance := source.balance - amount }) atSource
      have second := sum_balances_put (l := l) unique' (y := { target with balance := target.balance + amount }) atTarget
      exact second.trans (first.trans (Int.add_zero _).symm)
    · have first := sum_putAccount unique { source with balance := source.balance - amount } (·.balance)
      have second := sum_putAccount unique' { target with balance := target.balance + amount } (·.balance)
      rw [show accountAt _ _ = some source from atSource] at first
      rw [show accountAt _ _ = some target from atTarget] at second
      simp only [Option.map_some, Option.getD_some] at first second
      change ((putAccount _ _).map (·.balance)).sum = ((l.working w).accounts.map (·.balance)).sum + 0
      rw [second, first]
      ring
  | mark f keeps =>
    have same := (keeps (l.working w)).1
    refine h.modify hw (d := 0) ?_ ?_
    · rw [same]
      exact (Int.add_zero _).symm
    · rw [same]
      exact (Int.add_zero _).symm

theorem Changes.balanced {active : List WorkingId} (steps : Changes w l l')
    (apart : Isolated l active) (hw : w ∈ active) (h : Balanced l w) : Balanced l' w := by
  induction steps with
  | refl => exact h
  | tail steps step ih =>
    have apart' := apart.changes hw steps
    exact step.balanced (apart'.bound w hw) (apart'.copies_distinct w hw) ih

/-- Only the copies and the committed accounts at their addresses count. -/
theorem Balanced.congr (h : Balanced l w) (copies : (l'.working w).accounts = (l.working w).accounts)
    (committed : ∀ x ∈ (l.working w).accounts, l'.account? x.address = l.account? x.address) : Balanced l' w := by
  have same : (l.working w).accounts.map (fun a => l'.balance a.address) =
      (l.working w).accounts.map fun a => l.balance a.address := by
    refine List.map_congr_left fun x hx => ?_
    rw [balance, committed x hx]
    rfl
  unfold Balanced LedgerM.balancesBefore LedgerM.balancesAfter
  rw [copies, same]
  exact h

end Ledger

namespace Session

open Ledger (Balanced)

section

variable {active active' : List WorkingId} {l l' : Ledger} {events : List Event}

/-- A working set stays balanced, whoever takes a step, unless balances are credited. -/
theorem Effect.balanced (h : Effect active l events active' l') (apart : Isolated l active) {w : WorkingId}
    (hw : w ∈ active) (free : ∀ e ∈ events, e.isCredit = false) (balanced : Balanced l w) : Balanced l' w := by
  -- If somebody else takes the step, what the working set holds stays.
  have others (copies : (l'.working w).accounts = (l.working w).accounts)
      (spares : ∀ e ∈ events, ∀ a, e.Spares w a) : Balanced l' w :=
    balanced.congr copies fun x hx =>
      h.account_eq apart (apart.copies_held w hw x hx) fun e he => spares e he x.address
  cases h with
  | started tx isView => exact others (by rw [Isolated.working_push (apart.bound w hw)]) nofun
  | @worked v mine _ changes =>
    by_cases e : w = v
    · subst e
      exact changes.balanced apart mine balanced
    · exact others (by rw [changes.beside.others w e]) nofun
  | @committed v mine chain store _ txs =>
    by_cases e : v = w
    · subst e
      have unique := apart.copies_distinct v mine
      -- Afterwards the copies are what is committed.
      refine congrArg List.sum (List.map_congr_left fun x hx => ?_)
      rw [Ledger.balance_eq, accountAt_putAll unique, accountAt_of_mem unique hx]
      rfl
    · refine others rfl fun ev hev a => ?_
      rw [List.mem_singleton.mp hev]
      exact e
  | refused mine undone store txs =>
    refine others rfl fun ev hev a => ?_
    rw [List.mem_singleton.mp hev]
    trivial
  | @released v mine locks =>
    refine others ?_ nofun
    by_cases e : v = w
    · subst e
      have hw' : v < ({ l with holders := l.holders.filter (·.2 != v), locks } : Ledger).workings.size := apart.bound v hw
      rw [Ledger.working_modifyWorking hw']
      rfl
    · rw [Ledger.working_modifyWorking_ne e]
      rfl
  | credited keys store => exact absurd (free _ (List.mem_singleton_self _)) nofun
  | other isClosed made store => exact others rfl nofun

theorem Effect.total_eq (h : Effect active l events active' l') (apart : Isolated l active)
    (free : ∀ e ∈ events, e.isCredit = false) : l'.total = l.total := by
  cases h with
  | worked mine changes => rw [Ledger.total, changes.beside.accounts]; rfl
  | @committed w mine chain store balanced txs =>
    change ((putAll l.accounts (l.working w).accounts).map (·.balance)).sum = l.total
    have replaced : ((l.working w).accounts.map fun x => ((accountAt l.accounts x.address).map (·.balance)).getD 0) =
        (l.working w).accounts.map fun x => l.balance x.address :=
      List.map_congr_left fun x _ => (l.balance_eq x.address).symm
    rw [sum_putAll (apart.copies_distinct w mine) apart.distinct, replaced]
    have same : ((l.working w).accounts.map fun x => l.balance x.address).sum =
        ((l.working w).accounts.map (·.balance)).sum := balanced
    rw [same, Ledger.total]
    ring
  | credited keys store => exact absurd (free _ (List.mem_singleton_self _)) nofun
  | started | refused | released | other => rfl

end

section

variable {c : Conduct} {s t : Session V E B} {events : List Event}

theorem Run.total_eq (run : Run c s events t) (apart : Apart s) (free : ∀ e ∈ events, e.isCredit = false) :
    t.state.ledger.total = s.state.ledger.total := by
  induction run with
  | refl => rfl
  | tail run step ih =>
    have later := (step.effect (run.apart apart)).total_eq (run.apart apart)
      fun e he => free e (List.mem_append_right _ he)
    exact later.trans (ih fun e he => free e (List.mem_append_left _ he))

theorem Run.balanced (run : Run c s events t) (apart : Apart s) {w : WorkingId} (old : w ∈ s.active) (hw : w ∈ t.active)
    (free : ∀ e ∈ events, e.isCredit = false) (balanced : Balanced s.state.ledger w) : Balanced t.state.ledger w := by
  induction run with
  | refl => exact balanced
  | tail run step ih =>
    have apart' := run.apart apart
    have effect := step.effect apart'
    have hw' := effect.active_of_active (Nat.lt_of_lt_of_le (apart.bound w old) (run.size_le apart)) hw
    exact effect.balanced apart' hw' (fun e he => free e (List.mem_append_right _ he))
      (ih hw' fun e he => free e (List.mem_append_left _ he))

/-- A balanced working set passes the check of its commit. -/
theorem commit_ne_conservation {s u : LedgerState V E B} {w : WorkingId} (balanced : Balanced s.ledger w)
    {r : Except LedgerFault Nat} (h : LedgerM.exec (LedgerM.commit w) s = (r, u)) (before after : Int) :
    r ≠ .error (.conservation before after) := by
  cases LedgerM.commit_outcome h with
  | unbalanced differ => exact absurd balanced differ
  | crashed | refused | done => exact nofun

end

end Session

/-! ## Conservation -/

open LedgerScriptM Session in
/-- From every state that a run of the ledger reaches:
* whatever transactions do from there on, interleaved in any way, the sum of all balances stays the same as long as
  nothing is credited;
* a working set that is opened there and committed later passes the check of balances, if nothing is credited
  meanwhile;
* a transaction with any contract, which may carry out further transactions, gives a receipt and leaves the sum as it
  is. -/
theorem native_value_conserved :
    (∀ {V E B : Type} {s₀ s : Session V E B} {events : List Event}, Opened s₀ → Run .any s₀ events s →
      (∀ more t, Run .any s more t → (∀ e ∈ more, e.isCredit = false) →
        t.state.ledger.total = s.state.ledger.total) ∧
      (∀ tx isView more t, Run .any (s.start tx isView) more t → (∀ e ∈ more, e.isCredit = false) →
        s.state.ledger.workings.size ∈ t.active →
        ∀ r u before after, LedgerM.exec (LedgerM.commit s.state.ledger.workings.size) t.state = (r, u) →
          r ≠ .error (.conservation before after))) ∧
    (∀ {s₀ : Session Unit Unit Unit} {s : LedgerScriptState} {active : List WorkingId} {events : List Event},
      Opened s₀ → Run .any s₀ events ⟨s.state, active⟩ →
      ∀ tx before after (contract : Option Contract), (∀ k, contract = some k → ∀ w, Program .any true w (k w)) →
        ∃ receipt t, exec (transact tx before after contract) s = (.ok receipt, t) ∧
          t.state.ledger.total = s.state.ledger.total) := by
  refine ⟨fun {V E B s₀ s events} opened run => ⟨?_, ?_⟩, ?_⟩
  · intro more t run' free
    exact run'.total_eq (run.apart opened.apart) free
  · intro tx isView more t run' free hw r u before after commit
    have apart : Apart (s.start tx isView) := (Step.start (c := .any) tx isView trivial).apart (run.apart opened.apart)
    have balanced : Ledger.Balanced (s.start tx isView).state.ledger s.state.ledger.workings.size := by
      simp [Ledger.Balanced, LedgerM.balancesBefore, LedgerM.balancesAfter, start, Ledger.working]
    exact commit_ne_conservation (run'.balanced apart List.mem_cons_self hw free balanced) commit before after
  · intro s₀ s active events opened run tx before after contract body
    rcases h : exec (transact tx before after contract) s with ⟨r, t⟩
    obtain ⟨more, run', free⟩ := freeRun_transact (fun k hk w => (body k hk w).conducted) h trivial
      (run.apart opened.apart)
    have total := run'.total_eq (run.apart opened.apart) free
    rcases transact_cases h with ⟨f, hf⟩ | ⟨receipt, u, -, rfl, -⟩
    · obtain ⟨sched, hs⟩ := exec_rollback tx f s
      cases hs.symm.trans hf
      exact ⟨_, _, rfl, total⟩
    · exact ⟨receipt, t, rfl, total⟩

open LedgerScriptM Session in
theorem native_value_conserved_script :
    ∃ receipt t, exec (transact default false false
        (some fun w => runBody w [("pay", .transfer [97] [98] 5 false), ("end", .finish .null)])) ⟨empty.state, []⟩ =
      (.ok receipt, t) ∧ t.state.ledger.total = 0 := by
  refine native_value_conserved.2 (s := ⟨empty.state, []⟩) opened_empty .refl default false false _ ?_
  intro k hk w
  cases hk
  exact program_runBody w _

end LedgerScript
