import LedgerScript.Eval.Activation
import LedgerScript.Proofs.Ledger.Growth
import LedgerScript.Proofs.Schedule.Shared

/-!
# What programs do to committed state

Whatever the tasks of a program do to the state that they share are moves.  Only two of them concern the accounts and
the blocks: a transaction is committed, or accounts are credited.  A transaction that the store refuses leaves all
accounts and transactions as they were, and gives the open block a new hash.

This is about the values that accounts and transactions hold.  When such a value is a container, it is a reference, and
what the container has inside can be changed by any move on the heap.  So a chain verifies as it did before only if the
arguments of its transactions have the stored forms that they had before.
-/

namespace LedgerScript

open LedgerM (enteringTx freshAccounts)

/-- Every activation does nothing but moves. -/
theorem Eval.host_abides : Eval.host.Abides RunState.Moves :=
  fun _ w => Deed.lawful _ w

namespace RunState

variable {s t u : RunState}

/-- The accounts and the blocks have the values that they had, up to the hash of the open block. -/
structure Still (s t : RunState) : Prop where
  accounts : t.ledger.accounts = s.ledger.accounts
  chain : ∃ hash, t.ledger.chain = { s.ledger.chain with head := { s.ledger.chain.head with hash } }

/-- A transaction is committed, or accounts are credited. -/
inductive Turnover (s t : RunState) : Prop where
  | committed (w : WorkingId) {b : ChainBlock} {isSealed : Bool}
    (appended : s.ledger.chain.append s.heap (enteringTx s.ledger w) = .ok (t.ledger.chain, b, isSealed))
    (accounts : t.ledger.accounts = putAll s.ledger.accounts (s.ledger.working w).accounts)
  | credited {fresh : List Account} (some : fresh ≠ []) (accounts : t.ledger.accounts = s.ledger.accounts ++ fresh)
    (chain : t.ledger.chain = s.ledger.chain)

theorem still_of_eq (accounts : t.ledger.accounts = s.ledger.accounts) (chain : t.ledger.chain = s.ledger.chain) :
    s.Still t :=
  ⟨accounts, s.ledger.chain.head.hash, chain⟩

theorem Still.trans (first : s.Still t) (second : t.Still u) : s.Still u := by
  obtain ⟨hash, chain⟩ := first.chain
  obtain ⟨hash', chain'⟩ := second.chain
  refine ⟨second.accounts.trans first.accounts, hash', ?_⟩
  rw [chain', chain]

/-- Operations of the ledger that are neither commits nor credits leave accounts and chain alone. -/
theorem still_of_indecisive {V E B α : Type} {op : LedgerOp α} (indecisive : op.isDecisive = false)
    (s : LedgerState V E B) : (LedgerM.exec op.run s).2.ledger.accounts = s.ledger.accounts ∧
      (LedgerM.exec op.run s).2.ledger.chain = s.ledger.chain := by
  have lenient : LedgerM.Lenient fun s t : LedgerState V E B =>
      t.ledger.accounts = s.ledger.accounts ∧ t.ledger.chain = s.ledger.chain := by
    refine ⟨⟨fun s => ⟨rfl, rfl⟩, fun first second => ?_⟩, fun _ => ⟨rfl, rfl⟩, fun s heap => ⟨rfl, rfl⟩, fun _ => .intro⟩
    exact ⟨second.1.trans first.1, second.2.trans first.2⟩
  exact op.within lenient indecisive s

/-- A commit either succeeds or leaves accounts and transactions as they were. -/
theorem still_or_committed {w : WorkingId} {sched sched' : Scheduler Value Fault Request} {r : Except LedgerFault Nat}
    (done : LedgerM.exec (LedgerM.commit w) ⟨sched, s.heap, s.ledger⟩ = (r, ⟨sched', t.heap, t.ledger⟩)) :
    s.Still t ∨ s.Turnover t := by
  have outcome := LedgerM.commit_outcome done
  generalize after : (⟨sched', t.heap, t.ledger⟩ : LedgerState Value Fault Request) = t' at outcome
  have ledger : t.ledger = t'.ledger := by rw [← after]
  cases outcome with
  | unbalanced differ => exact .inl (still_of_eq (by rw [ledger]) (by rw [ledger]))
  | crashed c appended => exact .inl (still_of_eq (by rw [ledger]) (by rw [ledger]))
  | refused f sched appended partly back =>
    obtain ⟨hash, same⟩ := LedgerM.takenBack_spec s.heap s.ledger.chain
    exact .inl ⟨by rw [ledger]; rfl, hash, by rw [ledger]; exact same⟩
  | done sched balanced appended grows all =>
    exact .inr (.committed w (by rw [ledger]; exact appended) (by rw [ledger]))

theorem Move.still_or_turnover (move : s.Move t) : s.Still t ∨ s.Turnover t := by
  cases move with
  | @ledger α op sched sched' heap ledger r done =>
    cases decisive : op.isDecisive with
    | false =>
      have same := still_of_indecisive decisive (⟨sched, s.heap, s.ledger⟩ : LedgerState Value Fault Request)
      rw [show LedgerM.exec op.run _ = _ from done] at same
      exact .inl (still_of_eq same.1 same.2)
    | true =>
      cases op with
      | commit w => exact still_or_committed done
      | genesis balances =>
        obtain ⟨-, store, -, credited⟩ := LedgerM.genesis_spec done
        have credited : ledger = _ := credited
        by_cases none : freshAccounts s.ledger balances = []
        · exact .inl (still_of_eq (by rw [credited]; simp [none]) (by rw [credited]))
        · exact .inr (.credited none (by rw [credited]) (by rw [credited]))
      | _ => cases decisive
  | _ => exact .inl (still_of_eq rfl rfl)

/-- As long as nothing is committed or credited the accounts and blocks stay as they are. -/
theorem Moves.still_or_turnover (moves : s.Moves t) :
    s.Still t ∨ ∃ u v, s.Moves u ∧ s.Still u ∧ u.Turnover v ∧ v.Moves t := by
  induction moves with
  | refl => exact .inl (still_of_eq rfl rfl)
  | @tail t t' first move ih =>
    rcases ih with still | ⟨u, v, before, still, turnover, after⟩
    · rcases move.still_or_turnover with still' | turnover
      · exact .inl (still.trans still')
      · exact .inr ⟨t, t', first, still, turnover, .refl⟩
    · exact .inr ⟨u, v, before, still, turnover, .tail after move⟩

end RunState

end LedgerScript
