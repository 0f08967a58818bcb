import LedgerScript.Proofs.Eval.Committed
import LedgerScript.Proofs.Ledger.Solvency
import LedgerScript.Proofs.Value.Copies
import LedgerScript.Run.Basic

/-!
# Programs and balances below zero

A run begins with the balances of its settings, which have been checked.  After that only the operations of the ledger change
balances, and none of them makes a balance that is not below zero one that is.  But a program may credit what it likes to an
address that has no account yet, and nobody looks whether that is below zero.

So this is true of each address by itself: its balance is never below zero, or it had no account until a program credited it
with what is below zero.
-/

namespace LedgerScript

theorem ok_of_mapError {ε ε' α : Type} {f : ε → ε'} {x : Except ε α} {a : α} (mapped : x.mapError f = .ok a) : x = .ok a := by
  cases x with
  | error e => cases mapped
  | ok b =>
    cases mapped
    rfl

/-! ## Checked settings -/

theorem Settings.balanceOf_nonneg {entry : Bytes × Bytes} {b : Bytes × Int} (read : balanceOf entry = .ok b) : 0 ≤ b.2 := by
  unfold balanceOf at read
  split at read
  · split at read
    · cases read
    · next positive =>
      cases read
      exact Int.not_lt.mp positive
  · cases read

/-- Balances below zero are refused. -/
theorem Settings.genesis_nonneg {s : Settings} {balances : List (Bytes × Int)} (valid : s.genesis = .ok balances) :
    ∀ b ∈ balances, 0 ≤ b.2 := by
  have each := (mapM_eq_ok_iff.mp (show List.mapM balanceOf _ = .ok balances from valid)).flip.imp
    fun b entry (read : balanceOf entry = .ok b) => And.intro (balanceOf_nonneg read) read
  exact ((List.forall₂_and_left _ _).mp each).1

/-- No ledger that is read from the store has a balance below zero. -/
def Store.Solvent (store : Store) : Prop :=
  ∀ blockSize h l h', Ledger.load blockSize store h = .ok (l, h') → ∀ a ∈ l.accounts, 0 ≤ a.balance

theorem Run.solventAt_setup {p : LedgerScript.Program} {journal : List RunEvent} {s : LedgerState Value Fault Request}
    (funded : p.store.Solvent) (ready : setup p journal = .ok s) (address : Address) : s.ledger.SolventAt address := by
  unfold setup at ready
  obtain ⟨_, -, ready⟩ := of_bind_ok ready
  obtain ⟨deadline, -, ready⟩ := of_bind_ok ready
  obtain ⟨balances, valid, ready⟩ := of_bind_ok ready
  obtain ⟨⟨ledger, heap⟩, loaded, ready⟩ := of_bind_ok ready
  have valid : p.settings.genesis = .ok balances := ok_of_mapError valid
  have loaded : Ledger.load p.settings.ledger.blockSize p.store firstHeap = .ok (ledger, heap) := ok_of_mapError loaded
  have opened : ledger.SolventAt address := by
    obtain ⟨accounts, chain, same⟩ := Ledger.load_spec loaded
    refine ⟨fun a mem _ => funded _ _ _ _ loaded a mem, fun w => ?_⟩
    rw [same]
    exact nofun
  obtain ⟨_, -, ready⟩ := of_bind_ok ready
  cases ready
  exact LedgerM.solventAt_genesis rfl (opened.of_eq rfl rfl) fun _ n mem => Settings.genesis_nonneg valid _ mem

/-! ## Runs -/

namespace RunState

variable {s t : RunState} {address : Address}

/-- An address without an account is credited with what is below zero. -/
def Indebts (address : Address) (s t : RunState) : Prop :=
  s.ledger.account? address = none ∧ ∃ balances n, (address, n) ∈ balances ∧ n < 0 ∧ ∃ sched sched' r,
    LedgerM.exec (LedgerM.genesis balances) (⟨sched, s.heap, s.ledger⟩ : LedgerState Value Fault Request) =
      (r, ⟨sched', t.heap, t.ledger⟩)

theorem Move.solventAt_or (move : s.Move t) (solvent : s.ledger.SolventAt address) :
    t.ledger.SolventAt address ∨ s.Indebts address t := by
  cases move with
  | @ledger α op sched sched' heap ledger r done =>
    cases credit : op.isCredit with
    | false => exact .inl (op.keepsSolvent credit _ _ _ solvent done).1
    | true =>
      cases op with
      | genesis balances =>
        by_cases debt : s.ledger.account? address = none ∧ ∃ n, (address, n) ∈ balances ∧ n < 0
        · obtain ⟨new, n, mem, below⟩ := debt
          exact .inr ⟨new, balances, n, mem, below, sched, sched', r, done⟩
        · refine .inl (LedgerM.solventAt_genesis done solvent fun new n mem => Int.not_lt.mp fun below => ?_)
          exact debt ⟨new, n, mem, below⟩
      | _ => cases credit
  | newTransaction => exact .inl (solvent.of_eq rfl rfl)
  | _ => exact .inl solvent

theorem Move.account_isSome (move : s.Move t) (there : (s.ledger.account? address).isSome) :
    (t.ledger.account? address).isSome := by
  have there : (accountAt s.ledger.accounts address).isSome := there
  show (accountAt t.ledger.accounts address).isSome
  rcases move.still_or_turnover with still | ⟨w, -, accounts⟩ | ⟨-, accounts, -⟩
  · rw [still.accounts]
    exact there
  · rw [accounts]
    exact accountAt_putAll_isSome _ there
  · rw [accounts, accountAt, List.find?_append, Option.isSome_or]
    exact Bool.or_eq_true_iff.mpr (.inl there)

theorem Moves.account_isSome (moves : s.Moves t) (there : (s.ledger.account? address).isSome) :
    (t.ledger.account? address).isSome := by
  induction moves with
  | refl => exact there
  | tail _ move ih => exact move.account_isSome ih

/-- As long as it is not credited with what is below zero, an address stays solvent. -/
theorem Moves.solventAt_or (moves : s.Moves t) (solvent : s.ledger.SolventAt address) :
    t.ledger.SolventAt address ∨ ∃ u v, s.Moves u ∧ u.ledger.SolventAt address ∧ u.Indebts address v ∧ v.Moves t := by
  induction moves with
  | refl => exact .inl solvent
  | @tail t t' before move ih =>
    rcases ih with solvent' | ⟨u, v, first, rich, debt, after⟩
    · exact (move.solventAt_or solvent').imp_right fun debt => ⟨t, t', before, solvent', debt, .refl⟩
    · exact .inr ⟨u, v, first, rich, debt, .tail after move⟩

end RunState

/-- Nothing that is done makes a balance that is not below zero one that is, but for crediting an address that has no account.
So in every run of a program that begins with checked settings, on a store without balances below zero, at every stage: the
balance of an address is not below zero, or the address had no account at the beginning and was credited with what is below
zero. -/
theorem balances_not_negative (address : Address) :
    (∀ {s t : RunState}, s.Move t → s.ledger.SolventAt address → t.ledger.SolventAt address ∨ s.Indebts address t) ∧
    ∀ {p : LedgerScript.Program} {journal : List RunEvent} {s : LedgerState Value Fault Request} {files : FileSet}
      {items : List Stmt} {stage : Stage RunState Value Fault Request Answer}, p.store.Solvent →
      Run.setup p journal = .ok s →
      Stage.Reaches Eval.host (.between { world := Run.firstWorld p s files items }) stage →
        0 ≤ stage.own.ledger.balance address ∨ s.ledger.account? address = none ∧ ∃ u v,
          (Run.firstWorld p s files items).own.Moves u ∧ u.Indebts address v ∧ v.Moves stage.own := by
  refine ⟨fun move => move.solventAt_or, fun {p journal s files items stage} funded ready reaches => ?_⟩
  have start : Stage.Abides (A := Answer) RunState.Moves (.between { world := Run.firstWorld p s files items }) := by
    simp [Stage.Abides]
  have moves := (start.reaches (fun _ => .refl) Eval.host_abides .trans reaches).2
  rcases moves.solventAt_or (Run.solventAt_setup funded ready address) with solvent | ⟨u, v, before, -, debt, after⟩
  · exact .inl solvent.balance_nonneg
  · refine .inr ⟨Option.not_isSome_iff_eq_none.mp fun there => ?_, u, v, before, debt, after⟩
    have still := before.account_isSome there
    rw [debt.1] at still
    cases still

def savings : LedgerScript.Program where
  text := []
  settings := { ledger := { genesis := [(utf8 "main", utf8 "5")] } }
  readModule path := .error (.notFound path)

/-- The machine before the first turn of a program that has these savings. -/
def savingsMachine (items : List Stmt) (s : LedgerState Value Fault Request) :
    Machine RunState Value Fault Request Answer :=
  { world := Run.firstWorld savings s {} items }

theorem solvent_savings : savings.store.Solvent := by
  intro blockSize h l h' loaded
  simp only [savings, Ledger.load, Store.loadBlocks, Store.loadAccounts, List.mergeSort_nil] at loaded
  cases loaded
  exact List.forall_mem_nil _

/-- A program that does nothing has the savings when it has ended, and nobody is in debt. -/
theorem balances_not_negative_savings : savings.store.Solvent ∧ ∃ s, Run.setup savings [] = .ok s ∧
    ∃ m, (savingsMachine [] s).Turns Eval.host m ∧ m.world.own.ledger.balance (utf8 "main") = 5 ∧
      ∀ address, 0 ≤ m.world.own.ledger.balance address ∨ s.ledger.account? address = none ∧ ∃ u v,
        (savingsMachine [] s).world.own.Moves u ∧ u.Indebts address v ∧ v.Moves m.world.own := by
  have seen : ((Run.setup savings []).toOption.bind fun s => (savingsMachine [] s).after Eval.host 1).any fun m =>
      m.world.own.ledger.balance (utf8 "main") = 5 := by decide +kernel
  obtain ⟨m, ended, saved⟩ := (Option.any_eq_true _ _).mp seen
  obtain ⟨s, ready, later⟩ := Option.bind_eq_some_iff.mp ended
  have ready : Run.setup savings [] = .ok s := by
    cases made : Run.setup savings [] with
    | error e => rw [made] at ready; cases ready
    | ok u => rw [made] at ready; cases ready; rfl
  have turns := Machine.turns_of_after 1 (savingsMachine [] s) later
  exact ⟨solvent_savings, s, ready, m, turns, of_decide_eq_true saved, fun address =>
    (balances_not_negative address).2 solvent_savings ready turns.reaches⟩

/-- A program that credits an address with less than nothing. -/
def indebting : List Stmt :=
  [.expr {} (.call {} (.ident {} "genesis")
    [.map {} [⟨.literal {} [] (.string (utf8 "x")), .literal {} [] (.int (-5))⟩]] false)]

-- nobody refuses, and the address has a debt
example : ((Run.setup savings []).toOption.bind fun s => (savingsMachine indebting s).after Eval.host 1).any fun m =>
    m.world.own.ledger.balance (utf8 "x") = -5 := by decide +kernel

end LedgerScript
