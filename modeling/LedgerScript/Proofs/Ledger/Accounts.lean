import LedgerScript.Ledger.Script
import Mathlib.Algebra.BigOperators.Group.List.Basic
import Mathlib.Tactic.Ring

/-!
# Lists of accounts

Committed accounts and the copies of a working set are lists with at most one account for each address.  Putting an
account into such a list replaces the account at its address, so what is at other addresses stays, and a sum over the
list changes by the difference between the new account and the old one.
-/

namespace LedgerScript

variable {accounts written : List Account} {address : Address} {x : Account}

def accountAt (accounts : List Account) (address : Address) : Option Account :=
  accounts.find? (·.address == address)

def Distinct (accounts : List Account) : Prop :=
  (accounts.map (·.address)).Nodup

theorem accountAt_address (h : accountAt accounts address = some x) : x.address = address := by
  simpa using List.find?_some h

theorem mem_of_accountAt (h : accountAt accounts address = some x) : x ∈ accounts :=
  List.mem_of_find?_eq_some h

theorem accountAt_eq_none : accountAt accounts address = none ↔ address ∉ accounts.map (·.address) := by
  simp [accountAt]

theorem accountAt_of_mem (distinct : Distinct accounts) (hx : x ∈ accounts) : accountAt accounts x.address = some x := by
  induction accounts with
  | nil => cases hx
  | cons y rest ih =>
    have hy : y.address ∉ rest.map (·.address) := (List.nodup_cons.mp distinct).1
    rcases List.mem_cons.mp hx with rfl | hx
    · simp [accountAt]
    · have hne : y.address ≠ x.address := fun e => hy (e ▸ List.mem_map_of_mem hx)
      simpa [accountAt, hne] using ih (List.nodup_cons.mp distinct).2 hx

theorem accountAt_append (accounts : List Account) (x : Account) (address : Address) :
    accountAt (accounts ++ [x]) address =
      (accountAt accounts address).or (if x.address = address then some x else none) := by
  simp [accountAt, List.find?_append, List.find?_cons]
  split <;> simp_all

/-! ## Putting one account -/

theorem putAccount_new (new : x.address ∉ accounts.map (·.address)) : Ledger.putAccount accounts x = accounts ++ [x] := by
  have none : accounts.any (·.address == x.address) = false := by
    rw [List.any_eq_false]
    intro y hy e
    exact new (by simpa using ⟨y, hy, by simpa using e⟩)
  simp [Ledger.putAccount, none]

theorem putAccount_old (old : x.address ∈ accounts.map (·.address)) :
    Ledger.putAccount accounts x = accounts.map fun b => if b.address == x.address then x else b := by
  obtain ⟨y, hy, e⟩ := List.mem_map.mp old
  have some : accounts.any (·.address == x.address) = true := by
    rw [List.any_eq_true]
    exact ⟨y, hy, by simpa using e⟩
  simp [Ledger.putAccount, some]

theorem replaced_address (x b : Account) : (if b.address == x.address then x else b).address = b.address := by
  split
  · next e => exact (eq_of_beq e).symm
  · rfl

theorem accountAt_putAccount (accounts : List Account) (x : Account) (address : Address) :
    accountAt (Ledger.putAccount accounts x) address =
      if x.address = address then some x else accountAt accounts address := by
  by_cases h : x.address ∈ accounts.map (·.address)
  · rw [putAccount_old h, accountAt, List.find?_map]
    have same : ((·.address == address) ∘ fun b : Account => if b.address == x.address then x else b) =
        (·.address == address) := by
      funext b
      simp only [Function.comp, replaced_address]
    rw [same]
    change Option.map _ (accountAt accounts address) = if x.address = address then some x else accountAt accounts address
    cases hy : accountAt accounts address with
    | none =>
      have hne : x.address ≠ address := fun e => accountAt_eq_none.mp hy (e ▸ h)
      simp [hne]
    | some y =>
      have hya := accountAt_address hy
      by_cases e : x.address = address
      · simp [hya, e]
      · simp [hya, e, Ne.symm e]
  · rw [putAccount_new h, accountAt_append]
    by_cases e : x.address = address
    · simp [e, accountAt_eq_none.mpr (e ▸ h)]
    · simp [e]

theorem map_address_putAccount (accounts : List Account) (x : Account) :
    (Ledger.putAccount accounts x).map (·.address) =
      if x.address ∈ accounts.map (·.address) then accounts.map (·.address)
      else accounts.map (·.address) ++ [x.address] := by
  split
  · next h => simp only [putAccount_old h, List.map_map, Function.comp_def, replaced_address]
  · next h => rw [putAccount_new h, List.map_append]; rfl

theorem mem_putAccount {a : Account} (mem : a ∈ Ledger.putAccount accounts x) : a ∈ accounts ∨ a = x := by
  unfold Ledger.putAccount at mem
  split at mem
  · obtain ⟨b, hb, rfl⟩ := List.mem_map.mp mem
    split
    · exact .inr rfl
    · exact .inl hb
  · exact (List.mem_append.mp mem).imp_right List.mem_singleton.mp

theorem Distinct.putAccount (distinct : Distinct accounts) (x : Account) : Distinct (Ledger.putAccount accounts x) := by
  rw [Distinct, map_address_putAccount]
  split
  · exact distinct
  · next h =>
    refine List.nodup_append.mpr ⟨distinct, by simp, ?_⟩
    intro a ha b hb e
    rw [List.mem_singleton.mp hb] at e
    exact h (e ▸ ha)

/-- A sum over the accounts changes by the difference at the address. -/
theorem sum_putAccount (distinct : Distinct accounts) (x : Account) (g : Account → Int) :
    ((Ledger.putAccount accounts x).map g).sum =
      (accounts.map g).sum + g x - ((accountAt accounts x.address).map g).getD 0 := by
  induction accounts with
  | nil => simp [Ledger.putAccount, accountAt]
  | cons y rest ih =>
    have new : y.address ∉ rest.map (·.address) := (List.nodup_cons.mp distinct).1
    by_cases e : y.address = x.address
    · have others : rest.map (fun b => if b.address == x.address then x else b) = rest := by
        conv_rhs => rw [← List.map_id rest]
        refine List.map_congr_left fun b hb => ?_
        have hne : b.address ≠ x.address := fun eb => new (List.mem_map.mpr ⟨b, hb, eb.trans e.symm⟩)
        simp [hne]
      rw [putAccount_old (by simp [e]), List.map_cons, others]
      simp [accountAt, e]
      ring
    · have step : Ledger.putAccount (y :: rest) x = y :: Ledger.putAccount rest x := by
        by_cases h : x.address ∈ rest.map (·.address)
        · rw [putAccount_old h, putAccount_old (List.mem_cons_of_mem _ h)]
          simp [e]
        · rw [putAccount_new h, putAccount_new (by simpa [Ne.symm e] using h)]
          rfl
      have same : accountAt (y :: rest) x.address = accountAt rest x.address := by simp [accountAt, e]
      rw [step, same, List.map_cons, List.sum_cons, ih (List.nodup_cons.mp distinct).2, List.map_cons, List.sum_cons]
      ring

/-! ## Putting many accounts -/

/-- The accounts of a list replace those at their addresses. -/
def putAll (accounts written : List Account) : List Account :=
  written.foldl Ledger.putAccount accounts

theorem mem_putAll {a : Account} (mem : a ∈ putAll accounts written) : a ∈ accounts ∨ a ∈ written := by
  induction written generalizing accounts with
  | nil => exact .inl mem
  | cons x rest ih =>
    rcases ih mem with mem | mem
    · rcases mem_putAccount mem with mem | rfl
      · exact .inl mem
      · exact .inr List.mem_cons_self
    · exact .inr (List.mem_cons_of_mem x mem)

theorem Distinct.putAll {accounts : List Account} (distinct : Distinct accounts) (written : List Account) :
    Distinct (putAll accounts written) := by
  induction written generalizing accounts with
  | nil => exact distinct
  | cons x rest ih => exact ih (distinct.putAccount x)

/-- What is written stands at its addresses, and everything else stays. -/
theorem accountAt_putAll (distinct : Distinct written) (accounts : List Account) (address : Address) :
    accountAt (putAll accounts written) address = (accountAt written address).or (accountAt accounts address) := by
  induction written generalizing accounts with
  | nil => simp [putAll, accountAt]
  | cons x rest ih =>
    have new : x.address ∉ rest.map (·.address) := (List.nodup_cons.mp distinct).1
    change accountAt (LedgerScript.putAll (Ledger.putAccount accounts x) rest) address = _
    rw [ih (List.nodup_cons.mp distinct).2, accountAt_putAccount]
    by_cases e : x.address = address
    · have none : accountAt rest address = none := accountAt_eq_none.mpr (e ▸ new)
      rw [none, if_pos e]
      simp [accountAt, e]
    · simp [accountAt, e]

theorem accountAt_putAll_isSome (written : List Account)
    (there : (accountAt accounts address).isSome) : (accountAt (putAll accounts written) address).isSome := by
  induction written generalizing accounts with
  | nil => exact there
  | cons x rest ih =>
    refine ih ?_
    rw [accountAt_putAccount]
    split
    · rfl
    · exact there

/-- The sum of balances grows by what is written less what it replaces. -/
theorem sum_putAll (unique : Distinct written) (distinct : Distinct accounts) :
    ((putAll accounts written).map (·.balance)).sum =
      (accounts.map (·.balance)).sum + (written.map (·.balance)).sum -
        (written.map fun x => ((accountAt accounts x.address).map (·.balance)).getD 0).sum := by
  induction written generalizing accounts with
  | nil => simp [putAll]
  | cons x rest ih =>
    have new : x.address ∉ rest.map (·.address) := (List.nodup_cons.mp unique).1
    -- The first one is not written again, so the others replace what they would have replaced before.
    have later : (rest.map fun y => ((accountAt (Ledger.putAccount accounts x) y.address).map (·.balance)).getD 0) =
        rest.map fun y => ((accountAt accounts y.address).map (·.balance)).getD 0 := by
      refine List.map_congr_left fun y hy => ?_
      have hne : x.address ≠ y.address := fun e => new (List.mem_map.mpr ⟨y, hy, e.symm⟩)
      rw [accountAt_putAccount, if_neg hne]
    change ((LedgerScript.putAll (Ledger.putAccount accounts x) rest).map (·.balance)).sum = _
    rw [ih (List.nodup_cons.mp unique).2 (distinct.putAccount x), later, sum_putAccount distinct]
    simp only [List.map_cons, List.sum_cons]
    ring

end LedgerScript
