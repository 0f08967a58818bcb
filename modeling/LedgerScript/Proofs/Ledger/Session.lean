import LedgerScript.Proofs.Ledger.Commit

/-!
# Runs of the ledger

Tasks take turns in using the ledger, and each of them works on working sets of its own.  What one turn can do to the
ledger is one of a few steps: a working set is opened, one operation works on it, it is committed or released, initial
balances are credited, or the ledger is closed.  In between anything may happen to the scheduler: tasks are suspended,
cancelled or woken, locks are taken over or given back.  A `Session` remembers which working sets are still in use,
and a `Run` is any sequence of steps, so it covers every way in which transactions can be interleaved and called off.

That transactions do not disturb one another is the invariant `Isolated`.  It speaks of the holders of addresses
only, and not of locks: whatever becomes of a lock, an address that has a holder gets no other one.
-/

namespace LedgerScript

variable {V E B : Type}

inductive Operation (w : WorkingId) : {α : Type} → LedgerM V E B α → Prop where
  | lockNeeded (address : Address) : Operation w (LedgerM.lockNeeded w address)
  | hold (address : Address) (lock? : Option ObjectId) : Operation w (LedgerM.hold w address lock?)
  | tryHold (address : Address) : Operation w (LedgerM.tryHold w address)
  | prepare (tx : Transaction) : Operation w (LedgerM.prepare w tx)
  | load (address : Address) (key : Bytes) : Operation w (LedgerM.load w address key)
  | store (address : Address) (key : Bytes) (v : Value) : Operation w (LedgerM.store w address key v)
  | code (address : Address) : Operation w (LedgerM.code w address)
  | balance (address : Address) : Operation w (LedgerM.balance w address)
  | transfer (sender receiver : Address) (amount : Int) : Operation w (LedgerM.transfer w sender receiver amount)
  | emit (e : LedgerEvent) : Operation w (LedgerM.emit w e)
  | fail (f : LedgerFault) : Operation w (LedgerM.fail w f)
  | setValidating (on : Bool) : Operation w (LedgerM.setValidating w on)
  | working : Operation w (LedgerM.working w)

theorem Operation.works {w : WorkingId} {α : Type} {x : LedgerM V E B α} (h : Operation w x) : LedgerM.Works w x := by
  cases h with
  | lockNeeded address => exact LedgerM.works_lockNeeded address
  | hold address lock? => exact LedgerM.works_hold address lock?
  | tryHold address => exact LedgerM.works_tryHold address
  | prepare tx => exact LedgerM.works_prepare tx
  | load address key => exact LedgerM.works_load address key
  | store address key v => exact LedgerM.works_store address key v
  | code address => exact LedgerM.works_code address
  | balance address => exact LedgerM.works_balance address
  | transfer sender receiver amount => exact LedgerM.works_transfer sender receiver amount
  | emit e => exact LedgerM.works_emit e
  | fail f => exact LedgerM.works_fail f
  | setValidating on => exact LedgerM.works_setValidating on
  | working => exact LedgerM.works_working w

/-! ## Steps -/

/-- The next transaction seals the open block. -/
def Chain.isLastFree (c : Chain) : Bool :=
  c.blockSize ≤ c.head.txs.length + 1

/-- If the next transaction cannot be stored, the store would take the open block back as it is. -/
def Ledger.takesBack (l : Ledger) : Bool :=
  l.store.takesBack l.chain.head l.chain.isLastFree

/-- The ledger and the working sets that are in use. -/
structure Session (V E B : Type) where
  state : LedgerState V E B
  active : List WorkingId

/-- What is known about those who use the ledger. -/
structure Conduct where
  /-- How the heap changes between the operations. -/
  heap : Heap → Heap → Prop
  heap_refl : ∀ h, heap h h
  /-- Which transactions are begun. -/
  admits : Heap → Transaction → Prop

/-- Nothing is known. -/
def Conduct.any : Conduct where
  heap _ _ := True
  heap_refl _ := trivial
  admits _ _ := True

namespace Session

/-- What can be seen of a step. -/
inductive Event where
  /-- A working set has been committed, and this is what it has written. -/
  | committed (w : WorkingId) (tx : Transaction) (written : List Account)
  /-- A commit has failed; the mark says whether the store has what it had before. -/
  | refused (w : WorkingId) (undone : Bool)
  /-- Accounts have been made outside any transaction. -/
  | credited (accounts : List Account)

/-- Balances have come from outside. -/
def Event.isCredit : Event → Bool
  | .committed _ _ _ => false
  | .refused _ _ => false
  | .credited _ => true

/-- The store was not left with a block that is not in the chain. -/
def Event.isUndone : Event → Bool
  | .refused _ undone => undone
  | .committed _ _ _ => true
  | .credited _ => true

/-- What can be seen of a commit that ends in this way. -/
def commitEvent (w : WorkingId) (s : LedgerState V E B) : Except LedgerFault Nat → Event
  | .ok _ => .committed w (LedgerM.enteringTx s.ledger w) (s.ledger.working w).accounts
  | .error (.persist _ _) => .refused w s.ledger.takesBack
  | .error _ => .refused w true

def start (s : Session V E B) (tx : Transaction) (isView : Bool) : Session V E B :=
  ⟨(LedgerM.exec (LedgerM.newWorking tx isView) s.state).2, s.state.ledger.workings.size :: s.active⟩

inductive Step (c : Conduct) : Session V E B → List Event → Session V E B → Prop where
  | start {s : Session V E B} (tx : Transaction) (isView : Bool) (admitted : c.admits s.state.heap tx) :
    Step c s [] (s.start tx isView)
  | use {s t : LedgerState V E B} {active : List WorkingId} {w : WorkingId} (mine : w ∈ active) {α : Type}
    {x : LedgerM V E B α} (op : Operation w x) {r : Except LedgerFault α} (h : LedgerM.exec x s = (r, t)) :
    Step c ⟨s, active⟩ [] ⟨t, active⟩
  | commit {s t : LedgerState V E B} {active : List WorkingId} {w : WorkingId} (mine : w ∈ active)
    {r : Except LedgerFault Nat} (h : LedgerM.exec (LedgerM.commit w) s = (r, t)) :
    Step c ⟨s, active⟩ [commitEvent w s r] ⟨t, active⟩
  | release {s t : LedgerState V E B} {active : List WorkingId} {w : WorkingId} (mine : w ∈ active)
    {r : Except LedgerFault Unit} (h : LedgerM.exec (LedgerM.release w) s = (r, t)) :
    Step c ⟨s, active⟩ [] ⟨t, active.erase w⟩
  | genesis {s t : LedgerState V E B} {active : List WorkingId} {balances : List (Address × Int)}
    (keys : (balances.map (·.1)).Nodup) {r : Except LedgerFault Unit}
    (h : LedgerM.exec (LedgerM.genesis balances) s = (r, t)) :
    Step c ⟨s, active⟩ [.credited (LedgerM.freshAccounts s.ledger balances)] ⟨t, active⟩
  | close {s t : LedgerState V E B} {active : List WorkingId} {r : Except LedgerFault Unit}
    (h : LedgerM.exec LedgerM.close s = (r, t)) :
    Step c ⟨s, active⟩ [] ⟨t, active⟩
  /-- Something else happens: to the scheduler, to the heap, to the number of transactions made, or to what the store
  refuses. -/
  | elsewhere {s : LedgerState V E B} {active : List WorkingId} (sched : Scheduler V E B) (heap : Heap) (made : Nat)
    (refusesBlocks refusesAccounts : Bool) (refuses : StoreWrite → Bool) (allowed : c.heap s.heap heap) :
    Step c ⟨s, active⟩ []
      ⟨⟨sched, heap, { s.ledger with
        made, store := { s.ledger.store with refusesBlocks, refusesAccounts, refuses } }⟩, active⟩

/-- Steps one after another, and what can be seen of them. -/
inductive Run (c : Conduct) (s : Session V E B) : List Event → Session V E B → Prop where
  | refl : Run c s [] s
  | tail {t u : Session V E B} {events more : List Event} (run : Run c s events t) (step : Step c t more u) :
    Run c s (events ++ more) u

/-- The scheduler may change at any time. -/
theorem Step.sched {c : Conduct} (s : LedgerState V E B) (active : List WorkingId) (sched : Scheduler V E B) :
    Step c ⟨s, active⟩ [] ⟨{ s with sched }, active⟩ :=
  .elsewhere sched s.heap s.ledger.made s.ledger.store.refusesBlocks s.ledger.store.refusesAccounts
    s.ledger.store.refuses (c.heap_refl s.heap)

theorem Run.single {c : Conduct} {s t : Session V E B} {events : List Event} (h : Step c s events t) :
    Run c s events t := by
  simpa using Run.tail .refl h

theorem Run.trans {c : Conduct} {s t u : Session V E B} {events more : List Event} (first : Run c s events t)
    (second : Run c t more u) : Run c s (events ++ more) u := by
  induction second with
  | refl => simpa using first
  | tail _ step ih => simpa [List.append_assoc] using ih.tail step

/-- A ledger as it is read from a store, which has one account for each address, and that nobody uses yet. -/
structure Opened (s : Session V E B) : Prop where
  unused : s.active = []
  loaded : ∃ blockSize store h, Ledger.load blockSize store h = .ok (s.state.ledger, s.state.heap)
  distinct : Distinct s.state.ledger.accounts

end Session

/-! ## Isolation -/

/-- The working sets in use hold different addresses, and they have copies of accounts that they hold. -/
structure Isolated (l : Ledger) (active : List WorkingId) : Prop where
  oneHolder : Ledger.OneHolder l.holders
  holder_iff : ∀ address w, (address, w) ∈ l.holders ↔ w ∈ active ∧ address ∈ (l.working w).held.map Prod.fst
  copies_held : ∀ w ∈ active, ∀ x ∈ (l.working w).accounts, (x.address, w) ∈ l.holders
  copies_distinct : ∀ w ∈ active, Distinct (l.working w).accounts
  distinct : Distinct l.accounts
  bound : ∀ w ∈ active, w < l.workings.size
  nodup : active.Nodup

namespace Ledger

theorem mem_holders_of_holder? {l : Ledger} {address : Address} {w : WorkingId} (h : l.holder? address = some w) :
    (address, w) ∈ l.holders := by
  obtain ⟨p, hp, rfl⟩ := Option.map_eq_some_iff.mp h
  have e : p.1 = address := by simpa using List.find?_some hp
  exact e ▸ List.mem_of_find?_eq_some hp

theorem not_mem_of_holder?_eq_none {l : Ledger} {address : Address} (h : l.holder? address = none) :
    address ∉ l.holders.map (·.1) := by
  intro hm
  obtain ⟨p, hp, e⟩ := List.mem_map.mp hm
  have none := List.find?_eq_none.mp (Option.map_eq_none_iff.mp h) p hp
  exact none (beq_iff_eq.mpr e)

end Ledger

/-- Putting a changed copy back in its place keeps the addresses. -/
theorem forall_putAccount {P : Address → Prop} {copies : List Account} (held : ∀ x ∈ copies, P x.address) {y : Account}
    (old : y.address ∈ copies.map (·.address)) : ∀ x ∈ Ledger.putAccount copies y, P x.address := by
  intro x hx
  have same : x.address ∈ (Ledger.putAccount copies y).map (·.address) := List.mem_map_of_mem hx
  rw [map_address_putAccount, if_pos old] at same
  obtain ⟨z, hz, e⟩ := List.mem_map.mp same
  exact e ▸ held z hz

namespace Isolated

variable {l l' : Ledger} {active : List WorkingId} {w : WorkingId}

/-- The copies of one working set change, and all of them are still of accounts that it holds. -/
theorem modify (h : Isolated l active) (hw : w ∈ active) {f : Working → Working}
    (held : (f (l.working w)).held = (l.working w).held)
    (copies : ∀ x ∈ (f (l.working w)).accounts, (x.address, w) ∈ l.holders)
    (unique : Distinct (f (l.working w)).accounts) : Isolated (l.modifyWorking w f) active where
  oneHolder := h.oneHolder
  holder_iff address v := by
    by_cases e : w = v
    · subst e
      rw [Ledger.working_modifyWorking (h.bound w hw), held]
      exact h.holder_iff address w
    · rw [Ledger.working_modifyWorking_ne e]
      exact h.holder_iff address v
  copies_held v hv x hx := by
    by_cases e : w = v
    · subst e
      rw [Ledger.working_modifyWorking (h.bound w hw)] at hx
      exact copies x hx
    · rw [Ledger.working_modifyWorking_ne e] at hx
      exact h.copies_held v hv x hx
  copies_distinct v hv := by
    by_cases e : w = v
    · subst e
      rw [Ledger.working_modifyWorking (h.bound w hw)]
      exact unique
    · rw [Ledger.working_modifyWorking_ne e]
      exact h.copies_distinct v hv
  distinct := h.distinct
  bound v hv := by
    rw [Ledger.size_modifyWorking]
    exact h.bound v hv
  nodup := h.nodup

theorem change (h : Isolated l active) (hw : w ∈ active) (step : Ledger.Change w l l') : Isolated l' active := by
  cases step with
  | lock locks =>
    exact ⟨h.oneHolder, h.holder_iff, h.copies_held, h.copies_distinct, h.distinct, h.bound, h.nodup⟩
  | @hold address locked free =>
    have apart := Ledger.not_mem_of_holder?_eq_none free
    have hw' : w < ({ l with holders := (address, w) :: l.holders } : Ledger).workings.size := h.bound w hw
    have copies (v : WorkingId) : ((({ l with holders := (address, w) :: l.holders } : Ledger).modifyWorking w
        fun k => { k with held := (address, locked) :: k.held }).working v).accounts = (l.working v).accounts := by
      by_cases e : w = v
      · subst e
        rw [Ledger.working_modifyWorking hw']
        rfl
      · rw [Ledger.working_modifyWorking_ne e]
        rfl
    refine ⟨List.nodup_cons.mpr ⟨apart, h.oneHolder⟩, ?_, ?_, ?_, h.distinct, ?_, h.nodup⟩
    · intro b v
      rw [Ledger.holders_modifyWorking, List.mem_cons]
      by_cases e : w = v
      · subst e
        rw [Ledger.working_modifyWorking hw']
        change (b, w) = (address, w) ∨ (b, w) ∈ l.holders ↔
          w ∈ active ∧ b ∈ ((address, locked) :: (l.working w).held).map Prod.fst
        rw [h.holder_iff, List.map_cons, List.mem_cons]
        simp [hw]
      · rw [Ledger.working_modifyWorking_ne e]
        have hne : (b, v) ≠ (address, w) := fun c => e (congrArg Prod.snd c).symm
        exact (or_iff_right hne).trans (h.holder_iff b v)
    · intro v hv x hx
      rw [copies] at hx
      exact List.mem_cons_of_mem _ (h.copies_held v hv x hx)
    · intro v hv
      rw [copies]
      exact h.copies_distinct v hv
    · intro v hv
      rw [Ledger.size_modifyWorking]
      exact h.bound v hv
  | copy x new mine cloned =>
    refine h.modify hw rfl ?_ ?_
    · intro y hy
      rcases List.mem_append.mp hy with hy | hy
      · exact h.copies_held w hw y hy
      · rw [List.mem_singleton.mp hy]
        exact Ledger.mem_holders_of_holder? mine
    · have unique := h.copies_distinct w hw
      have apart : x.address ∉ (l.working w).accounts.map (·.address) := accountAt_eq_none.mp new
      rw [← putAccount_new apart]
      exact unique.putAccount x
  | @update x y old balance =>
    have there : y.address ∈ (l.working w).accounts.map (·.address) :=
      List.mem_map.mpr ⟨x, mem_of_accountAt old, accountAt_address old⟩
    have held := forall_putAccount (P := fun a => (a, w) ∈ l.holders) (h.copies_held w hw) there
    exact h.modify hw rfl held ((h.copies_distinct w hw).putAccount y)
  | move source target amount atSource atTarget =>
    have there : source.address ∈ (l.working w).accounts.map (·.address) :=
      List.mem_map_of_mem (mem_of_accountAt atSource)
    have held := forall_putAccount (P := fun a => (a, w) ∈ l.holders) (h.copies_held w hw)
      (y := { source with balance := source.balance - amount }) there
    refine h.modify hw rfl (forall_putAccount (P := fun a => (a, w) ∈ l.holders) held ?_) (((h.copies_distinct w hw).putAccount _).putAccount _)
    exact List.mem_map.mpr ⟨target, mem_of_accountAt atTarget, rfl⟩
  | mark f keeps =>
    have same := keeps (l.working w)
    exact h.modify hw same.2.1 (same.1 ▸ h.copies_held w hw) (same.1 ▸ h.copies_distinct w hw)

theorem changes (h : Isolated l active) (hw : w ∈ active) (steps : Ledger.Changes w l l') : Isolated l' active := by
  induction steps with
  | refl => exact h
  | tail _ step ih => exact ih.change hw step

/-- Committed accounts may be replaced, as long as there is one for each address. -/
theorem of_accounts (h : Isolated l active) (holders : l'.holders = l.holders) (workings : l'.workings = l.workings)
    (distinct : Distinct l'.accounts) : Isolated l' active := by
  have same (w : WorkingId) : l'.working w = l.working w := by simp [Ledger.working, workings]
  refine ⟨holders ▸ h.oneHolder, ?_, ?_, ?_, distinct, workings ▸ h.bound, h.nodup⟩
  · intro address w
    rw [holders, same]
    exact h.holder_iff address w
  · intro w hw
    rw [holders, same]
    exact h.copies_held w hw
  · intro w hw
    rw [same]
    exact h.copies_distinct w hw

theorem working_push {l : Ledger} {k : Working} {w : WorkingId} (hw : w < l.workings.size) :
    ({ l with workings := l.workings.push k } : Ledger).working w = l.working w := by
  simp [Ledger.working, Array.getElem?_push_lt hw, Array.getElem?_eq_getElem hw]

theorem start (h : Isolated l active) (tx : Transaction) (isView : Bool) :
    Isolated { l with workings := l.workings.push { tx, isView } } (l.workings.size :: active) := by
  have apart : l.workings.size ∉ active := fun hm => Nat.lt_irrefl _ (h.bound _ hm)
  have new : ({ l with workings := l.workings.push { tx, isView } } : Ledger).working l.workings.size =
      { tx, isView } := by
    simp [Ledger.working]
  refine ⟨h.oneHolder, ?_, ?_, ?_, h.distinct, ?_, List.nodup_cons.mpr ⟨apart, h.nodup⟩⟩
  · intro address w
    by_cases e : w = l.workings.size
    · subst e
      rw [new]
      have none : (address, l.workings.size) ∉ l.holders := fun hm => apart ((h.holder_iff _ _).mp hm).1
      simp [none]
    · by_cases hw : w < l.workings.size
      · rw [working_push hw, List.mem_cons, or_iff_right e]
        exact h.holder_iff address w
      · have none : w ∉ l.workings.size :: active := by
          intro hm
          exact hw (h.bound w ((List.mem_cons.mp hm).resolve_left e))
        have none' : (address, w) ∉ l.holders := fun hm => hw (h.bound w ((h.holder_iff _ _).mp hm).1)
        simp [none, none']
  · intro w hw x hx
    rcases List.mem_cons.mp hw with rfl | hw
    · rw [new] at hx
      cases hx
    · rw [working_push (h.bound w hw)] at hx
      exact h.copies_held w hw x hx
  · intro w hw
    rcases List.mem_cons.mp hw with rfl | hw
    · rw [new]
      exact List.nodup_nil
    · rw [working_push (h.bound w hw)]
      exact h.copies_distinct w hw
  · intro w hw
    rw [Array.size_push]
    rcases List.mem_cons.mp hw with rfl | hw
    · exact Nat.lt_succ_self _
    · exact Nat.lt_succ_of_lt (h.bound w hw)

/-- A working set that lets go of what it holds has no entry left. -/
theorem released (h : Isolated l active) (w : WorkingId) :
    ((l.working w).held.map Prod.fst).foldl (Ledger.letGo w) l.holders = l.holders.filter (·.2 != w) := by
  rw [Ledger.foldl_letGo_eq w _ h.oneHolder]
  refine List.filter_congr fun p hp => ?_
  by_cases e : p.2 = w
  · have held : p.1 ∈ (l.working w).held.map Prod.fst := ((h.holder_iff p.1 w).mp (e ▸ hp)).2
    rw [List.contains_iff_mem.mpr held]
    simp [e]
  · have hne : (p.2 == w) = false := by simpa using e
    rw [hne, bne, hne, Bool.and_false]

theorem release (h : Isolated l active) (w : WorkingId) (locks : List (Address × ObjectId)) :
    Isolated (({ l with holders := l.holders.filter (·.2 != w), locks } : Ledger).modifyWorking w
      fun k => { k with held := [] }) (active.erase w) := by
  have other {v : WorkingId} (hv : v ∈ active.erase w) : w ≠ v ∧ v ∈ active := by
    rw [h.nodup.mem_erase_iff] at hv
    exact ⟨hv.1.symm, hv.2⟩
  refine ⟨h.oneHolder.filter _, ?_, ?_, ?_, h.distinct, ?_, h.nodup.erase w⟩
  · intro address v
    rw [Ledger.holders_modifyWorking, List.mem_filter, h.nodup.mem_erase_iff]
    by_cases e : w = v
    · simp [e]
    · rw [Ledger.working_modifyWorking_ne e]
      have keeps : ((address, v).2 != w) = true := by simpa using Ne.symm e
      rw [and_iff_left keeps, h.holder_iff]
      change _ ↔ _ ∧ address ∈ (l.working v).held.map Prod.fst
      simp [Ne.symm e]
  · intro v hv x hx
    obtain ⟨e, hv⟩ := other hv
    rw [Ledger.working_modifyWorking_ne e] at hx
    rw [Ledger.holders_modifyWorking, List.mem_filter]
    exact ⟨h.copies_held v hv x hx, by simpa using Ne.symm e⟩
  · intro v hv
    obtain ⟨e, hv⟩ := other hv
    rw [Ledger.working_modifyWorking_ne e]
    exact h.copies_distinct v hv
  · intro v hv
    rw [Ledger.size_modifyWorking]
    exact h.bound v (other hv).2

end Isolated

/-! ## Every run is isolated -/

theorem Distinct.genesis {l : Ledger} (distinct : Distinct l.accounts) {balances : List (Address × Int)}
    (keys : (balances.map (·.1)).Nodup) : Distinct (l.accounts ++ LedgerM.freshAccounts l balances) := by
  have addresses : (LedgerM.freshAccounts l balances).map (·.address) =
      ((balances.mergeSort fun x y => Text.lexLe x.1 y.1).filter fun b => (l.account? b.1).isNone).map (·.1) := by
    simp [LedgerM.freshAccounts, Function.comp_def]
  rw [Distinct, List.map_append, addresses]
  refine List.nodup_append.mpr ⟨distinct, ?_, ?_⟩
  · have perm := (List.mergeSort_perm balances fun x y => Text.lexLe x.1 y.1).map (·.1)
    exact List.Nodup.sublist (List.Sublist.map _ List.filter_sublist) (perm.nodup_iff.mpr keys)
  · intro a ha b hb e
    obtain ⟨p, hp, rfl⟩ := List.mem_map.mp hb
    have none : accountAt l.accounts p.1 = none := Option.isNone_iff_eq_none.mp (List.mem_filter.mp hp).2
    exact accountAt_eq_none.mp none (e ▸ ha)

theorem Ledger.load_spec {blockSize : Int} {store : Store} {h h' : Heap} {l : Ledger}
    (loaded : Ledger.load blockSize store h = .ok (l, h')) : ∃ accounts chain, l = { accounts, chain, store } := by
  unfold Ledger.load at loaded
  simp only at loaded
  split at loaded
  · cases loaded
  · split at loaded
    · cases loaded
    · cases loaded
      exact ⟨_, _, rfl⟩

namespace Session

/-- The working sets of a session do not disturb one another. -/
def Apart (s : Session V E B) : Prop :=
  Isolated s.state.ledger s.active

theorem Opened.apart {s : Session V E B} (h : Opened s) : Apart s := by
  obtain ⟨blockSize, store, heap, loaded⟩ := h.loaded
  obtain ⟨accounts, chain, e⟩ := Ledger.load_spec loaded
  have fresh : s.state.ledger.holders = [] := by rw [e]
  rw [Apart, h.unused]
  refine ⟨by rw [fresh]; exact List.nodup_nil, ?_, ?_, ?_, h.distinct, ?_, List.nodup_nil⟩
  · intro address w
    simp [fresh]
  all_goals
    intro w hw
    cases hw

/-- What a step does to the ledger and to the working sets in use. -/
inductive Effect (active : List WorkingId) (l : Ledger) : List Event → List WorkingId → Ledger → Prop where
  | started (tx : Transaction) (isView : Bool) :
    Effect active l [] (l.workings.size :: active) { l with workings := l.workings.push { tx, isView } }
  | worked {w : WorkingId} (mine : w ∈ active) {l' : Ledger} (changes : Ledger.Changes w l l') :
    Effect active l [] active l'
  | committed {w : WorkingId} (mine : w ∈ active) {chain : Chain} (store : Store)
    (balanced : LedgerM.balancesBefore l w = LedgerM.balancesAfter l w)
    (txs : chain.txs = l.chain.txs ++ [LedgerM.enteringTx l w]) :
    Effect active l [.committed w (LedgerM.enteringTx l w) (l.working w).accounts] active
      { l with accounts := putAll l.accounts (l.working w).accounts, chain, store }
  | refused {w : WorkingId} (mine : w ∈ active) (undone : Bool) {chain : Chain} (store : Store)
    (txs : chain.txs = l.chain.txs) :
    Effect active l [.refused w undone] active { l with chain, store }
  | released {w : WorkingId} (mine : w ∈ active) (locks : List (Address × ObjectId)) :
    Effect active l [] (active.erase w)
      (({ l with holders := l.holders.filter (·.2 != w), locks } : Ledger).modifyWorking w
        fun k => { k with held := [] })
  | credited {balances : List (Address × Int)} (keys : (balances.map (·.1)).Nodup) (store : Store) :
    Effect active l [.credited (LedgerM.freshAccounts l balances)] active
      { l with accounts := l.accounts ++ LedgerM.freshAccounts l balances, store }
  | other (isClosed : Bool) (made : Nat) (store : Store) : Effect active l [] active { l with isClosed, made, store }

theorem Step.effect {c : Conduct} {s t : Session V E B} {events : List Event} (h : Step c s events t)
    (apart : Apart s) : Effect s.active s.state.ledger events t.active t.state.ledger := by
  cases h with
  | start tx isView admitted => exact .started tx isView
  | @use s t active w mine α x op r h => exact .worked mine (op.works s r t (apart.bound w mine) h).changes
  | @commit s t active w mine r h =>
    cases LedgerM.commit_outcome h with
    | unbalanced differ => exact .refused mine _ _ rfl
    | crashed c appended => exact .refused mine _ _ rfl
    | refused f sched appended partly back => exact .refused mine _ _ (Chain.txs_takenBack _ _)
    | done sched balanced appended grows all => exact .committed mine _ balanced (Chain.txs_append appended)
  | @release s t active w mine r h =>
    obtain ⟨sched, locks, hr⟩ := LedgerM.exec_release w s
    cases hr.symm.trans h
    rw [Isolated.released apart w]
    exact .released mine locks
  | @genesis s t active balances keys r h =>
    obtain ⟨-, store, -, hl⟩ := LedgerM.genesis_spec h
    rw [hl]
    exact .credited keys store
  | @close s t active r h =>
    obtain ⟨-, isClosed, store, -, hl⟩ := LedgerM.close_spec h
    rw [hl]
    exact .other isClosed _ store
  | elsewhere sched heap made refusesBlocks refusesAccounts refuses allowed => exact .other _ made _

theorem Effect.isolated {active active' : List WorkingId} {l l' : Ledger} {events : List Event}
    (h : Effect active l events active' l') (apart : Isolated l active) : Isolated l' active' := by
  cases h with
  | started tx isView => exact apart.start tx isView
  | worked mine changes => exact apart.changes mine changes
  | committed mine store balanced txs => exact apart.of_accounts rfl rfl (apart.distinct.putAll _)
  | refused mine undone store txs => exact apart.of_accounts rfl rfl apart.distinct
  | @released w mine locks => exact apart.release w locks
  | credited keys store => exact apart.of_accounts rfl rfl (apart.distinct.genesis keys)
  | other isClosed made store => exact apart.of_accounts rfl rfl apart.distinct

theorem Step.apart {c : Conduct} {s t : Session V E B} {events : List Event} (h : Step c s events t)
    (apart : Apart s) : Apart t :=
  (h.effect apart).isolated apart

theorem Run.apart {c : Conduct} {s t : Session V E B} {events : List Event} (h : Run c s events t)
    (apart : Apart s) : Apart t := by
  induction h with
  | refl => exact apart
  | tail _ step ih => exact step.apart ih

end Session

end LedgerScript
