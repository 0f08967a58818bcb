import LedgerScript.Proofs.Ledger.Overlay
import LedgerScript.Proofs.Ledger.Isolation

/-!
# Working sets are overlays

A working set with its copies, made when an account is first touched, gives the answers of an overlay: an overlay `Describes` it,
each operation keeps that so, and when the working set is committed then the ledger is what the overlay showed.

Values are as they are seen.  Other transactions may work meanwhile, but not commit, and cells that have been made do not change.
-/

namespace LedgerScript

variable {V E B : Type}

/-! ## What touching does -/

namespace LedgerM

variable {w : WorkingId} {s t : LedgerState V E B} {address : Address}

/-- Getting hold of an address changes nothing that is read, and all that can go wrong is that somebody else is at it. -/
structure Holds (w : WorkingId) (address : Address) (s t : LedgerState V E B) (r : Except LedgerFault Unit) : Prop where
  heap : t.heap = s.heap
  accounts : t.ledger.accounts = s.ledger.accounts
  size : t.ledger.workings.size = s.ledger.workings.size
  working : ∃ held, t.ledger.working w = { s.ledger.working w with held }
  outcome : r = .ok () ∨ r = .error (.conflict address)

theorem exec_hold_holds (there : w < s.ledger.workings.size) {lock? : Option ObjectId} {r : Except LedgerFault Unit}
    (ran : exec (hold w address lock?) s = (r, t)) : Holds w address s t r := by
  unfold hold at ran
  simp only [exec_bind, exec_holder?] at ran
  split at ran
  · split at ran
    · cases ran
      exact ⟨rfl, rfl, rfl, ⟨_, rfl⟩, .inl rfl⟩
    · have nothing : ∃ sched, t = { s with sched } ∧ r = .error (.conflict address) := by
        cases lock? <;> simp [exec_bind] at ran <;> exact ⟨_, ran.2.symm, ran.1.symm⟩
      obtain ⟨sched, rfl, rfl⟩ := nothing
      exact ⟨rfl, rfl, rfl, ⟨_, rfl⟩, .inr rfl⟩
  · simp only [exec_bind, exec_modifyLedger, exec_modifyWorking] at ran
    cases ran
    refine ⟨rfl, rfl, Ledger.size_modifyWorking _ w _, ⟨(address, lock?.isSome) :: (s.ledger.working w).held, ?_⟩, .inl rfl⟩
    exact Ledger.working_modifyWorking (l := { s.ledger with holders := (address, w) :: s.ledger.holders }) there _

theorem exec_tryHold_holds (there : w < s.ledger.workings.size) {r : Except LedgerFault Unit}
    (ran : exec (tryHold w address) s = (r, t)) : Holds w address s t r := by
  -- looking for the lock changes nothing but the table of locks
  have lock {q : Except LedgerFault (Option ObjectId)} {u : LedgerState V E B} (ran : exec (lockNeeded w address) s = (q, u)) :
      u.heap = s.heap ∧ ∃ locks lock?, u.ledger = { s.ledger with locks } ∧ q = .ok lock? := by
    unfold lockNeeded at ran
    simp only [exec_bind, exec_holder?] at ran
    split at ran
    · cases ran
      exact ⟨rfl, _, _, rfl, rfl⟩
    · simp only [exec_bind, exec_inTask] at ran
      split at ran
      · rcases of_exec_bind ran with ⟨e, failed, -⟩ | ⟨id, v, found, done⟩
        · obtain ⟨⟨id, same⟩, -⟩ := exec_lockOf failed
          cases same
        · obtain ⟨-, locks, ledger, heap⟩ := exec_lockOf found
          cases done
          exact ⟨heap, locks, _, ledger, rfl⟩
      · cases ran
        exact ⟨rfl, _, _, rfl, rfl⟩
  unfold tryHold at ran
  rcases of_exec_bind ran with ⟨e, failed, -⟩ | ⟨lock?, u, found, done⟩
  · obtain ⟨-, -, lock?, -, same⟩ := lock failed
    cases same
  · obtain ⟨heap, locks, -, ledger, -⟩ := lock found
    have here : w < u.ledger.workings.size := ledger ▸ there
    have same : u.ledger.working w = s.ledger.working w := by rw [ledger]; rfl
    have held (v : LedgerState V E B) (r : Except LedgerFault Unit) (h : Holds w address u v r) : Holds w address s v r := by
      obtain ⟨held, working⟩ := h.working
      exact ⟨h.heap.trans heap, h.accounts.trans (by rw [ledger]), h.size.trans (by rw [ledger]), ⟨held, same ▸ working⟩, h.outcome⟩
    cases lock? with
    | none => exact held t r (exec_hold_holds here done)
    | some lock =>
      simp only [exec_bind, exec_get, exec_set] at done
      split at done
      · have after := exec_hold_holds (s := { u with sched := (u.sched.tryLock lock).2 }) here done
        exact held t r ⟨after.heap, after.accounts, after.size, after.working, after.outcome⟩
      · cases done
        exact held _ _ ⟨rfl, rfl, rfl, ⟨_, rfl⟩, .inr rfl⟩

end LedgerM

/-! ## Overlays that describe working sets -/

/-- What the operations leave alone: how many contracts the account has deployed, and the one installed at it. -/
def Account.standing (a : Account) : Nat × Bytes :=
  (a.nonce, a.code)

/-- An overlay shows what is read through a working set, over the accounts that were committed before. -/
structure Overlay.Shows (o : Overlay) (base : List Account) (h : Heap) (k : Working) : Prop where
  isView : k.isView = o.isView
  isValidating : k.validating = o.isValidating
  distinct : Distinct k.accounts
  /-- A view makes no copies. -/
  bare : o.isView = true → k.accounts = []
  wholeCommitted : ∀ a ∈ base, a.Whole h
  wholeCopies : ∀ a ∈ k.accounts, a.Whole h
  committed : readings h base = o.committed
  /-- What is seen would be read if the copies were committed. -/
  seen : readings h (putAll base k.accounts) = o.seen
  touched : ∀ address, address ∈ k.accounts.map (·.address) ↔ address ∈ o.touched
  kept : ∀ a ∈ k.accounts, a.standing = ((accountAt base a.address).getD { address := a.address }).standing

/-- In a state of the ledger an overlay shows a working set, and nothing has been committed. -/
structure Overlay.Describes (o : Overlay) (base : List Account) (w : WorkingId) (s : LedgerState V E B) : Prop extends
    Overlay.Shows o base s.heap (s.ledger.working w) where
  there : w < s.ledger.workings.size
  unchanged : s.ledger.accounts = base

namespace Overlay.Shows

variable {o : Overlay} {base : List Account} {h g : Heap} {k : Working} {address : Address}
variable {x : Account}

theorem seen_at (d : o.Shows base h k) (address : Address) :
    o.seen address = (((accountAt k.accounts address).or (accountAt base address)).getD { address }).reading h := by
  rw [← d.seen, readings, accountAt_putAll d.distinct]

theorem seen_of_copy (d : o.Shows base h k) (copy : k.copy? address = some x) : o.seen address = x.reading h := by
  have copy : accountAt k.accounts address = some x := copy
  rw [d.seen_at, copy]
  rfl

theorem seen_of_none (d : o.Shows base h k) (none : k.copy? address = none) : o.seen address = o.committed address := by
  have none : accountAt k.accounts address = Option.none := none
  rw [d.seen_at, none, ← d.committed]
  rfl

theorem whole_of_copy (d : o.Shows base h k) (copy : k.copy? address = some x) : x.Whole h :=
  d.wholeCopies x (List.mem_of_find?_eq_some copy)

theorem whole (d : o.Shows base h k) : ∀ a ∈ putAll base k.accounts, a.Whole h :=
  fun a mem => (mem_putAll mem).elim (d.wholeCommitted a) (d.wholeCopies a)

theorem mono (d : o.Shows base h k) (grows : h.Extends g) (held : List (Address × Bool)) : o.Shows base g { k with held } :=
  { d with
    wholeCommitted := fun a mem => (d.wholeCommitted a mem).mono grows
    wholeCopies := fun a mem => (d.wholeCopies a mem).mono grows
    committed := (readings_mono d.wholeCommitted grows).trans d.committed
    seen := (readings_mono d.whole grows).trans d.seen }

theorem add (d : o.Shows base h k) (writer : o.isView = false) {a : Account} (new : k.copy? a.address = none)
    (whole : a.Whole h) (same : a.reading h = o.committed a.address)
    (kept : a.standing = ((accountAt base a.address).getD { address := a.address }).standing) :
    (o.touch a.address).Shows base h { k with accounts := k.accounts ++ [a] } := by
  have touch : o.touch a.address = { o with touched := a.address :: o.touched } := by
    rw [touch, if_neg (by simp [writer])]
  have absent : a.address ∉ k.accounts.map (·.address) := accountAt_eq_none.mp new
  have members {b : Account} (mem : b ∈ k.accounts ++ [a]) : b ∈ k.accounts ∨ b = a :=
    (List.mem_append.mp mem).imp_right List.mem_singleton.mp
  -- the new copy stands behind the others
  have put : putAll base (k.accounts ++ [a]) = Ledger.putAccount (putAll base k.accounts) a := by
    rw [putAll, putAll, List.foldl_append]
    rfl
  rw [touch]
  exact
    { isView := d.isView
      isValidating := d.isValidating
      distinct := by
        have distinct := d.distinct.putAccount a
        rwa [putAccount_new absent] at distinct
      bare := fun view => by rw [writer] at view; cases view
      wholeCommitted := d.wholeCommitted
      wholeCopies := fun b mem => (members mem).elim (d.wholeCopies b) fun e => e ▸ whole
      committed := d.committed
      seen := by
        dsimp only
        rw [put, readings_putAccount, d.seen, same, ← d.seen_of_none new, Function.update_eq_self]
      touched := by
        intro b
        rw [List.map_append, List.mem_append, d.touched b, List.map_singleton, List.mem_singleton, List.mem_cons]
        exact or_comm
      kept := fun b mem => (members mem).elim (d.kept b) fun e => e ▸ kept }

theorem change (d : o.Shows base h k) {y : Account} (copy : k.copy? y.address = some x) (whole : y.Whole h)
    (kept : y.standing = x.standing) :
    (o.put y.address (y.reading h)).Shows base h { k with accounts := Ledger.putAccount k.accounts y } := by
  have here : x ∈ k.accounts := List.mem_of_find?_eq_some copy
  have same : x.address = y.address := accountAt_address copy
  have old : y.address ∈ k.accounts.map (·.address) := same ▸ List.mem_map_of_mem here
  exact
    { isView := d.isView
      isValidating := d.isValidating
      distinct := d.distinct.putAccount y
      bare := fun view => by rw [d.bare view] at here; cases here
      wholeCommitted := d.wholeCommitted
      wholeCopies := fun b mem => (mem_putAccount mem).elim (d.wholeCopies b) fun e => e ▸ whole
      committed := d.committed
      seen := by
        rw [put, ← d.seen, ← readings_putAccount]
        dsimp only
        funext address
        rw [readings, readings, accountAt_putAll (d.distinct.putAccount y), accountAt_putAccount, accountAt_putAccount,
          accountAt_putAll d.distinct]
        split <;> rfl
      touched := by
        intro b
        dsimp only
        rw [map_address_putAccount, if_pos old]
        exact d.touched b
      kept := by
        intro b mem
        rcases mem_putAccount mem with mem | rfl
        · exact d.kept b mem
        · rw [kept, d.kept x here, same] }

/-- The balance of a copy changes. -/
theorem pay (d : o.Shows base h k) (copy : k.copy? address = some x) (amount : Int) :
    (o.pay address amount).Shows base h
      { k with accounts := Ledger.putAccount k.accounts { x with balance := x.balance + amount } } := by
  have here : x.address = address := accountAt_address copy
  have whole : x.Whole h := d.whole_of_copy copy
  have paid := d.change (x := x) (y := { x with balance := x.balance + amount }) (here ▸ copy) whole rfl
  have shown : o.put x.address (Account.reading h { x with balance := x.balance + amount }) = o.pay address amount := by
    rw [here, Overlay.pay, d.seen_of_copy copy]
    rfl
  exact shown ▸ paid

end Overlay.Shows

namespace Overlay.Describes

open LedgerM

variable {o : Overlay} {base : List Account} {w : WorkingId} {s t : LedgerState V E B} {address : Address}
variable {r : Except LedgerFault WorkingAnswer}

/-- All that happens meanwhile is that the heap grows, and nothing of the working set shows it. -/
theorem later (d : o.Describes base w s) (grows : s.heap.Extends t.heap) (there : w < t.ledger.workings.size)
    (same : t.ledger.accounts = base) (working : ∃ held, t.ledger.working w = { s.ledger.working w with held }) :
    o.Describes base w t := by
  obtain ⟨held, working⟩ := working
  exact { toShows := working ▸ d.toShows.mono grows held, there, unchanged := same }

theorem account? (d : o.Describes base w s) (address : Address) : s.ledger.account? address = accountAt base address := by
  rw [Ledger.account?, d.unchanged]
  rfl

/-- The working set is replaced, and another overlay shows the new one. -/
theorem modify (d : o.Describes base w s) {o' : Overlay} {f : Working → Working}
    (shows : o'.Shows base s.heap (f (s.ledger.working w))) :
    o'.Describes base w { s with ledger := s.ledger.modifyWorking w f } where
  toShows := by
    rw [Ledger.working_modifyWorking d.there]
    exact shows
  there := by
    rw [Ledger.size_modifyWorking]
    exact d.there
  unchanged := d.unchanged

/-- An address is touched: its copy is made if there is none, and the same is seen. -/
theorem touch (d : o.Describes base w s) (writer : o.isView = false) {r : Except LedgerFault Account}
    (ran : exec (LedgerM.touch w address) s = (r, t)) (free : ∀ b, r ≠ .error (.conflict b)) :
    ∃ x, r = .ok x ∧ (t.ledger.working w).copy? address = some x ∧ (o.touch address).Describes base w t := by
  have touches := touch_spec d.there ran
  suffices there : ∃ x, r = .ok x ∧ (o.touch address).Describes base w t by
    obtain ⟨x, ok, describes⟩ := there
    exact ⟨x, ok, touches.gives x ok, describes⟩
  unfold LedgerM.touch at ran
  simp only [exec_bind, exec_working] at ran
  split at ran
  · next x found =>
    cases ran
    have here := accountAt_address (show accountAt (s.ledger.working w).accounts address = some x from found)
    have mem : address ∈ o.touched := (d.touched address).mp (here ▸ List.mem_map_of_mem (List.mem_of_find?_eq_some found))
    refine ⟨x, rfl, ?_⟩
    rw [Overlay.touch, if_neg (by simp [writer])]
    have touched (b : Address) : b ∈ o.touched ↔ b ∈ address :: o.touched :=
      ⟨List.mem_cons_of_mem address, fun m => (List.mem_cons.mp m).elim (fun e => e ▸ mem) id⟩
    exact { d with touched := fun b => (d.touched b).trans (touched b) }
  · next new =>
    rcases of_exec_bind ran with ⟨e, failed, rfl⟩ | ⟨⟨⟩, u, held, ran⟩
    · rcases (exec_tryHold_holds d.there failed).outcome with ok | conflict
      · cases ok
      · cases conflict
        exact absurd rfl (free address)
    · have holds := exec_tryHold_holds d.there held
      have describes : o.Describes base w u := d.later (holds.heap ▸ .refl _) (holds.size ▸ d.there)
        (holds.accounts.trans d.unchanged) holds.working
      have newer : (u.ledger.working w).copy? address = none := by
        obtain ⟨list, working⟩ := holds.working
        rw [working]
        exact new
      have read : o.committed address = ((accountAt base address).getD { address }).reading u.heap := by
        rw [← describes.committed]
        rfl
      simp only [exec_bind, exec_ledger] at ran
      rw [describes.account?] at ran
      cases found : accountAt base address with
      | none =>
        rw [found] at ran read
        simp only [exec_pure, exec_bind, exec_modifyWorking] at ran
        cases ran
        exact ⟨_, rfl, describes.modify <| describes.add (a := { address }) writer newer (List.forall_mem_nil _) read.symm (by rw [found]; rfl)⟩
      | some committed =>
        rw [found] at ran read
        simp only at ran
        have here : committed.address = address := accountAt_address found
        obtain ⟨storage, g, cloned, grows, whole, same⟩ := (describes.wholeCommitted committed (mem_of_accountAt found)).clone
        rw [exec_bind, exec_onHeap, cloned] at ran
        simp only [exec_pure, exec_bind, exec_modifyWorking] at ran
        cases ran
        have larger : o.Describes base w { u with heap := g } :=
          describes.later grows describes.there describes.unchanged ⟨_, rfl⟩
        have added := larger.add (a := { committed with storage }) writer (here ▸ newer) whole
          (here ▸ same.trans read.symm) (by rw [here, found]; rfl)
        refine ⟨_, rfl, ?_⟩
        rw [← here]
        exact larger.modify added

/-- An address is touched, and then something is done with its copy. -/
theorem bind_touch (d : o.Describes base w s) (writer : o.isView = false) {α : Type} {f : Account → LedgerM V E B α}
    {r : Except LedgerFault α} (ran : exec (LedgerM.touch w address >>= f) s = (r, t))
    (free : ∀ b, r ≠ .error (.conflict b)) : ∃ x u, exec (LedgerM.touch w address) s = (.ok x, u) ∧
      (u.ledger.working w).copy? address = some x ∧ (o.touch address).Describes base w u ∧ exec (f x) u = (r, t) := by
  rcases of_exec_bind ran with ⟨e, failed, rfl⟩ | ⟨x, u, touched, done⟩
  · have conflicts : ∀ b, (.error e : Except LedgerFault Account) ≠ .error (.conflict b) := by
      rintro b ⟨⟩
      exact free b rfl
    obtain ⟨x, ok, -⟩ := d.touch writer failed conflicts
    cases ok
  · obtain ⟨x', ok, copy, describes⟩ := d.touch writer touched nofun
    cases ok
    exact ⟨x, u, touched, copy, describes, done⟩

/-! ### Operations -/

/-- Committed state is read. -/
theorem committedSlot (d : o.Describes base w s) (key : Bytes) {r : Except LedgerFault Value}
    (ran : exec (committedSlot (s.ledger.account? address) key) s = (r, t)) :
    ∃ v, r = .ok v ∧ t.heap.seen v = (o.committed address).slot key ∧ o.Describes base w t := by
  have read : o.committed address = ((accountAt base address).getD { address }).reading s.heap := by
    rw [← d.committed]
    rfl
  rw [d.account?] at ran
  unfold LedgerM.committedSlot at ran
  cases found : accountAt base address with
  | none =>
    rw [found] at ran read
    cases ran
    exact ⟨.null, rfl, by rw [read]; rfl, d⟩
  | some a =>
    rw [found] at ran read
    obtain ⟨u, g, made, grows, copy⟩ := ((d.wholeCommitted a (mem_of_accountAt found)).slot key).copyOf
    simp only [exec_onHeap, made] at ran
    cases ran
    exact ⟨u, rfl, by rw [read]; exact funext copy.tree, d.later grows d.there d.unchanged ⟨_, rfl⟩⟩

/-- A view has no copies, so it reads committed state. -/
theorem exec_load_view (d : o.Describes base w s) (view : o.isView = true) (key : Bytes) :
    exec (LedgerM.load w address key) s = exec (LedgerM.committedSlot (s.ledger.account? address) key) s := by
  have bare := d.bare view
  have none : (s.ledger.working w).copy? address = none := by rw [Working.copy?, bare]; rfl
  have isView := d.isView.trans view
  unfold LedgerM.load LedgerM.committedSlot
  simp only [exec_bind, exec_working, isView, Bool.true_or, if_true, none]
  cases found : s.ledger.account? address with
  | none => simp only [exec_ledger, found]
  | some a => simp only [exec_ledger, found]

theorem plain (d : o.Describes base w s) (writer : o.isView = false) (plain : o.isValidating = false) :
    ((s.ledger.working w).isView || (s.ledger.working w).validating) = false := by
  rw [d.isView, d.isValidating, writer, plain]
  rfl

theorem load (d : o.Describes base w s) (key : Bytes)
    (ran : exec (WorkingOp.perform w (.load address key)) s = (r, t)) (free : ∀ b, r ≠ .error (.conflict b)) :
    r = (o.answer (.load address key)).1 ∧ (o.answer (.load address key)).2.Describes base w t := by
  unfold WorkingOp.perform at ran
  -- what committed state has goes out as it is seen
  have committed (same : exec (LedgerM.load w address key) s =
      exec (LedgerM.committedSlot (s.ledger.account? address) key) s) :
      r = .ok (.value ((o.committed address).slot key)) ∧ o.Describes base w t := by
    rcases first : exec (LedgerM.load w address key) s with ⟨q, u⟩
    obtain ⟨v, rfl, seen, describes⟩ := d.committedSlot key (same ▸ first)
    rw [exec_bind, first] at ran
    simp only [exec_bind, exec_get, exec_pure, seen] at ran
    cases ran
    exact ⟨rfl, describes⟩
  cases validating : o.isValidating with
  | true =>
    rw [Overlay.answer, if_pos validating]
    exact committed (exec_load_validating (d.isValidating.trans validating) key)
  | false =>
    rw [Overlay.answer, if_neg (by simp [validating])]
    cases view : o.isView with
    | true =>
      have none : (s.ledger.working w).copy? address = none := by rw [Working.copy?, d.bare view]; rfl
      rw [Overlay.touch, if_pos view, d.seen_of_none none]
      exact committed (d.exec_load_view view key)
    | false =>
      have own : exec (LedgerM.load w address key) s = exec (LedgerM.touch w address >>= fun a => pure (a.slot key)) s := by
        unfold LedgerM.load
        simp only [exec_bind, exec_working, d.plain view validating, Bool.false_eq_true, if_false]
      rw [exec_bind, own, ← exec_bind, bind_assoc] at ran
      obtain ⟨x, u, -, copy, describes, done⟩ := d.bind_touch view ran free
      simp only [pure_bind, exec_bind, exec_get, exec_pure] at done
      cases done
      have seen := describes.seen_of_copy copy
      rw [seen_touch] at seen
      rw [seen]
      exact ⟨rfl, describes⟩

theorem balance (d : o.Describes base w s)
    (ran : exec (WorkingOp.perform w (.balance address)) s = (r, t)) (free : ∀ b, r ≠ .error (.conflict b)) :
    r = (o.answer (.balance address)).1 ∧ (o.answer (.balance address)).2.Describes base w t := by
  unfold WorkingOp.perform at ran
  have committed (same : exec (LedgerM.balance w address) s = (.ok (s.ledger.balance address), s)) :
      r = .ok (.amount (o.committed address).balance) ∧ o.Describes base w t := by
    have read : s.ledger.balance address = (o.committed address).balance := by
      rw [← d.committed, Ledger.balance, d.account?, readings]
      cases accountAt base address <;> rfl
    rw [exec_bind, same] at ran
    simp only [exec_pure, read] at ran
    cases ran
    exact ⟨rfl, d⟩
  cases validating : o.isValidating with
  | true =>
    rw [Overlay.answer, if_pos validating]
    exact committed (exec_balance_validating (d.isValidating.trans validating))
  | false =>
    rw [Overlay.answer, if_neg (by simp [validating])]
    cases view : o.isView with
    | true =>
      have none : (s.ledger.working w).copy? address = none := by rw [Working.copy?, d.bare view]; rfl
      rw [Overlay.touch, if_pos view, d.seen_of_none none]
      refine committed ?_
      unfold LedgerM.balance
      simp only [exec_bind, exec_working, d.isView.trans view, Bool.true_or, if_true, exec_ledger, exec_pure]
    | false =>
      have own : exec (LedgerM.balance w address) s = exec (LedgerM.touch w address >>= fun a => pure a.balance) s := by
        unfold LedgerM.balance
        simp only [exec_bind, exec_working, d.plain view validating, Bool.false_eq_true, if_false]
      rw [exec_bind, own, ← exec_bind, bind_assoc] at ran
      obtain ⟨x, u, -, copy, describes, done⟩ := d.bind_touch view ran free
      simp only [pure_bind, exec_pure] at done
      cases done
      have seen := describes.seen_of_copy copy
      rw [seen_touch] at seen
      rw [seen]
      exact ⟨rfl, describes⟩

theorem store (d : o.Describes base w s) (key : Bytes) {v : Value} (whole : s.heap.Whole v) (ran : exec (WorkingOp.perform w (.store address key v)) s = (r, t))
    (free : ∀ b, r ≠ .error (.conflict b)) :
    r = (o.answer (.store address key (s.heap.seen v))).1 ∧
      (o.answer (.store address key (s.heap.seen v))).2.Describes base w t := by
  unfold WorkingOp.perform at ran
  cases view : o.isView with
  | true =>
    have refused : exec (LedgerM.store w address key v) s = (.error .readOnly, s) := by
      unfold LedgerM.store
      simp only [exec_bind, exec_working, d.isView.trans view, if_true, exec_throw]
    rw [exec_bind, refused] at ran
    cases ran
    rw [Overlay.answer, if_pos view]
    exact ⟨rfl, d⟩
  | false =>
    have own : exec (LedgerM.store w address key v) s =
        exec (LedgerM.touch w address >>= fun a => LedgerM.update w (a.setSlot key v)) s := by
      unfold LedgerM.store
      simp only [exec_bind, exec_working, d.isView.trans view, Bool.false_eq_true, if_false]
    rw [exec_bind, own, ← exec_bind, bind_assoc] at ran
    obtain ⟨x, u, touched, copy, describes, done⟩ := d.bind_touch view ran free
    rw [exec_bind, LedgerM.update, exec_modifyWorking] at done
    cases done
    have grows := (touch_spec d.there touched).alters.grows
    have same : s.heap.seen v = u.heap.seen v := funext fun n => (whole.holds.treeAt_eq grows n).symm
    have here : x.address = address := accountAt_address copy
    obtain ⟨address_eq, -⟩ := Account.setSlot_keeps x key v
    have written := describes.change (y := x.setSlot key v) (by rw [address_eq, here]; exact copy)
      ((describes.whole_of_copy copy).setSlot (whole.mono grows)) (by unfold Account.setSlot; split <;> rfl)
    rw [Account.reading_setSlot, ← describes.seen_of_copy copy, address_eq, here, ← same] at written
    rw [Overlay.answer, if_neg (by simp [view])]
    exact ⟨rfl, describes.modify written⟩

theorem setValidating (d : o.Describes base w s) {on : Bool}
    (ran : exec (WorkingOp.perform w (.setValidating on)) s = (r, t)) :
    r = (o.answer (.setValidating on)).1 ∧ (o.answer (.setValidating on)).2.Describes base w t := by
  unfold WorkingOp.perform LedgerM.setValidating at ran
  simp only [exec_bind, exec_working, exec_modifyWorking, exec_pure, d.isValidating] at ran
  cases ran
  exact ⟨rfl, d.modify { d with isValidating := rfl }⟩

theorem transfer (d : o.Describes base w s) {sender receiver : Address} {amount : Int}
    (ran : exec (WorkingOp.perform w (.transfer sender receiver amount)) s = (r, t))
    (free : ∀ b, r ≠ .error (.conflict b)) :
    r = (o.answer (.transfer sender receiver amount)).1 ∧
      (o.answer (.transfer sender receiver amount)).2.Describes base w t := by
  unfold WorkingOp.perform at ran
  rw [Overlay.answer]
  cases view : o.isView with
  | true =>
    have refused : exec (LedgerM.transfer w sender receiver amount) s = (.error .readOnly, s) := by
      unfold LedgerM.transfer
      simp only [exec_bind, exec_working, d.isView.trans view, if_true, exec_throw]
    rw [exec_bind, refused] at ran
    cases ran
    rw [if_pos rfl]
    exact ⟨rfl, d⟩
  | false =>
    rw [if_neg (by simp)]
    by_cases negative : amount < 0
    · have refused : exec (LedgerM.transfer w sender receiver amount) s =
          (.error (.validation (utf8 "Negative amount")), s) := by
        unfold LedgerM.transfer
        simp only [exec_bind, exec_working, d.isView.trans view, Bool.false_eq_true, if_false, negative, if_true,
          exec_throw]
      rw [exec_bind, refused] at ran
      cases ran
      rw [if_pos negative]
      exact ⟨rfl, d⟩
    · rw [if_neg negative]
      have own : exec (LedgerM.transfer w sender receiver amount) s =
          exec (LedgerM.touch w sender >>= fun _ => LedgerM.touch w receiver >>= fun _ => LedgerM.touch w sender >>= fun x => do
            if x.balance < amount then throw (.validation (utf8 "Insufficient balance"))
            LedgerM.update w { x with balance := x.balance - amount }
            let y ← LedgerM.touch w receiver
            LedgerM.update w { y with balance := y.balance + amount }) s := by
        unfold LedgerM.transfer
        simp only [exec_bind, exec_working, d.isView.trans view, Bool.false_eq_true, if_false, negative]
      rw [exec_bind, own, ← exec_bind, bind_assoc] at ran
      obtain ⟨x, u, -, copy, first, ran⟩ := d.bind_touch view ran free
      rw [bind_assoc] at ran
      obtain ⟨y, v, touched, copy', second, ran⟩ := first.bind_touch (by simpa using view) ran free
      -- both copies are there now, so touching them again only looks them up
      have source : (v.ledger.working w).copy? sender = some x := (touch_spec first.there touched).stays sender x copy
      have balance : (((o.touch sender).touch receiver).seen sender).balance = x.balance := by
        rw [second.seen_of_copy source]
        rfl
      rw [bind_assoc, exec_bind, exec_touch_copy source] at ran
      simp only [balance] at ran ⊢
      by_cases short : x.balance < amount
      · simp only [short, if_true, exec_bind, exec_throw] at ran
        cases ran
        rw [if_pos short]
        exact ⟨rfl, second⟩
      · rw [if_neg short]
        have paid := second.modify (f := fun k => { k with
          accounts := Ledger.putAccount k.accounts { x with balance := x.balance + -amount } }) (second.pay source (-amount))
        have at_receiver := accountAt_putAccount (v.ledger.working w).accounts
          { x with balance := x.balance + -amount } receiver
        obtain ⟨z, target⟩ : ∃ z, accountAt (Ledger.putAccount (v.ledger.working w).accounts
            { x with balance := x.balance + -amount }) receiver = some z := by
          rw [at_receiver]
          split
          · exact ⟨_, rfl⟩
          · exact ⟨y, copy'⟩
        have target : ((v.ledger.modifyWorking w fun k => { k with
            accounts := Ledger.putAccount k.accounts { x with balance := x.balance + -amount } }).working w).copy? receiver =
              some z := by
          rw [Ledger.working_modifyWorking second.there]
          exact target
        simp only [short, if_false, exec_bind, exec_pure, LedgerM.update, exec_modifyWorking] at ran
        rw [exec_touch_copy (x := z)] at ran
        · cases ran
          exact ⟨rfl, paid.modify (paid.pay target amount)⟩
        · exact target

/-- Each operation answers what the overlay says, and the overlay goes on describing the working set. -/
theorem perform (d : o.Describes base w s) {op : WorkingOp Value} (whole : op.Whole s.heap) (ran : exec (op.perform w) s = (r, t))
    (free : ∀ b, r ≠ .error (.conflict b)) :
    r = (o.answer (op.map s.heap.seen)).1 ∧ (o.answer (op.map s.heap.seen)).2.Describes base w t := by
  cases op with
  | load address key => exact d.load key ran free
  | store address key v => exact d.store key whole ran free
  | balance address => exact d.balance ran free
  | transfer sender receiver amount => exact d.transfer ran free
  | setValidating on => exact d.setValidating ran

end Overlay.Describes

/-! ## Runs -/

/-- A working set is used: operations that meet nobody else at an address, and what they answer.  Meanwhile the program may
make new cells, and other working sets may be used, but none of them is committed. -/
inductive WorkingRun (w : WorkingId) : LedgerState V E B →
    List (WorkingOp Seen × Except LedgerFault WorkingAnswer) → LedgerState V E B → Prop where
  | done (s : LedgerState V E B) : WorkingRun w s [] s
  | meanwhile {s t u : LedgerState V E B} {steps : List (WorkingOp Seen × Except LedgerFault WorkingAnswer)}
    (grows : s.heap.Extends t.heap) (there : w < t.ledger.workings.size)
    (same : t.ledger.accounts = s.ledger.accounts) (own : t.ledger.working w = s.ledger.working w)
    (rest : WorkingRun w t steps u) : WorkingRun w s steps u
  | step {s t u : LedgerState V E B} {steps : List (WorkingOp Seen × Except LedgerFault WorkingAnswer)}
    (op : WorkingOp Value) {r : Except LedgerFault WorkingAnswer} (whole : op.Whole s.heap)
    (ran : LedgerM.exec (op.perform w) s = (r, t)) (free : ∀ address, r ≠ .error (.conflict address))
    (rest : WorkingRun w t steps u) : WorkingRun w s ((op.map s.heap.seen, r) :: steps) u

namespace Overlay

variable {o : Overlay} {base : List Account} {w : WorkingId} {s t : LedgerState V E B}

theorem Describes.run {steps : List (WorkingOp Seen × Except LedgerFault WorkingAnswer)} (d : o.Describes base w s)
    (run : WorkingRun w s steps t) :
    steps.map (·.2) = (o.answers (steps.map (·.1))).1 ∧ (o.answers (steps.map (·.1))).2.Describes base w t := by
  induction run generalizing o with
  | done => exact ⟨rfl, d⟩
  | meanwhile grows there same own rest ih =>
    exact ih (d.later grows there (same.trans d.unchanged) ⟨_, own⟩)
  | step op whole ran free rest ih =>
    obtain ⟨answer, describes⟩ := d.perform whole ran free
    obtain ⟨answers, last⟩ := ih describes
    rw [List.map_cons, List.map_cons, Overlay.answers]
    exact ⟨by rw [answer, answers], last⟩

/-- A new working set shows what is committed. -/
theorem describes_start {tx : Transaction} {isView : Bool} (whole : ∀ a ∈ s.ledger.accounts, a.Whole s.heap)
    (made : LedgerM.exec (LedgerM.newWorking tx isView) s = (.ok w, t)) :
    (start isView (readings s.heap s.ledger.accounts)).Describes s.ledger.accounts w t := by
  cases made
  have working : Ledger.working { s.ledger with workings := s.ledger.workings.push { tx, isView } } s.ledger.workings.size =
      { tx, isView } := by
    simp [Ledger.working]
  have shows : (start isView (readings s.heap s.ledger.accounts)).Shows s.ledger.accounts s.heap { tx, isView } :=
    { isView := rfl
      isValidating := rfl
      distinct := .nil
      bare := fun _ => rfl
      wholeCommitted := whole
      wholeCopies := List.forall_mem_nil _
      committed := rfl
      seen := rfl
      touched := fun _ => .rfl
      kept := List.forall_mem_nil _ }
  rw [← working] at shows
  exact { toShows := shows, there := by simp, unchanged := rfl }

/-- What is committed is what was seen, and there are accounts at the addresses that were touched. -/
theorem Describes.commit (d : o.Describes base w s) {block : Nat}
    (committed : LedgerM.exec (LedgerM.commit w) s = (.ok block, t)) (address : Address) :
    readings t.heap t.ledger.accounts address = o.seen address ∧
      ((t.ledger.account? address).isSome ↔ (accountAt base address).isSome ∨ address ∈ o.touched) ∧
      ((t.ledger.account? address).getD { address }).standing = ((accountAt base address).getD { address }).standing := by
  have outcome := LedgerM.commit_outcome committed
  cases outcome with
  | done sched balanced appended grows all stored =>
    have found := accountAt_putAll d.distinct base address
    have touched := d.touched address
    rw [d.unchanged]
    refine ⟨?_, ?_, ?_⟩
    · rw [readings_mono d.whole grows, d.seen]
    · change (accountAt (putAll base _) address).isSome = true ↔ _
      rw [found, ← touched, Option.isSome_or, Bool.or_eq_true, or_comm, ← Option.ne_none_iff_isSome, ← Option.ne_none_iff_isSome,
        Ne, Ne, accountAt_eq_none, accountAt_eq_none]
      simp only [not_not]
    · change ((accountAt (putAll base _) address).getD { address }).standing = _
      rw [found]
      cases copy : accountAt (s.ledger.working w).accounts address with
      | none => rfl
      | some a =>
        have here : a.address = address := accountAt_address copy
        have kept := d.kept a (mem_of_accountAt copy)
        rw [here] at kept
        exact kept

end Overlay

/-- A transaction that meets nobody else at an address and sees no commit of others reads what an overlay says.  Each read gets
what its own writes and transfers before have made of the committed state, or the committed state itself while conditions read;
what fails changes nothing; nothing of it is seen in the committed accounts.  If it commits, then the ledger shows what the overlay
showed, and of the addresses without an account those have one now that were touched. -/
theorem working_set_is_overlay {w : WorkingId} {s₀ s t : LedgerState V E B} {tx : Transaction} {isView : Bool}
    {steps : List (WorkingOp Seen × Except LedgerFault WorkingAnswer)} (whole : ∀ a ∈ s₀.ledger.accounts, a.Whole s₀.heap)
    (made : LedgerM.exec (LedgerM.newWorking tx isView) s₀ = (.ok w, s)) (run : WorkingRun w s steps t) :
    let base := readings s₀.heap s₀.ledger.accounts
    let shown (ops : List (WorkingOp Seen)) := (Overlay.start isView base).answers ops
    steps.map (·.2) = (shown (steps.map (·.1))).1 ∧
      (∀ before op f after, steps = before ++ (op, .error f) :: after →
        (shown (before.map (·.1) ++ [op])).2.seen = (shown (before.map (·.1))).2.seen) ∧
      t.ledger.accounts = s₀.ledger.accounts ∧ readings t.heap t.ledger.accounts = base ∧
      ∀ block u, LedgerM.exec (LedgerM.commit w) t = (.ok block, u) → ∀ address,
        readings u.heap u.ledger.accounts address = (shown (steps.map (·.1))).2.seen address ∧
        ((u.ledger.account? address).isSome ↔
          (s₀.ledger.account? address).isSome ∨ address ∈ (shown (steps.map (·.1))).2.touched) ∧
        ((u.ledger.account? address).getD { address }).standing =
          ((s₀.ledger.account? address).getD { address }).standing := by
  intro base shown
  obtain ⟨answers, describes⟩ := (Overlay.describes_start whole made).run run
  have committed : (shown (steps.map (·.1))).2.committed = base := Overlay.committed_answers _ _
  refine ⟨answers, fun before op f after split => ?_, describes.unchanged, ?_, fun block u committed address =>
    describes.commit committed address⟩
  · subst split
    simp only [shown, List.map_append, List.map_cons, Overlay.answers_append] at answers ⊢
    obtain ⟨-, here⟩ := List.append_inj answers (by simp only [Overlay.length_answers, List.length_map])
    rw [Overlay.answers] at here
    exact Overlay.seen_of_error (List.cons.inj here).1.symm
  · rw [describes.unchanged, describes.committed, committed]

/-- A ledger with one account, and savings in its storage. -/
def endowed : LedgerState Unit Unit Unit where
  sched := {}
  heap := {}
  ledger := { accounts := [{ address := [97], balance := 5, storage := [([110], .int 1)] }] }

/-- A payment out of the savings. -/
def withdrawal : Transaction :=
  { id := [], sender := [97], receiver := [98], amount := 3, method := [], args := [], code := [] }

/-- The first transaction has done some operations, the latest of them first. -/
def endowedAfter : List (WorkingOp Value) → LedgerState Unit Unit Unit
  | [] => (LedgerM.exec (LedgerM.newWorking withdrawal false) endowed).2
  | op :: ops => (LedgerM.exec (op.perform 0) (endowedAfter ops)).2

/-- The slot is written, a payment is made, and a larger one back is refused; the slot is read for conditions and again. -/
def visit : List (WorkingOp Value) := [.load [97] [110], .setValidating false, .load [97] [110], .setValidating true,
  .transfer [98] [97] 9, .transfer [97] [98] 3, .store [97] [110] (.int 2)]

/-- Conditions read the slot as it was, the transaction as it has written it.  After the commit there is a second account. -/
theorem working_set_is_overlay_savings :
    let one : Seen := Heap.seen {} (.int 1)
    let two : Seen := Heap.seen {} (.int 2)
    let ops : List (WorkingOp Seen) := [.store [97] [110] two, .transfer [97] [98] 3, .transfer [98] [97] 9,
      .setValidating true, .load [97] [110], .setValidating false, .load [97] [110]]
    let answers : List (Except LedgerFault WorkingAnswer) := [.ok .done, .ok .done,
      .error (.validation (utf8 "Insufficient balance")), .ok (.setting false), .ok (.value one), .ok (.setting true),
      .ok (.value two)]
    ∃ w s t, LedgerM.exec (LedgerM.newWorking withdrawal false) endowed = (.ok w, s) ∧
      WorkingRun w s (ops.zip answers) t ∧
      answers = ((Overlay.start false (readings endowed.heap endowed.ledger.accounts)).answers ops).1 ∧
      t.ledger.accounts = endowed.ledger.accounts ∧
      ∃ block u, LedgerM.exec (LedgerM.commit w) t = (.ok block, u) ∧
        (readings u.heap u.ledger.accounts [98]).balance = 3 ∧ (u.ledger.account? [98]).isSome := by
  intro one two ops answers
  have whole : ∀ a ∈ endowed.ledger.accounts, a.Whole endowed.heap := by
    intro a mem s slot
    rw [List.mem_singleton.mp mem] at slot
    rw [List.mem_singleton.mp slot]
    exact Heap.whole_of_bare rfl
  have run : WorkingRun 0 (endowedAfter []) (ops.zip answers) (endowedAfter visit) :=
    .step (.store [97] [110] (.int 2)) (Heap.whole_of_bare rfl) (Prod.ext rfl rfl) nofun <|
    .step (.transfer [97] [98] 3) trivial (Prod.ext rfl rfl) nofun <|
    .step (.transfer [98] [97] 9) trivial (Prod.ext rfl rfl) nofun <|
    .step (.setValidating true) trivial (Prod.ext rfl rfl) nofun <|
    .step (.load [97] [110]) trivial (Prod.ext rfl rfl) nofun <|
    .step (.setValidating false) trivial (Prod.ext rfl rfl) nofun <|
    .step (.load [97] [110]) (t := endowedAfter visit) trivial (Prod.ext rfl rfl) nofun <| .done _
  have made : LedgerM.exec (LedgerM.newWorking withdrawal false) endowed = (.ok 0, endowedAfter []) := rfl
  obtain ⟨same, -, unchanged, -, commits⟩ := working_set_is_overlay whole made run
  obtain ⟨block, u, committed⟩ : ∃ block u, LedgerM.exec (LedgerM.commit 0) (endowedAfter visit) = (.ok block, u) :=
    ⟨0, _, Prod.ext rfl rfl⟩
  obtain ⟨read, exists_iff, -⟩ := commits block u committed [98]
  refine ⟨0, _, _, made, run, same, unchanged, block, u, committed, ?_, exists_iff.mpr (.inr ?_)⟩
  · rw [read]
    rfl
  · decide

end LedgerScript
