import LedgerScript.Ledger.Engine

/-!
# What operations of the ledger can change

The ledger makes locks, tries to take them, gives them back, and notes events.  All of this are operations of tasks, so
the ledger can be used in the middle of a task.

Only a commit and initial balances change the accounts and the chain, and no operation makes a failed transaction one that
has not failed.  All other operations lead from one state to a related one whenever the relation tolerates whatever leaves
accounts and chain alone.

Only the beginning and the end of a transaction are about locks in particular.  Whatever its contract does in between takes
locks by `tryHold`, and leaves them alone otherwise.
-/

namespace LedgerScript

/-!
## Operations of the ledger

What tasks do with the ledger, as data.
-/

/-- An operation of the ledger with its result. -/
inductive LedgerOp : Type → Type where
  | newWorking (tx : Transaction) (isView : Bool) : LedgerOp WorkingId
  | working (w : WorkingId) : LedgerOp Working
  | lockNeeded (w : WorkingId) (address : Address) : LedgerOp (Option ObjectId)
  | hold (w : WorkingId) (address : Address) (lock? : Option ObjectId) : LedgerOp Unit
  | prepare (w : WorkingId) (tx : Transaction) : LedgerOp Unit
  | load (w : WorkingId) (address : Address) (key : Bytes) : LedgerOp Value
  | store (w : WorkingId) (address : Address) (key : Bytes) (v : Value) : LedgerOp Unit
  | code (w : WorkingId) (address : Address) : LedgerOp Bytes
  | balance (w : WorkingId) (address : Address) : LedgerOp Int
  | transfer (w : WorkingId) (sender receiver : Address) (amount : Int) : LedgerOp Unit
  | emit (w : WorkingId) (e : LedgerEvent) : LedgerOp Unit
  | fail (w : WorkingId) (f : LedgerFault) : LedgerOp Unit
  | setValidating (w : WorkingId) (on : Bool) : LedgerOp Bool
  | commit (w : WorkingId) : LedgerOp Nat
  | release (w : WorkingId) : LedgerOp Unit
  | noteRollback (tx : Transaction) (reason : Bytes) : LedgerOp Unit
  | genesis (balances : List (Address × Int)) : LedgerOp Unit

/-- An operation is carried out. -/
def LedgerOp.run {V E B α : Type} : LedgerOp α → LedgerM V E B α
  | newWorking tx isView => LedgerM.newWorking tx isView
  | working w => LedgerM.working w
  | lockNeeded w address => LedgerM.lockNeeded w address
  | hold w address lock? => LedgerM.hold w address lock?
  | prepare w tx => LedgerM.prepare w tx
  | load w address key => LedgerM.load w address key
  | store w address key v => LedgerM.store w address key v
  | code w address => LedgerM.code w address
  | balance w address => LedgerM.balance w address
  | transfer w sender receiver amount => LedgerM.transfer w sender receiver amount
  | emit w e => LedgerM.emit w e
  | fail w f => LedgerM.fail w f
  | setValidating w on => LedgerM.setValidating w on
  | commit w => LedgerM.commit w
  | release w => LedgerM.release w
  | noteRollback tx reason => LedgerM.noteRollback tx reason
  | genesis balances => LedgerM.genesis balances

/-! ## What they can change -/

variable {V E B α β : Type}
variable {f : Working → Working}

/-- One thing that the ledger does to the scheduler. -/
inductive Scheduler.Serves (s : Scheduler V E B) : Scheduler V E B → Prop where
  | note (e : RunEvent) : Serves s (s.note e)
  | newLock : Serves s s.newLock.2
  | tryLock (lock : ObjectId) : Serves s (s.tryLock lock).2
  | unlock (lock : ObjectId) : Serves s (s.releaseLock lock)

theorem Scheduler.Serves.steps {s s' : Scheduler V E B} (serves : s.Serves s') : s.Steps s' := by
  cases serves with
  | note e => exact .single (.note e ()) s
  | newLock => exact .single (.newLock id) s
  | tryLock lock => exact .single (.tryLock lock id) s
  | unlock lock => exact .single (.unlock lock ()) s

structure Ledger.SameLocks (l l' : Ledger) : Prop where
  locks : l'.locks = l.locks
  holders : l'.holders = l.holders
  size : l.workings.size ≤ l'.workings.size
  held : ∀ w, (l'.working w).held = (l.working w).held

theorem Ledger.SameLocks.of_eq {l l' : Ledger} (locks : l'.locks = l.locks) (holders : l'.holders = l.holders)
    (workings : l'.workings = l.workings) : l.SameLocks l' := by
  refine ⟨locks, holders, Nat.le_of_eq (by rw [workings]), fun w => ?_⟩
  rw [Ledger.working, Ledger.working, workings]

/-- What a change to a working set keeps is as before in all of them. -/
theorem Ledger.kept_modifyWorking (kept : Working → α) (keeps : ∀ k, kept (f k) = kept k)
    (w : WorkingId) (l : Ledger) (v : WorkingId) : kept ((l.modifyWorking w f).working v) = kept (l.working v) := by
  simp only [Ledger.working, Ledger.modifyWorking, Array.getElem?_modify]
  split
  · cases l.workings[v]? with
    | none => rfl
    | some k => exact keeps k
  · rfl

theorem Ledger.sameLocks_modifyWorking (keeps : ∀ k, (f k).held = k.held) (w : WorkingId)
    (l : Ledger) : l.SameLocks (l.modifyWorking w f) :=
  ⟨rfl, rfl, Nat.le_of_eq Array.size_modify.symm, kept_modifyWorking (·.held) keeps w l⟩

/-- Transactions that have failed have still failed, and for the same reason. -/
def Ledger.StillFailed (l l' : Ledger) : Prop :=
  ∀ w f, (l.working w).failed = some f → (l'.working w).failed = some f

theorem Ledger.stillFailed_of_eq {l l' : Ledger} (workings : l'.workings = l.workings) : l.StillFailed l' := by
  intro w f failed
  rw [Ledger.working, workings]
  exact failed

theorem Ledger.stillFailed_modifyWorking (keeps : ∀ k e, k.failed = some e → (f k).failed = some e)
    (w : WorkingId) (l : Ledger) : l.StillFailed (l.modifyWorking w f) := by
  intro v e failed
  simp only [Ledger.working, Ledger.modifyWorking, Array.getElem?_modify] at failed ⊢
  split
  · cases here : l.workings[v]? with
    | none =>
      rw [here] at failed
      exact failed
    | some k =>
      rw [here] at failed
      exact keeps k e failed
  · exact failed

/-- A new transaction has not failed. -/
theorem Ledger.stillFailed_push (k : Working) (l : Ledger) : l.StillFailed { l with workings := l.workings.push k } := by
  intro w f failed
  simp only [Ledger.working, Array.getElem?_push] at failed ⊢
  split
  · rename_i last
    rw [last, Array.getElem?_eq_none (Nat.le_refl _)] at failed
    cases failed
  · exact failed

namespace LedgerM

/-- Whether it fails or not, an operation leads from one state to a related one. -/
def Within (related : LedgerState V E B → LedgerState V E B → Prop) (x : LedgerM V E B α) : Prop :=
  ∀ s : LedgerState V E B, related s (x.run.run s).2

/-- Changes can be made one after another. -/
structure Gradual (related : LedgerState V E B → LedgerState V E B → Prop) : Prop where
  refl : ∀ s, related s s
  trans : ∀ {s t u}, related s t → related t u → related s u

/-- Changes include that a working set takes an address, that a point of the ledger enters the journal, and whatever leaves
the accounts, the chain and the locks alone. -/
structure Gentle (w : WorkingId) (related : LedgerState V E B → LedgerState V E B → Prop) : Prop extends
    Gradual related where
  tryHold : ∀ address, (tryHold w address : LedgerM V E B Unit).Within related
  journal : ∀ (s : LedgerState V E B) (e : RunEvent), related s { s with sched := s.sched.note e }
  heap : ∀ (s : LedgerState V E B) (heap : Heap), related s { s with heap }
  ledger : ∀ {s : LedgerState V E B} {ledger : Ledger}, s.ledger.SameLocks ledger → s.ledger.StillFailed ledger →
    ledger.accounts = s.ledger.accounts → ledger.chain = s.ledger.chain → related s { s with ledger }

/-- Changes include what the ledger does to the scheduler, and whatever leaves the accounts and the chain alone. -/
structure Lenient (related : LedgerState V E B → LedgerState V E B → Prop) : Prop extends Gradual related where
  sched : ∀ {s : LedgerState V E B} {sched : Scheduler V E B}, s.sched.Serves sched → related s { s with sched }
  heap : ∀ (s : LedgerState V E B) (heap : Heap), related s { s with heap }
  ledger : ∀ {s : LedgerState V E B} {ledger : Ledger}, s.ledger.StillFailed ledger →
    ledger.accounts = s.ledger.accounts → ledger.chain = s.ledger.chain → related s { s with ledger }

variable {related : LedgerState V E B → LedgerState V E B → Prop} {w : WorkingId}

/-! ## Parts of operations -/

theorem within_ite {c : Prop} [Decidable c] {x y : LedgerM V E B α} (first : x.Within related)
    (second : y.Within related) : (if c then x else y).Within related := by
  split
  · exact first
  · exact second

/-- What follows a look at the state. -/
theorem within_get {f : LedgerState V E B → LedgerM V E B α} (each : ∀ s, related s ((f s).run.run s).2) :
    (get >>= f : LedgerM V E B α).Within related :=
  each

namespace Gradual

variable (gradual : Gradual related)
include gradual

theorem unchanged {x : LedgerM V E B α} (same : ∀ s, (x.run.run s).2 = s) : x.Within related := by
  intro s
  rw [same s]
  exact gradual.refl s

protected theorem pure (a : α) : (pure a : LedgerM V E B α).Within related :=
  gradual.unchanged fun _ => rfl

protected theorem throw (f : LedgerFault) : (throw f : LedgerM V E B α).Within related :=
  gradual.unchanged fun _ => rfl

protected theorem bind {x : LedgerM V E B α} {f : α → LedgerM V E B β} (first : x.Within related)
    (rest : ∀ a, (f a).Within related) : (x >>= f).Within related := by
  intro s
  have first : related s (x s).2 := first s
  show related s (ExceptT.bindCont f (x s).1 (x s).2).2
  cases (x s).1 with
  | ok a => exact gradual.trans first (rest a (x s).2)
  | error e => exact first

protected theorem forM {f : β → LedgerM V E B PUnit} (each : ∀ b, (f b).Within related) (bs : List β) :
    (forM bs f).Within related := by
  induction bs with
  | nil => exact gradual.pure ()
  | cons b bs ih => exact gradual.bind (each b) fun _ => ih

theorem readLedger : (LedgerM.ledger : LedgerM V E B Ledger).Within related :=
  gradual.unchanged fun _ => rfl

theorem working (w : WorkingId) : (working w : LedgerM V E B Working).Within related :=
  gradual.unchanged fun _ => rfl

theorem holder? (address : Address) : (holder? address : LedgerM V E B (Option WorkingId)).Within related :=
  gradual.unchanged fun _ => rfl

theorem takeBack (before : Chain) : (takeBack before : LedgerM V E B Chain).Within related := by
  refine gradual.bind (gradual.unchanged fun _ => rfl) fun s => ?_
  split
  · exact gradual.pure _
  · exact gradual.pure before

end Gradual

/-! ## The operations of a contract -/

namespace Gentle

variable (gentle : Gentle w related)
include gentle

theorem note (name : String) (detail : Bytes) (attrs : List (String × Bytes)) :
    (note name detail attrs : LedgerM V E B Unit).Within related :=
  fun s => gentle.journal s { scope := .ledger, name, detail, attrs }

theorem onHeap (f : Heap → Except Crash (α × Heap)) : (onHeap f : LedgerM V E B α).Within related := by
  refine within_get fun s => ?_
  split
  · exact gentle.heap s _
  · exact gentle.refl s

theorem modifyWorking (v : WorkingId) {f : Working → Working} (keeps : ∀ k, (f k).held = k.held)
    (failed : ∀ k e, k.failed = some e → (f k).failed = some e) : (modifyWorking v f : LedgerM V E B Unit).Within related :=
  fun s => gentle.ledger (Ledger.sameLocks_modifyWorking keeps v s.ledger)
    (Ledger.stillFailed_modifyWorking failed v s.ledger) rfl rfl

theorem touch (address : Address) : (touch w address : LedgerM V E B Account).Within related := by
  refine gentle.bind (gentle.working w) fun k => ?_
  split
  · exact gentle.pure _
  · refine gentle.bind (gentle.tryHold address) fun _ => gentle.bind gentle.readLedger fun l => ?_
    have kept : ∀ a : Account, (do
        LedgerM.modifyWorking w fun k => { k with accounts := k.accounts ++ [a] }
        return a : LedgerM V E B Account).Within related :=
      fun a => gentle.bind (gentle.modifyWorking w (fun _ => rfl) fun _ _ => id) fun _ => gentle.pure a
    split
    · exact gentle.bind (gentle.onHeap _) kept
    · exact gentle.bind (gentle.pure _) kept

theorem update (a : Account) : (update w a : LedgerM V E B Unit).Within related :=
  gentle.modifyWorking w (fun _ => rfl) fun _ _ => id

theorem load (address : Address) (key : Bytes) : (load w address key : LedgerM V E B Value).Within related := by
  refine gentle.bind (gentle.working w) fun k => within_ite ?_ ?_
  · split
    · exact gentle.pure _
    · refine gentle.bind gentle.readLedger fun l => ?_
      split
      · exact gentle.onHeap _
      · exact gentle.pure Value.null
  · exact gentle.bind (gentle.touch address) fun a => gentle.pure _

theorem store (address : Address) (key : Bytes) (v : Value) :
    (store w address key v : LedgerM V E B Unit).Within related := by
  refine gentle.bind (gentle.working w) fun k => within_ite (gentle.throw .readOnly) ?_
  exact gentle.bind (gentle.touch address) fun a => gentle.update _

theorem code (address : Address) : (code w address : LedgerM V E B Bytes).Within related := by
  refine gentle.bind (gentle.working w) fun k => ?_
  split
  · exact gentle.pure _
  · refine gentle.bind gentle.readLedger fun l => ?_
    split
    · exact gentle.pure _
    · exact gentle.pure []

theorem balance (address : Address) : (balance w address : LedgerM V E B Int).Within related := by
  refine gentle.bind (gentle.working w) fun k => within_ite ?_ ?_
  · exact gentle.bind gentle.readLedger fun l => gentle.pure _
  · exact gentle.bind (gentle.touch address) fun a => gentle.pure _

theorem transfer (sender receiver : Address) (amount : Int) :
    (transfer w sender receiver amount : LedgerM V E B Unit).Within related := by
  refine gentle.bind (gentle.working w) fun k => within_ite (gentle.throw .readOnly) ?_
  refine within_ite (gentle.throw _) ?_
  refine gentle.bind (gentle.touch sender) fun _ => gentle.bind (gentle.touch receiver) fun _ => ?_
  refine gentle.bind (gentle.touch sender) fun source => within_ite (gentle.throw _) ?_
  refine gentle.bind (gentle.update _) fun _ => ?_
  exact gentle.bind (gentle.touch receiver) fun target => gentle.update _

theorem emit (e : LedgerEvent) : (emit w e : LedgerM V E B Unit).Within related := by
  refine gentle.bind (gentle.working w) fun k => within_ite (gentle.throw .readOnly) ?_
  exact gentle.modifyWorking w (fun _ => rfl) fun _ _ => id

theorem fail (f : LedgerFault) : (fail w f : LedgerM V E B Unit).Within related := by
  refine gentle.modifyWorking w (fun _ => rfl) fun k e failed => ?_
  -- the first failure counts
  show k.failed.or (some f) = some e
  rw [failed]
  rfl

theorem setValidating (on : Bool) : (setValidating w on : LedgerM V E B Bool).Within related := by
  refine gentle.bind (gentle.working w) fun k => ?_
  exact gentle.bind (gentle.modifyWorking w (fun _ => rfl) fun _ _ => id) fun _ => gentle.pure _

theorem deploy (sender address : Address) (code : Bytes) :
    (deploy w sender address code : LedgerM V E B Unit).Within related := by
  refine gentle.bind (gentle.touch address) fun a => within_ite (gentle.throw _) ?_
  refine gentle.bind (gentle.update _) fun _ => ?_
  exact gentle.bind (gentle.touch sender) fun s => gentle.update _

theorem prepare (tx : Transaction) : (prepare w tx : LedgerM V E B Unit).Within related := by
  have paid : (do
      if tx.amount != 0 then LedgerM.transfer w tx.sender tx.receiver tx.amount : LedgerM V E B Unit).Within related :=
    within_ite (gentle.transfer tx.sender tx.receiver tx.amount) (gentle.pure ())
  exact within_ite (gentle.bind (gentle.deploy tx.sender tx.receiver tx.code) fun _ => paid) paid

/-! ### The store -/

theorem onStore (f : Store → Heap → Except StoreFault (Store × Heap)) :
    (onStore f : LedgerM V E B (Option StoreFault)).Within related := by
  refine within_get fun s => ?_
  split
  · rename_i store heap _
    exact gentle.trans (gentle.heap s heap)
      (gentle.ledger (s := { s with heap }) (.of_eq rfl rfl rfl) (Ledger.stillFailed_of_eq rfl) rfl rfl)
  · exact gentle.refl s

theorem persist (b : ChainBlock) (next : Option ChainBlock) (changed : List Account) :
    (persist b next changed : LedgerM V E B (Option StoreFault)).Within related := by
  refine gentle.bind (gentle.onStore _) fun refused => ?_
  split
  · exact gentle.pure _
  · split
    · refine gentle.bind (gentle.onStore _) fun refused => ?_
      split
      · exact gentle.pure _
      · exact gentle.onStore _
    · exact gentle.onStore _

theorem unpersist (b : ChainBlock) (sealing : Bool) : (unpersist b sealing : LedgerM V E B Unit).Within related := by
  refine gentle.bind (gentle.onStore _) fun first => ?_
  refine gentle.bind (within_ite (gentle.onStore _) (gentle.pure none)) fun second => ?_
  exact within_ite (gentle.note _ _ _) (gentle.pure ())

/-! ### Decisive operations -/

section

variable (free : ∀ {s : LedgerState V E B} {ledger : Ledger}, s.ledger.SameLocks ledger → s.ledger.StillFailed ledger →
  related s { s with ledger })
include free

theorem commit (v : WorkingId) : (commit v : LedgerM V E B Nat).Within related := by
  have modify {f : Ledger → Ledger} (locks : ∀ l, (f l).locks = l.locks) (holders : ∀ l, (f l).holders = l.holders)
      (workings : ∀ l, (f l).workings = l.workings) : (LedgerM.modifyLedger f : LedgerM V E B Unit).Within related :=
    fun s => free (.of_eq (locks s.ledger) (holders s.ledger) (workings s.ledger))
      (Ledger.stillFailed_of_eq (workings s.ledger))
  refine gentle.bind (gentle.working v) fun k => gentle.bind gentle.readLedger fun l => ?_
  refine within_ite (gentle.throw _) ?_
  refine gentle.bind (gentle.onHeap _) fun (chain, block, isSealed) => ?_
  refine gentle.bind (modify (fun _ => rfl) (fun _ => rfl) fun _ => rfl) fun _ => gentle.bind (gentle.persist _ _ _) fun refused => ?_
  cases refused with
  | some f =>
    refine gentle.bind (gentle.takeBack l.chain) fun undone => gentle.bind (modify (fun _ => rfl) (fun _ => rfl) fun _ => rfl) fun _ => ?_
    exact gentle.bind (gentle.unpersist _ _) fun _ => gentle.unchanged fun _ => rfl
  | none =>
    refine gentle.bind (modify (fun _ => rfl) (fun _ => rfl) fun _ => rfl) fun _ => gentle.bind (gentle.note _ _ _) fun _ => ?_
    exact within_ite (gentle.bind (gentle.note _ _ _) fun _ => gentle.pure _) (gentle.pure _)

theorem genesis (balances : List (Address × Int)) : (genesis balances : LedgerM V E B Unit).Within related := by
  refine gentle.bind gentle.readLedger fun l => within_ite (gentle.pure ()) ?_
  refine gentle.bind (fun _ => free (.of_eq rfl rfl rfl) (Ledger.stillFailed_of_eq rfl)) fun _ =>
    gentle.bind (gentle.onStore _) fun refused => ?_
  split
  · exact gentle.throw _
  · exact gentle.pure ()

end

end Gentle

/-! ## The operations on locks -/

namespace Lenient

variable (lenient : Lenient related)
include lenient

theorem modifyLedger {f : Ledger → Ledger} (failed : ∀ l : Ledger, l.StillFailed (f l))
    (accounts : ∀ l, (f l).accounts = l.accounts) (chain : ∀ l, (f l).chain = l.chain) :
    (modifyLedger f : LedgerM V E B Unit).Within related :=
  fun s => lenient.ledger (failed s.ledger) (accounts s.ledger) (chain s.ledger)

theorem unlock (lock : ObjectId) : (LedgerM.modifySched (·.releaseLock lock) : LedgerM V E B Unit).Within related :=
  fun _ => lenient.sched (.unlock lock)

theorem newWorking (tx : Transaction) (isView : Bool) : (newWorking tx isView : LedgerM V E B WorkingId).Within related :=
  fun s => lenient.ledger (Ledger.stillFailed_push _ s.ledger) rfl rfl

theorem modifyWorking (w : WorkingId) {f : Working → Working} (keeps : ∀ k e, k.failed = some e → (f k).failed = some e) :
    (modifyWorking w f : LedgerM V E B Unit).Within related :=
  lenient.modifyLedger (Ledger.stillFailed_modifyWorking keeps w) (fun _ => rfl) fun _ => rfl

theorem lockOf (address : Address) : (lockOf address : LedgerM V E B ObjectId).Within related := by
  refine lenient.bind (lenient.unchanged fun _ => rfl) fun l => ?_
  split
  · exact lenient.pure _
  · refine within_get fun s => ?_
    refine lenient.trans (lenient.sched .newLock) ?_
    exact lenient.ledger (s := { s with sched := s.sched.newLock.2 }) (Ledger.stillFailed_of_eq rfl) rfl rfl

theorem lockNeeded (w : WorkingId) (address : Address) :
    (lockNeeded w address : LedgerM V E B (Option ObjectId)).Within related := by
  refine lenient.bind (lenient.holder? address) fun holder => within_ite (lenient.pure none) ?_
  refine lenient.bind (lenient.unchanged fun _ => rfl) fun inTask => within_ite ?_ (lenient.pure none)
  exact lenient.bind (lenient.lockOf address) fun lock => lenient.pure (some lock)

theorem hold (w : WorkingId) (address : Address) (lock? : Option ObjectId) :
    (hold w address lock? : LedgerM V E B Unit).Within related := by
  refine lenient.bind (lenient.holder? address) fun holder => ?_
  cases holder with
  | none =>
    exact lenient.bind (lenient.modifyLedger (fun _ => Ledger.stillFailed_of_eq rfl) (fun _ => rfl) fun _ => rfl) fun _ => lenient.modifyWorking w fun _ _ => id
  | some other =>
    refine within_ite (lenient.pure ()) ?_
    cases lock? with
    | none => exact lenient.throw (.conflict address)
    | some lock => exact lenient.bind (lenient.unlock lock) fun _ => lenient.throw (.conflict address)

theorem tryHold (w : WorkingId) (address : Address) : (tryHold w address : LedgerM V E B Unit).Within related := by
  refine lenient.bind (lenient.lockNeeded w address) fun lock? => ?_
  cases lock? with
  | none => exact lenient.hold w address none
  | some lock =>
    -- taking the lock and looking at the answer is one step of the scheduler
    have rest : ∀ taken : Bool,
        (if taken then LedgerM.hold w address (some lock) else throw (.conflict address) :
          LedgerM V E B Unit).Within related :=
      fun taken => within_ite (lenient.hold w address (some lock)) (lenient.throw (.conflict address))
    intro s
    exact lenient.trans (lenient.sched (.tryLock lock))
      (rest (s.sched.tryLock lock).1 { s with sched := (s.sched.tryLock lock).2 })

theorem letGo (w : WorkingId) (h : Address × Bool) : (letGo w h : LedgerM V E B Unit).Within related := by
  have giveBack : (do
      if h.2 then
        let lock ← LedgerM.lockOf h.1
        LedgerM.modifySched (·.releaseLock lock) : LedgerM V E B Unit).Within related :=
    within_ite (lenient.bind (lenient.lockOf h.1) fun lock => lenient.unlock lock) (lenient.pure ())
  refine lenient.bind (lenient.holder? h.1) fun holder => within_ite ?_ giveBack
  exact lenient.bind (lenient.modifyLedger (fun _ => Ledger.stillFailed_of_eq rfl) (fun _ => rfl) fun _ => rfl) fun _ => giveBack

theorem release (w : WorkingId) : (release w : LedgerM V E B Unit).Within related := by
  refine lenient.bind (lenient.working w) fun k => ?_
  exact lenient.bind (lenient.forM (lenient.letGo w) k.held) fun _ => lenient.modifyWorking w fun _ _ => id

/-- Whatever a contract does is tolerated as well. -/
theorem gentle (w : WorkingId) : Gentle w related :=
  { lenient with
    tryHold := lenient.tryHold w
    journal := fun _ e => lenient.sched (.note e)
    ledger := fun _ => lenient.ledger }

end Lenient

/-! ## Changes to the scheduler -/

/-- Whatever an operation of the ledger does to the scheduler could be done by operations of tasks. -/
abbrev Lawful (x : LedgerM V E B α) : Prop :=
  x.Within fun s t => s.sched.Steps t.sched

theorem lenient_steps : Lenient fun s t : LedgerState V E B => s.sched.Steps t.sched where
  refl s := .refl s.sched
  trans := .trans
  sched serves := serves.steps
  heap s _ := .refl s.sched
  ledger _ _ _ := .refl _

/-- A transaction that has failed stays one. -/
theorem lenient_stillFailed : Lenient fun s t : LedgerState V E B => s.ledger.StillFailed t.ledger where
  refl _ _ _ := id
  trans first second w f := second w f ∘ first w f
  sched _ _ _ := id
  heap _ _ _ _ := id
  ledger failed _ _ := failed

end LedgerM

namespace LedgerOp

/-- The operations that change the accounts or the chain. -/
def isDecisive : LedgerOp α → Bool
  | commit _ | genesis _ => true
  | _ => false

def isContract (w : WorkingId) : LedgerOp α → Prop
  | load v .. | store v .. | code v _ | balance v _ | transfer v .. | emit v _ | fail v _ | setValidating v _ => v = w
  | _ => False

variable {related : LedgerState V E B → LedgerState V E B → Prop}

/-- The operations of a contract on its working set. -/
theorem within_gentle {w : WorkingId} (gentle : LedgerM.Gentle w related) {op : LedgerOp α} (mine : op.isContract w) :
    (op.run : LedgerM V E B α).Within related := by
  cases op with
  | load v address key => exact mine ▸ gentle.load address key
  | store v address key value => exact mine ▸ gentle.store address key value
  | code v address => exact mine ▸ gentle.code address
  | balance v address => exact mine ▸ gentle.balance address
  | transfer v sender receiver amount => exact mine ▸ gentle.transfer sender receiver amount
  | emit v e => exact mine ▸ gentle.emit e
  | fail v f => exact mine ▸ gentle.fail f
  | setValidating v on => exact mine ▸ gentle.setValidating on
  | newWorking | working | lockNeeded | hold | prepare | commit | release | noteRollback | genesis => exact mine.elim

theorem within (lenient : LedgerM.Lenient related) (op : LedgerOp α) (indecisive : op.isDecisive = false) :
    (op.run : LedgerM V E B α).Within related := by
  cases op with
  | newWorking tx isView => exact lenient.newWorking tx isView
  | working w => exact lenient.working w
  | lockNeeded w address => exact lenient.lockNeeded w address
  | hold w address lock? => exact lenient.hold w address lock?
  | prepare w tx => exact (lenient.gentle w).prepare tx
  | load w | store w | code w | balance w | transfer w | emit w | fail w | setValidating w =>
    exact within_gentle (lenient.gentle w) rfl
  | release w => exact lenient.release w
  | noteRollback tx reason => exact (lenient.gentle 0).note _ _ _
  | commit | genesis => cases indecisive

/-- Every operation, if it does not matter what becomes of the accounts and the chain. -/
theorem within_all (lenient : LedgerM.Lenient related)
    (free : ∀ {s : LedgerState V E B} {ledger : Ledger}, s.ledger.StillFailed ledger → related s { s with ledger })
    (op : LedgerOp α) : (op.run : LedgerM V E B α).Within related := by
  cases decisive : op.isDecisive with
  | false => exact op.within lenient decisive
  | true =>
    cases op with
    | commit w => exact (lenient.gentle w).commit (fun _ => free) w
    | genesis balances => exact (lenient.gentle 0).genesis (fun _ => free) balances
    | _ => cases decisive

theorem lawful (op : LedgerOp α) : (op.run : LedgerM V E B α).Lawful :=
  op.within_all LedgerM.lenient_steps fun _ => .refl _

/-- No operation makes a failed transaction one that has not failed. -/
theorem stillFailed (op : LedgerOp α) : (op.run : LedgerM V E B α).Within fun s t => s.ledger.StillFailed t.ledger :=
  op.within_all LedgerM.lenient_stillFailed id

end LedgerOp

end LedgerScript
