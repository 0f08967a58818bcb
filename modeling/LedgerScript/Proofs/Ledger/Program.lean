import LedgerScript.Proofs.Ledger.Session

/-!
# Contracts and transactions as runs

A contract is any program over the operations on its working set: it may look at their results, recover from their
failures, make and change values, and carry out transactions of its own.  `Program` says what such programs are built
from.  A transaction with a contract of this kind is then a run of the ledger: it opens a working set, works on it,
commits it or not, and releases it.
-/

namespace LedgerScript

namespace LedgerScriptM

open LedgerM (enteringTx)

variable {α β : Type}

/-! ## Running programs -/

/-- What a program gives and where it leads. -/
def exec (x : LedgerScriptM α) (s : LedgerScriptState) : Except BodyFault α × LedgerScriptState :=
  x.run.run s

theorem exec_bind (x : LedgerScriptM α) (f : α → LedgerScriptM β) (s : LedgerScriptState) :
    exec (x >>= f) s = match exec x s with
      | (.ok a, t) => exec (f a) t
      | (.error e, t) => (.error e, t) := by
  have step : exec (x >>= f) s = match exec x s with | (r, t) => ExceptT.bindCont f r t := rfl
  rw [step]
  rcases exec x s with ⟨r | a, t⟩ <;> rfl

theorem exec_tryCatch (x : LedgerScriptM α) (f : BodyFault → LedgerScriptM α) (s : LedgerScriptState) :
    exec (tryCatch x f) s = match exec x s with
      | (.ok a, t) => (.ok a, t)
      | (.error e, t) => exec (f e) t := by
  unfold exec
  simp only [tryCatch, tryCatchThe, MonadExceptOf.tryCatch, ExceptT.tryCatch, ExceptT.run_mk, StateT.run_bind]
  change (StateT.run x s >>= _) = match StateT.run x s with | (.ok a, t) => _ | (.error e, t) => _
  rcases StateT.run x s with ⟨r | a, t⟩ <;> rfl

@[simp] theorem exec_pure (a : α) (s : LedgerScriptState) : exec (pure a) s = (.ok a, s) := rfl

@[simp] theorem exec_throw (e : BodyFault) (s : LedgerScriptState) :
    exec (throw e : LedgerScriptM α) s = (.error e, s) := rfl

/-- An operation of the ledger, whose failure ends the program. -/
theorem exec_lift (x : LedgerM Unit Unit Unit α) (s : LedgerScriptState) :
    exec (lift x) s = ((LedgerM.exec x s.state).1.mapError .ledger, { s with state := (LedgerM.exec x s.state).2 }) := by
  unfold exec lift LedgerM.exec
  simp only [StateT.run, ExceptT.run]
  rcases x s.state with ⟨f | a, t⟩ <;> rfl

theorem exec_attempt (x : LedgerM Unit Unit Unit α) (s : LedgerScriptState) :
    exec (attempt x) s = (.ok (LedgerM.exec x s.state).1, { s with state := (LedgerM.exec x s.state).2 }) := rfl

/-! ## Programs -/

/-- What is built from the operations on the working set `w`.  The mark allows transactions of its own. -/
inductive Program (c : Conduct) (nesting : Bool) : WorkingId → {α : Type} → LedgerScriptM α → Prop where
  | pure {w : WorkingId} {α : Type} (a : α) : Program c nesting w (pure a : LedgerScriptM α)
  | throw {w : WorkingId} {α : Type} (f : BodyFault) : Program c nesting w (throw f : LedgerScriptM α)
  | bind {w : WorkingId} {α β : Type} {x : LedgerScriptM α} {f : α → LedgerScriptM β} (first : Program c nesting w x)
    (rest : ∀ a, Program c nesting w (f a)) : Program c nesting w (x >>= f)
  | operation {w : WorkingId} {α : Type} {x : LedgerM Unit Unit Unit α} (op : Operation w x) :
    Program c nesting w (lift x)
  | attempt {w : WorkingId} {α : Type} {x : LedgerM Unit Unit Unit α} (op : Operation w x) :
    Program c nesting w (attempt x)
  /-- Something is made or changed on the heap. -/
  | onHeap {w : WorkingId} {α : Type} {f : Heap → Except Crash (α × Heap)}
    (allowed : ∀ h a h', f h = .ok (a, h') → c.heap h h') : Program c nesting w (lift (LedgerM.onHeap f))
  | heap {w : WorkingId} : Program c nesting w heap
  | row {w : WorkingId} (name : String) (r : StepResult LedgerItem) : Program c nesting w (addRow name r)
  | newTransaction {w : WorkingId} (allowed : nesting = true) (sender receiver : Address) (amount : Int)
    (method : Bytes) (args : List Value) (code : Bytes) : Program c nesting w (newTransaction sender receiver amount method args code)
  | transact {w : WorkingId} (allowed : nesting = true) {tx : Transaction} (admitted : ∀ h, c.admits h tx)
    (before after : Bool) {contract : Option Contract}
    (body : ∀ k, contract = some k → ∀ w', Program c nesting w' (k w')) :
    Program c nesting w (transact tx before after contract)

/-! ## Transactions -/

/-- A rollback only enters the journal. -/
theorem exec_rollback (tx : Transaction) (f : BodyFault) (s : LedgerScriptState) :
    ∃ sched, exec (rollback tx f) s =
      (.ok (.rolledBack tx f.reason f), { s with state := { s.state with sched } }) :=
  ⟨_, rfl⟩

/-- What fails is rolled back, so there is always a receipt. -/
theorem exec_orRollback_ne (x : LedgerScriptM (Receipt BodyFault)) (tx : Transaction) (s : LedgerScriptState)
    (e : BodyFault) : (exec (tryCatch x (rollback tx)) s).1 ≠ .error e := by
  rw [exec_tryCatch]
  rcases exec x s with ⟨f | r, t⟩
  · obtain ⟨sched, hs⟩ := exec_rollback tx f t
    simp only [hs]
    exact nofun
  · exact nofun

def opened (s : LedgerScriptState) (tx : Transaction) : LedgerScriptState :=
  { s with state := { s.state with ledger :=
    { s.state.ledger with workings := s.state.ledger.workings.push { tx, isView := false } } } }

/-- A transaction is either rolled back at once, or it works on a working set, which is released in the end. -/
theorem transact_cases {tx : Transaction} {before after : Bool} {contract : Option Contract}
    {s t : LedgerScriptState} {r : Except BodyFault (Receipt BodyFault)}
    (h : exec (transact tx before after contract) s = (r, t)) :
    (∃ f, exec (rollback tx f) s = (r, t)) ∨
    ∃ receipt u, exec (tryCatch (perform s.state.ledger.workings.size tx after contract) (rollback tx)) (opened s tx) =
        (.ok receipt, u) ∧ r = .ok receipt ∧
      LedgerM.exec (LedgerM.release s.state.ledger.workings.size) u.state = (.ok (), t.state) := by
  unfold transact at h
  rw [exec_bind, exec_lift, LedgerM.exec_ledger] at h
  simp only [Except.mapError] at h
  split at h
  · exact .inl ⟨_, h⟩
  split at h
  · exact .inl ⟨_, h⟩
  rw [exec_bind, exec_lift, LedgerM.exec_newWorking] at h
  simp only [Except.mapError] at h
  rw [exec_bind] at h
  rcases hp : exec (tryCatch (perform s.state.ledger.workings.size tx after contract) (rollback tx)) (opened s tx) with
    ⟨e | receipt, u⟩
  · exact absurd (congrArg Prod.fst hp) (exec_orRollback_ne _ tx _ e)
  · have hp' := hp
    simp only [opened] at hp'
    rw [hp'] at h
    simp only at h
    obtain ⟨sched, locks, hr⟩ := LedgerM.exec_release s.state.ledger.workings.size u.state
    rw [exec_bind, exec_lift, hr] at h
    cases h
    exact .inr ⟨receipt, u, rfl, rfl, hr⟩

/-! ## What programs do to the ledger -/

/-- The program leads to states that are related to the state before. -/
def Along (R : LedgerState Unit Unit Unit → LedgerState Unit Unit Unit → Prop) (x : LedgerScriptM α) : Prop :=
  ∀ s r t, exec x s = (r, t) → R s.state t.state

/-- A relation between states that covers the steps of a working set. -/
structure Covers (c : Conduct)
    (R : WorkingId → LedgerState Unit Unit Unit → LedgerState Unit Unit Unit → Prop) : Prop where
  refl : ∀ w s, R w s s
  trans : ∀ {w s t u}, R w s t → R w t u → R w s u
  operation : ∀ {w α} {x : LedgerM Unit Unit Unit α}, Operation w x →
    ∀ {s r t}, LedgerM.exec x s = (r, t) → R w s t
  heap : ∀ w s heap, c.heap s.heap heap → R w s { s with heap }
  sched : ∀ w s sched, R w s { s with sched }

/-- The relation covers transactions that a contract carries out as well. -/
structure CoversNested (c : Conduct)
    (R : WorkingId → LedgerState Unit Unit Unit → LedgerState Unit Unit Unit → Prop) : Prop where
  made : ∀ w s made, R w s { s with ledger := { s.ledger with made } }
  transact : ∀ {w tx before after} {contract : Option Contract}, (∀ h, c.admits h tx) →
    (∀ k, contract = some k → ∀ w', Along (R w') (k w')) → Along (R w) (transact tx before after contract)

namespace Covers

variable {c : Conduct} {R : WorkingId → LedgerState Unit Unit Unit → LedgerState Unit Unit Unit → Prop}
  {w : WorkingId}

theorem pure (covers : Covers c R) (a : α) : Along (R w) (pure a : LedgerScriptM α) := by
  intro s r t h
  cases h
  exact covers.refl w _

theorem throw (covers : Covers c R) (f : BodyFault) : Along (R w) (throw f : LedgerScriptM α) := by
  intro s r t h
  cases h
  exact covers.refl w _

theorem bind (covers : Covers c R) {x : LedgerScriptM α} {f : α → LedgerScriptM β} (hx : Along (R w) x)
    (hf : ∀ a, Along (R w) (f a)) : Along (R w) (x >>= f) := by
  intro s r t h
  rw [exec_bind] at h
  rcases hr : exec x s with ⟨e | a, u⟩
  · rw [hr] at h
    cases h
    exact hx s _ _ hr
  · rw [hr] at h
    exact covers.trans (hx s _ _ hr) (hf a u r t h)

theorem tryCatch (covers : Covers c R) {x : LedgerScriptM α} {f : BodyFault → LedgerScriptM α}
    (hx : Along (R w) x) (hf : ∀ e, Along (R w) (f e)) : Along (R w) (tryCatch x f) := by
  intro s r t h
  rw [exec_tryCatch] at h
  rcases hr : exec x s with ⟨e | a, u⟩
  · rw [hr] at h
    exact covers.trans (hx s _ _ hr) (hf e u r t h)
  · rw [hr] at h
    cases h
    exact hx s _ _ hr

theorem forM (covers : Covers c R) {f : α → LedgerScriptM PUnit} (hf : ∀ a, Along (R w) (f a))
    (items : List α) : Along (R w) (items.forM f) := by
  induction items with
  | nil => exact covers.pure _
  | cons a rest ih => exact covers.bind (hf a) fun _ => ih

theorem lift (covers : Covers c R) {x : LedgerM Unit Unit Unit α} (op : Operation w x) : Along (R w) (lift x) := by
  intro s r t h
  rw [exec_lift] at h
  cases h
  exact covers.operation op (Prod.mk.eta).symm

theorem onHeap (covers : Covers c R) {f : Heap → Except Crash (α × Heap)}
    (allowed : ∀ h a h', f h = .ok (a, h') → c.heap h h') : Along (R w) (LedgerScriptM.lift (LedgerM.onHeap f)) := by
  intro s r t h
  rw [exec_lift, LedgerM.exec_onHeap] at h
  cases hf : f s.state.heap with
  | error e =>
    rw [hf] at h
    cases h
    exact covers.refl w _
  | ok p =>
    rw [hf] at h
    cases h
    exact covers.heap w _ _ (allowed _ _ _ hf)

theorem rollback (covers : Covers c R) (tx : Transaction) (f : BodyFault) : Along (R w) (rollback tx f) := by
  intro s r t h
  obtain ⟨sched, hs⟩ := exec_rollback tx f s
  cases hs.symm.trans h
  exact covers.sched w _ sched

theorem work (covers : Covers c R) (tx : Transaction) (interrupted : Bool) {contract : Option Contract}
    (body : ∀ k, contract = some k → Along (R w) (k w)) : Along (R w) (work w tx interrupted contract) := by
  have called : Along (R w) (runContract w contract) := by
    cases contract with
    | none => exact covers.pure _
    | some k =>
      refine covers.bind (body k rfl) fun v => covers.bind (covers.lift .working) fun k => ?_
      split
      · exact covers.throw _
      · exact covers.pure _
  refine covers.bind (covers.forM (fun address => covers.lift (.tryHold address)) _) fun _ => ?_
  refine covers.bind (covers.lift (.prepare tx)) fun _ => covers.bind called fun result => ?_
  split
  · exact covers.throw _
  · exact covers.pure _

theorem program (covers : Covers c R) {nesting : Bool} (nested : nesting = true → CoversNested c R)
    {x : LedgerScriptM α} (h : Program c nesting w x) : Along (R w) x := by
  induction h with
  | pure a => exact covers.pure a
  | throw f => exact covers.throw f
  | bind _ _ first rest => exact covers.bind first rest
  | operation op => exact covers.lift op
  | attempt op =>
    intro s r t h
    rw [exec_attempt] at h
    cases h
    exact covers.operation op (Prod.mk.eta).symm
  | onHeap allowed => exact covers.onHeap allowed
  | heap =>
    intro s r t h
    cases h
    exact covers.refl _ _
  | row name r =>
    intro s r t h
    cases h
    exact covers.refl _ _
  | newTransaction allowed sender receiver amount method args code =>
    intro s r t h
    cases h
    exact (nested allowed).made _ _ _
  | transact allowed admitted before after _ body => exact (nested allowed).transact admitted body

end Covers

def Worked (w : WorkingId) (s t : LedgerState Unit Unit Unit) : Prop :=
  w < s.ledger.workings.size → LedgerState.Alters w s t

/-- A contract without transactions of its own only works on its working set, as long as values are not changed. -/
theorem covers_worked {c : Conduct} (grows : ∀ h h', c.heap h h' → h.Extends h') : Covers c Worked where
  refl w s _ := .refl w s
  trans first second bound := by
    have before := first bound
    exact before.trans (second (by rw [before.changes.beside.size]; exact bound))
  operation op _ _ _ h bound := op.works _ _ _ bound h
  heap w s heap allowed _ := ⟨.refl, grows _ _ allowed⟩
  sched w s sched _ := ⟨.refl, .refl _⟩

/-! ## Programs are runs -/

section

open Session (Apart Run Step)

variable {c : Conduct} {w : WorkingId}
variable {s t : LedgerState Unit Unit Unit} {active : List WorkingId}

def FreeRun (c : Conduct) (s t : LedgerState Unit Unit Unit) (active active' : List WorkingId) : Prop :=
  ∃ events, Run c ⟨s, active⟩ events ⟨t, active'⟩ ∧ ∀ e ∈ events, e.isCredit = false

theorem FreeRun.refl (c : Conduct) (s : LedgerState Unit Unit Unit) (active : List WorkingId) :
    FreeRun c s s active active :=
  ⟨[], .refl, nofun⟩

theorem FreeRun.trans {u : LedgerState Unit Unit Unit} {active' active'' : List WorkingId}
    (first : FreeRun c s t active active') (second : FreeRun c t u active' active'') : FreeRun c s u active active'' := by
  obtain ⟨events, run, free⟩ := first
  obtain ⟨more, run', free'⟩ := second
  exact ⟨events ++ more, run.trans run', fun e he => (List.mem_append.mp he).elim (free e) (free' e)⟩

theorem FreeRun.single {active' : List WorkingId}
    (step : Step c ⟨s, active⟩ [] ⟨t, active'⟩) : FreeRun c s t active active' :=
  ⟨[], .single step, nofun⟩

theorem FreeRun.apart {s t : LedgerState Unit Unit Unit} {active active' : List WorkingId}
    (h : FreeRun c s t active active') (apart : Apart ⟨s, active⟩) : Apart ⟨t, active'⟩ := by
  obtain ⟨events, run, -⟩ := h
  exact run.apart apart

/-- From one state to another there is a run that ends with the same working sets in use. -/
def Conducted (c : Conduct) (w : WorkingId) (s t : LedgerState Unit Unit Unit) : Prop :=
  ∀ active, Apart ⟨s, active⟩ → w ∈ active → FreeRun c s t active active

theorem Conducted.trans {u : LedgerState Unit Unit Unit} (first : Conducted c w s t) (second : Conducted c w t u) :
    Conducted c w s u := by
  intro active apart mine
  have before := first active apart mine
  exact before.trans (second active (before.apart apart) mine)

theorem conducted_commit {r : Except LedgerFault Nat}
    (h : LedgerM.exec (LedgerM.commit w) s = (r, t)) : Conducted c w s t := by
  intro active apart mine
  refine ⟨_, .single (.commit mine h), fun e he => ?_⟩
  rw [List.mem_singleton.mp he]
  unfold Session.commitEvent
  split <;> rfl

theorem covers_conducted (c : Conduct) : Covers c (Conducted c) where
  refl _ s active _ _ := .refl c s active
  trans := Conducted.trans
  operation op _ _ _ h _ _ mine := .single (.use mine op h)
  heap _ s heap allowed _ _ _ :=
    .single (.elsewhere s.sched heap s.ledger.made s.ledger.store.refusesBlocks s.ledger.store.refusesAccounts
      s.ledger.store.refuses allowed)
  sched _ s sched active _ _ := .single (.sched s active sched)

theorem along_perform (tx : Transaction) (interrupted : Bool) {contract : Option Contract}
    (body : ∀ k, contract = some k → Along (Conducted c w) (k w)) :
    Along (Conducted c w) (perform w tx interrupted contract) := by
  have covers := covers_conducted c
  have commits : Along (Conducted c w) (lift (LedgerM.commit w)) := by
    intro s r t h
    rw [exec_lift] at h
    cases h
    exact conducted_commit (Prod.mk.eta).symm
  refine covers.bind (covers.work tx interrupted body) fun result => covers.bind commits fun block => ?_
  exact covers.bind (covers.lift .working) fun k => covers.pure _

/-- A transaction is a run that opens a working set and releases it. -/
theorem freeRun_transact {tx : Transaction} {before after : Bool} {contract : Option Contract}
    (body : ∀ k, contract = some k → ∀ w, Along (Conducted c w) (k w)) {s t : LedgerScriptState}
    {r : Except BodyFault (Receipt BodyFault)} (h : exec (transact tx before after contract) s = (r, t))
    (admitted : c.admits s.state.heap tx) (apart : Apart ⟨s.state, active⟩) : FreeRun c s.state t.state active active := by
  rcases transact_cases h with ⟨f, hf⟩ | ⟨receipt, u, hu, -, hr⟩
  · obtain ⟨sched, hs⟩ := exec_rollback tx f s
    cases hs.symm.trans hf
    exact .single (.sched s.state active sched)
  · have covers := covers_conducted c
    have started : FreeRun c s.state (opened s tx).state active (s.state.ledger.workings.size :: active) :=
      .single (.start (s := ⟨s.state, active⟩) tx false admitted)
    have performs : Along (Conducted c s.state.ledger.workings.size)
        (tryCatch (perform s.state.ledger.workings.size tx after contract) (rollback tx)) :=
      covers.tryCatch (along_perform tx after fun k hk => body k hk _) fun f => covers.rollback tx f
    have worked := performs _ _ u hu _ (started.apart apart) List.mem_cons_self
    have newest : s.state.ledger.workings.size ∈ s.state.ledger.workings.size :: active := List.mem_cons_self
    have released := Step.release (c := c) newest hr
    rw [List.erase_cons_head] at released
    exact (started.trans worked).trans (.single released)

theorem coversNested_conducted (c : Conduct) : CoversNested c (Conducted c) where
  made _ s made _ _ _ :=
    .single (.elsewhere s.sched s.heap made s.ledger.store.refusesBlocks s.ledger.store.refusesAccounts
      s.ledger.store.refuses (c.heap_refl s.heap))
  transact admitted body _ _ _ h _ apart _ := freeRun_transact body h (admitted _) apart

theorem Program.conducted {nesting : Bool} {x : LedgerScriptM α} (h : Program c nesting w x) : Along (Conducted c w) x :=
  (covers_conducted c).program (fun _ => coversNested_conducted c) h

end

/-! ## Scripts -/

theorem program_valueResult {w : WorkingId} (v : Value) : Program .any true w (valueResult v) :=
  .bind .heap fun _ => .pure _

/-- The log gets a row, and the body goes on. -/
theorem program_row {w : WorkingId} (name : String) (r : StepResult LedgerItem) :
    Program .any true w (do addRow name r; return none : LedgerScriptM (Option Value)) :=
  .bind (.row name r) fun _ => .pure _

mutual

/-- A scripted transaction is a program. -/
theorem program_apply (w : WorkingId) : ∀ call : LedgerCall, Program .any true w (apply call)
  | ⟨sender, receiver, amount, method, args, code, body, interrupted⟩ => by
    unfold apply
    refine .bind (.newTransaction rfl sender receiver amount method args code) fun tx => ?_
    cases body with
    | none => exact .transact rfl (fun _ => trivial) interrupted interrupted nofun
    | some steps =>
      refine .transact rfl (fun _ => trivial) interrupted interrupted fun k hk w' => ?_
      cases hk
      exact program_runBody w' steps

theorem program_runStep (w : WorkingId) (name : String) : ∀ step : BodyStep, Program .any true w (runStep w name step)
  | .load address key => by
    unfold runStep
    exact .bind (.attempt (.load address key)) fun r => .bind (program_valueResult _) fun v => program_row _ _
  | .store address key v => by
    unfold runStep
    exact .bind (.attempt (.store address key v)) fun r => program_row _ _
  | .mapSet address key k v => by
    unfold runStep
    refine .bind (.attempt (.load address key)) fun r => ?_
    split
    · exact .bind (.onHeap fun _ _ _ _ => trivial) fun _ => .bind (program_valueResult _) fun v => program_row _ _
    · exact .bind (program_valueResult _) fun v => program_row _ _
  | .balance address => by
    unfold runStep
    exact .bind (.attempt (.balance address)) fun r => program_row _ _
  | .transfer sender receiver amount strict => by
    unfold runStep
    refine .bind (.attempt (.transfer sender receiver amount)) fun r => ?_
    split
    · exact .bind (.throw _) fun _ => program_row _ _
    · exact program_row _ _
  | .validate holds message => by
    unfold runStep
    simp only
    split
    · exact .bind (.operation (.fail _)) fun _ => .bind (.operation .working) fun k => program_row _ _
    · exact .bind (.operation .working) fun k => program_row _ _
  | .validating on => by
    unfold runStep
    exact .bind (.operation (.setValidating on)) fun before => program_row _ _
  | .emit address event fields => by
    unfold runStep
    exact .bind (.attempt (.emit _)) fun r => .bind (.operation .working) fun k => program_row _ _
  | .code address => by
    unfold runStep
    exact .bind (.operation (.code address)) fun code => program_row _ _
  | .transaction => by
    unfold runStep
    exact .bind (.operation .working) fun k => program_row _ _
  | .nested call => by
    unfold runStep
    exact .bind (program_apply w call) fun r => .bind .heap fun h => program_row _ _
  | .fail message => by
    unfold runStep
    exact .throw _
  | .finish v => by
    unfold runStep
    exact .pure _
  | .unknown => by
    unfold runStep
    exact program_row _ _

theorem program_runBody (w : WorkingId) : ∀ steps : List (String × BodyStep), Program .any true w (runBody w steps)
  | [] => by
    unfold runBody
    exact .pure _
  | (name, step) :: rest => by
    unfold runBody
    refine .bind (program_runStep w name step) fun r => ?_
    cases r with
    | some v => exact .pure v
    | none => exact program_runBody w rest

end

end LedgerScriptM

end LedgerScript
