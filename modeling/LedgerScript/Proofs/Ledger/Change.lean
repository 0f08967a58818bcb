import LedgerScript.Proofs.Ledger.Accounts
import LedgerScript.Proofs.Value.Extension
import Mathlib.Logic.Relation

/-!
# What an operation can change

A contract works on its working set by operations that may fail half-way.  Whatever they do, the ledger goes through
changes of a few kinds only, and `Ledger.Change` lists them: an address gets a lock or is held, a committed account is
copied, a copy changes without its balance, value moves between two copies, or a mark is set.  None of them touches
committed state.

Each operation is shown once to consist of such changes and to extend the heap.  Everything that is said about runs
of the ledger later on follows from the kinds of changes, and no proof looks into an operation again.
-/

namespace LedgerScript

variable {V E B α β : Type}

/-! ## Running operations -/

namespace LedgerM

variable (s : LedgerState V E B)

/-- What an operation gives and where it leads. -/
def exec (x : LedgerM V E B α) (s : LedgerState V E B) : Except LedgerFault α × LedgerState V E B :=
  x.run.run s

theorem exec_bind (x : LedgerM V E B α) (f : α → LedgerM V E B β) (s : LedgerState V E B) :
    exec (x >>= f) s = match exec x s with
      | (.ok a, t) => exec (f a) t
      | (.error e, t) => (.error e, t) := by
  have step : exec (x >>= f) s = match exec x s with | (r, t) => ExceptT.bindCont f r t := rfl
  rw [step]
  rcases exec x s with ⟨r | a, t⟩ <;> rfl

/-- An operation in two parts either fails in the first one, or goes on from where that ended. -/
theorem of_exec_bind {x : LedgerM V E B α} {f : α → LedgerM V E B β} {s t : LedgerState V E B}
    {r : Except LedgerFault β} (h : exec (x >>= f) s = (r, t)) :
    (∃ e, exec x s = (.error e, t) ∧ r = .error e) ∨ ∃ a u, exec x s = (.ok a, u) ∧ exec (f a) u = (r, t) := by
  rw [exec_bind] at h
  rcases hx : exec x s with ⟨e | a, u⟩
  · rw [hx] at h
    cases h
    exact .inl ⟨e, rfl, rfl⟩
  · rw [hx] at h
    exact .inr ⟨a, u, rfl, h⟩

@[simp] theorem exec_pure (a : α) (s : LedgerState V E B) : exec (pure a) s = (.ok a, s) := rfl

@[simp] theorem exec_throw (e : LedgerFault) (s : LedgerState V E B) :
    exec (throw e : LedgerM V E B α) s = (.error e, s) := rfl

@[simp] theorem exec_get : exec get s = (.ok s, s) := rfl

@[simp] theorem exec_set (t : LedgerState V E B) : exec (set t) s = (.ok ⟨⟩, t) := rfl

@[simp] theorem exec_modify (f : LedgerState V E B → LedgerState V E B) (s : LedgerState V E B) :
    exec (modify f) s = (.ok ⟨⟩, f s) := rfl

@[simp] theorem exec_ledger : exec ledger s = (.ok s.ledger, s) := rfl

@[simp] theorem exec_modifyLedger (f : Ledger → Ledger) (s : LedgerState V E B) :
    exec (modifyLedger f) s = (.ok (), { s with ledger := f s.ledger }) := rfl

@[simp] theorem exec_modifySched (f : Scheduler V E B → Scheduler V E B) (s : LedgerState V E B) :
    exec (modifySched f) s = (.ok (), { s with sched := f s.sched }) := rfl

@[simp] theorem exec_working (w : WorkingId) (s : LedgerState V E B) :
    exec (working w) s = (.ok (s.ledger.working w), s) := rfl

@[simp] theorem exec_modifyWorking (w : WorkingId) (f : Working → Working) (s : LedgerState V E B) :
    exec (modifyWorking w f) s = (.ok (), { s with ledger := s.ledger.modifyWorking w f }) := rfl

@[simp] theorem exec_holder? (address : Address) (s : LedgerState V E B) :
    exec (holder? address) s = (.ok (s.ledger.holder? address), s) := rfl

@[simp] theorem exec_inTask : exec inTask s = (.ok s.sched.current.isSome, s) := rfl

@[simp] theorem exec_note (name : String) (detail : Bytes) (attrs : List (String × Bytes)) (s : LedgerState V E B) :
    exec (note name detail attrs) s =
      (.ok (), { s with sched := s.sched.note { scope := .ledger, name, detail, attrs } }) := rfl

theorem exec_onHeap (f : Heap → Except Crash (α × Heap)) (s : LedgerState V E B) :
    exec (onHeap f) s = match f s.heap with
      | .ok (a, heap) => (.ok a, { s with heap })
      | .error c => (.error (.crash c), s) := by
  unfold onHeap
  simp only [exec_bind, exec_get]
  cases f s.heap <;> rfl

/-- Something is made from the heap, which stays as it is. -/
theorem exec_onHeap_read (f : Heap → Except Crash α) (s : LedgerState V E B) :
    exec (onHeap fun h => do return (← f h, h)) s = match f s.heap with
      | .ok a => (.ok a, s)
      | .error c => (.error (.crash c), s) := by
  rw [exec_onHeap]
  cases f s.heap <;> rfl

theorem exec_onStore (f : Store → Heap → Except StoreFault (Store × Heap)) (s : LedgerState V E B) :
    exec (onStore f) s = match f s.ledger.store s.heap with
      | .ok (store, heap) => (.ok none, { s with heap, ledger := { s.ledger with store } })
      | .error e => (.ok (some e), s) := by
  unfold onStore
  simp only [exec_bind, exec_get]
  cases f s.ledger.store s.heap <;> rfl

end LedgerM

namespace Ledger

variable (l : Ledger)

/-! ## Working sets -/

@[simp] theorem size_modifyWorking (w : WorkingId) (f : Working → Working) :
    (l.modifyWorking w f).workings.size = l.workings.size := by
  simp [modifyWorking]

theorem working_modifyWorking {l : Ledger} {w : WorkingId} (hw : w < l.workings.size) (f : Working → Working) :
    (l.modifyWorking w f).working w = f (l.working w) := by
  simp [modifyWorking, working, Array.getElem?_modify, Array.getElem?_eq_getElem hw]

theorem working_modifyWorking_ne {l : Ledger} {w w' : WorkingId} (hne : w ≠ w') (f : Working → Working) :
    (l.modifyWorking w f).working w' = l.working w' := by
  simp [modifyWorking, working, Array.getElem?_modify, hne]

theorem modifyWorking_modifyWorking (w : WorkingId) (f g : Working → Working) :
    (l.modifyWorking w f).modifyWorking w g = l.modifyWorking w fun k => g (f k) := by
  have same : (l.workings.modify w f).modify w g = l.workings.modify w fun k => g (f k) := by
    refine Array.ext (by simp) fun i hi hi' => ?_
    simp only [Array.getElem_modify]
    split <;> rfl
  simp only [modifyWorking, same]

@[simp] theorem holders_modifyWorking (w : WorkingId) (f : Working → Working) :
    (l.modifyWorking w f).holders = l.holders := rfl

/-! ## Changes -/

/-- One change that the working set `w` makes. -/
inductive Change (w : WorkingId) : Ledger → Ledger → Prop where
  /-- Addresses get locks. -/
  | lock (l : Ledger) (locks : List (Address × ObjectId)) : Change w l { l with locks }
  | hold {l : Ledger} {address : Address} (locked : Bool) (free : l.holder? address = none) :
    Change w l (({ l with holders := (address, w) :: l.holders }).modifyWorking w
      fun k => { k with held := (address, locked) :: k.held })
  /-- A committed account at a held address is copied. -/
  | copy {l : Ledger} (x : Account) (new : (l.working w).copy? x.address = none)
    (mine : l.holder? x.address = some w)
    (cloned : ∃ storage, x = { (l.account? x.address).getD { address := x.address } with storage }) :
    Change w l (l.modifyWorking w fun k => { k with accounts := k.accounts ++ [x] })
  /-- A copy changes, and its balance stays. -/
  | update {l : Ledger} {x : Account} (y : Account) (old : (l.working w).copy? y.address = some x)
    (balance : y.balance = x.balance) :
    Change w l (l.modifyWorking w fun k => { k with accounts := putAccount k.accounts y })
  /-- Value moves from one copy to another, which may be the same. -/
  | move {l : Ledger} (source target : Account) (amount : Int)
    (atSource : (l.working w).copy? source.address = some source)
    (atTarget : accountAt (putAccount (l.working w).accounts { source with balance := source.balance - amount })
      target.address = some target) :
    Change w l (l.modifyWorking w fun k =>
      { k with
        accounts := putAccount (putAccount k.accounts { source with balance := source.balance - amount })
          { target with balance := target.balance + amount } })
  /-- Something else about the working set changes. -/
  | mark {l : Ledger} (f : Working → Working)
    (keeps : ∀ k, (f k).accounts = k.accounts ∧ (f k).held = k.held ∧ (f k).tx = k.tx) :
    Change w l (l.modifyWorking w f)

abbrev Changes (w : WorkingId) : Ledger → Ledger → Prop :=
  Relation.ReflTransGen (Change w)

section

variable {w : WorkingId} {l l' : Ledger}

/-- What no change of a working set touches. -/
structure Beside (w : WorkingId) (l l' : Ledger) : Prop where
  accounts : l'.accounts = l.accounts
  chain : l'.chain = l.chain
  store : l'.store = l.store
  isClosed : l'.isClosed = l.isClosed
  size : l'.workings.size = l.workings.size
  tx : (l'.working w).tx = (l.working w).tx
  others : ∀ w' ≠ w, l'.working w' = l.working w'
  holders : l'.holders.filter (·.2 != w) = l.holders.filter (·.2 != w)

theorem Beside.refl (w : WorkingId) (l : Ledger) : Beside w l l :=
  ⟨rfl, rfl, rfl, rfl, rfl, rfl, fun _ _ => rfl, rfl⟩

theorem Beside.trans {l'' : Ledger} (first : Beside w l l') (second : Beside w l' l'') : Beside w l l'' where
  accounts := second.accounts.trans first.accounts
  chain := second.chain.trans first.chain
  store := second.store.trans first.store
  isClosed := second.isClosed.trans first.isClosed
  size := second.size.trans first.size
  tx := second.tx.trans first.tx
  others w' hne := (second.others w' hne).trans (first.others w' hne)
  holders := second.holders.trans first.holders

/-- Every working set still has its transaction. -/
theorem Beside.working_tx (h : Beside w l l') (v : WorkingId) : (l'.working v).tx = (l.working v).tx := by
  by_cases e : v = w
  · rw [e]
    exact h.tx
  · rw [h.others v e]

theorem beside_modifyWorking (l : Ledger) (w : WorkingId) {f : Working → Working} (keeps : ∀ k, (f k).tx = k.tx) :
    Beside w l (l.modifyWorking w f) where
  accounts := rfl
  chain := rfl
  store := rfl
  isClosed := rfl
  size := size_modifyWorking l w f
  tx := by
    by_cases hw : w < l.workings.size
    · rw [working_modifyWorking hw, keeps]
    · simp [modifyWorking, working, Array.getElem?_modify, Array.getElem?_eq_none (Nat.le_of_not_lt hw)]
  others w' hne := working_modifyWorking_ne hne.symm f
  holders := rfl

theorem Change.beside (h : Change w l l') : Beside w l l' := by
  cases h with
  | lock locks => exact ⟨rfl, rfl, rfl, rfl, rfl, rfl, fun _ _ => rfl, rfl⟩
  | @hold address locked free =>
    have taken : Beside w l { l with holders := (address, w) :: l.holders } :=
      ⟨rfl, rfl, rfl, rfl, rfl, rfl, fun _ _ => rfl, List.filter_cons_of_neg (by simp)⟩
    exact taken.trans (beside_modifyWorking _ w fun k => rfl)
  | copy x new mine cloned => exact beside_modifyWorking l w fun k => rfl
  | update y old balance => exact beside_modifyWorking l w fun k => rfl
  | move source target amount atSource atTarget => exact beside_modifyWorking l w fun k => rfl
  | mark f keeps => exact beside_modifyWorking l w fun k => (keeps k).2.2

theorem Changes.beside (h : Changes w l l') : Beside w l l' := by
  induction h with
  | refl => exact .refl w l
  | tail _ step ih => exact ih.trans step.beside

end

end Ledger

/-! ## Operations consist of changes -/

/-- A working set has worked: the ledger went through its changes, and the heap grew. -/
structure LedgerState.Alters (w : WorkingId) (s t : LedgerState V E B) : Prop where
  changes : Ledger.Changes w s.ledger t.ledger
  grows : s.heap.Extends t.heap

namespace LedgerState

variable {w : WorkingId} {s t u : LedgerState V E B}

theorem Alters.refl (w : WorkingId) (s : LedgerState V E B) : Alters w s s :=
  ⟨.refl, .refl _⟩

theorem Alters.trans (first : Alters w s t) (second : Alters w t u) : Alters w s u :=
  ⟨first.changes.trans second.changes, first.grows.trans second.grows⟩

theorem Alters.of_change {l : Ledger} (h : Ledger.Change w s.ledger l) : Alters w s { s with ledger := l } :=
  ⟨.single h, .refl _⟩

theorem Alters.sched (h : Alters w s t) (sched : Scheduler V E B) : Alters w s { t with sched } :=
  ⟨h.changes, h.grows⟩

end LedgerState

namespace LedgerM

open LedgerState (Alters)

variable {w : WorkingId} {s t : LedgerState V E B}
variable {r : Except LedgerFault Unit} (address : Address)

theorem exec_lockOf {address : Address} {r : Except LedgerFault ObjectId} (h : exec (lockOf address) s = (r, t)) :
    (∃ id, r = .ok id) ∧ ∃ locks, t.ledger = { s.ledger with locks } ∧ t.heap = s.heap := by
  unfold lockOf at h
  simp only [exec_bind, exec_ledger] at h
  split at h
  · cases h
    exact ⟨⟨_, rfl⟩, s.ledger.locks, rfl, rfl⟩
  · simp only [exec_bind, exec_get, exec_set, exec_pure] at h
    cases h
    exact ⟨⟨_, rfl⟩, _, rfl, rfl⟩

/-- What taking an address does: copies stay as they are, and if it succeeds the address is held. -/
structure Takes (w : WorkingId) (address : Address) (s t : LedgerState V E B) (taken : Prop) : Prop where
  alters : Alters w s t
  copies : (t.ledger.working w).accounts = (s.ledger.working w).accounts
  mine : taken → t.ledger.holder? address = some w

theorem lockNeeded_spec {address : Address} {r : Except LedgerFault (Option ObjectId)}
    (h : exec (lockNeeded w address) s = (r, t)) : Takes w address s t False := by
  unfold lockNeeded at h
  simp only [exec_bind, exec_holder?] at h
  split at h
  · cases h
    exact ⟨.refl w s, rfl, False.elim⟩
  · simp only [exec_bind, exec_inTask] at h
    split at h
    · rcases of_exec_bind h with ⟨e, hx, -⟩ | ⟨id, u, hx, hp⟩
      · obtain ⟨⟨id, hr⟩, -⟩ := exec_lockOf hx
        cases hr
      · obtain ⟨-, locks, hl, hh⟩ := exec_lockOf hx
        cases hp
        refine ⟨⟨?_, ?_⟩, ?_, False.elim⟩
        · rw [hl]
          exact .single (.lock s.ledger locks)
        · rw [hh]
          exact .refl _
        · rw [hl]
          rfl
    · cases h
      exact ⟨.refl w s, rfl, False.elim⟩

theorem hold_spec (hw : w < s.ledger.workings.size) {address : Address} {lock? : Option ObjectId} (h : exec (hold w address lock?) s = (r, t)) :
    Takes w address s t (r = .ok ()) := by
  unfold hold at h
  simp only [exec_bind, exec_holder?] at h
  split at h
  · next other hother =>
    split at h
    · next e =>
      cases h
      exact ⟨.refl w s, rfl, fun _ => by rw [hother, eq_of_beq e]⟩
    · have nothing : ∃ sched, t = { s with sched } ∧ r = .error (.conflict address) := by
        cases lock? <;> simp [exec_bind] at h <;> exact ⟨_, h.2.symm, h.1.symm⟩
      obtain ⟨sched, rfl, rfl⟩ := nothing
      exact ⟨(Alters.refl w s).sched sched, rfl, fun e => by cases e⟩
  · next free =>
    simp only [exec_bind, exec_modifyLedger, exec_modifyWorking] at h
    cases h
    refine ⟨.of_change (.hold lock?.isSome free), ?_, fun _ => by simp [Ledger.holder?]⟩
    have hw' : w < ({ s.ledger with holders := (address, w) :: s.ledger.holders } : Ledger).workings.size := hw
    rw [Ledger.working_modifyWorking hw']
    rfl

theorem Takes.size {address : Address} {P : Prop} (h : Takes w address s t P) :
    t.ledger.workings.size = s.ledger.workings.size :=
  h.alters.changes.beside.size

theorem tryHold_spec (hw : w < s.ledger.workings.size) {address : Address}
    (h : exec (tryHold w address) s = (r, t)) : Takes w address s t (r = .ok ()) := by
  unfold tryHold at h
  rcases of_exec_bind h with ⟨e, hx, rfl⟩ | ⟨lock?, u, hx, hu⟩
  · have before := lockNeeded_spec hx
    exact ⟨before.alters, before.copies, fun e => by cases e⟩
  · have before := lockNeeded_spec hx
    have hwu : w < u.ledger.workings.size := before.size ▸ hw
    cases lock? with
    | none =>
      have after := hold_spec hwu hu
      exact ⟨before.alters.trans after.alters, after.copies.trans before.copies, after.mine⟩
    | some lock =>
      simp only [exec_bind, exec_get, exec_set] at hu
      split at hu
      · have after := hold_spec (s := { u with sched := (u.sched.tryLock lock).2 }) hwu hu
        exact ⟨(before.alters.sched _).trans after.alters, after.copies.trans before.copies, after.mine⟩
      · cases hu
        exact ⟨before.alters.sched _, before.copies, fun e => by cases e⟩

/-- Touching an account gives the copy in the working set, and copies that were there stay. -/
structure Touches (w : WorkingId) (address : Address) (s t : LedgerState V E B) (r : Except LedgerFault Account) :
    Prop where
  alters : Alters w s t
  stays : ∀ b x, (s.ledger.working w).copy? b = some x → (t.ledger.working w).copy? b = some x
  gives : ∀ x, r = .ok x → (t.ledger.working w).copy? address = some x
  cloned : ∀ x, r = .ok x → (s.ledger.working w).copy? address = none →
    ∃ storage, x = { (s.ledger.account? address).getD { address } with storage }

theorem touch_spec (hw : w < s.ledger.workings.size) {address : Address} {r : Except LedgerFault Account}
    (h : exec (touch w address) s = (r, t)) : Touches w address s t r := by
  unfold touch at h
  simp only [exec_bind, exec_working] at h
  split at h
  · next x hx =>
    cases h
    refine ⟨.refl w s, fun b y hy => hy, fun y e => by cases e; exact hx, fun y e none => ?_⟩
    rw [hx] at none
    cases none
  · next new =>
    rcases of_exec_bind h with ⟨e, hx, rfl⟩ | ⟨⟨⟩, u, hx, hu⟩
    · have taken := tryHold_spec hw hx
      exact ⟨taken.alters, fun b x hb => by rw [Working.copy?, taken.copies]; exact hb, nofun, nofun⟩
    · have taken := tryHold_spec hw hx
      have hwu : w < u.ledger.workings.size := taken.size ▸ hw
      have newer : (u.ledger.working w).copy? address = none := by rw [Working.copy?, taken.copies]; exact new
      -- The copy, made from a committed account or for an address that has none, goes behind the others.
      have added (x : Account) (u' : LedgerState V E B) (hl : u'.ledger = u.ledger) (grows : u.heap.Extends u'.heap)
          (hx : x.address = address)
          (cloned : ∃ storage, x = { (u.ledger.account? x.address).getD { address := x.address } with storage }) :
          Touches w address s
            ⟨u'.sched, u'.heap, u'.ledger.modifyWorking w fun k => { k with accounts := k.accounts ++ [x] }⟩ (.ok x) := by
        have change : Ledger.Change w u.ledger
            (u.ledger.modifyWorking w fun k => { k with accounts := k.accounts ++ [x] }) :=
          .copy x (hx ▸ newer) (hx ▸ taken.mine rfl) cloned
        have copies : ∀ b, ((u.ledger.modifyWorking w fun k => { k with accounts := k.accounts ++ [x] }).working
            w).copy? b = ((s.ledger.working w).copy? b).or (if x.address = b then some x else none) := by
          intro b
          rw [Ledger.working_modifyWorking hwu, Working.copy?, taken.copies]
          exact accountAt_append _ x b
        rw [hl]
        refine ⟨⟨taken.alters.changes.tail change, taken.alters.grows.trans grows⟩, ?_, ?_, ?_⟩
        · intro b y hb
          rw [copies, hb]
          rfl
        · intro y e
          cases e
          rw [copies, new]
          simp [hx]
        · intro y e _
          cases e
          rw [hx, Ledger.account?, taken.alters.changes.beside.accounts] at cloned
          exact cloned
      simp only [exec_bind, exec_ledger] at hu
      cases hc : u.ledger.account? address with
      | none =>
        rw [hc] at hu
        simp only [exec_pure, exec_bind, exec_modifyWorking] at hu
        cases hu
        exact added { address } u rfl (.refl _) rfl ⟨[], by rw [hc]; rfl⟩
      | some committed =>
        rw [hc] at hu
        simp only at hu
        rw [exec_bind, exec_onHeap] at hu
        cases hv : committed.clone u.heap with
        | error c =>
          rw [hv] at hu
          cases hu
          exact ⟨taken.alters, fun b x hb => by rw [Working.copy?, taken.copies]; exact hb, nofun, nofun⟩
        | ok p =>
          rw [hv] at hu
          simp only [exec_pure, exec_bind, exec_modifyWorking] at hu
          cases hu
          obtain ⟨grows, storage, hp⟩ := Account.clone_spec hv
          have at_address : p.1.address = address := by
            rw [hp]
            exact accountAt_address (x := committed) hc
          exact added p.1 { u with heap := p.2 } rfl grows at_address ⟨storage, by rw [at_address, hc]; exact hp⟩

/-- Touching an account that is there already only gives its copy. -/
theorem exec_touch_copy {address : Address} {x : Account} (h : (s.ledger.working w).copy? address = some x) :
    exec (touch w address) s = (.ok x, s) := by
  unfold touch
  rw [exec_bind, exec_working]
  simp only [h, exec_pure]

/-- An operation works on a working set if all that it does are changes of that working set. -/
def Works (w : WorkingId) (x : LedgerM V E B α) : Prop :=
  ∀ s r t, w < s.ledger.workings.size → exec x s = (r, t) → Alters w s t

theorem works_pure (a : α) : Works w (pure a : LedgerM V E B α) := by
  intro s r t hw h
  cases h
  exact .refl w s

theorem works_throw (e : LedgerFault) : Works w (throw e : LedgerM V E B α) := by
  intro s r t hw h
  cases h
  exact .refl w s

theorem Works.bind {x : LedgerM V E B α} {f : α → LedgerM V E B β} (hx : Works w x) (hf : ∀ a, Works w (f a)) :
    Works w (x >>= f) := by
  intro s r t hw h
  rcases of_exec_bind h with ⟨e, hs, -⟩ | ⟨a, u, hs, hu⟩
  · exact hx s _ t hw hs
  · have first := hx s _ u hw hs
    exact first.trans (hf a u r t (first.changes.beside.size ▸ hw) hu)

theorem works_working (w' : WorkingId) : Works w (working w' : LedgerM V E B Working) := by
  intro s r t hw h
  cases h
  exact .refl w s

theorem works_ledger : Works w (ledger : LedgerM V E B Ledger) := by
  intro s r t hw h
  cases h
  exact .refl w s

theorem works_mark {f : Working → Working}
    (keeps : ∀ k, (f k).accounts = k.accounts ∧ (f k).held = k.held ∧ (f k).tx = k.tx) :
    Works w (modifyWorking w f : LedgerM V E B Unit) := by
  intro s r t hw h
  cases h
  exact .of_change (.mark f keeps)

theorem works_touch : Works w (touch w address : LedgerM V E B Account) := by
  intro s r t hw h
  exact (touch_spec hw h).alters

/-- A copy is changed, its balance apart. -/
theorem alters_update {x y : Account} (h : exec (update w y) s = (r, t))
    (copy : (s.ledger.working w).copy? x.address = some x) (address : y.address = x.address)
    (balance : y.balance = x.balance) : Alters w s t := by
  cases h
  exact .of_change (.update y (address ▸ copy) balance)

/-- A copy is touched and changed, its balance apart. -/
theorem works_touch_update {f : Account → Account} (keeps : ∀ x, (f x).address = x.address ∧ (f x).balance = x.balance) :
    Works w (do update w (f (← touch w address)) : LedgerM V E B Unit) := by
  intro s r t hw h
  rcases of_exec_bind h with ⟨e, hs, -⟩ | ⟨x, u, hs, hu⟩
  · exact (touch_spec hw hs).alters
  · have touched := touch_spec hw hs
    have copy := touched.gives x rfl
    rw [← show x.address = address from accountAt_address copy] at copy
    exact touched.alters.trans (alters_update hu copy (keeps x).1 (keeps x).2)

theorem works_transfer (sender receiver : Address) (amount : Int) :
    Works w (transfer w sender receiver amount : LedgerM V E B Unit) := by
  intro s r t hw h
  unfold transfer at h
  simp only [exec_bind, exec_working] at h
  split at h
  · cases h
    exact .refl w s
  split at h
  · cases h
    exact .refl w s
  rcases of_exec_bind h with ⟨e, h₁, -⟩ | ⟨x, u₁, h₁, h⟩
  · exact (touch_spec hw h₁).alters
  have first := touch_spec hw h₁
  have hw₁ : w < u₁.ledger.workings.size := first.alters.changes.beside.size ▸ hw
  rcases of_exec_bind h with ⟨e, h₂, -⟩ | ⟨y, u, h₂, h⟩
  · exact first.alters.trans (touch_spec hw₁ h₂).alters
  have second := touch_spec hw₁ h₂
  have hw₂ : w < u.ledger.workings.size := second.alters.changes.beside.size ▸ hw₁
  have touched := first.alters.trans second.alters
  -- Both copies are there now, so the source is the one found first, and the target is looked up behind its change.
  have source := second.stays sender x (first.gives x rfl)
  rw [exec_bind, exec_touch_copy source] at h
  simp only at h
  split at h
  · cases h
    exact touched
  have at_sender : x.address = sender := accountAt_address source
  have target : ∃ z, accountAt (Ledger.putAccount (u.ledger.working w).accounts
      { x with balance := x.balance - amount }) receiver = some z := by
    rw [accountAt_putAccount]
    split
    · exact ⟨_, rfl⟩
    · exact ⟨y, second.gives y rfl⟩
  obtain ⟨z, hz⟩ := target
  rw [exec_bind, update, exec_modifyWorking] at h
  simp only at h
  rw [exec_bind, exec_touch_copy (x := z)] at h
  · simp only [update, exec_modifyWorking] at h
    cases h
    refine touched.trans (.of_change ?_)
    have at_receiver : z.address = receiver := accountAt_address hz
    rw [Ledger.modifyWorking_modifyWorking]
    exact .move x z amount (at_sender ▸ source) (at_receiver ▸ hz)
  · rw [Working.copy?, Ledger.working_modifyWorking hw₂]
    exact hz

theorem works_lockNeeded : Works w (lockNeeded w address : LedgerM V E B (Option ObjectId)) := by
  intro s r t hw h
  exact (lockNeeded_spec h).alters

theorem works_hold (lock? : Option ObjectId) : Works w (hold w address lock? : LedgerM V E B Unit) := by
  intro s r t hw h
  exact (hold_spec hw h).alters

theorem works_tryHold : Works w (tryHold w address : LedgerM V E B Unit) := by
  intro s r t hw h
  exact (tryHold_spec hw h).alters

theorem works_deepCopy (v : Value) : Works w (onHeap (fun h => h.deepCopy v) : LedgerM V E B Value) := by
  intro s r t hw h
  rw [exec_onHeap] at h
  cases hv : s.heap.deepCopy v with
  | error c => rw [hv] at h; cases h; exact .refl w s
  | ok p =>
    rw [hv] at h
    cases h
    exact ⟨.refl, Heap.extends_deepCopy hv⟩

theorem works_load (key : Bytes) : Works w (load w address key : LedgerM V E B Value) := by
  refine (works_working w).bind fun k => ?_
  split
  · split
    · exact works_pure _
    · refine works_ledger.bind fun l => ?_
      split
      · exact works_deepCopy _
      · exact works_pure _
  · exact (works_touch address).bind fun a => works_pure _

theorem Account.setSlot_keeps (a : Account) (key : Bytes) (v : Value) :
    (a.setSlot key v).address = a.address ∧ (a.setSlot key v).balance = a.balance := by
  unfold Account.setSlot
  split <;> exact ⟨rfl, rfl⟩

theorem works_store (key : Bytes) (v : Value) : Works w (store w address key v : LedgerM V E B Unit) := by
  refine (works_working w).bind fun k => ?_
  split
  · exact (works_throw _).bind fun _ => works_touch_update address fun a => Account.setSlot_keeps a key v
  · exact works_touch_update address fun a => Account.setSlot_keeps a key v

theorem works_code : Works w (code w address : LedgerM V E B Bytes) := by
  refine (works_working w).bind fun k => ?_
  split
  · exact works_pure _
  · refine works_ledger.bind fun l => ?_
    split <;> exact works_pure _

theorem works_balance : Works w (balance w address : LedgerM V E B Int) := by
  refine (works_working w).bind fun k => ?_
  split
  · exact works_ledger.bind fun l => works_pure _
  · exact (works_touch address).bind fun a => works_pure _

theorem works_emit (e : LedgerEvent) : Works w (emit w e : LedgerM V E B Unit) := by
  refine (works_working w).bind fun k => ?_
  split
  · exact (works_throw _).bind fun _ => works_mark fun k => ⟨rfl, rfl, rfl⟩
  · exact works_mark fun k => ⟨rfl, rfl, rfl⟩

theorem works_fail (f : LedgerFault) : Works w (fail w f : LedgerM V E B Unit) :=
  works_mark fun _ => ⟨rfl, rfl, rfl⟩

theorem works_setValidating (on : Bool) : Works w (setValidating w on : LedgerM V E B Bool) := by
  refine (works_working w).bind fun k => ?_
  exact Works.bind (works_mark fun k => ⟨rfl, rfl, rfl⟩) fun _ => works_pure _

theorem works_deploy (sender address : Address) (code : Bytes) :
    Works w (deploy w sender address code : LedgerM V E B Unit) := by
  intro s r t hw h
  rcases of_exec_bind h with ⟨e, hs, -⟩ | ⟨x, u, hs, hu⟩
  · exact (touch_spec hw hs).alters
  have touched := touch_spec hw hs
  have copy := touched.gives x rfl
  rw [← show x.address = address from accountAt_address copy] at copy
  simp only at hu
  split at hu
  · cases hu
    exact touched.alters
  rcases of_exec_bind hu with ⟨e, hv, -⟩ | ⟨⟨⟩, v, hv, hv'⟩
  · exact touched.alters.trans (alters_update hv copy rfl rfl)
  · have installed := touched.alters.trans (alters_update hv copy rfl rfl)
    have hwv : w < v.ledger.workings.size := installed.changes.beside.size ▸ hw
    exact installed.trans
      (works_touch_update sender (f := fun a => { a with nonce := a.nonce + 1 }) (fun _ => ⟨rfl, rfl⟩) v r t hwv hv')

theorem works_prepare (tx : Transaction) : Works w (prepare w tx : LedgerM V E B Unit) := by
  have moved : Works w (do if tx.amount != 0 then transfer w tx.sender tx.receiver tx.amount : LedgerM V E B Unit) := by
    split
    · exact works_transfer _ _ _
    · exact works_pure _
  unfold prepare
  simp only
  split
  · exact (works_deploy _ _ _).bind fun _ => moved
  · exact moved

end LedgerM

end LedgerScript
