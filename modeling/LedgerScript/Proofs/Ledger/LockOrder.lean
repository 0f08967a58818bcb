import LedgerScript.Ledger.Lawful
import LedgerScript.Proofs.Ledger.Records
import LedgerScript.Proofs.Schedule.Handover

/-!
# The order of locks

A transaction waits for the locks of its sender and its receiver in the order of their addresses.  Whatever its contract
reaches later it takes only if it is free, without waiting.  So whoever waits for the lock of an address holds only
addresses before it, and the tasks that wait for one another form no circle: along the way the addresses ascend.

That needs an account of who may hold a lock.  A task that holds the lock of an address, and has not been killed, has the
address in its working set, or has just been given the lock and is about to look.  Locks change hands behind the back of
the ledger, when a killed task is overtaken by another one, or when it gives back a lock that is with somebody else by
now.  But then the lock goes to a task that has waited for it, and such a task is about to look.  `LockOrder` is this
account, and it is kept by every operation on a working set and by whatever goes on elsewhere.
-/

open Function (update)

namespace LedgerScript

variable {V E B α β : Type}

/-! ## Addresses in order -/

namespace Address

/-- One address comes before another one. -/
def Before (a b : Address) : Prop :=
  Text.lexLe a b = true ∧ a ≠ b

theorem Before.trans {a b c : Address} (first : Before a b) (second : Before b c) : Before a c := by
  refine ⟨lexLe_trans a b c first.1 second.1, ?_⟩
  rintro rfl
  exact first.2 (lexLe_antisymm a b first.1 second.1)

theorem Before.irrefl (a : Address) : ¬ Before a a :=
  fun before => before.2 rfl

end Address

open Address (Before)

/-- Addresses are in order, and behind all that are held. -/
structure Ascends (held : List (Address × Bool)) (todo : List Address) : Prop where
  sorted : todo.Pairwise Before
  above : ∀ h ∈ held, ∀ a ∈ todo, Before h.1 a

/-- Addresses that are sorted are in order once each of them is there only once. -/
theorem Address.pairwise_before {addresses : List Address}
    (sorted : addresses.Pairwise fun a b => Text.lexLe a b = true) : addresses.eraseDups.Pairwise Before := by
  match addresses with
  | [] => exact .nil
  | a :: rest =>
    obtain ⟨first, sorted⟩ := List.pairwise_cons.mp sorted
    have shorter : (rest.filter fun b => !b == a).length < rest.length + 1 :=
      Nat.lt_add_one_of_le (List.length_filter_le _ rest)
    rw [List.eraseDups_cons]
    refine List.pairwise_cons.mpr ⟨fun b mem => ?_, pairwise_before (sorted.filter _)⟩
    obtain ⟨there, other⟩ := List.mem_filter.mp (List.mem_eraseDups.mp mem)
    exact ⟨first b there, fun same => by simp [same] at other⟩
termination_by addresses.length

theorem LedgerM.ascends_lockOrder (tx : Transaction) : Ascends [] (LedgerM.lockOrder tx) :=
  ⟨Address.pairwise_before (List.pairwise_mergeSort lexLe_trans lexLe_total _), nofun⟩

/-! ## How far a task has come -/

/-- How far a task has come with its transaction. -/
inductive Progress where
  /-- It has none. -/
  | idle
  /-- It works on a working set.  At first there are addresses whose locks it has yet to wait for. -/
  | holding (w : WorkingId) (todo : Option (List Address))
  /-- It has asked for the lock of an address and is about to hold it.  If it is ready to wait for the lock, it knows
  which other locks come then. -/
  | reaching (w : WorkingId) (lock : ObjectId) (address : Address) (todo : Option (List Address))
  /-- It gives back what it holds, and these addresses are left. -/
  | leaving (w : WorkingId) (left : List (Address × Bool))

namespace Progress

variable {l : Ledger} {p : Progress}

/-- The working set of the task. -/
def working? : Progress → Option WorkingId
  | idle => none
  | holding w _ | reaching w .. | leaving w _ => some w

/-- The addresses that the task holds, and whether the lock of the address was taken. -/
def held (l : Ledger) : Progress → List (Address × Bool)
  | idle => []
  | holding w _ | reaching w .. => (l.working w).held
  | leaving _ left => left

/-- The addresses behind those that are held. -/
def ahead? : Progress → Option (List Address)
  | idle | leaving .. => none
  | holding _ todo => todo
  | reaching _ _ address todo => todo.map (address :: ·)

theorem held_congr {l' : Ledger}
    (same : ∀ w, p.working? = some w → (l'.working w).held = (l.working w).held) : p.held l' = p.held l := by
  cases p with
  | idle | leaving => rfl
  | holding w | reaching w => exact same w rfl

/-- What a task in this state knows about the ledger. -/
structure Fits (l : Ledger) (p : Progress) : Prop where
  bound : ∀ w, p.working? = some w → w < l.workings.size
  ascends : ∀ todo, p.ahead? = some todo → Ascends (p.held l) todo
  asked : ∀ w lock address todo, p = reaching w lock address todo → (address, lock) ∈ l.locks ∧ (address, w) ∉ l.holders

/-- The task may have the lock of an address: it holds the address, or it has asked for it and does not wait. -/
inductive Claims (l : Ledger) (parked : Option WaitKey) (address : Address) (lock : ObjectId) : Progress → Prop where
  | held {p : Progress} (mine : (address, true) ∈ p.held l) : Claims l parked address lock p
  | asked {w : WorkingId} {todo : Option (List Address)} (woken : parked ≠ some (.lock lock)) :
    Claims l parked address lock (reaching w lock address todo)

theorem Claims.later {parked parked' : Option WaitKey} {a : Address} {m : ObjectId}
    (claims : p.Claims l parked a m) (before : parked' = some (.lock m) → parked = some (.lock m)) :
    p.Claims l parked' a m := by
  cases claims with
  | held mine => exact .held mine
  | asked woken => exact .asked fun again => woken (before again)

theorem Claims.same {l' : Ledger} {parked : Option WaitKey} {a : Address} {m : ObjectId} (claims : p.Claims l parked a m)
    (held : ∀ w, p.working? = some w → (l'.working w).held = (l.working w).held) : p.Claims l' parked a m := by
  cases claims with
  | held mine => exact .held (held_congr held ▸ mine)
  | asked woken => exact .asked woken

end Progress

/-! ## The order of locks -/

def Ledger.IsLocking (l : Ledger) (m : ObjectId) : Prop :=
  ∃ address, (address, m) ∈ l.locks

/-- Who may hold and who may wait for the locks of addresses. -/
structure LockOrder (s : Scheduler V E B) (l : Ledger) (progress : TaskId → Progress) : Prop where
  isLock : ∀ m, l.IsLocking m → s.IsLock m
  oneLock : ∀ a m n, (a, m) ∈ l.locks → (a, n) ∈ l.locks → m = n
  oneAddress : ∀ a b m, (a, m) ∈ l.locks → (b, m) ∈ l.locks → a = b
  oneHolder : Ledger.OneHolder l.holders
  holders : ∀ a w, (a, w) ∈ l.holders → a ∈ (l.working w).held.map (·.1)
  fits : ∀ t, (progress t).Fits l
  known : ∀ t, progress t ≠ .idle → s.Known t
  apart : ∀ t u w, (progress t).working? = some w → (progress u).working? = some w → t = u
  place : ∀ t m, s.parked.get? t = some (.lock m) → (s.view t).killed = true ∨ s.IsLock m
  claimed : ∀ t a m, (a, m) ∈ l.locks → s.lockHolder m = some t →
    (s.view t).killed = true ∨ (progress t).Claims l (s.parked.get? t) a m
  queued : ∀ t a m, (a, m) ∈ l.locks → s.parked.get? t = some (.lock m) →
    (s.view t).killed = true ∨ ∃ w rest, progress t = .reaching w m a (some rest)

def WaitsFor (s : Scheduler V E B) (l : Ledger) (t u : TaskId) : Prop :=
  (s.view t).Live ∧ ∃ m, l.IsLocking m ∧ s.parked.get? t = some (.lock m) ∧ s.lockHolder m = some u

namespace LockOrder

variable {s s' : Scheduler V E B} {l l' : Ledger} {progress : TaskId → Progress} {me : TaskId} {p q : Progress}
  {hand : Option TaskId}
variable {a : Address} {m : ObjectId}

/-- Whoever waits for the lock of an address, and has a lock that somebody waits for, has it of an address before. -/
theorem before (order : LockOrder s l progress) {u : TaskId} {b : Address} {n : ObjectId} (first : (a, m) ∈ l.locks)
    (holds : s.lockHolder m = some u) (live : (s.view u).Live) (second : (b, n) ∈ l.locks)
    (waits : s.parked.get? u = some (.lock n)) : Before a b := by
  have alive : (s.view u).killed ≠ true := by rw [live.2]; exact Bool.false_ne_true
  obtain ⟨w, rest, here⟩ := (order.queued u b n second waits).resolve_left alive
  have claims := (order.claimed u a m first holds).resolve_left alive
  rw [here] at claims
  cases claims with
  | held mine =>
    have fits := order.fits u
    rw [here] at fits
    exact (fits.ascends _ rfl).above _ mine b List.mem_cons_self
  | asked woken => exact absurd waits woken

/-- From a task to one that it waits for, over however many others, addresses ascend. -/
theorem before_of_waits (order : LockOrder s l progress) {t u : TaskId} (waits : Relation.TransGen (WaitsFor s l) t u)
    {b : Address} {n : ObjectId} (first : (a, m) ∈ l.locks) (here : s.parked.get? t = some (.lock m))
    (live : (s.view u).Live) (second : (b, n) ∈ l.locks) (there : s.parked.get? u = some (.lock n)) : Before a b := by
  -- `t` waits for one lock only
  have only {k : ObjectId} (waits : s.parked.get? t = some (.lock k)) : k = m :=
    WaitKey.lock.inj (Option.some.inj (waits.symm.trans here))
  induction waits generalizing b n with
  | single waits =>
    obtain ⟨-, k, -, parked, holds⟩ := waits
    exact order.before first (only parked ▸ holds) live second there
  | tail _ waits ih =>
    obtain ⟨live', k, ⟨c, third⟩, parked, holds⟩ := waits
    exact (ih live' third parked).trans (order.before third holds live second there)

/-- Nobody waits for itself, over however many others. -/
theorem acyclic (order : LockOrder s l progress) (t : TaskId) : ¬ Relation.TransGen (WaitsFor s l) t t := by
  intro waits
  obtain ⟨u, ⟨live, m, ⟨a, locking⟩, parked, -⟩, -⟩ := (Relation.TransGen.head'_iff).mp waits
  exact Before.irrefl a (order.before_of_waits waits locking parked live locking parked)

/-- Before a run nobody has come to anything. -/
theorem prepared (prepared : s.Prepared) (locks : l.locks = []) (holders : l.holders = []) :
    LockOrder s l fun _ => .idle := by
  have locking {a : Address} {m : ObjectId} : (a, m) ∉ l.locks := by simp [locks]
  have waits {t : TaskId} {m : ObjectId} : s.parked.get? t ≠ some (.lock m) := by simp [prepared.nobody_waits]
  have fits : Progress.idle.Fits l := by
    constructor <;> intros <;> contradiction
  refine ⟨fun m here => ?_, fun a m n mem => absurd mem locking, fun a b m mem => absurd mem locking, ?_, by simp [holders],
    fun _ => fits, fun t busy => absurd rfl busy, fun t u w its => ?_, fun t m here => absurd here waits,
    fun t a m mem => absurd mem locking, fun t a m mem => absurd mem locking⟩
  · obtain ⟨a, mem⟩ := here
    exact absurd mem locking
  · simp [Ledger.OneHolder, holders]
  · cases its

/-! ## What keeps the order -/

theorem handover (order : LockOrder s l progress) (handover : s.Handover l.IsLocking s') : LockOrder s' l progress := by
  refine { order with
    isLock := fun m locking => handover.isLock m (order.isLock m locking)
    known := fun t busy => handover.known t (order.known t busy)
    place := fun t m waits => ?_, claimed := fun t a m locking holds => ?_, queued := fun t a m locking waits => ?_ }
  · obtain killed | lock | before := handover.place t m waits
    · exact .inl killed
    · exact .inr lock
    · exact (order.place t m before).imp (handover.killed t) (handover.isLock m)
  · obtain killed | before | ⟨waited, woken⟩ := handover.holder t m ⟨a, locking⟩ holds
    · exact .inl killed
    · obtain killed | claims := order.claimed t a m locking before
      · exact .inl (handover.killed t killed)
      · by_cases again : s'.parked.get? t = some (.lock m)
        · exact (handover.waits t m ⟨a, locking⟩ again).imp_right fun before => claims.later fun _ => before
        · exact .inr (claims.later fun same => absurd same again)
    · obtain killed | ⟨w, rest, here⟩ := order.queued t a m locking waited
      · exact .inl (handover.killed t killed)
      · exact .inr (here ▸ .asked woken)
  · obtain killed | before := handover.waits t m ⟨a, locking⟩ waits
    · exact .inl killed
    · exact (order.queued t a m locking before).imp_left (handover.killed t)

/-- The ledger changes, but not as far as locks are concerned. -/
theorem ledger (order : LockOrder s l progress) (same : l.SameLocks l') : LockOrder s l' progress := by
  obtain ⟨locks, holders, size, held⟩ := same
  refine ⟨fun m locking => order.isLock m ?_, ?_, ?_, ?_, fun a w mem => ?_, fun t => ?_, order.known, order.apart,
    order.place, fun t a m locking holds => ?_, ?_⟩
  · rwa [Ledger.IsLocking, locks] at locking
  · rw [locks]
    exact order.oneLock
  · rw [locks]
    exact order.oneAddress
  · rw [holders]
    exact order.oneHolder
  · rw [holders] at mem
    rw [held]
    exact order.holders a w mem
  · have fits := order.fits t
    refine ⟨fun w works => Nat.lt_of_lt_of_le (fits.bound w works) size, fun todo ahead => ?_, ?_⟩
    · rw [Progress.held_congr fun w _ => held w]
      exact fits.ascends todo ahead
    · rw [locks, holders]
      exact fits.asked
  · rw [locks] at locking
    exact (order.claimed t a m locking holds).imp_right fun claims => claims.same fun w _ => held w
  · rw [locks]
    exact order.queued

/-- A lock is made for an address that has none. -/
theorem newLock (order : LockOrder s l progress) (regular : s.Regular hand) (new : ∀ m, (a, m) ∉ l.locks) :
    LockOrder s.newLock.2 { l with locks := (a, s.newLock.1) :: l.locks } progress := by
  have made : s.newLock.2.object? s.newLock.1 = some (.lock none) :=
    (s.object?_newObject (.lock none) _).trans (if_pos rfl)
  have evolution : Scheduler.Evolution none hand s s.newLock.2 := s.evolves_newObject rfl rfl regular
  have fresh {m : ObjectId} (lock : s.IsLock m) : m ≠ s.newLock.1 := by
    rintro rfl
    obtain ⟨holder, here⟩ := lock
    simp [Scheduler.newLock, Scheduler.newObject, Scheduler.object?] at here
  have old := order.handover (.of_evolution evolution order.isLock fun m _ => (Scheduler.Intact.refl m s).newObject _)
  have unheld : s.newLock.2.lockHolder s.newLock.1 = none := by
    rw [Scheduler.lockHolder, made]
  refine { old with isLock := ?_, oneLock := ?_, oneAddress := ?_, fits := fun t => ?_, claimed := ?_, queued := ?_ }
  · rintro m ⟨b, mem⟩
    rcases List.mem_cons.mp mem with same | mem
    · cases same
      exact ⟨none, made⟩
    · exact old.isLock m ⟨b, mem⟩
  · intro b m n first second
    rcases List.mem_cons.mp first with same | first
    · cases same
      rcases List.mem_cons.mp second with same | second
      · exact (Prod.mk.inj same).2.symm
      · exact absurd second (new n)
    · rcases List.mem_cons.mp second with same | second
      · cases same
        exact absurd first (new m)
      · exact order.oneLock b m n first second
  · intro b c m first second
    rcases List.mem_cons.mp first with same | first
    · cases same
      rcases List.mem_cons.mp second with same | second
      · exact (Prod.mk.inj same).1.symm
      · exact absurd rfl (fresh (order.isLock _ ⟨c, second⟩))
    · rcases List.mem_cons.mp second with same | second
      · cases same
        exact absurd rfl (fresh (order.isLock _ ⟨b, first⟩))
      · exact order.oneAddress b c m first second
  · have fits := order.fits t
    refine ⟨fits.bound, fits.ascends, fun w m b todo here => ?_⟩
    exact (fits.asked w m b todo here).imp_left (List.mem_cons_of_mem _)
  · intro t b m mem holds
    rcases List.mem_cons.mp mem with same | mem
    · cases same
      cases unheld.symm.trans holds
    · exact (old.claimed t b m mem holds).imp_right fun claims => claims.same fun _ _ => rfl
  · intro t b m mem waits
    rcases List.mem_cons.mp mem with same | mem
    · cases same
      have before : s.parked.get? t = some (.lock s.newLock.1) := waits
      exact (order.place t _ before).imp (evolution.moves t).killed fun lock => absurd rfl (fresh lock)
    · exact old.queued t b m mem waits

/-- A task that has asked for a lock gets it. -/
theorem setHolder {w : WorkingId} {todo : Option (List Address)}
    (order : LockOrder s l (update progress me (.reaching w m a todo)))
    (woken : s.parked.get? me = some (.lock m) → (s.view me).killed = true) :
    LockOrder (s.setHolder m (some me)) l (update progress me (.reaching w m a todo)) := by
  have views (t : TaskId) : (s.setHolder m (some me)).view t = s.view t :=
    s.view_modifyObject_same m (Scheduler.queued_withHolder _) t
  have parked : (s.setHolder m (some me)).parked = s.parked := Scheduler.parked_modifyObject ..
  have frame : Scheduler.Frame (some m) s (s.setHolder m (some me)) :=
    s.frame_modifyObject m (fun _ => ⟨some me, rfl⟩) (.inl rfl)
  refine { order with
    isLock := fun n locking => frame.locks n (order.isLock n locking)
    known := fun t busy => ?_, place := fun t n waits => ?_, claimed := fun t b n locking holds => ?_
    queued := fun t b n locking waits => ?_ }
  · rw [Scheduler.Known, views]
    exact order.known t busy
  · rw [views]
    rw [parked] at waits
    exact (order.place t n waits).imp_right (frame.locks n)
  · rw [views, parked]
    obtain ⟨rfl, same⟩ | before := Scheduler.of_lockHolder_setHolder holds
    · cases same
      have asked := (order.fits me).asked w n a todo (Function.update_self ..)
      obtain rfl := order.oneAddress b a n locking asked.1
      by_cases waits : s.parked.get? me = some (.lock n)
      · exact .inl (woken waits)
      · rw [Function.update_self]
        exact .inr (.asked waits)
    · exact order.claimed t b n locking before
  · rw [views]
    rw [parked] at waits
    exact order.queued t b n locking waits

/-- A task that has asked for a lock, and does not have it, waits for it. -/
theorem park {w : WorkingId} {rest : List Address} (regular : s.Regular (some me))
    (order : LockOrder s l (update progress me (.reaching w m a (some rest))))
    (out : s.lockHolder m = some me → (s.view me).killed = true) :
    LockOrder (s.park me (some (.lock m)) .lock) l (update progress me (.reaching w m a (some rest))) := by
  obtain ⟨steady, -, -, views⟩ := regular.park (.lock m) .lock
  have asked := (order.fits me).asked w m a (some rest) (Function.update_self ..)
  have others {t : TaskId} (other : t ≠ me) : (s.park me (some (.lock m)) .lock).view t = s.view t := by
    rw [views, if_neg other]
  have killed (t : TaskId) : ((s.park me (some (.lock m)) .lock).view t).killed = (s.view t).killed := by
    rw [views]
    split <;> rfl
  have here : (s.park me (some (.lock m)) .lock).parked.get? me = some (.lock m) := by
    have seen := congrArg TaskView.parked (views me)
    rwa [if_pos rfl] at seen
  have isLock {n : ObjectId} (lock : s.IsLock n) : (s.park me (some (.lock m)) .lock).IsLock n := by
    obtain ⟨holder, found⟩ := lock
    exact ⟨holder, (steady.object? n).trans found⟩
  refine { order with
    isLock := fun n locking => isLock (order.isLock n locking)
    known := fun t busy => ?_, place := fun t n waits => ?_, claimed := fun t b n locking holds => ?_
    queued := fun t b n locking waits => ?_ }
  · rw [Scheduler.Known, views]
    split
    · simp
    · exact order.known t busy
  · rw [killed]
    by_cases same : t = me
    · subst same
      cases here.symm.trans waits
      exact .inr (isLock (order.isLock m ⟨a, asked.1⟩))
    · have waits : ((s.park me (some (.lock m)) .lock).view t).parked = some (.lock n) := waits
      rw [others same] at waits
      exact (order.place t n waits).imp_right isLock
  · rw [killed]
    rw [Scheduler.lockHolder_congr steady.objects] at holds
    by_cases same : t = me
    · subst same
      by_cases this : n = m
      · exact .inl (out (this ▸ holds))
      · refine (order.claimed t b n locking holds).imp_right fun claims => claims.later fun waits => ?_
        exact absurd (WaitKey.lock.inj (Option.some.inj (waits.symm.trans here))) this
    · have parked : (s.park me (some (.lock m)) .lock).parked.get? t = s.parked.get? t :=
        congrArg TaskView.parked (others same)
      rw [parked]
      exact order.claimed t b n locking holds
  · rw [killed]
    by_cases same : t = me
    · subst same
      cases here.symm.trans waits
      obtain rfl := order.oneAddress b a m locking asked.1
      exact .inr ⟨w, rest, Function.update_self ..⟩
    · have waits : ((s.park me (some (.lock m)) .lock).view t).parked = some (.lock n) := waits
      rw [others same] at waits
      exact order.queued t b n locking waits

end LockOrder

end LedgerScript
