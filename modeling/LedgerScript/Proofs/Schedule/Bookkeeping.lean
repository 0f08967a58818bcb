import LedgerScript.Proofs.Schedule.Execution
import LedgerScript.Proofs.Schedule.Waits
import LedgerScript.Schedule.Script
import Mathlib.Data.List.Nodup

/-!
# The books at every stage of a run

The machine takes a task in hand to let it run or unwind, and puts it down when its turn is over.  In between the task
only uses operations, which keep the scheduler regular.  So at every stage of every run the scheduler is regular, with
the task in turn in hand, and `Scheduler.Books` says what this means for the ready queue, the lists of waiting tasks and
the queues of channels.
-/

namespace LedgerScript

/-! ## Taking a task in hand, and putting it down -/

namespace TaskView

variable {v : TaskView} {inHand : Bool}

/-- What the books say about a finished task does not depend on who has it in hand. -/
theorem Stands.putDown (stands : v.Stands true) (done : v.isDone = true) : v.Stands false :=
  ⟨fun live => absurd (live.1.symm.trans done) Bool.false_ne_true,
    fun live => absurd (live.1.symm.trans done) Bool.false_ne_true, stands.timed, stands.known, stands.ended, stands.clear,
    fun _ => .inl done, nofun, stands.reaped⟩

/-- An unknown task stands well. -/
theorem Stands.unknown : Stands false {} := by
  have done : isDone {} = true := rfl
  exact {
    placed := fun live => absurd (live.1.symm.trans done) Bool.false_ne_true
    state := fun live => absurd (live.1.symm.trans done) Bool.false_ne_true
    timed := fun live => absurd (live.1.symm.trans done) Bool.false_ne_true
    known := fun _ => rfl
    ended := rfl
    clear := fun _ => rfl
    dead := fun _ => .inl done
    hand := fun held => absurd held Bool.false_ne_true
    reaped := fun unwinding => unwinding }

/-- A killed task is taken in hand to unwind. -/
theorem Stands.takeKilled (stands : v.Stands false) (killed : v.killed = true) (unwinding : Bool) :
    Stands true { v with unwinding } := by
  have dead : ∀ {P : Prop}, TaskView.Live { v with unwinding } → P :=
    fun live => (Bool.false_ne_true (live.2.symm.trans killed)).elim
  refine ⟨dead, dead, dead, fun none => ?_, stands.ended, stands.clear, fun _ => .inr rfl, fun _ _ => killed,
    fun _ => killed⟩
  have absent := stands.known none
  rw [absent] at killed
  cases killed

/-- A ready task is taken in hand to run. -/
theorem Stands.takeReady (stands : v.Stands false) (unfinished : v.isDone = false) (ready : v.ready = true) :
    Stands true { v with ready := false, status := some .running } := by
  have alive : v.killed = false := by
    by_contra killed
    rw [Bool.not_eq_false] at killed
    have dead := stands.dead killed
    simp [unfinished] at dead
  have live : v.Live := ⟨unfinished, alive⟩
  have placed := stands.placed live
  have ended : v.ended = false := by
    unfold isDone at unfinished
    cases status : v.status <;> simp_all [stands.ended]
  simp only [places, ready, Bool.toNat_true, Bool.false_eq_true, if_false] at placed
  exact {
    placed := fun _ => by
      simp only [places, Bool.toNat_false, if_true]
      omega
    state := fun _ held => absurd held (by simp)
    timed := fun _ => stands.timed live
    known := fun unknown => absurd unknown (by simp)
    ended := by simp [ended, alive, TaskState.isFinal]
    clear := fun done => absurd done (by simp [isDone, TaskState.isFinal])
    dead := fun _ => .inr rfl
    hand := fun _ done => absurd done (by simp [isDone, TaskState.isFinal])
    reaped := stands.reaped }

/-- A finished task is dropped from the ready queue. -/
theorem Stands.unready (stands : v.Stands inHand) (done : v.isDone = true) : Stands inHand { v with ready := false } := by
  have gone : ∀ {P : Prop}, TaskView.Live { v with ready := false } → P :=
    fun live => (Bool.false_ne_true (live.1.symm.trans done)).elim
  refine ⟨gone, gone, gone, fun none => ?_, stands.ended, stands.clear, stands.dead, stands.hand, stands.reaped⟩
  rw [stands.known none]

/-- The task in hand has ended, and is put down. -/
theorem Stands.finish (stands : v.Stands true) {st : TaskState} (final : st.isFinal = true) (alarms : Nat) :
    Stands false { v with status := some st, ended := true, ready := false, parked := none, alarms } := by
  have done : TaskView.isDone
      { v with status := some st, ended := true, ready := false, parked := none, alarms } = true := final
  have gone : ∀ {P : Prop}, TaskView.Live
      { v with status := some st, ended := true, ready := false, parked := none, alarms } → P :=
    fun live => (Bool.false_ne_true (live.1.symm.trans done)).elim
  refine ⟨gone, gone, gone, nofun, ?_, fun _ => rfl, fun _ => .inl done, nofun, stands.reaped⟩
  simp [final]

end TaskView

namespace Scheduler

variable {V E B : Type} {s s' : Scheduler V E B} {hand : Option TaskId} {t me id : TaskId} {m : ObjectId}
variable (n : Nat)

theorem Regular.stands_hand (regular : s.Regular (some me)) : (s.view me).Stands true := by
  have stands := regular.stands me
  rwa [decide_eq_true rfl] at stands

theorem Regular.stands_other (regular : s.Regular hand) (other : hand ≠ some t) : (s.view t).Stands false := by
  have stands := regular.stands t
  rwa [decide_eq_false other] at stands

/-- An unfinished task that is not in hand has not been killed. -/
theorem Regular.live_other (regular : s.Regular hand) (other : hand ≠ some t) (unfinished : s.isDone t = false) :
    (s.view t).Live := by
  have unfinished : (s.view t).isDone = false := (isDone_view s t).trans unfinished
  refine ⟨unfinished, ?_⟩
  by_contra killed
  rw [Bool.not_eq_false] at killed
  have dead := (regular.stands_other other).dead killed
  simp [unfinished] at dead

theorem Regular.take (regular : s.Regular none) (tidy : s'.Tidy) (me : TaskId) (here : (s'.view me).Stands true)
    (others : ∀ t, t ≠ me → (s.view t).Stands false → (s'.view t).Stands false) : s'.Regular (some me) := by
  refine ⟨tidy, fun t => ?_⟩
  by_cases same : t = me
  · subst same
    rwa [decide_eq_true rfl]
  · rw [decide_eq_false fun held => same (Option.some.inj held).symm]
    exact others t same (regular.stands_other nofun)

/-- The task in hand is put down. -/
theorem Regular.put (regular : s.Regular (some me)) (tidy : s'.Tidy) (here : (s'.view me).Stands false)
    (others : ∀ t, t ≠ me → (s.view t).Stands false → (s'.view t).Stands false) : s'.Regular none := by
  refine ⟨tidy, fun t => ?_⟩
  rw [decide_eq_false nofun]
  by_cases same : t = me
  · exact same ▸ here
  · exact others t same (regular.stands_other fun held => same (Option.some.inj held).symm)

theorem Regular.setCurrent (regular : s.Regular hand) (id : Option TaskId) : (s.setCurrent id).Regular hand :=
  ⟨⟨regular.tidy.queue, regular.tidy.parked_iff, regular.tidy.waiters_nodup, regular.tidy.waiters_ne_nil⟩,
    regular.stands⟩

/-- A finished task is put down. -/
theorem Regular.putDone (regular : s.Regular (some me)) (done : s.isDone me = true) : s.Regular none :=
  regular.put regular.tidy (regular.stands_hand.putDown ((isDone_view s me).trans done)) fun _ _ stands => stands

theorem Regular.finished (regular : s.Regular (some me)) (errorText : E → Bytes) (result : Option V)
    (fault : Option (TaskFault E)) :
    Finished me (if fault.isSome then .failed else .completed) s (s.finish errorText me result fault) := by
  obtain ⟨k, here⟩ := regular.task?_hand
  refine finished_finish here regular.tidy (fun t _ waits => ?_) errorText result fault
  obtain ⟨key, waits⟩ := Option.ne_none_iff_exists'.mp waits
  exact regular.unfinished waits

/-- The task in hand ends, and is put down. -/
theorem Regular.finish (regular : s.Regular (some me)) (errorText : E → Bytes) (result : Option V)
    (fault : Option (TaskFault E)) : (s.finish errorText me result fault).Regular none := by
  have ended := regular.finished errorText result fault
  obtain ⟨alarms, -, seen⟩ := ended.here
  refine regular.put ended.tidy ?_ fun t other stands => ?_
  · rw [seen]
    refine regular.stands_hand.finish ?_ alarms
    split <;> rfl
  · exact stands.moves (ended.others t other (fun _ => True) false trivial)

theorem Regular.takeKilled (regular : s.Regular none) {rest : List TaskId} (first : s.unwinding = me :: rest) :
    Regular (some me) { s with unwinding := rest } := by
  have tidy := regular.tidy
  have seen : ∀ t, view { s with unwinding := rest } t = { s.view t with unwinding := decide (t ∈ rest) } := fun _ => rfl
  have stands : ∀ t, (s.view t).Stands false := fun t => regular.stands_other nofun
  have tidy' : Tidy { s with unwinding := rest } := tidy.of_same rfl
  refine regular.take tidy' me ?_ fun t _ _ => ?_
  · have killed : (s.view me).killed = true := (stands me).reaped (by simp [view, first])
    rw [seen]
    exact (stands me).takeKilled killed _
  · have stands := stands t
    rw [seen]
    refine ⟨stands.placed, stands.state, stands.timed, fun none => ?_, stands.ended, stands.clear, stands.dead,
      stands.hand, fun reaped => stands.reaped ?_⟩
    · have absent := stands.known none
      have quiet : t ∉ rest := fun mem => by
        have here : (s.view t).unwinding = true := by simp [view, first, mem]
        rw [absent] at here
        cases here
      rw [absent, decide_eq_false quiet]
    · have mem : t ∈ rest := by simpa using reaped
      simp [view, first, mem]

/-- A pick takes a task from the ready queue. -/
theorem Tidy.pick (tidy : s.Tidy) {i : Nat} (here : s.ready[i]? = some id) (picks : List Nat) :
    Tidy { s with ready := s.ready.eraseIdx i, readySet := s.readySet.erase id, picks } ∧
      ∀ t, view { s with ready := s.ready.eraseIdx i, readySet := s.readySet.erase id, picks } t =
        if t = id then { s.view t with ready := false } else s.view t := by
  obtain ⟨inside, rfl⟩ := List.getElem?_eq_some_iff.mp here
  have has : s.readySet.has s.ready[i] = true := (tidy.queue.has_iff _).mpr (List.getElem_mem inside)
  have left : s.unready s.ready[i] =
      { s with ready := s.ready.eraseIdx i, readySet := s.readySet.erase s.ready[i] } := by
    unfold Scheduler.unready
    rw [if_pos has, List.Nodup.erase_getElem tidy.queue.nodup]
  have tidy' := tidy.unready s.ready[i]
  have views := view_unready tidy s.ready[i]
  rw [left] at tidy' views
  exact ⟨⟨tidy'.queue, tidy'.parked_iff, tidy'.waiters_nodup, tidy'.waiters_ne_nil⟩, views⟩

/-- A task that has left the ready queue is taken in hand to run. -/
theorem Regular.setRunning (regular : s.Regular none) (tidy : s'.Tidy) (ready : (s.view me).ready = true)
    (unfinished : s'.isDone me = false)
    (views : ∀ t, s'.view t = if t = me then { s.view t with ready := false } else s.view t) :
    (s'.setRunning me).Regular (some me) := by
  obtain ⟨k, known, -⟩ := task?_of_isDone unfinished
  have running : ∀ t, (s'.setRunning me).view t =
      if t = me then { s'.view t with status := some .running, killed := k.killed } else s'.view t :=
    view_modifyTask known _
  have tidy' : (s'.setRunning me).Tidy := tidy.modifyTask me _
  have live : (s.view me).isDone = false := by
    rw [← isDone_view, views, if_pos rfl] at unfinished
    exact unfinished
  refine regular.take tidy' me ?_ fun t other stands => ?_
  · have killed : k.killed = (s'.view me).killed := by simp [view, known]
    rw [running, if_pos rfl, killed, views, if_pos rfl]
    exact (regular.stands_other (by simp)).takeReady live ready
  · rw [running, if_neg other, views, if_neg other]
    exact stands

/-- The next ready task is taken in hand to run, and finished ones that are picked before it are dropped. -/
theorem Regular.pickReady (regular : s.Regular none) :
    s.Steady (s.pickReady n).2 ∧
      match s.pickReady n with
      | (none, s') => s'.Regular none
      | (some me, s') => (s'.setRunning me).Regular (some me) := by
  induction n generalizing s with
  | zero => exact ⟨⟨rfl, rfl, rfl⟩, regular⟩
  | succ n ih =>
    unfold Scheduler.pickReady
    dsimp only
    split
    · exact ⟨⟨rfl, rfl, rfl⟩, regular⟩
    · rename_i id here
      obtain ⟨tidy, views⟩ := regular.tidy.pick here s.picks.tail
      split
      · rename_i done
        have done : (s.view id).isDone = true := (isDone_view s id).trans done
        obtain ⟨steady, rest⟩ := ih ⟨tidy, fun t => by
          have stands : (s.view t).Stands false := regular.stands_other nofun
          rw [views, decide_eq_false nofun]
          split
          · rename_i same
            exact stands.unready (same ▸ done)
          · exact stands⟩
        exact ⟨⟨steady.current, steady.objects, steady.history⟩, rest⟩
      · rename_i unfinished
        rw [Bool.not_eq_true] at unfinished
        refine ⟨⟨rfl, rfl, rfl⟩, regular.setRunning tidy ?_ unfinished views⟩
        simpa [view] using List.mem_of_getElem? here

theorem Regular.nextReady_some (regular : s.Regular none) (picked : s.nextReady = (some me, s')) :
    (s'.setRunning me).Regular (some me) := by
  obtain ⟨-, taken⟩ := regular.pickReady s.ready.length
  rw [← Scheduler.nextReady, picked] at taken
  exact taken

theorem Regular.nextReady_none (regular : s.Regular none) (picked : s.nextReady = (none, s')) :
    s'.Regular none ∧ s'.current = s.current := by
  obtain ⟨steady, rest⟩ := regular.pickReady s.ready.length
  rw [← Scheduler.nextReady, picked] at steady rest
  exact ⟨rest, steady.current⟩

/-- Whoever is picked is not finished. -/
theorem pickReady_unfinished {s : Scheduler V E B} (picked : s.pickReady n = (some me, s')) : s.isDone me = false := by
  induction n generalizing s with
  | zero => cases picked
  | succ n ih =>
    unfold pickReady at picked
    dsimp only at picked
    split at picked
    · cases picked
    · rename_i id here
      have same : ∀ t, isDone { s with
          ready := s.ready.eraseIdx (s.picks.headD 0 % s.ready.length), readySet := s.readySet.erase id
          picks := s.picks.tail } t = s.isDone t := fun _ => rfl
      split at picked
      · exact (same me).symm.trans (ih picked)
      · rename_i unfinished
        cases picked
        rw [same, Bool.not_eq_true] at unfinished
        exact unfinished

theorem mem_of_pickReady {s : Scheduler V E B} (picked : s.pickReady n = (some me, s')) : me ∈ s.ready := by
  induction n generalizing s with
  | zero => cases picked
  | succ n ih =>
    unfold pickReady at picked
    dsimp only at picked
    split at picked
    · cases picked
    · rename_i id here
      split at picked
      · exact (List.eraseIdx_sublist _ _).subset (ih picked)
      · cases picked
        exact List.mem_of_getElem? here

/-- A moment that is not the end of a task enters the history. -/
theorem view_use (s : Scheduler V E B) {u : LockUse} (other : ∀ t, u ≠ .ended t) (t : TaskId) :
    (s.use u).view t = s.view t := by
  have ended : (s.use u).Ended t ↔ s.Ended t := by simp [Ended, use, (other t).symm]
  show TaskView.mk _ _ (decide ((s.use u).Ended t)) _ _ _ _ _ = _
  simp only [ended]
  rfl

theorem Regular.use (regular : s.Regular hand) {u : LockUse} (other : ∀ t, u ≠ .ended t) : (s.use u).Regular hand := by
  have tidy := regular.tidy
  refine ⟨tidy.of_same rfl, fun t => ?_⟩
  rw [view_use s other]
  exact regular.stands t

theorem Regular.enterBlock (regular : s.Regular hand) (m : ObjectId) : (s.enterBlock m).Regular hand :=
  regular.use nofun

theorem Regular.leaveBlock (regular : s.Regular hand) (m : ObjectId) :
    (s.leaveBlock m).Regular hand ∧ (s.leaveBlock m).current = s.current := by
  have noted : (s.use (.left (s.current.getD 0) m (s.lockHolder m))).Regular hand := regular.use nofun
  have evolution := evolves_passLock _ m noted
  exact ⟨noted.evolve evolution, evolution.current⟩

theorem currentKilled_eq (runs : s.current = some me) : s.currentKilled = (s.view me).killed := by
  unfold currentKilled view
  rw [runs, Option.bind_some]
  cases s.task? me <;> rfl

end Scheduler

/-! ## Scenes -/

variable {S V E B A : Type} {s s' : Scheduler V E B} {x y : Scene V E B} {me : TaskId}

/-- The books of a regular scheduler stay in order between two turns. -/
theorem Scheduler.Regular.interlude (regular : s.Regular none) (interlude : s.Interlude s') :
    s'.Regular none ∧ s'.current = s.current := by
  have evolved : s.Evolves none none s' → s'.Regular none ∧ s'.current = s.current := fun evolves =>
    ⟨regular.evolve (evolves regular), (evolves regular).current⟩
  cases interlude with
  | idle nobody => exact regular.nextReady_none nobody
  | fire n => exact evolved (s.evolves_fireDue n)
  | advance later => exact evolved (Scheduler.evolves_advance? s later)
  | kill id cause => exact evolved (s.evolves_kill id cause)
  | note e => exact evolved (s.evolves_note e)

/-- What the task in turn does keeps the books in order. -/
theorem Scheduler.Regular.work (regular : s.Regular (some me)) (current : s.current = some me) (work : s.Work s') :
    s'.Regular (some me) ∧ s'.current = some me := by
  have evolved : ∀ {exempt : Option ObjectId}, s.Evolution exempt (some me) s' →
      s'.Regular (some me) ∧ s'.current = some me := fun evolution =>
    ⟨regular.evolve evolution, evolution.current.trans current⟩
  have stays : ∀ {exempt : Option ObjectId}, s.Parking exempt me s' → s'.currentKilled = true →
      s'.Regular (some me) ∧ s'.current = some me := by
    intro exempt parking killed
    have current' := parking.current.trans current
    rw [currentKilled_eq current'] at killed
    exact ⟨parking.stays regular killed, current'⟩
  cases work with
  | operate steps => exact evolved (steps.evolves regular)
  | @attempt _ op r done => exact evolved ((op.tries s).done regular current done)
  | @stay _ op parked killed => exact stays ((op.tries s).parked regular current parked) killed
  | awake op =>
    have evolution : s.Evolution none (some me) (op.finish s).2 := op.evolves_finish s regular
    exact evolved evolution
  | @refuse _ m f refused => exact evolved ((s.tries_takeLock m).done regular current refused)
  | @deny _ m parked killed => exact stays ((s.tries_takeLock m).parked regular current parked) killed

/-- The task in turn leaves the processor. -/
theorem Scheduler.Regular.leave {exempt : Option ObjectId} (regular : s.Regular (some me)) (current : s.current = some me)
    (parking : s.Parking exempt me s') (alive : s'.currentKilled = false) : (s'.notePark.setCurrent none).Regular none := by
  rw [currentKilled_eq (parking.current.trans current)] at alive
  have left := parking.leaves regular alive
  have noted : s'.Evolution none none s'.notePark := s'.evolves_noteTask _ _ _ left
  exact (left.evolve noted).setCurrent none

namespace Scene

/-- The books are in order, with the task in turn in hand. -/
structure Orderly (x : Scene V E B) : Prop where
  regular : x.sched.Regular x.hand
  current : x.sched.current = x.hand

/-- Whatever happens, the books stay in order. -/
theorem Orderly.step (orderly : x.Orderly) (step : x.Step y) : y.Orderly := by
  obtain ⟨regular, current⟩ := orderly
  cases step with
  | between free interlude =>
    rw [free] at regular current
    obtain ⟨rest, same⟩ := regular.interlude interlude
    exact ⟨free ▸ rest, free ▸ same.trans current⟩
  | unwind free first =>
    rw [free] at regular
    exact ⟨(regular.takeKilled first).setCurrent _, rfl⟩
  | dispatch free next =>
    rw [free] at regular
    exact ⟨(regular.nextReady_some next).setCurrent _, rfl⟩
  | work turn calm work =>
    rw [turn] at regular current
    obtain ⟨rest, same⟩ := regular.work current work
    exact ⟨turn ▸ rest, turn ▸ same⟩
  | @park me s op turn calm parked alive =>
    rw [turn] at regular current
    exact ⟨regular.leave current ((op.tries x.sched).parked regular current parked) alive, rfl⟩
  | @enter me s m turn calm taken =>
    rw [turn] at regular current
    have evolution := (x.sched.tries_takeLock m).done regular current taken
    exact ⟨turn ▸ (regular.evolve evolution).enterBlock m, turn ▸ evolution.current.trans current⟩
  | @queue me s m turn calm parked alive =>
    rw [turn] at regular current
    exact ⟨regular.leave current ((x.sched.tries_takeLock m).parked regular current parked) alive, rfl⟩
  | enterAfter turn waited alive => exact ⟨regular.enterBlock _, current⟩
  | giveUp turn => exact ⟨regular, current⟩
  | leave turn calm inside =>
    obtain ⟨rest, same⟩ := regular.leaveBlock _
    exact ⟨rest, same.trans current⟩
  | rest turn done =>
    rw [turn] at regular
    exact ⟨(regular.putDone done).setCurrent none, rfl⟩
  | finish turn errorText result fault =>
    rw [turn] at regular
    exact ⟨(regular.finish errorText result fault).setCurrent none, rfl⟩

theorem Orderly.steps (orderly : x.Orderly) (steps : x.Steps y) : y.Orderly := by
  induction steps with
  | refl => exact orderly
  | tail _ step ih => exact ih.step step

end Scene

/-! ## What the books say -/

namespace Scheduler

/-- A task is ready, once, and in no other place. -/
structure IsReady (s : Scheduler V E B) (t : TaskId) : Prop where
  state : (s.task? t).map (·.state) = some .ready
  once : s.ready.count t = 1
  unparked : s.parked.get? t = none
  unqueued : s.queued.count t = 0

/-- A task is suspended, and registered in one place: under a key, or by one entry of a queue of a channel. -/
structure IsSuspended (s : Scheduler V E B) (t : TaskId) : Prop where
  state : (s.task? t).map (·.state) = some .suspended
  unready : t ∉ s.ready
  place : (∃ key, s.parked.get? t = some key ∧ s.queued.count t = 0) ∨ s.parked.get? t = none ∧ s.queued.count t = 1

/-- The ready queue and the registrations of tasks agree with each other and with the states of the tasks. -/
structure Books (s : Scheduler V E B) : Prop where
  ready_nodup : s.ready.Nodup
  readySet_iff : ∀ t, s.readySet.has t ↔ t ∈ s.ready
  placed : ∀ t, s.isDone t = false → s.current ≠ some t → s.IsReady t ∨ s.IsSuspended t
  parked_iff : ∀ t key, s.parked.get? t = some key ↔ t ∈ s.waitersOf key
  waiters_nodup : ∀ key, (s.waitersOf key).Nodup
  finished : ∀ t, s.isDone t = true → s.parked.get? t = none ∧ ∀ key, t ∉ s.waitersOf key
  waiters_ne_nil : ∀ key, s.waiters.get? key ≠ some []

/-- A task that is neither finished nor in hand is in one place. -/
theorem Regular.placed {hand : Option TaskId} {t : TaskId} (regular : s.Regular hand) (unfinished : s.isDone t = false)
    (other : hand ≠ some t) : s.IsReady t ∨ s.IsSuspended t := by
  have stands := regular.stands_other other
  have live := regular.live_other other unfinished
  have state : (s.task? t).map (·.state) = some (if (s.view t).ready then .ready else .suspended) := stands.state live rfl
  have placed : (s.view t).ready.toNat + (s.parked.get? t).isSome.toNat + s.queued.count t = 1 := stands.placed live
  cases ready : (s.view t).ready with
  | true =>
    rw [ready] at state placed
    have mem : t ∈ s.ready := by simpa [view] using ready
    cases parked : s.parked.get? t with
    | none =>
      simp only [parked, Bool.toNat_true, Option.isSome_none, Bool.toNat_false] at placed
      exact .inl ⟨state, List.count_eq_one_of_mem regular.tidy.queue.nodup mem, parked, by omega⟩
    | some key =>
      simp only [parked, Bool.toNat_true, Option.isSome_some] at placed
      omega
  | false =>
    rw [ready] at state placed
    have unready : t ∉ s.ready := by simpa [view] using ready
    refine .inr ⟨state, unready, ?_⟩
    cases parked : s.parked.get? t with
    | none =>
      simp only [parked, Option.isSome_none, Bool.toNat_false] at placed
      exact .inr ⟨rfl, by omega⟩
    | some key =>
      simp only [parked, Bool.toNat_false, Option.isSome_some, Bool.toNat_true] at placed
      exact .inl ⟨key, rfl, by omega⟩

theorem Regular.books (regular : s.Regular s.current) : s.Books := by
  have tidy := regular.tidy
  refine ⟨tidy.queue.nodup, tidy.queue.has_iff, fun t => regular.placed, tidy.parked_iff, tidy.waiters_nodup,
    fun t done => ?_, tidy.waiters_ne_nil⟩
  have clear : s.parked.get? t = none := (regular.stands t).clear ((isDone_view s t).trans done)
  refine ⟨clear, fun key mem => ?_⟩
  simp [(tidy.parked_iff t key).mpr mem] at clear

/-- A new scheduler, and what is made of it from outside any task. -/
inductive Prepared : Scheduler V E B → Prop where
  | new (defaultDeadline : Int) (picks : List Nat) (journal : List RunEvent) :
    Prepared { defaultDeadline, picks, journal }
  | operate {s : Scheduler V E B} {α : Type} (before : Prepared s) (op : TaskOp V E B α) : Prepared (op.run s).2
  /-- Nothing waits outside tasks. -/
  | attempt {s : Scheduler V E B} (before : Prepared s) (op : WaitOp V) : Prepared (op.start s).2

/-- Outside tasks, no attempt makes anybody wait. -/
theorem Regular.outside (regular : s.Regular none) (free : s.current = none) (op : WaitOp V) :
    s.Evolution none none (op.start s).2 := by
  have tried := op.tries s (free ▸ regular)
  revert tried
  generalize op.start s = r
  intro tried
  match r, tried with
  | (.done _, s'), evolution =>
    have evolution : s.Evolution none s.current s' := evolution
    rwa [free] at evolution
  | (.parked, s'), ⟨me, runs, _⟩ => simp [free] at runs

theorem Prepared.regular (prepared : Prepared s) : s.Regular none ∧ s.current = none := by
  induction prepared with
  | new defaultDeadline picks journal =>
    refine ⟨⟨⟨⟨.nil, fun t => ?_⟩, fun t key => ?_, fun key => .nil, fun key => by simp⟩, fun t => ?_⟩, rfl⟩
    · simp
    · simp [waitersOf]
    · have absent : view (E := E) (B := B) (V := V) { defaultDeadline, picks, journal } t = {} := by
        rw [TaskView.ext_iff]
        simp [view, task?, Ended, queued, alarms]
      rw [absent, decide_eq_false (by simp)]
      exact TaskView.Stands.unknown
  | operate before op ih =>
    have evolution := op.evolves _ ih.1
    exact ⟨ih.1.evolve evolution, evolution.current.trans ih.2⟩
  | attempt before op ih =>
    have evolution := ih.1.outside ih.2 op
    exact ⟨ih.1.evolve evolution, evolution.current.trans ih.2⟩

end Scheduler

/-- A machine that has not run yet. -/
structure Machine.Fresh (m : Machine S V E B A) : Prop where
  prepared : m.world.sched.Prepared
  threads : m.threads = []

/-- Whatever a machine that has not run yet comes to is a sequence of scenes, and the books are in order. -/
theorem Machine.Fresh.reaches {m : Machine S V E B A} {host : Host S V E B A} {stage : Stage S V E B A} (fresh : m.Fresh)
    (reaches : Stage.Reaches host (.between m) stage) :
    (Stage.between m).scene.Orderly ∧ (Stage.between m).scene.Steps stage.scene := by
  have sound : (Stage.between m).Sound := by simp [Stage.Sound, fresh.threads]
  exact ⟨⟨fresh.prepared.regular.1, fresh.prepared.regular.2⟩, (sound.reaches reaches).2⟩

/-- Whatever the tasks do, the books are right at every turn of the loop, when no task runs, and at every stage of the
turns. -/
theorem books_right {m : Machine S V E B A} (host : Host S V E B A) (fresh : m.Fresh) :
    (∀ m', m.Turns host m' → m'.world.sched.current = none ∧ m'.world.sched.Books) ∧
      ∀ stage, Stage.Reaches host (.between m) stage → stage.sched.current = stage.hand ∧ stage.sched.Books := by
  have stages : ∀ stage, Stage.Reaches host (.between m) stage →
      stage.sched.current = stage.hand ∧ stage.sched.Books := by
    intro stage reaches
    obtain ⟨start, scenes⟩ := fresh.reaches reaches
    obtain ⟨regular, current⟩ := start.steps scenes
    rw [← current] at regular
    cases stage <;> exact ⟨current, regular.books⟩
  exact ⟨fun m' turns => stages (.between m') turns.reaches, stages⟩

/-- A task that cancels itself, sleeps all the same, and unwinds. -/
def selfCancelled : Machine (ScriptState Nat) Nat Bytes Nat (ScriptEnd Nat) where
  world := {
    sched := (({} : Scheduler Nat Bytes Nat).spawn "main" 0).2
    own := {
      definitions := [{ name := "main", steps := [{ name := "a", step := .cancel 0 }, { name := "b", step := .sleep 5 }] }]
      spawned := [(0, 1)] } }

theorem books_right_selfCancelled :
    selfCancelled.Fresh ∧
      ∃ m, selfCancelled.Turns Script.host m ∧ m.world.sched.unwinding = [] ∧ m.world.sched.isDone 1 = true ∧
        m.world.sched.current = none ∧ m.world.sched.Books := by
  have fresh : selfCancelled.Fresh := ⟨.operate (.new 0 [] []) (.spawn "main" 0 id), rfl⟩
  have seen : (selfCancelled.after Script.host 1).any fun m =>
      m.world.sched.unwinding = [] ∧ m.world.sched.isDone 1 = true := by decide +kernel
  obtain ⟨m, later, ended⟩ := (Option.any_eq_true _ _).mp seen
  rw [decide_eq_true_eq] at ended
  have turns := Machine.turns_of_after 1 selfCancelled later
  exact ⟨fresh, m, turns, ended.1, ended.2, (books_right Script.host fresh).1 m turns⟩

end LedgerScript
