import LedgerScript.Proofs.Schedule.Bookkeeping
import LedgerScript.Proofs.Schedule.Dealings
import LedgerScript.Proofs.Schedule.Delivery
import LedgerScript.Proofs.Schedule.Heeding

/-!
# Channels are in order at every stage of a run

A task that has ended is finished, unless it was killed in the middle of its turn and has then begun to wait: it looks
suspended until its turn is over.  If it heeds that it was killed, it leaves channels alone for as long.  So either every
task that has ended is finished, and operations make moves, or the process in turn is at its end.
-/

open Function (update)

namespace LedgerScript

variable {S V E B A : Type}

/-- The channel at which a suspended task waits to receive. -/
def Thread.awaits (t : Thread S V E B A) : Option ObjectId :=
  match t.suspended with
  | .wait (.receive c) _ => some c
  | _ => none

theorem Thread.awaits_none {op : WaitOp V} (other : ∀ c, op ≠ .receive c)
    (k : World S V E B → Option (Woken V) → Proc S V E B A (Turn B A)) (stack : List (Waiting S V E B A)) :
    Thread.awaits { suspended := .wait op k, stack } = none := by
  cases op with
  | receive c => exact absurd rfl (other c)
  | _ => rfl

/-- The channel at which the task of a thread waits to receive. -/
abbrev threadAwaits : List (TaskId × Thread S V E B A) → TaskId → Option ObjectId :=
  threadRead Thread.awaits none

def Proc.Over (dead : A → Prop) : Proc S V E B A (Turn B A) → Prop
  | done _ r => r.Dead dead
  | _ => False

/-! ## The books -/

namespace Scheduler

variable {s s' : Scheduler V E B} {me t : TaskId} {hand : Option TaskId}

theorem TaskView.isDone_of_final {v : TaskView} (final : v.status.any TaskState.isFinal = true) : v.isDone = true := by
  unfold TaskView.isDone
  cases status : v.status <;> simp_all

/-- Every task that has ended is finished, if this is so of the one in hand. -/
theorem Regular.frank (regular : s.Regular hand) (mine : ∀ me, hand = some me → s.Ended me → s.isDone me = true) :
    s.Frank := by
  intro t ended
  by_cases here : hand = some t
  · exact mine t here ended
  · have stands := regular.stands_other here
    have ended : (s.view t).ended = true := decide_eq_true ended
    rw [stands.ended, Bool.or_eq_true] at ended
    rw [← isDone_view]
    rcases ended with final | killed
    · exact TaskView.isDone_of_final final
    · exact (stands.dead killed).resolve_right Bool.false_ne_true

/-- Between two turns every task that has ended is finished. -/
theorem Regular.frank_between (regular : s.Regular none) : s.Frank :=
  regular.frank fun _ held => absurd held (by simp)

theorem traffic_nextReady (s : Scheduler V E B) : s.nextReady.2.traffic = s.traffic :=
  ((Same.refl s).pickReady _).traffic

/-- A ready task is taken in hand. -/
theorem Regular.frank_dispatch (regular : s.Regular none) (picked : s.nextReady = (some me, s')) :
    ((s'.setRunning me).setCurrent (some me)).traffic = s.traffic ∧ ((s'.setRunning me).setCurrent (some me)).Frank := by
  have same : (s'.setRunning me).traffic = s.traffic := by
    rw [← s.traffic_nextReady, picked]
    exact s'.traffic_modifyTask me fun _ => rfl
  refine ⟨same, ((regular.nextReady_some picked).setCurrent _).frank fun me' here ended => ?_⟩
  obtain rfl := Option.some.inj here
  have gone : s.traffic.gone me = true := same ▸ decide_eq_true ended
  have live := (regular.frank_between).not_gone (pickReady_unfinished _ picked)
  exact absurd (gone.symm.trans live) Bool.true_eq_false.mp

/-- The running task is in no queue, unless it has been killed. -/
theorem Regular.free (regular : s.Regular (some me)) (alive : (s.view me).killed = false) (c : ObjectId)
    (st : ChannelState V) (here : s.traffic.channel c = some st) : me ∉ st.receivers := by
  intro waits
  have queued : s.queued.count me = 0 := (regular.running alive).2.2.2.1
  exact List.count_eq_zero.mp queued (mem_queued here (List.mem_append_right _ waits))

theorem Regular.gone_of_killed (regular : s.Regular (some me)) (killed : (s.view me).killed = true) :
    s.traffic.gone me = true := by
  have stands := regular.stands_hand
  have ended : (s.view me).ended = true := by rw [stands.ended, killed, Bool.or_true]
  exact ended

theorem Frank.use (frank : s.Frank) {u : LockUse} (other : ∀ t, u ≠ .ended t) : (s.use u).Frank :=
  frank_iff.2 fun t => by
    rw [view_use s other]
    exact frank_iff.1 frank t

theorem Frank.leaveBlock (frank : s.Frank) (regular : s.Regular hand) (m : ObjectId) : (s.leaveBlock m).Frank :=
  have other : ∀ t, LockUse.left (s.current.getD 0) m (s.lockHolder m) ≠ .ended t := fun _ => LockUse.noConfusion
  (frank.use other).evolve (evolves_passLock _ m (regular.use other))

theorem Frank.live (frank : s.Frank) (regular : s.Regular (some me)) (alive : (s.view me).killed = false) :
    s.traffic.gone me = false := by
  refine frank.not_gone ?_
  rw [← isDone_view]
  exact (regular.running alive).1.1

end Scheduler

/-! ## The turn of a task -/

section

variable {dead : A → Prop} {awaits : TaskId → Option ObjectId} {x : Traffic V} {host : Host S V E B A}
  {threads : List (TaskId × Thread S V E B A)} {me : TaskId} {s s' : Scheduler V E B} {own : S}
  {p : Proc S V E B A (Turn B A)} {stack : List (Waiting S V E B A)}

structure GoesInOrder (dead : A → Prop) (awaits : TaskId → Option ObjectId) (x : Traffic V)
    (p : Proc S V E B A (Turn B A)) (stack : List (Waiting S V E B A)) : Prop where
  leads : x.Leads p.world.sched.traffic
  order : p.world.sched.traffic.InOrder awaits
  heeds : p.Heeds dead (Turn.Dead dead)
  frames : ∀ f ∈ stack, f.Heeds dead
  frank : p.world.sched.Frank ∨ p.Over dead

/-- What has happened before does not matter for what is left to do. -/
theorem GoesInOrder.here (goes : GoesInOrder dead awaits x p stack) :
    GoesInOrder dead awaits p.world.sched.traffic p stack :=
  { goes with leads := .refl }

def ThreadStep.InOrder (dead : A → Prop) (awaits : TaskId → Option ObjectId) (me : TaskId) (x : Traffic V) :
    ThreadStep S V E B A → Prop
  | .go p stack => GoesInOrder dead awaits x p stack
  | .stop (.parked w t) =>
    x.Leads w.sched.traffic ∧ w.sched.traffic.InOrder (update awaits me t.awaits) ∧ t.Heeds dead
  | .stop e => x.Leads e.world.sched.traffic ∧ e.world.sched.traffic.InOrder awaits

variable {hand : Option TaskId}
variable {k : World S V E B → Option (Woken V) → Proc S V E B A (Turn B A)}

/-- A process works while every task that has ended is finished. -/
theorem goesInOrder (leads : x.Leads s.traffic) (order : s.traffic.InOrder awaits) (regular : s.Regular hand)
    (frank : s.Frank) (process : p.Sound s) (heeds : p.Heeds dead (Turn.Dead dead)) (frames : ∀ f ∈ stack, f.Heeds dead) :
    GoesInOrder dead awaits x p stack := by
  obtain ⟨moves, frank⟩ := Scheduler.Steps.moves process.world regular frank
  exact ⟨leads.trans moves.leads, order.moves moves, heeds, frames, .inl frank⟩

theorem goesInOrder_dies (leads : x.Leads s.traffic) (order : s.traffic.InOrder awaits)
    (dies : p.Dies (Turn.Dead dead) s) (heeds : p.Heeds dead (Turn.Dead dead))
    (frames : ∀ f ∈ stack, f.Heeds dead) : GoesInOrder dead awaits x p stack := by
  cases p with
  | done w r =>
    obtain ⟨fatal, quits⟩ := dies
    have same : w.sched.traffic = s.traffic := quits.same.traffic
    rw [← same] at leads order
    exact ⟨leads, order, heeds, frames, .inr fatal⟩
  | ask | wait | block => exact dies.elim

/-- The task in turn, and what has been said about it so far. -/
structure InTurn (dead : A → Prop) (awaits : TaskId → Option ObjectId) (host : Host S V E B A) (me : TaskId)
    (s : Scheduler V E B) : Prop where
  heeds : host.Heeds dead
  regular : s.Regular (some me)
  current : s.current = some me
  idle : awaits me = none
  order : s.traffic.InOrder awaits

/-- The task in turn, which has been killed, stays. -/
theorem InTurn.gone (turn : InTurn dead awaits host me s) {exempt : Option ObjectId} (parking : s.Parking exempt me s')
    (killed : s'.currentKilled = true) : s'.traffic.gone me = true := by
  rw [Scheduler.currentKilled_eq (parking.current.trans turn.current)] at killed
  have stands := parking.here
  have ended : (s'.view me).ended = true := by rw [stands.ended, killed, Bool.or_true]
  exact ended

theorem traffic_notePark (s : Scheduler V E B) : s.notePark.traffic = s.traffic :=
  ((Scheduler.Same.refl s).noteTask _ _ _).traffic

/-- The task in turn has to wait, unless it has been killed. -/
theorem InTurn.park (turn : InTurn dead awaits host me s) (frank : s.Frank) {op : WaitOp V}
    (parked : op.start s = (.parked, s')) (heeds : (Suspended.wait op k).Heeds dead) (frames : ∀ f ∈ stack, f.Heeds dead) :
    ThreadStep.InOrder dead awaits me s.traffic
      (if s'.currentKilled then .go (k ⟨s', own⟩ none) stack
        else .stop (.parked ⟨s'.notePark, own⟩ { suspended := .wait op k, stack })) := by
  have parking := (op.tries s).parked turn.regular turn.current parked
  have started := Scheduler.moves_start op (turn.current.symm ▸ turn.regular) frank
  rw [parked] at started
  split
  · rename_i killed
    have gone := turn.gone parking killed
    have kept : s.traffic.Leads s'.traffic ∧ s'.traffic.InOrder awaits := by
      obtain ⟨moves, -⟩ | ⟨c, -, -, me', x, runs, moves, join⟩ := started
      · exact ⟨moves.leads, turn.order.moves moves⟩
      · obtain rfl := Option.some.inj (turn.current.symm.trans runs)
        refine ⟨moves.leads.tail (.join join), (turn.order.moves moves).join join turn.idle (fun _ _ => rfl) (.inl ?_)⟩
        exact join.gone ▸ gone
    exact goesInOrder_dies kept.1 kept.2 ((heeds ⟨s', own⟩ none).2 rfl) (heeds ⟨s', own⟩ none).1 frames
  · rename_i alive
    show _ ∧ _
    rw [traffic_notePark]
    obtain ⟨moves, noReceiver⟩ | ⟨c, rfl, -, me', x, runs, moves, join⟩ := started
    · have other : ∀ c, op ≠ .receive c := fun c same => noReceiver c same rfl
      rw [Thread.awaits_none other, ← turn.idle, Function.update_eq_self]
      exact ⟨moves.leads, turn.order.moves moves, heeds, frames⟩
    · obtain rfl := Option.some.inj (turn.current.symm.trans runs)
      refine ⟨moves.leads.tail (.join join), ?_, heeds, frames⟩
      refine (turn.order.moves moves).join join turn.idle (fun t other => ?_) (.inr ?_)
      · exact Function.update_of_ne other ..
      · exact Function.update_self ..

/-- An activation goes on in a world where nothing has happened to channels. -/
theorem InTurn.resume (turn : InTurn dead awaits host me s) {f : Waiting S V E B A} {w : World S V E B} {a : A}
    (sound : f.Sound) (heeds : f.Heeds dead) (frames : ∀ g ∈ stack, g.Heeds dead)
    (same : w.sched.traffic = s.traffic) (regular : w.sched.Regular (some me)) (frank : w.sched.Frank ∨ dead a) :
    GoesInOrder dead awaits s.traffic (f.resume w a) stack := by
  have order := turn.order
  rw [← same] at order ⊢
  rcases frank with frank | fatal
  · exact goesInOrder .refl order regular frank (sound w a) (heeds w a).1 frames
  · exact goesInOrder_dies .refl order ((heeds w a).2 fatal) (heeds w a).1 frames

theorem InTurn.enter (turn : InTurn dead awaits host me s) (own : S) {lock : ObjectId} (request : B)
    {k : World S V E B → BlockEnd A → Proc S V E B A (Turn B A)} (heeds : (Suspended.enter lock request k).Heeds dead)
    (frames : ∀ f ∈ stack, f.Heeds dead) (same : s'.traffic = s.traffic) (regular : s'.Regular (some me))
    (frank : s'.Frank) :
    GoesInOrder dead awaits s.traffic (host.enter ⟨s', own⟩ lock request k stack).1
      (host.enter ⟨s', own⟩ lock request k stack).2 := by
  have entered : (s'.enterBlock lock).traffic = s.traffic :=
    ((Scheduler.Same.refl s').enterBlock lock).traffic.trans same
  have order := turn.order
  rw [← entered] at order ⊢
  have sound := (host.start request).sound ⟨s'.enterBlock lock, own⟩
  refine goesInOrder .refl order (regular.enterBlock lock) (frank.use fun _ => LockUse.noConfusion) sound
    (turn.heeds request _) ?_
  exact List.forall_mem_cons.mpr ⟨fun w a => heeds w (.left a), frames⟩

theorem InTurn.wait (turn : InTurn dead awaits host me s) (frank : s.Frank) (own : S) (op : WaitOp V) (sound : ∀ w r, (k w r).Sound w.sched)
    (heeds : (Suspended.wait op k).Heeds dead) (frames : ∀ f ∈ stack, f.Heeds dead) :
    (host.step (.wait ⟨s, own⟩ op k) stack).InOrder dead awaits me s.traffic := by
  unfold Host.step
  dsimp only
  split
  · rename_i r s' done
    have evolution := (op.tries s).done turn.regular turn.current done
    have started := Scheduler.moves_start op (turn.current.symm ▸ turn.regular) frank
    rw [done] at started
    obtain ⟨moves, -⟩ | ⟨c, -, parked, -⟩ := started
    · exact goesInOrder moves.leads (turn.order.moves moves) (turn.regular.evolve evolution) (frank.evolve evolution)
        (sound ⟨s', own⟩ (some r)) (heeds ⟨s', own⟩ (some r)).1 frames
    · cases parked
  · rename_i s' parked
    exact turn.park frank parked heeds frames

theorem InTurn.block (turn : InTurn dead awaits host me s) (frank : s.Frank) (own : S) (lock : ObjectId) (request : B)
    {k : World S V E B → BlockEnd A → Proc S V E B A (Turn B A)} (sound : ∀ w r, (k w r).Sound w.sched)
    (heeds : (Suspended.enter lock request k).Heeds dead) (frames : ∀ f ∈ stack, f.Heeds dead) :
    (host.step (.block ⟨s, own⟩ lock request k) stack).InOrder dead awaits me s.traffic := by
  have same : (s.takeLock lock).2.traffic = s.traffic := (Scheduler.Same.takeLock (fun _ _ => trivial) (Scheduler.Same.refl s) lock).traffic
  have order := turn.order
  unfold Host.step
  dsimp only
  split
  · rename_i f s' refused
    rw [refused] at same
    have evolution := (s.tries_takeLock lock).done turn.regular turn.current refused
    rw [← same] at order ⊢
    exact goesInOrder .refl order (turn.regular.evolve evolution) (frank.evolve evolution)
      (sound ⟨s', own⟩ (.refused f)) (heeds ⟨s', own⟩ (.refused f)).1 frames
  · rename_i s' taken
    rw [taken] at same
    have evolution := (s.tries_takeLock lock).done turn.regular turn.current taken
    exact turn.enter own request heeds frames same (turn.regular.evolve evolution) (frank.evolve evolution)
  · rename_i s' parked
    rw [parked] at same
    rw [← same] at order ⊢
    split
    · exact goesInOrder_dies .refl order ((heeds ⟨s', own⟩ .killed).2 trivial) (heeds ⟨s', own⟩ .killed).1 frames
    · show _ ∧ _
      rw [traffic_notePark]
      refine ⟨.refl, order.congr fun t _ => ?_, heeds, frames⟩
      have none : Thread.awaits { suspended := .enter lock request k, stack } = none := rfl
      rw [none, ← turn.idle, Function.update_eq_self]

theorem InTurn.step (turn : InTurn dead awaits host me p.world.sched) (process : p.Sound p.world.sched)
    (sound : ∀ f ∈ stack, f.Sound) (heeds : p.Heeds dead (Turn.Dead dead)) (frames : ∀ f ∈ stack, f.Heeds dead)
    (frank : p.world.sched.Frank ∨ p.Over dead) : (host.step p stack).InOrder dead awaits me p.world.sched.traffic := by
  cases p with
  | done w r =>
    cases r with
    | answer a =>
      cases stack with
      | nil => exact ⟨.refl, turn.order⟩
      | cons f rest =>
        obtain ⟨heeds, frames⟩ := List.forall_mem_cons.mp frames
        have sound := (List.forall_mem_cons.mp sound).1
        show GoesInOrder dead awaits w.sched.traffic (f.answer w a) rest
        unfold Waiting.answer
        split
        · exact turn.resume sound heeds frames rfl turn.regular frank
        · rename_i lock _
          have same : (w.sched.leaveBlock lock).traffic = w.sched.traffic :=
            ((Scheduler.Same.refl w.sched).leaveBlock lock).traffic
          have regular := (turn.regular.leaveBlock lock).1
          exact turn.resume sound heeds frames same regular (frank.imp_left fun frank => frank.leaveBlock turn.regular lock)
    | become request =>
      have frank := frank.resolve_right id
      exact goesInOrder .refl turn.order turn.regular frank ((host.start request).sound w) (turn.heeds request w) frames
  | ask w request k =>
    have frank := frank.resolve_right id
    refine goesInOrder .refl turn.order turn.regular frank ((host.start request).sound w) (turn.heeds request w) ?_
    exact List.forall_mem_cons.mpr ⟨heeds, frames⟩
  | wait w op k =>
    obtain ⟨s, own⟩ := w
    exact turn.wait (frank.resolve_right id) own op process.2 heeds frames
  | block w lock request k =>
    obtain ⟨s, own⟩ := w
    exact turn.block (frank.resolve_right id) own lock request process.2 heeds frames

/-- What is left of an operation when the task goes on. -/
theorem finish_inOrder (regular : s.Regular (some me)) (current : s.current = some me) (frank : s.Frank)
    (alive : (s.view me).killed = false) (idle : awaits me = none) (op : WaitOp V)
    (order : s.traffic.InOrder (update awaits me (Thread.awaits { suspended := .wait op k, stack }))) :
    s.traffic.Leads (op.finish s).2.traffic ∧ (op.finish s).2.traffic.InOrder awaits := by
  have settled : update awaits me none = awaits := by rw [← idle, Function.update_eq_self]
  by_cases receiver : ∃ c, op = .receive c
  · obtain ⟨c, rfl⟩ := receiver
    have awaits_some : Thread.awaits { suspended := .wait (.receive c) k, stack } = some c := rfl
    rw [awaits_some] at order
    obtain ⟨t, known⟩ := regular.task?_hand
    have live := frank.live regular alive
    have waits : update awaits me (some c) me = some c := Function.update_self ..
    have woken := order.posts.woken waits live (regular.free alive)
    have leave : s.traffic.Leave me c ((WaitOp.receive c).finish s).2.traffic :=
      Scheduler.leave_receiveResult current known woken
    have left := order.leave leave waits live (regular.free alive)
    rw [Function.update_idem, settled] at left
    exact ⟨.single (.leave leave), left⟩
  · have other : ∀ c, op ≠ .receive c := fun c same => receiver ⟨c, same⟩
    have finished : s.Same .silent (op.finish s).2 := Scheduler.Same.goOn op other (fun _ _ => trivial) (.refl s)
    rw [Thread.awaits_none other, settled] at order
    rw [finished.traffic]
    exact ⟨.refl, order⟩

/-- A suspended task that is taken in hand goes on. -/
theorem goOn_inOrder (host : Host S V E B A) (heeding : host.Heeds dead) (regular : s.Regular (some me))
    (current : s.current = some me) (frank : s.Frank) (idle : awaits me = none) {t : Thread S V E B A}
    (order : s.traffic.InOrder (update awaits me t.awaits)) (sound : t.Sound) (heeds : t.Heeds dead) (own : S) :
    GoesInOrder dead awaits s.traffic (host.goOn ⟨s, own⟩ t).1 (host.goOn ⟨s, own⟩ t).2 := by
  obtain ⟨suspended, stack⟩ := t
  obtain ⟨heeds, frames⟩ := heeds
  have whenKilled : s.currentKilled = true → s.traffic.InOrder awaits := by
    intro killed
    rw [Scheduler.currentKilled_eq current] at killed
    refine order.congr fun t live => (Function.update_of_ne ?_ ..).symm
    rintro rfl
    exact Bool.false_ne_true (live.symm.trans (regular.gone_of_killed killed))
  cases suspended with
  | wait op k =>
    unfold Host.goOn
    dsimp only
    split
    · rename_i killed
      exact goesInOrder_dies .refl (whenKilled killed) ((heeds ⟨s, own⟩ none).2 rfl) (heeds ⟨s, own⟩ none).1 frames
    · rename_i alive
      rw [Scheduler.currentKilled_eq current, Bool.not_eq_true] at alive
      have evolution : Scheduler.Evolution none (some me) s (op.finish s).2 := op.evolves_finish s regular
      obtain ⟨leads, finished⟩ := finish_inOrder regular current frank alive idle op order
      exact goesInOrder leads finished (regular.evolve evolution) (frank.evolve evolution)
        (sound.suspended ⟨_, own⟩ _) (heeds ⟨_, own⟩ _).1 frames
  | enter lock request k =>
    unfold Host.goOn
    dsimp only
    split
    · rename_i killed
      exact goesInOrder_dies .refl (whenKilled killed) ((heeds ⟨s, own⟩ .killed).2 trivial)
        (heeds ⟨s, own⟩ .killed).1 frames
    · have none : Thread.awaits { suspended := .enter lock request k, stack } = none := rfl
      rw [none, ← idle, Function.update_eq_self] at order
      exact InTurn.enter ⟨heeding, regular, current, idle, order⟩ own request heeds frames rfl regular frank

end

namespace Stage

variable {host : Host S V E B A} {dead : A → Prop} {stage stage' : Stage S V E B A}

/-- The channels are in order, and all tasks heed that they are killed. -/
def InOrder (dead : A → Prop) : Stage S V E B A → Prop
  | between m => m.world.sched.traffic.InOrder (threadAwaits m.threads) ∧ ∀ x ∈ m.threads, x.2.Heeds dead
  | running threads _ p stack =>
    GoesInOrder dead (threadAwaits threads) p.world.sched.traffic p stack ∧ ∀ x ∈ threads, x.2.Heeds dead

/-- A task gets its turn. -/
theorem inOrder_opening (host : Host S V E B A) (heeding : host.Heeds dead) (m : Machine S V E B A) (me : TaskId)
    (regular : (m.world.sched.setCurrent (some me)).Regular (some me)) (frank : m.world.sched.Frank)
    (order : m.world.sched.traffic.InOrder (threadAwaits m.threads)) (sound : ∀ x ∈ m.threads, x.2.Sound)
    (heeds : ∀ x ∈ m.threads, x.2.Heeds dead) :
    (m.opening host me).InOrder dead ∧ m.world.sched.traffic.Leads (m.opening host me).sched.traffic := by
  have frank : (m.world.sched.setCurrent (some me)).Frank := frank
  have order : (m.world.sched.setCurrent (some me)).traffic.InOrder (threadAwaits m.threads) := order
  unfold Machine.opening
  dsimp only
  split
  · rename_i id t found
    have found : m.threads.find? (·.1 = me) = some (id, t) := found
    have mem := List.mem_of_find?_eq_some found
    rw [threadAwaits, threadRead_filter _ _ found] at order
    have idle : threadAwaits (m.threads.filter (·.1 ≠ me)) me = none := by
      refine threadRead_missing _ _ ?_
      rw [find?_filter_thread, if_pos rfl]
    have goes := goOn_inOrder host heeding regular rfl frank idle order (sound _ mem) (heeds _ mem) m.world.own
    exact ⟨⟨goes.here, fun x other => heeds x (List.mem_filter.mp other).1⟩, goes.leads⟩
  · rename_i k absent known
    have process := (host.start k.body).sound ⟨m.world.sched.setCurrent (some me), m.world.own⟩
    have goes : GoesInOrder dead (threadAwaits m.threads) (m.world.sched.setCurrent (some me)).traffic _ [] :=
      goesInOrder .refl order regular frank process (heeding k.body _) nofun
    exact ⟨⟨goes.here, heeds⟩, goes.leads⟩
  · exact ⟨⟨order, heeds⟩, .refl⟩

theorem inOrder_afterTurn (host : Host S V E B A) {threads : List (TaskId × Thread S V E B A)} {me : TaskId} {x : Traffic V}
    {e : TurnEnd S V E B A} (heeds : ∀ x ∈ threads, x.2.Heeds dead)
    (stops : (ThreadStep.stop e).InOrder dead (threadAwaits threads) me x) :
    (between (Machine.afterTurn host threads me e).2).InOrder dead ∧
      x.Leads (between (Machine.afterTurn host threads me e).2).sched.traffic := by
  cases e with
  | ended w a =>
    obtain ⟨leads, order⟩ : x.Leads w.sched.traffic ∧ w.sched.traffic.InOrder (threadAwaits threads) := stops
    unfold Machine.afterTurn
    dsimp only
    split
    · exact ⟨⟨order, heeds⟩, leads⟩
    · have ends := w.sched.ends_finish (host.errorText w.own) me (host.conclude me a).1 (host.conclude me a).2
      exact ⟨⟨order.moves ends.moves, heeds⟩, leads.trans ends.moves.leads⟩
  | parked w t =>
    obtain ⟨leads, order, thread⟩ := stops
    refine ⟨⟨?_, List.forall_mem_cons.mpr ⟨thread, heeds⟩⟩, leads⟩
    show w.sched.traffic.InOrder (threadAwaits ((me, t) :: threads))
    rw [threadAwaits, threadRead_cons]
    exact order
  | exhausted w =>
    obtain ⟨leads, order⟩ : x.Leads w.sched.traffic ∧ w.sched.traffic.InOrder (threadAwaits threads) := stops
    exact ⟨⟨order, heeds⟩, leads⟩

theorem InOrder.step {threads : List (TaskId × Thread S V E B A)} {me : TaskId} {p : Proc S V E B A (Turn B A)}
    {stack : List (Waiting S V E B A)} (order : (running threads me p stack).InOrder dead) (heeding : host.Heeds dead)
    (orderly : (running threads me p stack).scene.Orderly) (sound : (running threads me p stack).Sound) :
    (host.step p stack).InOrder dead (threadAwaits threads) me p.world.sched.traffic := by
  obtain ⟨⟨-, order, heeds, frames, frank⟩, -⟩ := order
  obtain ⟨-, absent, process, sound⟩ := sound
  have turn : InTurn dead (threadAwaits threads) host me p.world.sched :=
    ⟨heeding, orderly.regular, orderly.current, threadRead_missing _ _ absent, order⟩
  exact turn.step process sound heeds frames frank

/-- One step of a run. -/
theorem InOrder.next (order : stage.InOrder dead) (heeding : host.Heeds dead) (orderly : stage.scene.Orderly)
    (sound : stage.Sound) (next : Next host stage stage') :
    stage'.InOrder dead ∧ stage.sched.traffic.Leads stage'.sched.traffic := by
  have between {m : Machine S V E B A} {s : Scheduler V E B} (order : (Stage.between m).InOrder dead)
      (moves : m.world.sched.traffic.Moves s.traffic) :
      (Stage.between (m.onSched fun _ => s)).InOrder dead ∧ m.world.sched.traffic.Leads s.traffic :=
    ⟨⟨order.1.moves moves, order.2⟩, moves.leads⟩
  cases next with
  | advance later => exact between order (Scheduler.ends_advance? later).moves
  | act acts =>
    cases acts with
    | @unwind m id rest first =>
      have regular : m.world.sched.Regular none := orderly.regular
      exact inOrder_opening host heeding (m.onSched fun s => { s with unwinding := rest }) id
        ((regular.takeKilled first).setCurrent _) (regular.frank_between) order.1 sound order.2
    | @dispatch m id s picked =>
      have regular : m.world.sched.Regular none := orderly.regular
      obtain ⟨same, frank⟩ := regular.frank_dispatch picked
      have same : (s.setRunning id).traffic = m.world.sched.traffic := same
      obtain ⟨order, heeds⟩ := order
      rw [← same] at order
      show _ ∧ m.world.sched.traffic.Leads _
      rw [← same]
      exact inOrder_opening host heeding (m.onSched fun _ => s.setRunning id) id
        ((regular.nextReady_some picked).setCurrent _) frank order sound heeds
    | @idle m s picked =>
      have same := m.world.sched.traffic_nextReady
      rw [picked] at same
      exact between order (same ▸ .refl)
    | fire m n => exact between order (m.world.sched.ends_fireDue n).moves
    | kill m id cause => exact between order (m.world.sched.ends_kill id cause).moves
    | note m e => exact between order .refl
    | step goes =>
      have step := order.step heeding orderly sound
      rw [goes] at step
      exact ⟨⟨step.here, order.2⟩, step.leads⟩
    | stop stops =>
      have step := order.step heeding orderly sound
      rw [stops] at step
      exact inOrder_afterTurn host order.2 step

theorem InOrder.reaches (order : stage.InOrder dead) (heeding : host.Heeds dead) (orderly : stage.scene.Orderly)
    (sound : stage.Sound) (reaches : Reaches host stage stage') :
    stage'.InOrder dead ∧ stage.sched.traffic.Leads stage'.sched.traffic := by
  induction reaches with
  | refl => exact ⟨order, .refl⟩
  | tail before next ih =>
    obtain ⟨sound', scenes⟩ := sound.reaches before
    obtain ⟨order', leads'⟩ := ih.1.next heeding (orderly.steps scenes) sound' next
    exact ⟨order', ih.2.trans leads'⟩

/-- The channel at which a task waits to receive. -/
def awaits : Stage S V E B A → TaskId → Option ObjectId
  | between m => threadAwaits m.threads
  | running threads _ _ _ => threadAwaits threads

theorem InOrder.traffic (order : stage.InOrder dead) : stage.sched.traffic.InOrder stage.awaits := by
  cases stage with
  | between m => exact order.1
  | running threads me p stack => exact order.1.order

end Stage

/-! ## Before the run -/

namespace Scheduler

variable {s : Scheduler V E B}

/-- Before the run nobody waits, and the channels are in order. -/
theorem Prepared.inOrder (prepared : s.Prepared) : s.traffic.InOrder fun _ => none := by
  induction prepared with
  | new defaultDeadline picks journal =>
    refine ⟨⟨fun t => ?_, fun c st here => ?_, fun c _ u mem => ?_⟩, ⟨fun c st t here => ?_, fun c t waits => ?_, fun c t => ?_⟩⟩
    · simp [traffic, Ended]
    · simp [traffic, object?] at here
    · simp [traffic] at mem
    · simp [traffic, object?] at here
    · simp at waits
    · exact ⟨none, rfl, fun _ => rfl⟩
  | operate before op ih => exact ih.moves (moves_run op before.regular.1 (before.regular.1.frank_between))
  | @attempt s before op ih =>
    obtain ⟨regular, free⟩ := before.regular
    obtain ⟨moves, -⟩ | ⟨c, -, -, me, x, runs, -⟩ := moves_start op (free ▸ regular) (regular.frank_between)
    · exact ih.moves moves
    · simp [free] at runs

end Scheduler

namespace Machine.Fresh

variable {m : Machine S V E B A} {host : Host S V E B A} {dead : A → Prop} {stage stage' : Stage S V E B A}

theorem sound (fresh : m.Fresh) : (Stage.between m).Sound := by
  simp [Stage.Sound, fresh.threads]

/-- The channels are in order at every stage of a run. -/
theorem inOrder (fresh : m.Fresh) (heeding : host.Heeds dead) (reaches : Stage.Reaches host (.between m) stage) :
    stage.InOrder dead := by
  have order : (Stage.between m).InOrder dead := by
    refine ⟨?_, by simp [fresh.threads]⟩
    rw [fresh.threads]
    exact fresh.prepared.inOrder
  exact (order.reaches heeding (fresh.reaches reaches).1 fresh.sound reaches).1

/-- What happens to the traffic between two stages of a run. -/
theorem leads (fresh : m.Fresh) (heeding : host.Heeds dead) (reaches : Stage.Reaches host (.between m) stage)
    (later : Stage.Reaches host stage stage') : stage.sched.traffic.Leads stage'.sched.traffic := by
  obtain ⟨start, scenes⟩ := fresh.reaches reaches
  have sound := (fresh.sound.reaches reaches).1
  exact ((fresh.inOrder heeding reaches).reaches heeding (start.steps scenes) sound later).2

end Machine.Fresh

end LedgerScript

/-!
## Channels serve in order

Whatever the tasks do that use a channel, and whenever some of them are killed, it serves first in, first out: the values
that it has handed out are those of the first accepted sends.  What is left of them is in the buffer, and after that come
the senders that wait.
-/

namespace LedgerScript

open ChannelHistory (accepted handedOut handedTo gotten)
open Stage (Reaches)

variable {S V E B A : Type}

/-- A channel serves first in, first out, while some tasks have ended. -/
structure ServesInOrder (ended : TaskId → Bool) (uses : List (ChannelUse V)) (c : ObjectId) (st : ChannelState V) :
    Prop where
  bounded : st.buffer.length ≤ st.capacity
  /-- While somebody waits to receive there is nothing in the buffer, and nobody waits to send. -/
  receivers : (∃ t ∈ st.receivers, ended t = false) → st.buffer = [] ∧ ∀ p ∈ st.senders, ended p.1 = true
  /-- While somebody waits to send the buffer is full, and the channel is open. -/
  senders : (∃ p ∈ st.senders, ended p.1 = false) → st.buffer.length = st.capacity ∧ st.isClosed = false
  /-- Nobody waits at a channel that has been closed. -/
  closed : .closed c ∈ uses →
    st.isClosed = true ∧ (∀ t ∈ st.receivers, ended t = true) ∧ ∀ p ∈ st.senders, ended p.1 = true
  /-- What has been handed out are the values of the first accepted sends, in the order of the calls. -/
  first : handedOut c uses <+: (accepted c uses).map (·.2)
  /-- The others are in the buffer, or their senders wait. -/
  rest : accepted c uses = (handedOut c uses ++ st.buffer).map (none, ·) ++
    (st.senders.filter fun p => !ended p.1).map fun p => (some p.1, p.2)
  /-- A receiver has returned without a value only when the channel was closed and had handed out everything. -/
  drained : ∀ old, .drained c :: old <:+ uses → .closed c ∈ old ∧ (accepted c old).map (·.2) = handedOut c old

/-- A lawful channel serves in order.  It only matters who of those in its queues has ended. -/
theorem Traffic.ChannelLaw.serves {gone ended : TaskId → Bool} {uses : List (ChannelUse V)} {c : ObjectId}
    {st : ChannelState V} (law : ChannelLaw gone uses c st) (same : ∀ t ∈ st.queued, ended t = gone t) :
    ServesInOrder ended uses c st := by
  have left : waiting gone st.senders = (st.senders.filter fun p => !ended p.1).map fun p => (some p.1, p.2) := by
    have alike : st.senders.filter (fun p => !gone p.1) = st.senders.filter fun p => !ended p.1 :=
      List.filter_congr fun p mem => by rw [same p.1 (List.mem_append_left _ (List.mem_map_of_mem mem))]
    rw [waiting, alike]
  have values (vs : List V) : (vs.map fun v => ((none : Option TaskId), v)).map (·.2) = vs :=
    (List.map_map ..).trans (List.map_id vs)
  have order := law.order
  rw [left] at order
  refine ⟨law.bounded, fun waits => ?_, fun waits => ?_, fun closed => ?_, ?_, order, fun old suffix => ?_⟩
  · obtain ⟨t, mem, -⟩ := waits
    obtain ⟨empty, nobody⟩ := law.receivers (List.ne_nil_of_mem mem)
    exact ⟨empty, by simp [nobody]⟩
  · obtain ⟨p, mem, -⟩ := waits
    refine ⟨law.senders (List.ne_nil_of_mem mem), ?_⟩
    by_contra closed
    rw [Bool.not_eq_false] at closed
    simp [(law.turnedAway closed).1] at mem
  · have isClosed := law.closed_iff.mpr closed
    obtain ⟨nobody, nobody'⟩ := law.turnedAway isClosed
    exact ⟨isClosed, by simp [nobody'], by simp [nobody]⟩
  · rw [order, List.map_append, values, List.append_assoc]
    exact List.prefix_append _ _
  · obtain ⟨closed, all⟩ := law.drained old suffix
    exact ⟨closed, by rw [all, values]⟩

end LedgerScript
