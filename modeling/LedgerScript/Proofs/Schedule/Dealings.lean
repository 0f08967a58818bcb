import LedgerScript.Proofs.Schedule.Bodies
import LedgerScript.Proofs.Schedule.Waits
import Mathlib.Data.List.TakeWhile

/-!
# Operations make moves

Every operation of tasks, and everything that timers do, is a sequence of moves of the traffic.  This needs a scheduler
where every task that has ended is finished.  A task that was killed and waits again while it unwinds does not look
finished, and its value could still be taken from a queue.
-/

open Function (update)

namespace LedgerScript

variable {V E B : Type}

namespace TaskView

variable {keys : WaitKey → Prop} {inHand : Bool} {v v' : TaskView}

/-- What has ended stays finished. -/
theorem Move.frank (move : Move keys inHand v v') (frank : v.ended = true → v.isDone = true) (ended : v'.ended = true) :
    v'.isDone = true := by
  cases move with
  | calm | drop => exact frank ended
  | wake here may noTimer unfinished => exact absurd ((frank ended).symm.trans unfinished) (by simp)
  | call here unfinished => exact absurd ((frank ended).symm.trans unfinished) (by simp)
  | ring here unfinished => exact absurd ((frank ended).symm.trans unfinished) (by simp)
  | kill => rfl
  | spawn => simp at ended

theorem Moves.frank (moves : Moves keys inHand v v') (frank : v.ended = true → v.isDone = true)
    (ended : v'.ended = true) : v'.isDone = true := by
  induction moves with
  | refl => exact frank ended
  | tail _ move ih => exact move.frank ih ended

end TaskView

namespace Scheduler

/-- Every task that has ended is finished. -/
def Frank (s : Scheduler V E B) : Prop :=
  ∀ t, s.Ended t → s.isDone t = true

variable {s s' : Scheduler V E B} {exempt : Option ObjectId} {hand : Option TaskId} {t me : TaskId} {c : ObjectId}
  {st st' : ChannelState V}
variable {k : Task V E B}

theorem frank_iff : s.Frank ↔ ∀ t, (s.view t).ended = true → (s.view t).isDone = true := by
  simp only [Frank, isDone_view]
  simp [view]

theorem Frank.evolve (frank : s.Frank) (evolution : Evolution exempt hand s s') : s'.Frank :=
  frank_iff.2 fun t => (evolution.moves t).frank (frank_iff.1 frank t)

/-! ## What the traffic is after small changes -/

theorem traffic_wake (s : Scheduler V E B) (t : TaskId) : (s.wake t).traffic = s.traffic :=
  ((Same.refl s).wake t).traffic

theorem traffic_park (s : Scheduler V E B) (t : TaskId) (key : Option WaitKey) (reason : WaitReason) :
    (s.park t key reason).traffic = s.traffic :=
  (Same.park trivial (Same.refl s) t key reason).traffic

theorem traffic_useChannel (s : Scheduler V E B) (u : ChannelUse V) : (s.useChannel u).traffic = s.traffic.note u :=
  rfl

theorem traffic_post (here : s.task? t = some k) {f : Task V E B → Task V E B} {r : Received V}
    (mail : (f k).received = r) : (s.modifyTask t f).traffic = s.traffic.post t r := by
  have eq := s.modifyTask_eq t f
  rw [Traffic.ext_iff]
  refine ⟨by rw [eq]; rfl, funext fun t' => ?_, by rw [eq]; rfl, by rw [eq]; rfl⟩
  simp only [traffic, task?_modifyTask, Traffic.post]
  by_cases same : t' = t
  · simp [same, here, mail]
  · simp [same]

theorem traffic_deliver (here : s.task? t = some k) (v : Option V) (ok : Bool) :
    (s.deliver t v ok).traffic = s.traffic.post t (v, ok) :=
  (traffic_wake _ t).trans (traffic_post here rfl)

theorem channel_of_traffic (here : s.traffic.channel c = some st) : s.channel c = st := by
  unfold channel
  simp only [traffic] at here
  cases object : s.object? c with
  | none => simp [object] at here
  | some o => cases o <;> simp_all [SyncObject.channel?]

theorem traffic_setChannel (here : s.traffic.channel c = some st) (st' : ChannelState V) :
    (s.setChannel c st').traffic = s.traffic.put c st' [] := by
  have eq := s.modifyObject_eq c (·.withChannel st')
  rw [Traffic.ext_iff]
  refine ⟨funext fun c' => ?_, by rw [setChannel, eq]; rfl, by rw [setChannel, eq]; rfl, by rw [setChannel, eq]; rfl⟩
  simp only [traffic, setChannel, object?_modifyObject, Traffic.put]
  by_cases same : c' = c
  · subst same
    simp only [traffic] at here
    cases object : s.object? c' with
    | none => simp [object] at here
    | some o => cases o <;> simp_all [SyncObject.channel?, SyncObject.withChannel]
  · simp [same]

theorem traffic_setChannel_none (none : s.traffic.channel c = none) (st' : ChannelState V) :
    (s.setChannel c st').traffic = s.traffic := by
  have eq := s.modifyObject_eq c (·.withChannel st')
  rw [Traffic.ext_iff]
  refine ⟨funext fun c' => ?_, by rw [setChannel, eq]; rfl, by rw [setChannel, eq]; rfl, by rw [setChannel, eq]; rfl⟩
  simp only [traffic, setChannel, object?_modifyObject]
  by_cases same : c' = c
  · subst same
    simp only [traffic] at none
    cases object : s.object? c' with
    | none => simp
    | some o => cases o <;> simp_all [SyncObject.channel?, SyncObject.withChannel]
  · simp [same]

theorem traffic_of_open (isOpen : (s.channel c).isClosed = false) : s.traffic.channel c = some (s.channel c) := by
  obtain ⟨capacity, buffer, senders, receivers, here⟩ := object?_of_open isOpen
  simp [traffic, channel, here, SyncObject.channel?]

/-! ## The queues -/

/-- Whoever waits in a queue of a channel is in the books. -/
theorem mem_queued (here : s.traffic.channel c = some st) (waits : t ∈ st.queued) : t ∈ s.queued := by
  simp only [traffic] at here
  obtain ⟨o, object, state⟩ := Option.bind_eq_some_iff.mp here
  unfold object? at object
  split at object
  · cases object
  · refine List.mem_flatMap.mpr ⟨o, Array.mem_toList_iff.mpr (Array.mem_of_getElem? object), ?_⟩
    cases o with
    | channel capacity buffer isClosed senders receivers =>
      cases state
      exact waits
    | lock | semaphore | barrier => cases state

/-- Whoever waits in a queue of a channel is known. -/
theorem Regular.known_queued (regular : s.Regular hand) (waits : t ∈ s.queued) : ∃ k, s.task? t = some k := by
  cases known : s.task? t with
  | none =>
    have absent := congrArg TaskView.queued (regular.unknown known).1
    have none : s.queued.count t = 0 := absent
    exact absurd waits (List.count_eq_zero.mp none)
  | some k => exact ⟨k, rfl⟩

/-- Finished tasks in a queue have ended. -/
theorem Regular.gone_of_queued (regular : s.Regular hand) (here : s.traffic.channel c = some st) (waits : t ∈ st.queued)
    (done : s.isDone t = true) : s.traffic.gone t = true := by
  obtain ⟨k, known⟩ := regular.known_queued (mem_queued here waits)
  exact decide_eq_true (regular.ended_of_isDone done (by simp [view, known]))

theorem Frank.not_gone (frank : s.Frank) (unfinished : s.isDone t = false) : s.traffic.gone t = false :=
  decide_eq_false fun ended => by simp [frank t ended] at unfinished

theorem dropWhile_split {α : Type} (p : α → Bool) (l : List α) :
    ∃ dropped, l = dropped ++ l.dropWhile p ∧ ∀ a ∈ dropped, p a = true :=
  ⟨l.takeWhile p, List.takeWhile_append_dropWhile.symm, fun _ mem => List.mem_takeWhile_imp mem⟩

theorem Regular.popReceiver (regular : s.Regular hand) (here : s.traffic.channel c = some st) :
    (∀ t ∈ st.receivers, s.traffic.gone t = true) ∧
        s.popReceiver c = (none, s.setChannel c { st with receivers := [] }) ∨
      ∃ dropped r rest, st.receivers = dropped ++ r :: rest ∧ (∀ t ∈ dropped, s.traffic.gone t = true) ∧
        s.isDone r = false ∧ s.popReceiver c = (some r, s.setChannel c { st with receivers := rest }) := by
  obtain ⟨dropped, split, done⟩ := dropWhile_split s.isDone st.receivers
  have gone : ∀ t ∈ dropped, s.traffic.gone t = true := fun t mem =>
    regular.gone_of_queued here (by rw [ChannelState.queued, split]; simp [mem]) (done t mem)
  unfold Scheduler.popReceiver
  rw [channel_of_traffic here]
  dsimp only
  cases left : st.receivers.dropWhile s.isDone with
  | nil =>
    rw [left, List.append_nil] at split
    exact .inl ⟨split ▸ gone, rfl⟩
  | cons r rest => exact .inr ⟨dropped, r, rest, left ▸ split, gone, dropWhile_head left, rfl⟩

theorem Regular.popSender (regular : s.Regular hand) (here : s.traffic.channel c = some st) :
    (∀ p ∈ st.senders, s.traffic.gone p.1 = true) ∧
        s.popSender c = (none, s.setChannel c { st with senders := [] }) ∨
      ∃ dropped t w rest, st.senders = dropped ++ (t, w) :: rest ∧ (∀ p ∈ dropped, s.traffic.gone p.1 = true) ∧
        s.isDone t = false ∧ s.popSender c = (some (t, w), s.setChannel c { st with senders := rest }) := by
  obtain ⟨dropped, split, done⟩ := dropWhile_split (fun p : TaskId × V => s.isDone p.1) st.senders
  have gone : ∀ p ∈ dropped, s.traffic.gone p.1 = true := fun p mem => by
    refine regular.gone_of_queued here (List.mem_append_left _ (List.mem_map_of_mem ?_)) (done p mem)
    rw [split]
    exact List.mem_append_left _ mem
  unfold Scheduler.popSender
  rw [channel_of_traffic here]
  dsimp only
  cases left : st.senders.dropWhile fun p => s.isDone p.1 with
  | nil =>
    rw [left, List.append_nil] at split
    exact .inl ⟨split ▸ gone, rfl⟩
  | cons p rest =>
    have first : s.isDone p.1 = false := dropWhile_head (p := fun p : TaskId × V => s.isDone p.1) left
    exact .inr ⟨dropped, p.1, p.2, rest, left ▸ split, gone, first, rfl⟩

/-! ## Sending -/

theorem current_setChannel (s : Scheduler V E B) (c : ObjectId) (st : ChannelState V) :
    (s.setChannel c st).current = s.current := by
  rw [setChannel, modifyObject_eq]

/-- A channel gets another state after a moment of the history. -/
theorem traffic_useChannel_setChannel (here : s.traffic.channel c = some st) (u : ChannelUse V) (st' : ChannelState V) :
    ((s.useChannel u).setChannel c st').traffic = s.traffic.put c st' [u] := by
  have here' : (s.useChannel u).traffic.channel c = some st := here
  rw [traffic_setChannel here', traffic_useChannel, Traffic.put_note, List.nil_append]

theorem moves_deposit (here : s.traffic.channel c = some st) (isOpen : st.isClosed = false)
    (nobody : st.receivers = []) (v : V) : s.traffic.Moves (s.deposit c v).2.traffic := by
  unfold deposit
  rw [channel_of_traffic here]
  dsimp only
  split
  · rename_i room
    dsimp only
    rw [traffic_useChannel_setChannel here]
    exact .single (.store v here isOpen nobody room)
  · rename_i full
    split
    · exact .refl
    · rename_i me runs
      have same := (s.useChannel (.offered c me v)).traffic_modifyTask me
        (f := fun t => { t with sendRefused := false }) fun _ => rfl
      have here' : ((s.useChannel (.offered c me v)).modifyTask me
          fun t => { t with sendRefused := false }).traffic.channel c = some st := by
        rw [same]
        exact here
      dsimp only
      rw [traffic_park, traffic_setChannel here', same, traffic_useChannel, Traffic.put_note, List.nil_append]
      exact .single (.offer me v here isOpen nobody (Nat.le_of_not_lt full))

/-- A value goes to a receiver that has left the queue. -/
theorem traffic_hand {r : TaskId} (here : s.traffic.channel c = some st) (known : s.task? r = some k)
    (st' : ChannelState V) (v : V) :
    ((((s.setChannel c st').useChannel (.sent c v)).useChannel (.handed c (some r) v)).deliver r (some v) true).traffic =
      (s.traffic.put c st' [.handed c (some r) v, .sent c v]).post r (some v, true) := by
  have known' : (((s.setChannel c st').useChannel (.sent c v)).useChannel (.handed c (some r) v)).task? r = some k := by
    have tasks : (s.setChannel c st').tasks = s.tasks := by rw [setChannel, modifyObject_eq]
    unfold task? at known ⊢
    rw [useChannel, useChannel, tasks]
    exact known
  rw [traffic_deliver known', traffic_useChannel, traffic_useChannel, traffic_setChannel here]
  rfl

theorem moves_send (regular : s.Regular s.current) (frank : s.Frank) (c : ObjectId) (v : V) :
    s.traffic.Moves (s.send c v).2.traffic := by
  unfold send
  split
  · exact .refl
  · rename_i isOpen
    rw [Bool.not_eq_true] at isOpen
    have here := traffic_of_open isOpen
    obtain ⟨gone, popped⟩ | ⟨dropped, r, rest, queue, gone, unfinished, popped⟩ := regular.popReceiver here
    · have skipped : s.traffic.Move (s.traffic.put c { s.channel c with receivers := [] } []) :=
        .skipReceivers here (List.append_nil _).symm gone
      rw [← traffic_setChannel here] at skipped
      have here' : (s.setChannel c { s.channel c with receivers := [] }).traffic.channel c = some _ :=
        (congrArg (·.channel c) (traffic_setChannel here _)).trans Traffic.channel_put
      rw [popped]
      exact .head skipped (moves_deposit here' isOpen rfl v)
    · have waits : r ∈ (s.channel c).queued := by
        rw [ChannelState.queued, queue]
        simp
      obtain ⟨k, known⟩ := regular.known_queued (mem_queued here waits)
      have skipped : s.traffic.Move _ := .skipReceivers here queue gone
      have handed : (s.traffic.put c { s.channel c with receivers := r :: rest } []).Move _ :=
        .hand v Traffic.channel_put isOpen rfl (frank.not_gone unfinished)
      rw [Traffic.put_put] at handed
      rw [popped]
      dsimp only
      rw [traffic_hand here known]
      exact .head skipped (.single handed)

/-! ## Receiving -/

theorem moves_takeBuffered (regular : s.Regular hand) (frank : s.Frank)
    (here : s.traffic.channel c = some st) {v : V} {rest : List V} (full : st.buffer = v :: rest) :
    (s.takeReady c).1 = some v ∧ s.traffic.Moves (s.takeReady c).2.traffic := by
  have state := channel_of_traffic here
  have evolution : Evolution none hand s ((s.useChannel (.handed c none v)).setChannel c { st with buffer := rest }) :=
    (s.evolves_useChannel _).trans (evolves_setChannel _ c (by rw [channel_useChannel, state]; rfl)) regular
  have left := traffic_useChannel_setChannel here (.handed c none v) { st with buffer := rest }
  unfold takeReady
  rw [state]
  dsimp only
  rw [full]
  dsimp only
  generalize (s.useChannel (.handed c none v)).setChannel c { st with buffer := rest } = s₁ at evolution left
  have here₁ : s₁.traffic.channel c = some { st with buffer := rest } := left ▸ Traffic.channel_put
  have gone₁ : s₁.traffic.gone = s.traffic.gone := by
    rw [left]
    rfl
  obtain ⟨gone, popped⟩ | ⟨dropped, t, w, more, queue, gone, unfinished, popped⟩ :=
    (regular.evolve evolution).popSender here₁
  · rw [gone₁] at gone
    have skipped : s.traffic.Move (s.traffic.put c { st with senders := [] } []) :=
      .skipSenders here (List.append_nil _).symm gone
    have took : (s.traffic.put c { st with senders := [] } []).Move _ := .take Traffic.channel_put full rfl
    rw [Traffic.put_put] at took
    rw [popped]
    dsimp only
    rw [traffic_setChannel here₁, left, Traffic.put_put]
    exact ⟨rfl, .head skipped (.single took)⟩
  · rw [gone₁] at gone
    have live := (frank.evolve evolution).not_gone unfinished
    rw [gone₁] at live
    have skipped : s.traffic.Move (s.traffic.put c { st with senders := (t, w) :: more } []) :=
      .skipSenders here queue gone
    have shifted : (s.traffic.put c { st with senders := (t, w) :: more } []).Move _ :=
      .shift Traffic.channel_put full rfl live
    rw [Traffic.put_put] at shifted
    have here₂ : (s₁.setChannel c { st with buffer := rest, senders := more }).traffic.channel c = some _ :=
      (congrArg (·.channel c) (traffic_setChannel here₁ _)).trans Traffic.channel_put
    rw [popped]
    dsimp only
    rw [channel_useChannel, channel_of_traffic here₂, traffic_wake, traffic_useChannel_setChannel here₂,
      traffic_setChannel here₁, left, Traffic.put_put, Traffic.put_put]
    exact ⟨rfl, .head skipped (.single shifted)⟩

/-- A value is taken from a waiting sender, or there is none. -/
theorem moves_takeWaiting (regular : s.Regular hand) (frank : s.Frank)
    (here : s.traffic.channel c = some st) (empty : st.buffer = []) :
    (∃ v, (s.takeReady c).1 = some v ∧ s.traffic.Moves (s.takeReady c).2.traffic) ∨
      s.takeReady c = (none, s.setChannel c { st with senders := [] }) ∧
        ∀ p ∈ st.senders, s.traffic.gone p.1 = true := by
  obtain ⟨capacity, buffer, isClosed, senders, receivers⟩ := st
  obtain rfl : buffer = [] := empty
  unfold takeReady
  rw [channel_of_traffic here]
  dsimp only
  obtain ⟨gone, popped⟩ | ⟨dropped, t, w, more, queue, gone, unfinished, popped⟩ := regular.popSender here
  · rw [popped]
    exact .inr ⟨rfl, gone⟩
  · have skipped : s.traffic.Move (s.traffic.put c ⟨capacity, [], isClosed, (t, w) :: more, receivers⟩ []) :=
      .skipSenders here queue gone
    have fetched : (s.traffic.put c ⟨capacity, [], isClosed, (t, w) :: more, receivers⟩ []).Move _ :=
      .fetch Traffic.channel_put rfl rfl (frank.not_gone unfinished)
    rw [Traffic.put_put] at fetched
    rw [popped]
    dsimp only
    rw [traffic_wake, traffic_useChannel, traffic_useChannel, traffic_setChannel here]
    exact .inl ⟨w, rfl, .head skipped (.single fetched)⟩

theorem takeReady_none (absent : s.traffic.channel c = none) :
    (s.takeReady c).1 = none ∧ (s.takeReady c).2.traffic = s.traffic ∧ (s.takeReady c).2.current = s.current := by
  have state : s.channel c = ⟨0, [], true, [], []⟩ := by
    unfold channel
    simp only [traffic] at absent
    cases object : s.object? c with
    | none => rfl
    | some o => cases o <;> simp_all [SyncObject.channel?]
  unfold takeReady popSender
  rw [state]
  exact ⟨rfl, traffic_setChannel_none absent _, current_setChannel s c _⟩

/-- No value can be taken at once. -/
theorem takeReady_empty (regular : s.Regular hand) (frank : s.Frank)
    (here : s.traffic.channel c = some st) (nothing : (s.takeReady c).1 = none) :
    st.buffer = [] ∧ (s.takeReady c).2 = s.setChannel c { st with senders := [] } ∧
      s.traffic.Move (s.traffic.put c { st with senders := [] } []) := by
  have empty : st.buffer = [] := by
    cases buffer : st.buffer with
    | nil => rfl
    | cons v rest =>
      have took := (moves_takeBuffered regular frank here buffer).1
      simp [nothing] at took
  obtain ⟨v, took, -⟩ | ⟨left, gone⟩ := moves_takeWaiting regular frank here empty
  · simp [nothing] at took
  · rw [left]
    exact ⟨empty, rfl, .skipSenders here (List.append_nil _).symm gone⟩

theorem moves_takeReady (regular : s.Regular hand) (frank : s.Frank) (c : ObjectId) :
    s.traffic.Moves (s.takeReady c).2.traffic := by
  cases here : s.traffic.channel c with
  | none => rw [(takeReady_none here).2.1]
  | some st =>
    cases buffer : st.buffer with
    | cons v rest => exact (moves_takeBuffered regular frank here buffer).2
    | nil =>
      obtain ⟨v, -, moves⟩ | ⟨left, gone⟩ := moves_takeWaiting regular frank here buffer
      · exact moves
      · rw [left, traffic_setChannel here]
        exact .single (.skipSenders here (List.append_nil _).symm gone)

theorem task?_noteReceived (s : Scheduler V E B) (c : ObjectId) (receiver : TaskId) (r : Received V) (t : TaskId) :
    (s.noteReceived c receiver r).task? t = s.task? t := by
  unfold noteReceived
  split
  · rfl
  · split <;> rfl

theorem traffic_noteReceived (here : s.traffic.channel c = some st) (t : TaskId) (ok : Bool) :
    (s.noteReceived c t (none, ok)).traffic = s.traffic.note (.drained c) := by
  simp only [traffic] at here
  unfold noteReceived
  cases object : s.object? c with
  | none => simp [object] at here
  | some o =>
    cases o with
    | channel => rfl
    | lock | semaphore | barrier => simp [object, SyncObject.channel?] at here

theorem traffic_noteReceived_none (absent : s.traffic.channel c = none) (t : TaskId) :
    (s.noteReceived c t (none, false)).traffic = s.traffic := by
  simp only [traffic] at absent
  unfold noteReceived
  cases object : s.object? c with
  | none => rfl
  | some o =>
    cases o with
    | channel => simp [object, SyncObject.channel?] at absent
    | lock | semaphore | barrier => rfl

/-- The running task joins the queue of receivers. -/
theorem traffic_join (here : s.traffic.channel c = some st) (known : s.task? me = some k)
    (st' : ChannelState V) (reason : WaitReason) :
    (((s.modifyTask me fun t => { t with received := (none, false) }).setChannel c st').park me none reason).traffic =
      (s.traffic.put c st' []).post me (none, false) := by
  have posted := traffic_post known (f := fun t => { t with received := (none, false) }) rfl
  have here' : (s.modifyTask me fun t => { t with received := (none, false) }).traffic.channel c = some st :=
    (congrArg (·.channel c) posted).trans here
  rw [traffic_park, traffic_setChannel here', posted]
  rfl

/-- The running task joins the queue of receivers and waits there. -/
def Joins (c : ObjectId) (s s' : Scheduler V E B) : Prop :=
  ∃ me x, s.current = some me ∧ s.traffic.Moves x ∧ x.Join me c s'.traffic

/-- A receiver waits, unless the channel is closed. -/
theorem joins_awaitValue (regular : s.Regular s.current) (here : s.traffic.channel c = some st) (empty : st.buffer = [])
    (nobody : st.senders = []) :
    (∃ a, (s.awaitValue c).1 = .done a) ∧ s.traffic.Moves (s.awaitValue c).2.traffic ∨
      (s.awaitValue c).1 = .parked ∧ Joins c s (s.awaitValue c).2 := by
  unfold awaitValue
  rw [channel_of_traffic here]
  dsimp only
  split
  · rename_i closed
    refine .inl ⟨⟨_, rfl⟩, ?_⟩
    dsimp only
    rw [traffic_noteReceived here]
    exact .single (.drain here closed empty)
  · rename_i isOpen
    rw [Bool.not_eq_true] at isOpen
    split
    · exact .inl ⟨⟨_, rfl⟩, .refl⟩
    · rename_i me runs
      rw [runs] at regular
      obtain ⟨k, known⟩ := regular.task?_hand
      refine .inr ⟨rfl, me, s.traffic, runs, .refl, ?_⟩
      dsimp only
      rw [traffic_join here known]
      exact .wait here isOpen empty nobody

theorem awaitValue_none (absent : s.traffic.channel c = none) :
    (s.awaitValue c).1 = .done ((none, false), none) ∧ (s.awaitValue c).2.traffic = s.traffic := by
  have closed : (s.channel c).isClosed = true := by
    by_contra isOpen
    rw [Bool.not_eq_true] at isOpen
    simp [traffic_of_open isOpen] at absent
  unfold awaitValue
  simp only [closed, if_true]
  exact ⟨trivial, traffic_noteReceived_none absent _⟩

/-- A receiver that finds no value at once. -/
theorem receive_eq {s' : Scheduler V E B} (nothing : s.takeReady c = (none, s')) : s.receive c = s'.awaitValue c := by
  rw [receive, nothing]

/-- A receiver gets what there is, or waits. -/
theorem joins_receive (regular : s.Regular s.current) (frank : s.Frank) (c : ObjectId) :
    (∃ a, (s.receive c).1 = .done a) ∧ s.traffic.Moves (s.receive c).2.traffic ∨
      (s.receive c).1 = .parked ∧ Joins c s (s.receive c).2 := by
  have evolution : Evolution none s.current s (s.takeReady c).2 := s.evolves_takeReady c regular
  rcases took : s.takeReady c with ⟨v | _, s'⟩
  · have nothing : (s.takeReady c).1 = none := by rw [took]
    rw [receive_eq took]
    obtain rfl : (s.takeReady c).2 = s' := by rw [took]
    cases here : s.traffic.channel c with
    | none =>
      obtain ⟨-, same, -⟩ := takeReady_none here
      obtain ⟨done, kept⟩ := awaitValue_none ((congrArg (·.channel c) same).trans here)
      refine .inl ⟨⟨_, done⟩, ?_⟩
      rw [kept, same]
    | some st =>
      obtain ⟨empty, cleared, skipped⟩ := takeReady_empty regular frank here nothing
      have regular' := regular.evolve evolution
      have current := s.current_setChannel c { st with senders := [] }
      have left := traffic_setChannel here { st with senders := [] }
      rw [cleared] at regular' ⊢
      rw [← current] at regular'
      have here' := (congrArg (·.channel c) left).trans Traffic.channel_put
      rw [← left] at skipped
      obtain ⟨done, moves⟩ | ⟨parked, me, x, runs, moves, join⟩ := joins_awaitValue regular' here' empty rfl
      · exact .inl ⟨done, .head skipped moves⟩
      · exact .inr ⟨parked, me, x, current.symm.trans runs, .head skipped moves, join⟩
  · have moves := moves_takeReady regular frank c
    rw [took] at moves
    rw [receive, took]
    exact .inl ⟨⟨_, rfl⟩, moves⟩

/-- A receiver goes on that has been woken with a value, or because the channel was closed. -/
theorem leave_receiveResult (runs : s.current = some me) (known : s.task? me = some k)
    (woken : (∃ v, s.traffic.mail me = (some v, true) ∧ s.traffic.channel c ≠ none) ∨
      (s.traffic.mail me).1 = none ∧ ∃ st, s.traffic.channel c = some st ∧ st.isClosed = true ∧ st.buffer = []) :
    s.traffic.Leave me c (s.receiveResult c).2.traffic := by
  have mail : s.traffic.mail me = k.received := by simp [traffic, known]
  unfold receiveResult
  rw [runs]
  simp only [known, Option.map_some, Option.getD_some]
  rw [traffic_post ((s.task?_noteReceived c me k.received me).trans known) rfl]
  obtain ⟨v, served, channel⟩ | ⟨nothing, st, here, closed, empty⟩ := woken
  · rw [← mail, served]
    exact .collect channel served
  · have received : k.received = (none, k.received.2) := Prod.ext (mail ▸ nothing) rfl
    have noted := traffic_noteReceived here me k.received.2
    rw [← received] at noted ⊢
    have left := (s.traffic.note (.drained c)).post_self me
    rw [noted, ← mail]
    exact left.symm ▸ .drain nothing here closed empty

/-! ## Closing -/

/-- Receivers are turned away. -/
theorem traffic_refuseReceivers (ts : List TaskId) (s : Scheduler V E B) :
    ∃ mail, (ts.foldl refuseReceiver s).traffic = { s.traffic with mail } ∧
      (∀ t, t ∉ ts → mail t = s.traffic.mail t) ∧ ∀ t ∈ ts, mail t = s.traffic.mail t ∨ mail t = (none, false) := by
  induction ts generalizing s with
  | nil => exact ⟨s.traffic.mail, rfl, fun _ _ => rfl, by simp⟩
  | cons r ts ih =>
    obtain ⟨mail, eq, others, refused⟩ := ih (s.refuseReceiver r)
    have first : (s.refuseReceiver r).traffic = s.traffic ∨
        (s.refuseReceiver r).traffic = s.traffic.post r (none, false) := by
      unfold refuseReceiver
      split
      · exact .inl rfl
      · rename_i unfinished
        rw [Bool.not_eq_true] at unfinished
        obtain ⟨k, known, -⟩ := task?_of_isDone unfinished
        exact .inr (traffic_deliver known none false)
    refine ⟨mail, ?_, fun t absent => ?_, fun t mem => ?_⟩
    · rw [List.foldl_cons, eq]
      rcases first with same | posted
      · rw [same]
      · rw [posted]
        rfl
    · rw [List.mem_cons, not_or] at absent
      obtain ⟨other, absent⟩ := absent
      rw [others t absent]
      rcases first with same | posted
      · rw [same]
      · rw [posted]
        exact Function.update_of_ne other _ _
    · have here : (s.refuseReceiver r).traffic.mail t = s.traffic.mail t ∨
          (s.refuseReceiver r).traffic.mail t = (none, false) := by
        rcases first with same | posted
        · exact .inl (by rw [same])
        · rw [posted]
          by_cases same : t = r
          · exact .inr (by simp [Traffic.post, same])
          · exact .inl (Function.update_of_ne same _ _)
      by_cases later : t ∈ ts
      · rcases refused t later with same | gone
        · exact same ▸ here
        · exact .inr gone
      · exact others t later ▸ here

/-- Senders are turned away. -/
theorem traffic_refuseSenders (ps : List (TaskId × V)) (s : Scheduler V E B) :
    (ps.foldl refuseSender s).traffic = s.traffic := by
  induction ps generalizing s with
  | nil => rfl
  | cons p ps ih =>
    rw [List.foldl_cons, ih, refuseSender]
    split
    · rfl
    · rw [traffic_wake]
      exact s.traffic_modifyTask p.1 fun _ => rfl

theorem moves_closeChannel (s : Scheduler V E B) (c : ObjectId) : s.traffic.Moves (s.closeChannel c).traffic := by
  unfold closeChannel
  dsimp only
  split
  · exact .refl
  · rename_i isOpen
    rw [Bool.not_eq_true] at isOpen
    have here := traffic_of_open isOpen
    have closed := traffic_useChannel_setChannel here (.closed c) { s.channel c with isClosed := true }
    generalize (s.useChannel (.closed c)).setChannel c { s.channel c with isClosed := true } = s₁ at closed
    have here₁ : s₁.traffic.channel c = some { s.channel c with isClosed := true } := closed ▸ Traffic.channel_put
    unfold turnAway
    rw [channel_of_traffic here₁]
    dsimp only
    have emptied := traffic_setChannel here₁ { s.channel c with isClosed := true, receivers := [], senders := [] }
    obtain ⟨mail, refused, others, turned⟩ := traffic_refuseReceivers (s.channel c).receivers
      (s₁.setChannel c { s.channel c with isClosed := true, receivers := [], senders := [] })
    rw [traffic_refuseSenders, refused]
    rw [emptied, closed, Traffic.put_put] at others turned ⊢
    exact .single (.close here isOpen others turned)

/-! ## The end of tasks -/

theorem traffic_noteEnd (s : Scheduler V E B) (id : TaskId) : (s.noteEnd id).traffic = s.traffic.finish id := by
  rw [Traffic.ext_iff]
  refine ⟨rfl, rfl, funext fun t => ?_, rfl⟩
  have iff : (s.noteEnd id).Ended t ↔ t = id ∨ s.Ended t := by simp [Ended, noteEnd, use, useChannel]
  by_cases same : t = id
  · subst same
    simp [traffic, Traffic.finish, iff.mpr (.inl rfl)]
  · simp [traffic, Traffic.finish, iff, same]

theorem ends_finish (s : Scheduler V E B) (errorText : E → Bytes) (id : TaskId) (result : Option V)
    (fault : Option (TaskFault E)) : s.traffic.Ends (s.finish errorText id result fault).traffic := by
  unfold finish
  split
  · exact .refl
  · rename_i t found
    have disarmed : s.Same .silent ((s.disarm t.deadline).disarm t.sleep) :=
      Same.disarm trivial (Same.disarm trivial (Same.refl s) _) _
    generalize (s.disarm t.deadline).disarm t.sleep = s₁ at disarmed
    have changed : (s₁.noteEnd id).Same .silent ((s₁.noteEnd id).modifyTask id fun t => { t with
        result, fault, deadline := none, sleep := none
        state := if fault.isSome then .failed else .completed }) :=
      Same.modifyTask trivial (Same.refl _) id (fun _ => by rfl) fun _ => by rfl
    have last := (((changed.unregister id).unready id).noteTask "task.finish" id
      (finishDetail errorText fault)).wakeAll (.join id)
    refine .single ⟨id, last.traffic.trans ?_⟩
    rw [traffic_noteEnd, disarmed.traffic]

theorem ends_kill (s : Scheduler V E B) (id : TaskId) (cause : ScheduleFault) :
    s.traffic.Ends (s.kill id cause).traffic := by
  unfold kill
  split
  · exact .refl
  · split
    · exact .refl
    · have ended := (s.modifyTask id fun t => { t with killed := true }).ends_finish (fun _ => []) id none
        (some (.schedule cause))
      rw [traffic_modifyTask] at ended
      · dsimp only
        split
        · exact ended
        · exact ended
      · exact fun _ => rfl

theorem ends_fireDue (n : Nat) (s : Scheduler V E B) : s.traffic.Ends (s.fireDue n).traffic := by
  induction n generalizing s with
  | zero => exact .refl
  | succ n ih =>
    unfold fireDue
    split
    · rename_i timer rest first
      split
      · refine .trans ?_ (ih _)
        unfold ring fire
        generalize (s.now, timer) :: s.timerUses = timerUses
        split
        · rename_i id wakes
          rw [traffic_wake]
          exact .refl
        · rename_i id after expires
          have ended := ends_kill ({ s with timers := rest, timerUses }.modifyTask id fun t => { t with deadline := none }) id
            (.deadline id after)
          rw [traffic_modifyTask] at ended
          · exact ended
          · exact fun _ => rfl
      · exact .refl
    · exact .refl

theorem ends_advance? (later : s.advance? = some s') : s.traffic.Ends s'.traffic := by
  unfold advance? at later
  split at later
  · cases later
  · cases later
    rename_i t rest first
    exact ends_fireDue _ { s with now := max s.now t.due }

/-! ## All operations -/

theorem moves_newChannel (s : Scheduler V E B) (capacity : Int) : s.traffic.Moves (s.newChannel capacity).2.traffic := by
  have absent : s.traffic.channel (s.objects.size + 1) = none := by simp [traffic, object?]
  have made : (s.newChannel capacity).2.traffic =
      s.traffic.put (s.objects.size + 1) ⟨capacity.toNat, [], false, [], []⟩ [] := by
    rw [Traffic.ext_iff]
    refine ⟨funext fun c => ?_, rfl, rfl, rfl⟩
    have objects := s.object?_newObject (.channel capacity.toNat [] false [] []) c
    simp only [traffic, newChannel, objects, Traffic.put]
    by_cases new : c = s.objects.size + 1
    · simp [new, SyncObject.channel?]
    · simp [new]
  rw [made]
  exact .single (.create absent _)

theorem moves_run {α : Type} (op : TaskOp V E B α) (regular : s.Regular hand) (frank : s.Frank) :
    s.traffic.Moves (op.run s).2.traffic := by
  have calm : ¬ op.Deals → (∀ name body k, op ≠ .spawn name body k) → s.traffic.Moves (op.run s).2.traffic := by
    intro quiet other
    have same : s.Same .silent (op.run s).2 := Same.run op quiet (fun _ => trivial) other (.refl s)
    rw [same.traffic]
  cases op with
  | spawn name body k =>
    have same : (s.spawn name body).2.traffic = s.traffic := (s.spawn_spec name body).2.2
    show s.traffic.Moves (s.spawn name body).2.traffic
    rw [same]
  | cancel id => exact (s.ends_kill id .cancelled).moves
  | newChannel capacity => exact s.moves_newChannel capacity
  | tryReceive c => exact moves_takeReady regular frank c
  | close c => exact s.moves_closeChannel c
  | _ => exact calm id (by simp)

/-- What a task does, one operation after another, is a sequence of moves. -/
theorem Steps.moves (steps : s.Steps s') (regular : s.Regular hand) (frank : s.Frank) :
    s.traffic.Moves s'.traffic ∧ s'.Frank := by
  induction steps with
  | refl => exact ⟨.refl, frank⟩
  | tail before op ih =>
    obtain ⟨moves, frank'⟩ := ih
    have regular' := regular.evolve (before.evolves regular)
    exact ⟨moves.trans (moves_run op regular' frank'), frank'.evolve (op.evolves _ regular')⟩

/-- An operation that may suspend starts with a sequence of moves, unless the task now waits to receive. -/
theorem moves_start (op : WaitOp V) (regular : s.Regular s.current) (frank : s.Frank) :
    s.traffic.Moves (op.start s).2.traffic ∧ (∀ c, op = .receive c → (op.start s).1 ≠ .parked) ∨
      ∃ c, op = .receive c ∧ (op.start s).1 = .parked ∧ Joins c s (op.start s).2 := by
  have calm : ¬ op.Deals → s.traffic.Moves (op.start s).2.traffic := by
    intro quiet
    have same : s.Same .silent (op.start s).2 := Same.start op quiet (fun _ _ => trivial) (.refl s)
    rw [same.traffic]
  cases op with
  | send c v => exact .inl ⟨moves_send regular frank c v, by simp⟩
  | receive c =>
    have attempt : ((WaitOp.receive c).start s).1 = (s.receive c).1.received := rfl
    rw [attempt]
    obtain ⟨⟨a, done⟩, moves⟩ | ⟨parked, joins⟩ := joins_receive regular frank c
    · refine .inl ⟨moves, fun _ _ => ?_⟩
      simp [done, Attempt.received]
    · refine .inr ⟨c, rfl, ?_, joins⟩
      rw [parked]
      rfl
  | _ => exact .inl ⟨calm id, by simp⟩

end Scheduler

end LedgerScript
