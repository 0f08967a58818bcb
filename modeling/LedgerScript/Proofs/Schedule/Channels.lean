import LedgerScript.Proofs.Schedule.Traffic

/-!
# Channels are first in, first out

Whatever happens to a channel, the accepted sends are those whose values were handed out, then those in the buffer, then
those of senders that still wait.  Every move keeps this, and what it needs: the buffer is never too full, receivers only
wait at an empty channel, and senders at a full one.
-/

open Function (update)

namespace LedgerScript

variable {V : Type} {c c' : ObjectId} {t : TaskId} {v w : V} {h old : List (ChannelUse V)}

namespace ChannelHistory

/-! ## What does not concern a channel -/

theorem accepted_elsewhere {u : ChannelUse V} (other : u.channel? ≠ some c) (living : ∀ t, u ≠ .ended t) :
    accepted c (u :: h) = accepted c h := by
  cases u with
  | ended t => exact absurd rfl (living t)
  | _ => simp_all [accepted, ChannelUse.channel?]

theorem handedOut_elsewhere {u : ChannelUse V} (other : u.channel? ≠ some c) : handedOut c (u :: h) = handedOut c h := by
  cases u <;> simp_all [handedOut, ChannelUse.channel?]

/-- Nothing happens to a channel before there is one. -/
theorem untouched (unused : ∀ u ∈ h, u.channel? ≠ some c) : accepted c h = [] ∧ handedOut c h = [] := by
  induction h with
  | nil => exact ⟨rfl, rfl⟩
  | cons u h ih =>
    obtain ⟨other, rest⟩ := List.forall_mem_cons.mp unused
    obtain ⟨none, nothing⟩ := ih rest
    refine ⟨?_, (handedOut_elsewhere other).trans nothing⟩
    cases u with
    | ended t => simp [accepted, none]
    | _ => exact (accepted_elsewhere other (by simp)).trans none

/-- A filter that lets through what was sent without a wait. -/
theorem filter_sent {p : Option TaskId × V → Bool} (through : ∀ v, p (none, v) = true) (vs : List V) :
    (vs.map (none, ·)).filter p = vs.map (none, ·) := by
  refine List.filter_eq_self.mpr fun send mem => ?_
  obtain ⟨v, -, rfl⟩ := List.mem_map.mp mem
  exact through v

/-- The first sender that waits is let go. -/
theorem letGo_first (vs : List V) (t : TaskId) (w : V) (rest : List (Option TaskId × V)) :
    letGo t (vs.map (none, ·) ++ (some t, w) :: rest) = vs.map (none, ·) ++ (none, w) :: rest := by
  induction vs with
  | nil => simp [letGo]
  | cons v vs ih => simpa [letGo] using ih

end ChannelHistory

open ChannelHistory

/-! ## The law of a channel -/

namespace Traffic

def waiting (gone : TaskId → Bool) (senders : List (TaskId × V)) : List (Option TaskId × V) :=
  (senders.filter fun p => !gone p.1).map fun p => (some p.1, p.2)

/-- What is true of a channel at every moment. -/
structure ChannelLaw (gone : TaskId → Bool) (uses : List (ChannelUse V)) (c : ObjectId) (st : ChannelState V) : Prop where
  bounded : st.buffer.length ≤ st.capacity
  receivers : st.receivers ≠ [] → st.buffer = [] ∧ st.senders = []
  senders : st.senders ≠ [] → st.buffer.length = st.capacity
  turnedAway : st.isClosed = true → st.senders = [] ∧ st.receivers = []
  closed_iff : st.isClosed = true ↔ .closed c ∈ uses
  order : accepted c uses = (handedOut c uses ++ st.buffer).map (none, ·) ++ waiting gone st.senders
  drained : ∀ old, .drained c :: old <:+ uses → .closed c ∈ old ∧ accepted c old = (handedOut c old).map (none, ·)

/-- Every channel is lawful, and what has not been made has no history. -/
structure Lawful (x : Traffic V) : Prop where
  ended : ∀ t, x.gone t = x.uses.any (·.isEnd t)
  channels : ∀ c st, x.channel c = some st → ChannelLaw x.gone x.uses c st
  unused : ∀ c, x.channel c = none → ∀ u ∈ x.uses, u.channel? ≠ some c

variable {x y : Traffic V} {gone : TaskId → Bool} {uses : List (ChannelUse V)} {st st' : ChannelState V}

theorem waiting_append (senders : List (TaskId × V)) (t : TaskId) (v : V) :
    waiting gone (senders ++ [(t, v)]) = waiting gone senders ++ if gone t then [] else [(some t, v)] := by
  cases ended : gone t <;> simp [waiting, ended]

theorem waiting_skip {dropped rest : List (TaskId × V)} (ended : ∀ p ∈ dropped, gone p.1 = true) :
    waiting gone (dropped ++ rest) = waiting gone rest := by
  have none : dropped.filter (fun p => !gone p.1) = [] := by simpa [List.filter_eq_nil_iff] using ended
  simp [waiting, none]

theorem waiting_cons (live : gone t = false) (rest : List (TaskId × V)) :
    waiting gone ((t, v) :: rest) = (some t, v) :: waiting gone rest := by
  simp [waiting, live]

theorem ChannelLaw.nobody (law : ChannelLaw gone uses c st) (some : st.buffer ≠ []) : st.receivers = [] := by
  by_contra waits
  exact some (law.receivers waits).1

theorem ChannelLaw.note (law : ChannelLaw gone uses c st) (new : List (ChannelUse V))
    (calm : ∀ u ∈ new, u ≠ .closed c ∧ u ≠ .drained c) :
    (st.isClosed = true ↔ .closed c ∈ new ++ uses) ∧ ∀ old, .drained c :: old <:+ new ++ uses →
      .closed c ∈ old ∧ accepted c old = (handedOut c old).map (none, ·) := by
  induction new with
  | nil => exact ⟨law.closed_iff, law.drained⟩
  | cons u new ih =>
    obtain ⟨⟨notClosed, notDrained⟩, rest⟩ := List.forall_mem_cons.mp calm
    obtain ⟨closed_iff, drained⟩ := ih rest
    refine ⟨closed_iff.trans ?_, fun old suffix => drained old ?_⟩
    · simp [notClosed.symm]
    · exact (List.suffix_cons_iff.mp suffix).resolve_left fun same => notDrained (List.cons.inj same).1.symm

/-- Nothing is noted that concerns a channel. -/
theorem ChannelLaw.elsewhere (law : ChannelLaw gone uses c st) {new : List (ChannelUse V)}
    (other : ∀ u ∈ new, u.channel? ≠ some c ∧ ∀ t, u ≠ .ended t) : ChannelLaw gone (new ++ uses) c st := by
  have calm : ∀ u ∈ new, u ≠ .closed c ∧ u ≠ .drained c := fun u mem =>
    ⟨fun same => (other u mem).1 (same ▸ rfl), fun same => (other u mem).1 (same ▸ rfl)⟩
  obtain ⟨closed_iff, drained⟩ := law.note new calm
  have same : accepted c (new ++ uses) = accepted c uses ∧ handedOut c (new ++ uses) = handedOut c uses := by
    clear calm closed_iff drained
    induction new with
    | nil => exact ⟨rfl, rfl⟩
    | cons u new ih =>
      obtain ⟨⟨here, living⟩, rest⟩ := List.forall_mem_cons.mp other
      exact ⟨(accepted_elsewhere here living).trans (ih rest).1, (handedOut_elsewhere here).trans (ih rest).2⟩
  refine { law with closed_iff, drained, order := ?_ }
  rw [same.1, same.2]
  exact law.order

/-- A task ends, and its sends that still wait are taken back. -/
theorem ChannelLaw.finish (law : ChannelLaw gone uses c st) (t : TaskId) :
    ChannelLaw (update gone t true) (.ended t :: uses) c st := by
  obtain ⟨closed_iff, drained⟩ := law.note [.ended t] (by simp)
  refine { law with closed_iff, drained, order := ?_ }
  have left : (waiting gone st.senders).filter (·.1 ≠ some t) = waiting (update gone t true) st.senders := by
    induction st.senders with
    | nil => rfl
    | cons p senders ih =>
      by_cases same : p.1 = t <;> cases ended : gone p.1 <;> simp_all [waiting]
  simp only [accepted, handedOut, law.order, List.filter_append, left]
  rw [filter_sent (by simp)]

theorem channelLaw_create (unused : ∀ u ∈ uses, u.channel? ≠ some c) (capacity : Nat) :
    ChannelLaw gone uses c ⟨capacity, [], false, [], []⟩ := by
  obtain ⟨none, nothing⟩ := untouched unused
  refine ⟨Nat.zero_le _, by simp, by simp, by simp, ?_, ?_, fun old suffix => ?_⟩
  · simpa using fun mem => unused _ mem rfl
  · simp [none, nothing, waiting]
  · exact absurd rfl (unused _ (suffix.subset List.mem_cons_self))

/-- Tasks that have ended leave the queues. -/
theorem ChannelLaw.skip (law : ChannelLaw gone uses c st) {receivers : List TaskId} {senders : List (TaskId × V)}
    (fewer : receivers <:+ st.receivers) (fewer' : senders <:+ st.senders)
    (same : waiting gone senders = waiting gone st.senders) : ChannelLaw gone uses c { st with senders, receivers } := by
  have nonempty : receivers ≠ [] → st.receivers ≠ [] := fun some none => some (by simpa [none] using fewer)
  have nonempty' : senders ≠ [] → st.senders ≠ [] := fun some none => some (by simpa [none] using fewer')
  refine { law with receivers := fun waits => ?_, senders := ?_, turnedAway := fun closed => ?_, order := ?_ }
  · obtain ⟨empty, nobody⟩ := law.receivers (nonempty waits)
    exact ⟨empty, by simpa [nobody] using fewer'⟩
  · exact fun waits => law.senders (nonempty' waits)
  · obtain ⟨nobody, nobody'⟩ := law.turnedAway closed
    exact ⟨by simpa [nobody] using fewer', by simpa [nobody'] using fewer⟩
  · rw [same]
    exact law.order

theorem ChannelLaw.hand (law : ChannelLaw gone uses c st) (v : V) {r : TaskId} {rest : List TaskId}
    (first : st.receivers = r :: rest) :
    ChannelLaw gone (.handed c (some r) v :: .sent c v :: uses) c { st with receivers := rest } := by
  obtain ⟨closed_iff, drained⟩ := law.note [.handed c (some r) v, .sent c v] (by simp)
  obtain ⟨empty, nobody⟩ := law.receivers (by simp [first])
  refine { law with closed_iff, drained, receivers := fun _ => ⟨empty, nobody⟩, turnedAway := ?_, order := ?_ }
  · intro closed
    have none := (law.turnedAway closed).2
    simp [first] at none
  · have order := law.order
    simp only [empty, nobody, List.append_nil, waiting, List.filter_nil, List.map_nil] at order ⊢
    simp [accepted, handedOut, order]

theorem ChannelLaw.store (law : ChannelLaw gone uses c st) (v : V) (isOpen : st.isClosed = false)
    (nobody : st.receivers = []) (room : st.buffer.length < st.capacity) :
    ChannelLaw gone (.sent c v :: uses) c { st with buffer := st.buffer ++ [v] } := by
  obtain ⟨closed_iff, drained⟩ := law.note [.sent c v] (by simp)
  have none : st.senders = [] := by
    by_contra some
    exact Nat.ne_of_lt room (law.senders some)
  refine { closed_iff, drained, bounded := ?_, receivers := ?_, senders := ?_, turnedAway := ?_, order := ?_ }
  · simpa using Nat.succ_le_of_lt room
  · simp [nobody]
  · simp [none]
  · simp [isOpen]
  · have order := law.order
    simp only [none, waiting, List.filter_nil, List.map_nil, List.append_nil] at order ⊢
    simp [accepted, handedOut, order]

theorem ChannelLaw.offer (law : ChannelLaw gone uses c st) (ended : gone t = uses.any (·.isEnd t)) (v : V)
    (isOpen : st.isClosed = false) (nobody : st.receivers = []) (full : st.capacity ≤ st.buffer.length) :
    ChannelLaw gone (.offered c t v :: uses) c { st with senders := st.senders ++ [(t, v)] } := by
  obtain ⟨closed_iff, drained⟩ := law.note [.offered c t v] (by simp)
  refine { closed_iff, drained, bounded := law.bounded, receivers := ?_, senders := ?_, turnedAway := ?_, order := ?_ }
  · simp [nobody]
  · exact fun _ => Nat.le_antisymm law.bounded full
  · simp [isOpen]
  · rw [waiting_append, ← List.append_assoc]
    simp only [handedOut]
    rw [← law.order, accepted, ← ended]
    cases gone t <;> simp

theorem ChannelLaw.shift (law : ChannelLaw gone uses c st) {rest : List V} {more : List (TaskId × V)}
    (full : st.buffer = v :: rest) (waits : st.senders = (t, w) :: more) (live : gone t = false) :
    ChannelLaw gone (.admitted c t :: .handed c none v :: uses) c { st with buffer := rest ++ [w], senders := more } := by
  obtain ⟨closed_iff, drained⟩ := law.note [.admitted c t, .handed c none v] (by simp)
  have size : (rest ++ [w]).length = st.buffer.length := by simp [full]
  have equal := law.senders (by simp [waits])
  refine { closed_iff, drained, bounded := ?_, receivers := ?_, senders := ?_, turnedAway := ?_, order := ?_ }
  · exact Nat.le_of_eq (size.trans equal)
  · intro some
    have empty := (law.receivers some).1
    simp [full] at empty
  · exact fun _ => size.trans equal
  · intro closed
    have none := (law.turnedAway closed).1
    simp [waits] at none
  · have order := law.order
    rw [full, waits, waiting_cons live] at order
    simp only [accepted, handedOut, if_true]
    rw [order, letGo_first]
    simp

theorem ChannelLaw.take (law : ChannelLaw gone uses c st) {rest : List V} (full : st.buffer = v :: rest)
    (nobody : st.senders = []) : ChannelLaw gone (.handed c none v :: uses) c { st with buffer := rest } := by
  obtain ⟨closed_iff, drained⟩ := law.note [.handed c none v] (by simp)
  have bounded := law.bounded
  rw [full, List.length_cons] at bounded
  refine { law with closed_iff, drained, bounded := ?_, receivers := ?_, senders := ?_, order := ?_ }
  · exact Nat.le_of_succ_le bounded
  · intro some
    have empty := (law.receivers some).1
    simp [full] at empty
  · simp [nobody]
  · have order := law.order
    simp only [full, nobody, waiting, List.filter_nil, List.map_nil, List.append_nil] at order ⊢
    simp [accepted, handedOut, order]

theorem ChannelLaw.fetch (law : ChannelLaw gone uses c st) {more : List (TaskId × V)} (empty : st.buffer = [])
    (waits : st.senders = (t, w) :: more) (live : gone t = false) :
    ChannelLaw gone (.handed c none w :: .admitted c t :: uses) c { st with senders := more } := by
  obtain ⟨closed_iff, drained⟩ := law.note [.handed c none w, .admitted c t] (by simp)
  refine { law with closed_iff, drained, receivers := ?_, senders := ?_, turnedAway := ?_, order := ?_ }
  · intro some
    have none := (law.receivers some).2
    simp [waits] at none
  · exact fun _ => law.senders (by simp [waits])
  · intro closed
    have none := (law.turnedAway closed).1
    simp [waits] at none
  · have order := law.order
    rw [empty, waits, waiting_cons live] at order
    simp only [accepted, handedOut, if_true]
    rw [order, letGo_first, empty]
    simp

theorem ChannelLaw.drain (law : ChannelLaw gone uses c st) (closed : st.isClosed = true) (empty : st.buffer = []) :
    ChannelLaw gone (.drained c :: uses) c st := by
  refine { law with closed_iff := by simpa using law.closed_iff, order := law.order, drained := fun old suffix => ?_ }
  rcases List.suffix_cons_iff.mp suffix with now | before
  · obtain ⟨-, rfl⟩ := List.cons.inj now
    have order := law.order
    rw [(law.turnedAway closed).1, empty] at order
    exact ⟨law.closed_iff.mp closed, by simpa [waiting] using order⟩
  · exact law.drained old before

theorem ChannelLaw.wait (law : ChannelLaw gone uses c st) (isOpen : st.isClosed = false) (empty : st.buffer = [])
    (nobody : st.senders = []) (t : TaskId) : ChannelLaw gone uses c { st with receivers := st.receivers ++ [t] } :=
  { law with receivers := fun _ => ⟨empty, nobody⟩, turnedAway := by simp [isOpen] }

theorem ChannelLaw.close (law : ChannelLaw gone uses c st) :
    ChannelLaw gone (.closed c :: uses) c { st with isClosed := true, senders := [], receivers := [] } := by
  refine {
    bounded := law.bounded, receivers := by simp, senders := by simp, turnedAway := by simp, closed_iff := by simp
    order := ?_, drained := fun old suffix => ?_ }
  · have none : (waiting gone st.senders).filter (·.1.isNone) = [] := by
      refine List.filter_eq_nil_iff.mpr fun send mem => ?_
      obtain ⟨p, -, rfl⟩ := List.mem_map.mp mem
      simp
    simp only [accepted, handedOut, if_true, law.order, List.filter_append, none]
    rw [filter_sent (by simp)]
    rfl
  · exact law.drained old ((List.suffix_cons_iff.mp suffix).resolve_left (by simp))

/-! ## Every move is lawful -/

/-- A channel gets another state, and the moments that enter the history are its own. -/
theorem Lawful.put (lawful : x.Lawful) {new : List (ChannelUse V)} (mine : ∀ u ∈ new, u.channel? = some c)
    (law : ChannelLaw x.gone (new ++ x.uses) c st') : (x.put c st' new).Lawful := by
  have living : ∀ u ∈ new, ∀ t, u ≠ .ended t := fun u mem t same => by
    have concerns := mine u mem
    simp [same, ChannelUse.channel?] at concerns
  refine ⟨fun t => ?_, fun c' st'' here => ?_, fun c' absent u mem => ?_⟩
  · have none : new.any (·.isEnd t) = false := by
      refine List.any_eq_false.mpr fun u mem => ?_
      cases u with
      | ended t' => exact absurd rfl (living _ mem t')
      | _ => simp [ChannelUse.isEnd]
    show x.gone t = (new ++ x.uses).any (·.isEnd t)
    rw [List.any_append, none, Bool.false_or]
    exact lawful.ended t
  · by_cases same : c' = c
    · subst same
      have here : update x.channel c' (some st') c' = some st'' := here
      rw [Function.update_self] at here
      exact Option.some.inj here ▸ law
    · have here : x.channel c' = some st'' := (Function.update_of_ne same _ _).symm.trans here
      refine (lawful.channels c' st'' here).elsewhere fun u mem => ⟨fun concerns => ?_, living u mem⟩
      exact same (Option.some.inj (concerns.symm.trans (mine u mem)))
  · have other : c' ≠ c := by
      rintro rfl
      simp [Traffic.put] at absent
    have absent : x.channel c' = none := (Function.update_of_ne other _ _).symm.trans absent
    rcases List.mem_append.mp mem with here | before
    · rw [mine u here]
      exact fun same => other (Option.some.inj same).symm
    · exact lawful.unused c' absent u before

/-- A moment of a channel enters the history. -/
theorem Lawful.note (lawful : x.Lawful) (here : x.channel c = some st) {u : ChannelUse V} (mine : u.channel? = some c)
    (law : ChannelLaw x.gone (u :: x.uses) c st) : (x.note u).Lawful := by
  have noted : (x.put c st [u]).Lawful := lawful.put (by simpa using mine) law
  have same : x.put c st [u] = x.note u := by
    rw [Traffic.put, ← here, Function.update_eq_self]
    rfl
  exact same ▸ noted

/-- What receivers are woken with does not matter. -/
theorem Lawful.of_mail (lawful : x.Lawful) (mail : TaskId → Option V × Bool) : Lawful { x with mail } :=
  ⟨lawful.ended, lawful.channels, lawful.unused⟩

theorem Lawful.finish (lawful : x.Lawful) (t : TaskId) : (x.finish t).Lawful := by
  refine ⟨fun t' => ?_, fun c st here => (lawful.channels c st here).finish t, fun c absent u mem => ?_⟩
  · show update x.gone t true t' = _
    by_cases same : t' = t
    · simp [same, Traffic.finish, ChannelUse.isEnd]
    · simp [same, Ne.symm same, Traffic.finish, ChannelUse.isEnd, lawful.ended]
  · rcases List.mem_cons.mp mem with rfl | before
    · simp [ChannelUse.channel?]
    · exact lawful.unused c absent u before

/-- Whatever happens is lawful. -/
theorem Lawful.move (lawful : x.Lawful) (move : x.Move y) : y.Lawful := by
  cases move with
  | finish t => exact lawful.finish t
  | @create c new capacity =>
    exact lawful.put (by simp) (channelLaw_create (lawful.unused c new) capacity)
  | @skipReceivers c st dropped rest here queue ended =>
    have law := lawful.channels c st here
    exact lawful.put (by simp) (law.skip ⟨dropped, queue.symm⟩ List.suffix_rfl rfl)
  | @skipSenders c st dropped rest here queue ended =>
    have law := lawful.channels c st here
    refine lawful.put (by simp) (law.skip List.suffix_rfl ⟨dropped, queue.symm⟩ ?_)
    rw [queue, waiting_skip ended]
  | @hand c st r rest v here isOpen first live =>
    exact (lawful.put (by simp [ChannelUse.channel?]) ((lawful.channels c st here).hand v first)).of_mail _
  | @store c st v here isOpen nobody room =>
    exact lawful.put (by simp [ChannelUse.channel?]) ((lawful.channels c st here).store v isOpen nobody room)
  | @offer c st t v here isOpen nobody full =>
    have law := (lawful.channels c st here).offer (lawful.ended t) v isOpen nobody full
    exact lawful.put (by simp [ChannelUse.channel?]) law
  | @shift c st v w t rest more here full waits live =>
    exact lawful.put (by simp [ChannelUse.channel?]) ((lawful.channels c st here).shift full waits live)
  | @take c st v rest here full nobody =>
    exact lawful.put (by simp [ChannelUse.channel?]) ((lawful.channels c st here).take full nobody)
  | @fetch c st w t more here empty waits live =>
    exact lawful.put (by simp [ChannelUse.channel?]) ((lawful.channels c st here).fetch empty waits live)
  | @drain c st here closed empty =>
    exact lawful.note here rfl ((lawful.channels c st here).drain closed empty)
  | @close c st mail here isOpen others refused =>
    exact (lawful.put (by simp [ChannelUse.channel?]) (lawful.channels c st here).close).of_mail mail

theorem Lawful.moves (lawful : x.Lawful) (moves : x.Moves y) : y.Lawful := by
  induction moves with
  | refl => exact lawful
  | tail _ move ih => exact ih.move move

theorem Lawful.join (lawful : x.Lawful) (join : x.Join t c y) : y.Lawful := by
  cases join with
  | wait here isOpen empty nobody =>
    have law : ChannelLaw x.gone ([] ++ x.uses) c _ := (lawful.channels c _ here).wait isOpen empty nobody t
    exact (lawful.put (by simp) law).of_mail _

theorem Lawful.leave (lawful : x.Lawful) (leave : x.Leave t c y) : y.Lawful := by
  cases leave with
  | @collect v ok known served =>
    obtain ⟨st, here⟩ := Option.ne_none_iff_exists'.mp known
    have law := lawful.channels c st here
    obtain ⟨closed_iff, drained⟩ := law.note [.collected c t v] (by simp)
    have noted : ChannelLaw x.gone ([.collected c t v] ++ x.uses) c st :=
      { law with closed_iff, drained, order := law.order }
    exact (lawful.note here rfl noted).of_mail _
  | drain nothing here closed empty => exact lawful.note here rfl ((lawful.channels c _ here).drain closed empty)

end Traffic

end LedgerScript
