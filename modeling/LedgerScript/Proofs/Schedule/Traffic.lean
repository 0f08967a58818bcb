import LedgerScript.Proofs.Schedule.View
import Mathlib.Logic.Function.Basic
import Mathlib.Logic.Relation

/-!
# Traffic

The *traffic* of a scheduler is what matters to its channels: their states, what receivers were woken with, which tasks
have ended, and the history.  Most of what the scheduler does makes no traffic, or only lets tasks end.  `Traffic.Move`
lists the rest: how values, senders and receivers come together.

The history tells which sends were accepted and which values were handed out.  A send is accepted when its value goes
to a receiver or into the buffer, and while the sender waits.  It is taken back when the sender ends or the channel is
closed before anybody has taken the value.  A value that was handed to a waiting receiver is only gotten when the receiver
goes on.
-/

open Function (update)

namespace LedgerScript

variable {V E B : Type}

def SyncObject.channel? : SyncObject V → Option (ChannelState V)
  | .channel capacity buffer isClosed senders receivers => some ⟨capacity, buffer, isClosed, senders, receivers⟩
  | _ => none

namespace ChannelUse

def channel? : ChannelUse V → Option ObjectId
  | sent c _ | offered c _ _ | admitted c _ | handed c _ _ | collected c _ _ | drained c | closed c => some c
  | ended _ => none

def isEnd (t : TaskId) : ChannelUse V → Bool
  | ended t' => t' = t
  | _ => false

end ChannelUse

/-! ## What the history tells -/

namespace ChannelHistory

/-- The first send of a task that waits does not wait any more. -/
def letGo (t : TaskId) : List (Option TaskId × V) → List (Option TaskId × V)
  | [] => []
  | (sender, v) :: rest => if sender = some t then (none, v) :: rest else (sender, v) :: letGo t rest

/-- The accepted sends on a channel in the order of the calls, with the senders that still wait. -/
def accepted (c : ObjectId) : List (ChannelUse V) → List (Option TaskId × V)
  | [] => []
  | .sent c' v :: old => if c' = c then accepted c old ++ [(none, v)] else accepted c old
  | .offered c' t v :: old =>
    -- a task that has ended does not wait any more
    if c' = c ∧ old.any (·.isEnd t) = false then accepted c old ++ [(some t, v)] else accepted c old
  | .admitted c' t :: old => if c' = c then letGo t (accepted c old) else accepted c old
  | .closed c' :: old => if c' = c then (accepted c old).filter (·.1.isNone) else accepted c old
  | .ended t :: old => (accepted c old).filter (·.1 ≠ some t)
  | .handed .. :: old | .collected .. :: old | .drained _ :: old => accepted c old

/-- The values that a channel has handed out, in this order. -/
def handedOut (c : ObjectId) : List (ChannelUse V) → List V
  | [] => []
  | .handed c' _ v :: old => if c' = c then handedOut c old ++ [v] else handedOut c old
  | _ :: old => handedOut c old

/-- The values that a channel has handed to a receiver that waited, in this order. -/
def handedTo (c : ObjectId) (t : TaskId) : List (ChannelUse V) → List V
  | [] => []
  | .handed c' r v :: old => if c' = c ∧ r = some t then handedTo c t old ++ [v] else handedTo c t old
  | _ :: old => handedTo c t old

/-- The values with which a receiver that had waited has gone on, in this order. -/
def gotten (c : ObjectId) (t : TaskId) : List (ChannelUse V) → List V
  | [] => []
  | .collected c' r v :: old => if c' = c ∧ r = t then gotten c t old ++ [v] else gotten c t old
  | _ :: old => gotten c t old

end ChannelHistory

/-! ## Traffic and its moves -/

@[ext] structure Traffic (V : Type) where
  channel : ObjectId → Option (ChannelState V)
  /-- What receivers were woken with. -/
  mail : TaskId → Option V × Bool
  /-- Which tasks have ended. -/
  gone : TaskId → Bool
  /-- The latest moment first. -/
  uses : List (ChannelUse V)

namespace Traffic

def finish (x : Traffic V) (t : TaskId) : Traffic V :=
  { x with gone := update x.gone t true, uses := .ended t :: x.uses }

/-- A channel gets another state, and moments enter the history. -/
def put (x : Traffic V) (c : ObjectId) (st : ChannelState V) (new : List (ChannelUse V)) : Traffic V :=
  { x with channel := update x.channel c (some st), uses := new ++ x.uses }

/-- A receiver is woken with something. -/
def post (x : Traffic V) (t : TaskId) (r : Option V × Bool) : Traffic V :=
  { x with mail := update x.mail t r }

/-- Tasks end, and nothing else happens. -/
abbrev Ends : Traffic V → Traffic V → Prop :=
  Relation.ReflTransGen fun x y => ∃ t, y = x.finish t

/-- A moment enters the history. -/
def note (x : Traffic V) (u : ChannelUse V) : Traffic V :=
  { x with uses := u :: x.uses }

variable {x : Traffic V} {c : ObjectId} {st st' : ChannelState V} {new new' : List (ChannelUse V)}

@[simp] theorem put_note (u : ChannelUse V) : (x.note u).put c st new = x.put c st (new ++ [u]) := by
  simp [put, note]

@[simp] theorem put_put : (x.put c st new).put c st' new' = x.put c st' (new' ++ new) := by
  simp [put]

@[simp] theorem channel_put : (x.put c st new).channel c = some st :=
  Function.update_self ..

theorem post_self (x : Traffic V) (t : TaskId) : x.post t (x.mail t) = x := by
  rw [post, Function.update_eq_self]

/-- What a channel is after another one, or itself, has got a new state. -/
theorem update_channel_cases {channel : ObjectId → Option (ChannelState V)} {c' : ObjectId}
    (there : update channel c (some st) c' = some st') : c' = c ∧ st' = st ∨ c' ≠ c ∧ channel c' = some st' := by
  by_cases same : c' = c
  · subst same
    rw [Function.update_self] at there
    exact .inl ⟨rfl, (Option.some.inj there).symm⟩
  · exact .inr ⟨same, (Function.update_of_ne same ..).symm.trans there⟩

/-- What can happen while those who wait to receive keep waiting or are woken. -/
inductive Move (x : Traffic V) : Traffic V → Prop where
  | finish (t : TaskId) : Move x (x.finish t)
  | create {c : ObjectId} (new : x.channel c = none) (capacity : Nat) :
    Move x (x.put c ⟨capacity, [], false, [], []⟩ [])
  | skipReceivers {c : ObjectId} {st : ChannelState V} {dropped rest : List TaskId} (here : x.channel c = some st)
    (queue : st.receivers = dropped ++ rest) (ended : ∀ t ∈ dropped, x.gone t = true) :
    Move x (x.put c { st with receivers := rest } [])
  | skipSenders {c : ObjectId} {st : ChannelState V} {dropped rest : List (TaskId × V)} (here : x.channel c = some st)
    (queue : st.senders = dropped ++ rest) (ended : ∀ p ∈ dropped, x.gone p.1 = true) :
    Move x (x.put c { st with senders := rest } [])
  /-- A value goes to a waiting receiver. -/
  | hand {c : ObjectId} {st : ChannelState V} {r : TaskId} {rest : List TaskId} (v : V) (here : x.channel c = some st)
    (isOpen : st.isClosed = false) (first : st.receivers = r :: rest) (live : x.gone r = false) :
    Move x ((x.put c { st with receivers := rest } [.handed c (some r) v, .sent c v]).post r (some v, true))
  /-- A value goes into the buffer. -/
  | store {c : ObjectId} {st : ChannelState V} (v : V) (here : x.channel c = some st) (isOpen : st.isClosed = false)
    (nobody : st.receivers = []) (room : st.buffer.length < st.capacity) :
    Move x (x.put c { st with buffer := st.buffer ++ [v] } [.sent c v])
  /-- A sender waits. -/
  | offer {c : ObjectId} {st : ChannelState V} (t : TaskId) (v : V) (here : x.channel c = some st)
    (isOpen : st.isClosed = false) (nobody : st.receivers = []) (full : st.capacity ≤ st.buffer.length) :
    Move x (x.put c { st with senders := st.senders ++ [(t, v)] } [.offered c t v])
  /-- A value is taken from the buffer, and a waiting sender fills the gap. -/
  | shift {c : ObjectId} {st : ChannelState V} {v w : V} {t : TaskId} {rest : List V} {more : List (TaskId × V)}
    (here : x.channel c = some st) (full : st.buffer = v :: rest) (waits : st.senders = (t, w) :: more)
    (live : x.gone t = false) :
    Move x (x.put c { st with buffer := rest ++ [w], senders := more } [.admitted c t, .handed c none v])
  | take {c : ObjectId} {st : ChannelState V} {v : V} {rest : List V} (here : x.channel c = some st)
    (full : st.buffer = v :: rest) (nobody : st.senders = []) :
    Move x (x.put c { st with buffer := rest } [.handed c none v])
  /-- A value is taken from a waiting sender. -/
  | fetch {c : ObjectId} {st : ChannelState V} {w : V} {t : TaskId} {more : List (TaskId × V)}
    (here : x.channel c = some st) (empty : st.buffer = []) (waits : st.senders = (t, w) :: more)
    (live : x.gone t = false) :
    Move x (x.put c { st with senders := more } [.handed c none w, .admitted c t])
  /-- A receiver returns without a value. -/
  | drain {c : ObjectId} {st : ChannelState V} (here : x.channel c = some st) (closed : st.isClosed = true)
    (empty : st.buffer = []) : Move x (x.note (.drained c))
  /-- A channel is closed, and those who wait are turned away. -/
  | close {c : ObjectId} {st : ChannelState V} {mail : TaskId → Option V × Bool} (here : x.channel c = some st)
    (isOpen : st.isClosed = false) (others : ∀ t, t ∉ st.receivers → mail t = x.mail t)
    (refused : ∀ t ∈ st.receivers, mail t = x.mail t ∨ mail t = (none, false)) :
    Move x { x.put c { st with isClosed := true, senders := [], receivers := [] } [.closed c] with mail }

abbrev Moves : Traffic V → Traffic V → Prop :=
  Relation.ReflTransGen Move

/-- A task begins to wait at a channel, to receive. -/
inductive Join (t : TaskId) (c : ObjectId) (x : Traffic V) : Traffic V → Prop where
  | wait {st : ChannelState V} (here : x.channel c = some st) (isOpen : st.isClosed = false) (empty : st.buffer = [])
    (nobody : st.senders = []) :
    Join t c x ((x.put c { st with receivers := st.receivers ++ [t] } []).post t (none, false))

theorem Join.gone {t : TaskId} {y : Traffic V} (join : x.Join t c y) : y.gone = x.gone := by
  cases join
  rfl

/-- A task that has waited to receive goes on with what it got. -/
inductive Leave (t : TaskId) (c : ObjectId) (x : Traffic V) : Traffic V → Prop where
  | collect {v : V} {ok : Bool} (known : x.channel c ≠ none) (served : x.mail t = (some v, ok)) :
    Leave t c x ((x.note (.collected c t v)).post t (none, ok))
  | drain {st : ChannelState V} (nothing : (x.mail t).1 = none) (here : x.channel c = some st)
    (closed : st.isClosed = true) (empty : st.buffer = []) : Leave t c x (x.note (.drained c))

theorem Ends.moves {y : Traffic V} (ends : x.Ends y) : x.Moves y := by
  refine Relation.ReflTransGen.mono ?_ _ _ ends
  rintro x _ ⟨t, rfl⟩
  exact .finish t

end Traffic

def Scheduler.traffic (s : Scheduler V E B) : Traffic V where
  channel c := (s.object? c).bind SyncObject.channel?
  mail t := ((s.task? t).map (·.received)).getD (none, false)
  gone t := s.Ended t
  uses := s.channelUses

end LedgerScript
