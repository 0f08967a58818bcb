import LedgerScript.Schedule.Basic

/-!
# Locks, semaphores, barriers and channels

Every queue is first in, first out.  A lock that is released goes straight to the task that has waited longest, and
so does a permit of a semaphore.  A barrier lets its tasks go when enough of them have arrived.  A channel hands a
value directly to a waiting receiver, keeps up to its capacity, and makes further senders wait.
-/

namespace LedgerScript

variable {V E B : Type}

structure ChannelState (V : Type) where
  capacity : Nat
  buffer : List V
  isClosed : Bool
  senders : List (TaskId × V)
  receivers : List TaskId

namespace SyncObject

def withHolder (holder : Option TaskId) : SyncObject V → SyncObject V
  | lock _ => lock holder
  | o => o

def withChannel (c : ChannelState V) : SyncObject V → SyncObject V
  | channel .. => channel c.capacity c.buffer c.isClosed c.senders c.receivers
  | o => o

end SyncObject

namespace Scheduler

/-! ## Locks -/

def newLock (s : Scheduler V E B) : ObjectId × Scheduler V E B :=
  s.newObject (.lock none)

def lockHolder (s : Scheduler V E B) (id : ObjectId) : Option TaskId :=
  match s.object? id with
  | some (.lock holder) => holder
  | _ => none

/-- A lock gets another holder. -/
def setHolder (s : Scheduler V E B) (id : ObjectId) (holder : Option TaskId) : Scheduler V E B :=
  s.modifyObject id (·.withHolder holder)

/-- A lock goes to the task that has waited longest, or to nobody. -/
def passLock (s : Scheduler V E B) (id : ObjectId) : Option TaskId × Scheduler V E B :=
  match s.popWaiter (.lock id) with
  | (some next, s) => (some next, (s.setHolder id (some next)).wake next)
  | (none, s) => (none, s.setHolder id none)

/-- Whether a lock can be taken.  One whose holder is finished goes to a waiting task first. -/
def lockIsFree (s : Scheduler V E B) (id : ObjectId) : Bool × Scheduler V E B :=
  match s.object? id with
  | some (.lock none) => (true, s)
  | some (.lock (some holder)) =>
    if s.isDone holder then
      let (next, s) := s.passLock id
      (next.isNone, s)
    else (false, s)
  | _ => (false, s)

/-- The current task takes a lock or waits for it. -/
def takeLock (s : Scheduler V E B) (id : ObjectId) : Attempt (Option ScheduleFault) × Scheduler V E B :=
  match s.current, s.object? id with
  | some me, some (.lock _) =>
    match s.lockIsFree id with
    | (true, s) => (.done none, s.setHolder id (some me))
    | (false, s) => (.parked, s.park me (some (.lock id)) .lock)
  | _, _ => (.done (some .noTask), s)

/-- The current task takes a lock or waits for it, outside any block. -/
def acquireLock (s : Scheduler V E B) (id : ObjectId) : Attempt (Option ScheduleFault) × Scheduler V E B :=
  (s.use (.byHand id)).takeLock id

/-- The current task takes a lock if it can be taken. -/
def tryLock (s : Scheduler V E B) (id : ObjectId) : Bool × Scheduler V E B :=
  match s.current with
  | none => (false, s)
  | some me =>
    match (s.use (.byHand id)).lockIsFree id with
    | (true, s) => (true, s.setHolder id (some me))
    | (false, s) => (false, s)

/-- A lock is given back, whoever holds it. -/
def releaseLock (s : Scheduler V E B) (id : ObjectId) : Scheduler V E B :=
  ((s.use (.byHand id)).passLock id).2

/-- The current task, which has the lock, enters a block. -/
def enterBlock (s : Scheduler V E B) (id : ObjectId) : Scheduler V E B :=
  s.use (.entered (s.current.getD 0) id)

/-- The current task leaves a block, and the lock is given back, whoever holds it. -/
def leaveBlock (s : Scheduler V E B) (id : ObjectId) : Scheduler V E B :=
  ((s.use (.left (s.current.getD 0) id (s.lockHolder id))).passLock id).2

/-! ## Semaphores -/

def newSemaphore (s : Scheduler V E B) (permits : Int) : ObjectId × Scheduler V E B :=
  s.newObject (.semaphore (max 0 permits))

/-- The free permits of a semaphore. -/
def permits (s : Scheduler V E B) (id : ObjectId) : Int :=
  match s.object? id with
  | some (.semaphore n) => n
  | _ => 0

/-- A semaphore gets another number of free permits. -/
def setPermits (s : Scheduler V E B) (id : ObjectId) (n : Int) : Scheduler V E B :=
  s.modifyObject id fun
    | .semaphore _ => .semaphore n
    | o => o

def tryAcquire (s : Scheduler V E B) (id : ObjectId) : Bool × Scheduler V E B :=
  if s.permits id > 0 then (true, s.setPermits id (s.permits id - 1)) else (false, s)

/-- The current task takes a permit or waits for one. -/
def acquirePermit (s : Scheduler V E B) (id : ObjectId) : Attempt (Option ScheduleFault) × Scheduler V E B :=
  match s.current with
  | none => (.done (some .noTask), s)
  | some me =>
    match s.tryAcquire id with
    | (true, s) => (.done none, s)
    | (false, s) => (.parked, s.park me (some (.permit id)) .semaphore)

/-- A permit is given to the task that has waited longest, or back to the semaphore. -/
def releasePermit (s : Scheduler V E B) (id : ObjectId) : Scheduler V E B :=
  match s.popWaiter (.permit id) with
  | (some next, s) => s.wake next
  | (none, s) => s.setPermits id (s.permits id + 1)

/-! ## Barriers -/

def newBarrier (s : Scheduler V E B) (parties : Int) : ObjectId × Scheduler V E B :=
  s.newObject (.barrier (max 1 parties).toNat 0)

/-- How many tasks a barrier waits for, and how often it has let them go. -/
def barrierState (s : Scheduler V E B) (id : ObjectId) : Nat × Nat :=
  match s.object? id with
  | some (.barrier parties generation) => (parties, generation)
  | _ => (0, 0)

/-- A barrier has let its tasks go. -/
def nextGeneration (s : Scheduler V E B) (id : ObjectId) : Scheduler V E B :=
  s.modifyObject id fun
    | .barrier parties generation => .barrier parties (generation + 1)
    | o => o

/-- The current task arrives at a barrier; the last one to arrive lets all go. -/
def arrive (s : Scheduler V E B) (id : ObjectId) : Attempt (Option ScheduleFault) × Scheduler V E B :=
  match s.current with
  | none => (.done (some .noTask), s)
  | some me =>
    if (s.barrierState id).1 ≤ (s.waitersOf (.barrier id)).length + 1 then
      (.done none, (s.nextGeneration id).wakeAll (.barrier id))
    else (.parked, s.park me (some (.barrier id)) .barrier)

/-! ## Channels -/

def newChannel (s : Scheduler V E B) (capacity : Int) : ObjectId × Scheduler V E B :=
  s.newObject (.channel capacity.toNat [] false [] [])

def channel (s : Scheduler V E B) (id : ObjectId) : ChannelState V :=
  match s.object? id with
  | some (.channel capacity buffer isClosed senders receivers) => ⟨capacity, buffer, isClosed, senders, receivers⟩
  | _ => ⟨0, [], true, [], []⟩

def setChannel (s : Scheduler V E B) (id : ObjectId) (c : ChannelState V) : Scheduler V E B :=
  s.modifyObject id (·.withChannel c)

/-- The unfinished receiver that has waited longest leaves the queue. -/
def popReceiver (s : Scheduler V E B) (id : ObjectId) : Option TaskId × Scheduler V E B :=
  let c := s.channel id
  match c.receivers.dropWhile s.isDone with
  | t :: rest => (some t, s.setChannel id { c with receivers := rest })
  | [] => (none, s.setChannel id { c with receivers := [] })

/-- The unfinished sender that has waited longest leaves the queue with its value. -/
def popSender (s : Scheduler V E B) (id : ObjectId) : Option (TaskId × V) × Scheduler V E B :=
  let c := s.channel id
  match c.senders.dropWhile fun p => s.isDone p.1 with
  | p :: rest => (some p, s.setChannel id { c with senders := rest })
  | [] => (none, s.setChannel id { c with senders := [] })

/-- A receiver is woken with what it gets. -/
def deliver (s : Scheduler V E B) (receiver : TaskId) (v : Option V) (ok : Bool) : Scheduler V E B :=
  (s.modifyTask receiver fun t => { t with received := (v, ok) }).wake receiver

/-- A value is sent while nobody waits to receive it: into the buffer, or by waiting. -/
def deposit (s : Scheduler V E B) (id : ObjectId) (v : V) : Attempt (Option ScheduleFault) × Scheduler V E B :=
  let c := s.channel id
  if c.buffer.length < c.capacity then
    (.done none, (s.useChannel (.sent id v)).setChannel id { c with buffer := c.buffer ++ [v] })
  else
    match s.current with
    | none => (.done (some .noTask), s)
    | some me =>
      let s := (s.useChannel (.offered id me v)).modifyTask me fun t => { t with sendRefused := false }
      let s := s.setChannel id { c with senders := c.senders ++ [(me, v)] }
      (.parked, s.park me none .channelSend)

/-- A value is sent: to a waiting receiver, into the buffer, or by waiting. -/
def send (s : Scheduler V E B) (id : ObjectId) (v : V) : Attempt (Option ScheduleFault) × Scheduler V E B :=
  if (s.channel id).isClosed then (.done (some .channelClosed), s)
  else
    match s.popReceiver id with
    | (some receiver, s) =>
      let s := (s.useChannel (.sent id v)).useChannel (.handed id (some receiver) v)
      (.done none, s.deliver receiver (some v) true)
    | (none, s) => s.deposit id v

/-- How a send ended that had to wait. -/
def sendResult (s : Scheduler V E B) : Option ScheduleFault × Scheduler V E B :=
  match s.current.bind s.task? with
  | none => (none, s)
  | some t =>
    (if t.sendRefused then some .channelClosed else none, s.modifyTask t.id fun t => { t with sendRefused := false })

/-- What a receiver gets: a value or nothing, and whether there was a value. -/
abbrev Received (V : Type) := Option V × Bool

/-- A value is taken without waiting, if there is one. -/
def takeReady (s : Scheduler V E B) (id : ObjectId) : Option V × Scheduler V E B :=
  let c := s.channel id
  match c.buffer with
  | v :: rest =>
    let s := (s.useChannel (.handed id none v)).setChannel id { c with buffer := rest }
    match s.popSender id with
    | (some (sender, w), s) =>
      let s := s.useChannel (.admitted id sender)
      let c := s.channel id
      (some v, (s.setChannel id { c with buffer := c.buffer ++ [w] }).wake sender)
    | (none, s) => (some v, s)
  | [] =>
    match s.popSender id with
    | (some (sender, w), s) =>
      (some w, ((s.useChannel (.admitted id sender)).useChannel (.handed id none w)).wake sender)
    | (none, s) => (none, s)

/-- A receiver returns with what it got.  What is no channel has no history. -/
def noteReceived (s : Scheduler V E B) (id : ObjectId) (receiver : TaskId) : Received V → Scheduler V E B
  | (some v, _) => s.useChannel (.collected id receiver v)
  | (none, _) =>
    match s.object? id with
    | some (.channel ..) => s.useChannel (.drained id)
    | _ => s

/-- The current task waits for a value, unless the channel is closed. -/
def awaitValue (s : Scheduler V E B) (id : ObjectId) : Attempt (Received V × Option ScheduleFault) × Scheduler V E B :=
  let c := s.channel id
  if c.isClosed then (.done ((none, false), none), s.noteReceived id (s.current.getD 0) (none, false))
  else
    match s.current with
    | none => (.done ((none, false), some .noTask), s)
    | some me =>
      let s := s.modifyTask me fun t => { t with received := (none, false) }
      let s := s.setChannel id { c with receivers := c.receivers ++ [me] }
      (.parked, s.park me none .channelReceive)

/-- The current task receives a value or waits for one; a closed channel that is drained has none. -/
def receive (s : Scheduler V E B) (id : ObjectId) : Attempt (Received V × Option ScheduleFault) × Scheduler V E B :=
  match s.takeReady id with
  | (some v, s) => (.done ((some v, true), none), s)
  | (none, s) => s.awaitValue id

/-- What a receiver that had to wait was woken with. -/
def receiveResult (s : Scheduler V E B) (id : ObjectId) : Received V × Scheduler V E B :=
  match s.current with
  | none => ((none, false), s)
  | some me =>
    let received := ((s.task? me).map (·.received)).getD (none, false)
    (received, (s.noteReceived id me received).modifyTask me fun t => { t with received := (none, t.received.2) })

/-- A waiting receiver is turned away. -/
def refuseReceiver (s : Scheduler V E B) (receiver : TaskId) : Scheduler V E B :=
  if s.isDone receiver then s else s.deliver receiver none false

/-- A waiting sender is turned away. -/
def refuseSender (s : Scheduler V E B) (sender : TaskId × V) : Scheduler V E B :=
  if s.isDone sender.1 then s else (s.modifyTask sender.1 fun t => { t with sendRefused := true }).wake sender.1

/-- All waiting receivers, and then all waiting senders, of a channel are turned away. -/
def turnAway (s : Scheduler V E B) (id : ObjectId) : Scheduler V E B :=
  let c := s.channel id
  let s := s.setChannel id { c with receivers := [], senders := [] }
  c.senders.foldl refuseSender (c.receivers.foldl refuseReceiver s)

/-- A channel is closed; closing it again does nothing. -/
def closeChannel (s : Scheduler V E B) (id : ObjectId) : Scheduler V E B :=
  let c := s.channel id
  if c.isClosed then s else ((s.useChannel (.closed id)).setChannel id { c with isClosed := true }).turnAway id

end Scheduler

end LedgerScript

/-!
## Operations of tasks

What a task can do to the scheduler, as data.  Most operations are over at once.  The others may suspend the task; such
an operation first starts, and if it could not be done at once there is something left to do when the task goes on.
-/

namespace LedgerScript

variable {V E B α : Type}

/-- An operation that is over at once, with what is made of its result. -/
inductive TaskOp (V E B α : Type) where
  | read (f : Scheduler V E B → α)
  | note (e : RunEvent) (a : α)
  /-- The run as a whole is called off. -/
  | interrupt (a : α)
  | spawn (name : String) (body : B) (k : TaskId → α)
  | cancel (id : TaskId) (a : α)
  | setDeadline (id : TaskId) (after : Int) (a : α)
  | newLock (k : ObjectId → α)
  | newSemaphore (permits : Int) (k : ObjectId → α)
  | newBarrier (parties : Int) (k : ObjectId → α)
  | newChannel (capacity : Int) (k : ObjectId → α)
  | tryLock (id : ObjectId) (k : Bool → α)
  | unlock (id : ObjectId) (a : α)
  | tryAcquire (id : ObjectId) (k : Bool → α)
  | release (id : ObjectId) (a : α)
  | tryReceive (id : ObjectId) (k : Option V → α)
  | close (id : ObjectId) (a : α)

/-- An operation is carried out. -/
def TaskOp.run : TaskOp V E B α → Scheduler V E B → α × Scheduler V E B
  | .read f, s => (f s, s)
  | .note e a, s => (a, s.note e)
  | .interrupt a, s => (a, { s with interrupted := true })
  | .spawn name body k, s => (s.spawn name body).map k id
  | .cancel id a, s => (a, s.cancel id)
  | .setDeadline id after a, s => (a, s.setDeadline id after)
  | .newLock k, s => s.newLock.map k id
  | .newSemaphore permits k, s => (s.newSemaphore permits).map k id
  | .newBarrier parties k, s => (s.newBarrier parties).map k id
  | .newChannel capacity k, s => (s.newChannel capacity).map k id
  | .tryLock lock k, s => (s.tryLock lock).map k id
  | .unlock lock a, s => (a, s.releaseLock lock)
  | .tryAcquire semaphore k, s => (s.tryAcquire semaphore).map k id
  | .release semaphore a, s => (a, s.releasePermit semaphore)
  | .tryReceive channel k, s => (s.takeReady channel).map k id
  | .close channel a, s => (a, s.closeChannel channel)

/-- Operations one after another lead from one state of the scheduler to another one. -/
inductive Scheduler.Steps : Scheduler V E B → Scheduler V E B → Prop where
  | refl (s : Scheduler V E B) : Steps s s
  | tail {s t : Scheduler V E B} {α : Type} (first : Steps s t) (op : TaskOp V E B α) : Steps s (op.run t).2

namespace Scheduler.Steps

variable {s t u : Scheduler V E B}

theorem single (op : TaskOp V E B α) (s : Scheduler V E B) : Steps s (op.run s).2 :=
  .tail (.refl s) op

theorem trans (first : Steps s t) (second : Steps t u) : Steps s u := by
  induction second with
  | refl => exact first
  | tail _ op ih => exact .tail ih op

end Scheduler.Steps

/-- An operation that may suspend the task. -/
inductive WaitOp (V : Type) where
  | await (target : TaskId)
  | yield
  | sleep (ns : Int)
  | lock (id : ObjectId)
  | permit (id : ObjectId)
  | barrier (id : ObjectId)
  | send (id : ObjectId) (v : V)
  | receive (id : ObjectId)

/-- What such an operation gives: a fault if there was one, and what a receiver got. -/
structure Woken (V : Type) where
  fault : Option ScheduleFault := none
  received : Option V × Bool := (none, false)

/-- What a first attempt without anything received gives. -/
def Attempt.woken : Attempt (Option ScheduleFault) → Attempt (Woken V)
  | .done fault => .done { fault }
  | .parked => .parked

def Attempt.received : Attempt (Scheduler.Received V × Option ScheduleFault) → Attempt (Woken V)
  | .done (received, fault) => .done { fault, received }
  | .parked => .parked

namespace WaitOp

/-- The operation is done, or the current task is registered as waiting. -/
def start : WaitOp V → Scheduler V E B → Attempt (Woken V) × Scheduler V E B
  | .await target, s => (s.await target).map Attempt.woken id
  | .yield, s => s.yield.map Attempt.woken id
  | .sleep ns, s => (s.sleep ns).map Attempt.woken id
  | .lock m, s => (s.acquireLock m).map Attempt.woken id
  | .permit m, s => (s.acquirePermit m).map Attempt.woken id
  | .barrier b, s => (s.arrive b).map Attempt.woken id
  | .send c v, s => (s.send c v).map Attempt.woken id
  | .receive c, s => (s.receive c).map Attempt.received id

/-- What the operation gives after the wait. -/
def finish : WaitOp V → Scheduler V E B → Woken V × Scheduler V E B
  | .sleep _, s => ({}, s.awoken)
  | .send .., s => s.sendResult.map (fun fault => { fault }) id
  | .receive c, s => (s.receiveResult c).map (fun received => { received }) id
  | _, s => ({}, s)

end WaitOp

end LedgerScript
