import LedgerScript.Proofs.Schedule.Execution
import Mathlib.Data.List.Forall2

/-!
# Runs side by side

Two worlds are alike if their schedulers are the same and what the tasks work on is alike, in a sense that is a parameter
here.  If every activation does the same in worlds that are alike, and leaves worlds that are alike, then so does the
machine: two runs that begin alike stay abreast, turn by turn, and end in the same way.
-/

namespace LedgerScript

variable {S V E B A Q Q' : Type} {alike : S → S → Prop}

/-- Two worlds have the same scheduler, and what the tasks work on is alike. -/
structure World.Alike (alike : S → S → Prop) (w w' : World S V E B) : Prop where
  sched : w'.sched = w.sched
  own : alike w.own w'.own

theorem World.Alike.onSched {w w' : World S V E B} (worlds : w.Alike alike w') (f : Scheduler V E B → Scheduler V E B) :
    (w.onSched f).Alike alike (w'.onSched f) :=
  ⟨congrArg f worlds.sched, worlds.own⟩

inductive Proc.Alike (alike : S → S → Prop) : Proc S V E B A Q → Proc S V E B A Q → Prop where
  | done {w w' : World S V E B} (worlds : w.Alike alike w') (r : Q) : Alike alike (.done w r) (.done w' r)
  | ask {w w' : World S V E B} {k k' : World S V E B → A → Proc S V E B A Q} (worlds : w.Alike alike w') (request : B)
    (rest : ∀ z z' a, z.Alike alike z' → Alike alike (k z a) (k' z' a)) :
    Alike alike (.ask w request k) (.ask w' request k')
  | wait {w w' : World S V E B} {k k' : World S V E B → Option (Woken V) → Proc S V E B A Q} (worlds : w.Alike alike w')
    (op : WaitOp V) (rest : ∀ z z' r, z.Alike alike z' → Alike alike (k z r) (k' z' r)) :
    Alike alike (.wait w op k) (.wait w' op k')
  | block {w w' : World S V E B} {k k' : World S V E B → BlockEnd A → Proc S V E B A Q} (worlds : w.Alike alike w')
    (lock : ObjectId) (request : B) (rest : ∀ z z' r, z.Alike alike z' → Alike alike (k z r) (k' z' r)) :
    Alike alike (.block w lock request k) (.block w' lock request k')

namespace Proc.Alike

variable {p p' : Proc S V E B A Q}

theorem world (alikes : p.Alike alike p') : p.world.Alike alike p'.world := by
  cases alikes with
  | done worlds | ask worlds | wait worlds | block worlds => exact worlds

theorem bind {f f' : World S V E B → Q → Proc S V E B A Q'} (alikes : p.Alike alike p')
    (rest : ∀ z z' r, z.Alike alike z' → (f z r).Alike alike (f' z' r)) : (p.bind f).Alike alike (p'.bind f') := by
  induction alikes with
  | done worlds r => exact rest _ _ r worlds
  | ask worlds request _ ih => exact .ask worlds request ih
  | wait worlds op _ ih => exact .wait worlds op ih
  | block worlds lock request _ ih => exact .block worlds lock request ih

end Proc.Alike

/-- Activations do the same in worlds that are alike, and the same is said about errors. -/
structure Host.Even (alike : S → S → Prop) (host : Host S V E B A) : Prop where
  start : ∀ request w w', w.Alike alike w' → ((host.start request).run w).Alike alike ((host.start request).run w')
  errorText : ∀ s s' e, alike s s' → host.errorText s' e = host.errorText s e

/-! ## Threads -/

/-- Activations that wait for answers do the same with the same answer. -/
structure Waiting.Alike (alike : S → S → Prop) (f f' : Waiting S V E B A) : Prop where
  guard : f'.guard = f.guard
  resume : ∀ z z' a, z.Alike alike z' → (f.resume z a).Alike alike (f'.resume z' a)

inductive Suspended.Alike (alike : S → S → Prop) : Suspended S V E B A → Suspended S V E B A → Prop where
  | wait (op : WaitOp V) {k k' : World S V E B → Option (Woken V) → Proc S V E B A (Turn B A)}
    (rest : ∀ z z' r, z.Alike alike z' → (k z r).Alike alike (k' z' r)) : Alike alike (.wait op k) (.wait op k')
  | enter (lock : ObjectId) (request : B) {k k' : World S V E B → BlockEnd A → Proc S V E B A (Turn B A)}
    (rest : ∀ z z' r, z.Alike alike z' → (k z r).Alike alike (k' z' r)) :
    Alike alike (.enter lock request k) (.enter lock request k')

/-- Suspended tasks do the same, and so do those that wait for their answers. -/
structure Thread.Alike (alike : S → S → Prop) (t t' : Thread S V E B A) : Prop where
  suspended : t.suspended.Alike alike t'.suspended
  stack : List.Forall₂ (Waiting.Alike alike) t.stack t'.stack

inductive TurnEnd.Alike (alike : S → S → Prop) : TurnEnd S V E B A → TurnEnd S V E B A → Prop where
  | ended {w w' : World S V E B} (worlds : w.Alike alike w') (a : A) : Alike alike (.ended w a) (.ended w' a)
  | parked {w w' : World S V E B} {t t' : Thread S V E B A} (worlds : w.Alike alike w') (threads : t.Alike alike t') :
    Alike alike (.parked w t) (.parked w' t')
  | exhausted {w w' : World S V E B} (worlds : w.Alike alike w') : Alike alike (.exhausted w) (.exhausted w')

/-- A process and a stack for each side. -/
structure Abreast (alike : S → S → Prop) (x x' : Proc S V E B A (Turn B A) × List (Waiting S V E B A)) : Prop where
  process : x.1.Alike alike x'.1
  stack : List.Forall₂ (Waiting.Alike alike) x.2 x'.2

inductive ThreadStep.Alike (alike : S → S → Prop) : ThreadStep S V E B A → ThreadStep S V E B A → Prop where
  | stop {e e' : TurnEnd S V E B A} (ends : e.Alike alike e') : Alike alike (.stop e) (.stop e')
  | go {p p' : Proc S V E B A (Turn B A)} {stack stack' : List (Waiting S V E B A)}
    (abreast : Abreast alike (p, stack) (p', stack')) : Alike alike (.go p stack) (.go p' stack')

namespace Host.Even

variable {host : Host S V E B A} (even : host.Even alike) {stack stack' : List (Waiting S V E B A)}

include even

theorem enter {w w' : World S V E B} (worlds : w.Alike alike w') (lock : ObjectId) (request : B)
    {k k' : World S V E B → BlockEnd A → Proc S V E B A (Turn B A)}
    (rest : ∀ z z' r, z.Alike alike z' → (k z r).Alike alike (k' z' r))
    (waits : List.Forall₂ (Waiting.Alike alike) stack stack') :
    Abreast alike (host.enter w lock request k stack) (host.enter w' lock request k' stack') :=
  ⟨even.start request _ _ (worlds.onSched _), .cons ⟨rfl, fun z z' a => rest z z' (.left a)⟩ waits⟩

/-- A suspended task goes on. -/
theorem goOn {w w' : World S V E B} (worlds : w.Alike alike w') {t t' : Thread S V E B A} (threads : t.Alike alike t') :
    Abreast alike (host.goOn w t) (host.goOn w' t') := by
  obtain ⟨sched, own⟩ := w
  obtain ⟨sched', own'⟩ := w'
  obtain ⟨suspended, stack⟩ := t
  obtain ⟨suspended', stack'⟩ := t'
  obtain ⟨rfl, owns⟩ := worlds
  obtain ⟨suspendeds, waits⟩ := threads
  unfold Host.goOn
  cases suspendeds with
  | wait op rest =>
    dsimp only
    split
    · exact ⟨rest ⟨_, own⟩ ⟨_, own'⟩ none ⟨rfl, owns⟩, waits⟩
    · exact ⟨rest ⟨_, own⟩ ⟨_, own'⟩ (some (op.finish sched').1) ⟨rfl, owns⟩, waits⟩
  | enter lock request rest =>
    dsimp only
    split
    · exact ⟨rest ⟨_, own⟩ ⟨_, own'⟩ .killed ⟨rfl, owns⟩, waits⟩
    · have worlds : World.Alike alike ⟨sched', own⟩ ⟨sched', own'⟩ := ⟨rfl, owns⟩
      exact even.enter worlds lock request rest waits

theorem step {p p' : Proc S V E B A (Turn B A)} (processes : p.Alike alike p')
    (waits : List.Forall₂ (Waiting.Alike alike) stack stack') : (host.step p stack).Alike alike (host.step p' stack') := by
  cases processes with
  | @done w w' worlds r =>
    cases r with
    | answer a =>
      cases waits with
      | nil => exact .stop (.ended worlds a)
      | @cons f f' _ _ first rest =>
        refine .go ⟨?_, rest⟩
        show (f.answer w a).Alike alike (f'.answer w' a)
        unfold Waiting.answer
        rw [first.guard]
        split
        · exact first.resume _ _ a worlds
        · exact first.resume _ _ a (worlds.onSched _)
    | become request => exact .go ⟨even.start request _ _ worlds, waits⟩
  | ask worlds request rest => exact .go ⟨even.start request _ _ worlds, .cons ⟨rfl, rest⟩ waits⟩
  | @wait w w' k k' worlds op rest =>
    obtain ⟨sched, own⟩ := w
    obtain ⟨sched', own'⟩ := w'
    obtain ⟨rfl, owns⟩ := worlds
    unfold Host.step
    dsimp only
    split
    · exact .go ⟨rest _ _ _ ⟨rfl, owns⟩, waits⟩
    · split
      · exact .go ⟨rest _ _ none ⟨rfl, owns⟩, waits⟩
      · exact .stop (.parked ⟨rfl, owns⟩ ⟨.wait op rest, waits⟩)
  | @block w w' k k' worlds lock request rest =>
    obtain ⟨sched, own⟩ := w
    obtain ⟨sched', own'⟩ := w'
    obtain ⟨rfl, owns⟩ := worlds
    unfold Host.step
    dsimp only
    split
    · exact .go ⟨rest _ _ _ ⟨rfl, owns⟩, waits⟩
    · rename_i taken _
      have worlds : World.Alike alike ⟨taken, own⟩ ⟨taken, own'⟩ := ⟨rfl, owns⟩
      obtain ⟨process, frames⟩ := even.enter worlds lock request rest waits
      exact .go ⟨process, frames⟩
    · split
      · exact .go ⟨rest _ _ .killed ⟨rfl, owns⟩, waits⟩
      · exact .stop (.parked ⟨rfl, owns⟩ ⟨.enter lock request rest, waits⟩)

theorem runThread (fuel : Nat) {p p' : Proc S V E B A (Turn B A)} (processes : p.Alike alike p')
    (waits : List.Forall₂ (Waiting.Alike alike) stack stack') :
    (host.runThread fuel p stack).Alike alike (host.runThread fuel p' stack') := by
  induction fuel generalizing p p' stack stack' with
  | zero => exact .exhausted processes.world
  | succ fuel ih =>
    have steps := even.step processes waits
    unfold Host.runThread
    revert steps
    generalize host.step p stack = x
    generalize host.step p' stack' = x'
    intro steps
    cases steps with
    | stop ends => exact ends
    | go abreast => exact ih abreast.process abreast.stack

end Host.Even

/-! ## Machines -/

abbrev ThreadsAlike (alike : S → S → Prop) : (threads threads' : List (TaskId × Thread S V E B A)) → Prop :=
  List.Forall₂ fun x x' => x'.1 = x.1 ∧ x.2.Alike alike x'.2

structure Machine.Alike (alike : S → S → Prop) (m m' : Machine S V E B A) : Prop where
  world : m.world.Alike alike m'.world
  threads : ThreadsAlike alike m.threads m'.threads

inductive Machine.Both (alike : S → S → Prop) {α : Type} : α × Machine S V E B A → α × Machine S V E B A → Prop where
  | mk (a : α) {m m' : Machine S V E B A} (machines : m.Alike alike m') : Both alike (a, m) (a, m')

namespace Machine.Both

variable {α : Type} {x x' : α × Machine S V E B A}

theorem same (both : Machine.Both alike x x') : x'.1 = x.1 := by
  cases both
  rfl

theorem machines (both : Machine.Both alike x x') : x.2.Alike alike x'.2 := by
  cases both with
  | mk _ machines => exact machines

end Machine.Both

/-- Turns of the loop come to the same. -/
inductive LoopStep.Alike (alike : S → S → Prop) : LoopStep S V E B A → LoopStep S V E B A → Prop where
  | ended (e : RunEnd) {m m' : Machine S V E B A} (machines : m.Alike alike m') : Alike alike (.over e m) (.over e m')
  | again {m m' : Machine S V E B A} (machines : m.Alike alike m') : Alike alike (.again m) (.again m')

/-- Turns of tasks begin alike. -/
inductive Stage.Alike (alike : S → S → Prop) : Stage S V E B A → Stage S V E B A → Prop where
  | between {m m' : Machine S V E B A} (machines : m.Alike alike m') : Alike alike (.between m) (.between m')
  | running {threads threads' : List (TaskId × Thread S V E B A)} (me : TaskId) {p p' : Proc S V E B A (Turn B A)}
    {stack stack' : List (Waiting S V E B A)}
    (others : ThreadsAlike alike threads threads')
    (processes : p.Alike alike p') (waits : List.Forall₂ (Waiting.Alike alike) stack stack') :
    Alike alike (.running threads me p stack) (.running threads' me p' stack')

theorem Machine.Alike.onSched {m m' : Machine S V E B A} (machines : m.Alike alike m')
    (f : Scheduler V E B → Scheduler V E B) : (m.onSched f).Alike alike (m'.onSched f) :=
  ⟨⟨congrArg f machines.world.sched, machines.world.own⟩, machines.threads⟩

section

variable {threads threads' : List (TaskId × Thread S V E B A)}
  (others : ThreadsAlike alike threads threads') (id : TaskId)

include others

theorem find?_alike : (threads.find? (·.1 = id) = none ∧ threads'.find? (·.1 = id) = none) ∨
    ∃ t t', threads.find? (·.1 = id) = some (id, t) ∧ threads'.find? (·.1 = id) = some (id, t') ∧ t.Alike alike t' := by
  induction others with
  | nil => exact .inl ⟨rfl, rfl⟩
  | @cons x x' _ _ both _ ih =>
    obtain ⟨me, t⟩ := x
    obtain ⟨_, t'⟩ := x'
    obtain ⟨same, alikes⟩ := both
    cases same
    by_cases here : me = id
    · subst here
      exact .inr ⟨t, t', List.find?_cons_of_pos (by simp), List.find?_cons_of_pos (by simp), alikes⟩
    · rwa [List.find?_cons_of_neg (by simpa using here), List.find?_cons_of_neg (by simpa using here)]

theorem filter_alike : ThreadsAlike alike (threads.filter (·.1 ≠ id)) (threads'.filter (·.1 ≠ id)) := by
  induction others with
  | nil => exact .nil
  | @cons x x' _ _ both _ ih =>
    by_cases here : x.1 = id
    · rwa [List.filter_cons_of_neg (by simpa using here), List.filter_cons_of_neg (by simpa [both.1] using here)]
    · rw [List.filter_cons_of_pos (by simpa using here), List.filter_cons_of_pos (by simpa [both.1] using here)]
      exact .cons both ih

end

namespace Host.Even

variable {host : Host S V E B A} (even : host.Even alike) {m m' : Machine S V E B A}

include even

theorem afterTurn {threads threads' : List (TaskId × Thread S V E B A)}
    (others : ThreadsAlike alike threads threads') (id : TaskId) {e e' : TurnEnd S V E B A} (ends : e.Alike alike e') :
    Machine.Both alike (Machine.afterTurn host threads id e) (Machine.afterTurn host threads' id e') := by
  cases ends with
  | @ended w w' worlds a =>
    have before : Machine.Alike alike ⟨w, threads⟩ ⟨w', threads'⟩ := ⟨worlds, others⟩
    have same : host.errorText w'.own = host.errorText w.own := funext fun e => even.errorText _ _ e worlds.own
    unfold Machine.afterTurn
    dsimp only
    rw [worlds.sched, same]
    refine ⟨true, Machine.Alike.onSched ?_ (·.setCurrent none)⟩
    split
    · exact before
    · exact before.onSched _
  | @parked w w' t t' worlds suspended =>
    have left : Machine.Alike alike ⟨w, (id, t) :: threads⟩ ⟨w', (id, t') :: threads'⟩ :=
      ⟨worlds, .cons ⟨rfl, suspended⟩ others⟩
    exact ⟨true, left.onSched (·.setCurrent none)⟩
  | exhausted worlds => exact ⟨false, worlds, others⟩

theorem opening (machines : m.Alike alike m') (id : TaskId) : (m.opening host id).Alike alike (m'.opening host id) := by
  have begun := machines.onSched (·.setCurrent (some id))
  revert begun
  unfold Machine.opening
  dsimp only
  generalize m.onSched (·.setCurrent (some id)) = n
  generalize m'.onSched (·.setCurrent (some id)) = n'
  intro begun
  rw [begun.world.sched]
  obtain ⟨none, none'⟩ | ⟨t, t', found, found', threads⟩ := find?_alike begun.threads id
  · rw [none, none']
    cases n.world.sched.task? id with
    | none => exact .between (begun.onSched _)
    | some t => exact .running id begun.threads (even.start t.body _ _ begun.world) .nil
  · rw [found, found']
    obtain ⟨process, stack⟩ := even.goOn begun.world threads
    exact .running id (filter_alike begun.threads id) process stack

theorem resume (machines : m.Alike alike m') (id : TaskId) : Machine.Both alike (m.resume host id) (m'.resume host id) := by
  have begins := even.opening machines id
  unfold Machine.resume
  revert begins
  generalize m.opening host id = stage
  generalize m'.opening host id = stage'
  intro begins
  cases begins with
  | between machines => exact ⟨_, machines⟩
  | running me others processes waits => exact even.afterTurn others me (even.runThread _ processes waits)

theorem unwind (n : Nat) (machines : m.Alike alike m') : Machine.Both alike (m.unwind host n) (m'.unwind host n) := by
  induction n generalizing m m' with
  | zero => exact ⟨_, machines⟩
  | succ n ih =>
    unfold Machine.unwind
    rw [machines.world.sched]
    cases m.world.sched.unwinding with
    | nil => exact ⟨_, machines⟩
    | cons id rest =>
      have resumed := even.resume (machines.onSched fun s => { s with unwinding := rest }) id
      revert resumed
      dsimp only
      generalize (m.onSched fun s => { s with unwinding := rest }).resume host id = x
      generalize (m'.onSched fun s => { s with unwinding := rest }).resume host id = x'
      rintro ⟨ended, machines⟩
      cases ended with
      | true => exact ih machines
      | false => exact ⟨_, machines⟩

theorem unwindAll (machines : m.Alike alike m') : Machine.Both alike (m.unwindAll host) (m'.unwindAll host) := by
  unfold Machine.unwindAll
  rw [machines.world.sched]
  exact even.unwind _ machines

theorem shutDown (machines : m.Alike alike m') (cause : ScheduleFault) (e : RunEnd) :
    (m.shutDown host cause e).Alike alike (m'.shutDown host cause e) := by
  have killed : (m.killAll cause).Alike alike (m'.killAll cause) := by
    unfold Machine.killAll
    rw [machines.world.sched]
    generalize m.world.sched.tasks.toList.map (·.id) = ids
    induction ids generalizing m m' with
    | nil => exact machines
    | cons id ids ih => exact ih (machines.onSched _)
  have unwound := even.unwindAll killed
  unfold Machine.shutDown
  revert unwound
  generalize (m.killAll cause).unwindAll host = x
  generalize (m'.killAll cause).unwindAll host = x'
  rintro ⟨ended, machines⟩
  cases ended with
  | true => exact .ended e machines
  | false => exact .ended .exhausted machines

theorem turn (machines : m.Alike alike m') : (m.turn host).Alike alike (m'.turn host) := by
  have unwound := even.unwindAll machines
  unfold Machine.turn
  revert unwound
  generalize m.unwindAll host = x
  generalize m'.unwindAll host = x'
  rintro @⟨ended, n, n', machines⟩
  cases ended with
  | false => exact .ended .exhausted machines
  | true =>
    have fired := machines.onSched fun s => s.fireDue s.timers.length
    dsimp only at machines ⊢
    rw [machines.world.sched]
    split
    · exact even.shutDown machines .interrupted .interrupted
    · revert fired
      generalize n.onSched (fun s => s.fireDue s.timers.length) = f
      generalize n'.onSched (fun s => s.fireDue s.timers.length) = f'
      intro fired
      rw [fired.world.sched]
      obtain ⟨next, sched⟩ := f.world.sched.nextReady
      have picked := fired.onSched fun _ => sched
      dsimp only
      cases next with
      | some id =>
        have dispatched := even.resume (picked.onSched (·.setRunning id)) id
        revert dispatched
        unfold Machine.dispatch
        dsimp only
        generalize ((f.onSched fun _ => sched).onSched (·.setRunning id)).resume host id = x
        generalize ((f'.onSched fun _ => sched).onSched (·.setRunning id)).resume host id = x'
        rintro ⟨ended, machines⟩
        cases ended with
        | true => exact .again machines
        | false => exact .ended .exhausted machines
      | none =>
        rw [picked.world.sched]
        cases (f.onSched fun _ => sched).world.sched.advance? with
        | some sched => exact .again (picked.onSched _)
        | none =>
          cases (f.onSched fun _ => sched).world.sched.stalled with
          | nil => exact .ended .finished picked
          | cons t rest => exact even.shutDown (picked.onSched _) .cancelled _

theorem loop (fuel : Nat) (machines : m.Alike alike m') : Machine.Both alike (m.loop host fuel) (m'.loop host fuel) := by
  induction fuel generalizing m m' with
  | zero => exact ⟨_, machines⟩
  | succ fuel ih =>
    have turns := even.turn machines
    unfold Machine.loop
    revert turns
    generalize m.turn host = x
    generalize m'.turn host = x'
    intro turns
    cases turns with
    | ended e machines => exact ⟨_, machines⟩
    | again machines => exact ih machines

/-- Two runs that begin alike end in the same way. -/
theorem run (machines : m.Alike alike m') : Machine.Both alike (m.run host) (m'.run host) :=
  even.loop _ (machines.onSched _)

/-- After any number of turns, two runs that began alike are alike. -/
theorem after (n : Nat) (machines : m.Alike alike m') : Option.Rel (Machine.Alike alike) (m.after host n) (m'.after host n) := by
  induction n generalizing m m' with
  | zero => exact .some machines
  | succ n ih =>
    have turns := even.turn machines
    unfold Machine.after
    revert turns
    generalize m.turn host = x
    generalize m'.turn host = x'
    intro turns
    cases turns with
    | ended e machines => exact .none
    | again machines => exact ih machines

end Host.Even

end LedgerScript
