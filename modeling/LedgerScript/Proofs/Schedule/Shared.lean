import LedgerScript.Proofs.Schedule.Execution

/-!
# What the tasks share

The machine itself only works on the scheduler.  So what happens in a run to the state that the tasks share is what the
activations do to it, one piece of work after another.  When all of them abide by a relation that is reflexive and
transitive, any two states of a run are related.
-/

namespace LedgerScript

variable {S V E B A : Type}

/-- The state that the tasks share goes from one state to a related one. -/
abbrev sharedBy (moves : S → S → Prop) (w w' : World S V E B) : Prop :=
  moves w.own w'.own

/-- All activations abide by a relation. -/
def Host.Abides (host : Host S V E B A) (moves : S → S → Prop) : Prop :=
  ∀ request w, ((host.start request).run w).Within (sharedBy moves) (sharedBy moves w)

namespace Stage

/-- The state that the tasks share. -/
def own : Stage S V E B A → S
  | between m => m.world.own
  | running _ _ p _ => p.world.own

/-- What is left to do abides by a relation. -/
def Abides (moves : S → S → Prop) : Stage S V E B A → Prop
  | between m => ∀ x ∈ m.threads, x.2.Within (sharedBy moves)
  | running threads _ p stack => (∀ x ∈ threads, x.2.Within (sharedBy moves)) ∧
    p.Within (sharedBy moves) (sharedBy moves p.world) ∧ ∀ f ∈ stack, f.Within (sharedBy moves)

end Stage

/-- The task in turn has done something, and has a process and a stack to go on with. -/
structure Continues (moves : S → S → Prop) (own : S) (p : Proc S V E B A (Turn B A)) (stack : List (Waiting S V E B A)) :
    Prop where
  moved : moves own p.world.own
  process : p.Within (sharedBy moves) (sharedBy moves p.world)
  frames : ∀ f ∈ stack, f.Within (sharedBy moves)

def ThreadStep.Abides (moves : S → S → Prop) (own : S) : ThreadStep S V E B A → Prop
  | .go p stack => Continues moves own p stack
  | .stop (.ended w _) => moves own w.own
  | .stop (.parked w t) => moves own w.own ∧ t.Within (sharedBy moves)
  | .stop (.exhausted w) => moves own w.own

variable {moves : S → S → Prop} (refl : ∀ s, moves s s) {host : Host S V E B A} (abides : host.Abides moves) {own : S}
  {p : Proc S V E B A (Turn B A)} {stack : List (Waiting S V E B A)}

include refl in
/-- What the scheduler is like when a process goes on does not matter. -/
theorem continues {w : World S V E B} (process : p.Within (sharedBy moves) (sharedBy moves w)) (same : w.own = own)
    (frames : ∀ f ∈ stack, f.Within (sharedBy moves)) : Continues moves own p stack :=
  ⟨same ▸ process.world, process.here fun w => refl w.own, frames⟩

include refl abides in
theorem continues_enter {sched : Scheduler V E B} (lock : ObjectId) (request : B)
    {k : World S V E B → BlockEnd A → Proc S V E B A (Turn B A)}
    (rest : ∀ w r, (k w r).Within (sharedBy moves) (sharedBy moves w)) (frames : ∀ f ∈ stack, f.Within (sharedBy moves)) :
    Continues moves own (host.enter ⟨sched, own⟩ lock request k stack).1
      (host.enter ⟨sched, own⟩ lock request k stack).2 := by
  refine continues refl (abides request _) rfl (List.forall_mem_cons.mpr ⟨?_, frames⟩)
  exact fun w a => rest w (.left a)

include refl abides in
theorem Host.Abides.step (process : p.Within (sharedBy moves) (sharedBy moves p.world))
    (frames : ∀ f ∈ stack, f.Within (sharedBy moves)) : (host.step p stack).Abides moves p.world.own := by
  cases p with
  | done w r =>
    cases r with
    | answer a =>
      cases stack with
      | nil => exact refl w.own
      | cons f rest =>
        obtain ⟨first, others⟩ := List.forall_mem_cons.mp frames
        show Continues moves w.own (f.answer w a) rest
        unfold Waiting.answer
        split
        · exact continues refl (first w a) rfl others
        · exact continues refl (first _ a) rfl others
    | become request => exact continues refl (abides request w) rfl frames
  | ask w request k =>
    exact continues refl (abides request w) rfl (List.forall_mem_cons.mpr ⟨process.2, frames⟩)
  | wait w op k =>
    obtain ⟨s, own⟩ := w
    unfold Host.step
    dsimp only
    split
    · exact continues refl (process.2 ⟨_, own⟩ _) rfl frames
    · split
      · exact continues refl (process.2 ⟨_, own⟩ none) rfl frames
      · exact ⟨refl own, process.2, frames⟩
  | block w lock request k =>
    obtain ⟨s, own⟩ := w
    unfold Host.step
    dsimp only
    split
    · exact continues refl (process.2 ⟨_, own⟩ _) rfl frames
    · exact continues_enter refl abides lock request process.2 frames
    · split
      · exact continues refl (process.2 ⟨_, own⟩ .killed) rfl frames
      · exact ⟨refl own, process.2, frames⟩

include refl abides in
/-- A suspended task goes on. -/
theorem Host.Abides.goOn {t : Thread S V E B A} (thread : t.Within (sharedBy moves)) (w : World S V E B) :
    Continues moves w.own (host.goOn w t).1 (host.goOn w t).2 := by
  obtain ⟨suspended, stack⟩ := t
  obtain ⟨rest, frames⟩ := thread
  unfold Host.goOn
  cases suspended with
  | wait op k =>
    dsimp only
    split
    · exact continues refl (rest w none) rfl frames
    · exact continues refl (rest ⟨_, w.own⟩ _) rfl frames
  | enter lock request k =>
    dsimp only
    split
    · exact continues refl (rest w .killed) rfl frames
    · exact continues_enter refl abides lock request rest frames

namespace Stage

variable {stage stage' : Stage S V E B A}

include refl abides in
/-- A task gets its turn. -/
theorem abides_opening (m : Machine S V E B A) (threads : ∀ x ∈ m.threads, x.2.Within (sharedBy moves)) (me : TaskId) :
    (m.opening host me).Abides moves ∧ moves m.world.own (m.opening host me).own := by
  unfold Machine.opening
  dsimp only
  split
  · rename_i id t found
    have mem : (id, t) ∈ m.threads := List.mem_of_find?_eq_some found
    have goes := abides.goOn refl (threads _ mem) (m.onSched (·.setCurrent (some me))).world
    exact ⟨⟨fun x other => threads x (List.mem_filter.mp other).1, goes.process, goes.frames⟩, goes.moved⟩
  · rename_i k absent known
    have goes : Continues moves m.world.own _ [] :=
      continues refl (abides k.body (m.onSched (·.setCurrent (some me))).world) rfl nofun
    exact ⟨⟨threads, goes.process, goes.frames⟩, goes.moved⟩
  · exact ⟨threads, refl m.world.own⟩

include refl abides in
/-- One step of a run. -/
theorem Abides.next (left : stage.Abides moves) (next : Next host stage stage') :
    stage'.Abides moves ∧ moves stage.own stage'.own := by
  cases next with
  | advance later => exact ⟨left, refl _⟩
  | act acts =>
    cases acts with
    | @unwind m id rest first =>
      exact abides_opening refl abides (m.onSched fun s => { s with unwinding := rest }) left id
    | @dispatch m id s picked => exact abides_opening refl abides (m.onSched fun _ => s.setRunning id) left id
    | idle picked => exact ⟨left, refl _⟩
    | fire m n => exact ⟨left, refl _⟩
    | kill m id cause => exact ⟨left, refl _⟩
    | note m e => exact ⟨left, refl _⟩
    | step goes =>
      obtain ⟨others, process, frames⟩ := left
      have step := abides.step refl process frames
      rw [goes] at step
      exact ⟨⟨others, step.process, step.frames⟩, step.moved⟩
    | @stop threads me p stack e stops =>
      obtain ⟨others, process, frames⟩ := left
      have step := abides.step refl process frames
      rw [stops] at step
      cases e with
      | ended w a =>
        unfold Machine.afterTurn
        dsimp only
        split <;> exact ⟨others, step⟩
      | parked w t => exact ⟨List.forall_mem_cons.mpr ⟨step.2, others⟩, step.1⟩
      | exhausted w => exact ⟨others, step⟩

include refl abides in
/-- Any two states of a run are related. -/
theorem Abides.reaches (trans : ∀ {s t u}, moves s t → moves t u → moves s u) (left : stage.Abides moves)
    (reaches : Reaches host stage stage') : stage'.Abides moves ∧ moves stage.own stage'.own := by
  induction reaches with
  | refl => exact ⟨left, refl _⟩
  | tail _ next ih =>
    obtain ⟨left', moved⟩ := ih.1.next refl abides next
    exact ⟨left', trans ih.2 moved⟩

end Stage

end LedgerScript
