import LedgerScript.Proofs.Eval.Logic
import LedgerScript.Proofs.Schedule.Clock
import LedgerScript.Proofs.Value.Arithmetic

/-!
# The time that a program is told

Whatever happens in a run, time never goes back.  A program is told it in milliseconds, but on the way there it is a number
of nanoseconds in a word of 64 bits, so what a program is told is the time for as long as the nanoseconds fit, which is almost
three centuries, and never afterwards.
-/

namespace LedgerScript

/-! ## Time never goes back -/

section

variable {V E B : Type}

namespace Scheduler

variable {s s' : Scheduler V E B} {me : TaskId} {k : Task V E B}

theorem now_steps (steps : s.Steps s') : s'.now = s.now := by
  induction steps with
  | refl => rfl
  | tail _ op ih => exact (now_run op _).trans ih

/-- Between two turns time may pass. -/
theorem Interlude.now_le (interlude : s.Interlude s') : s.now ≤ s'.now := by
  cases interlude with
  | idle nobody => exact Nat.le_of_eq (now_of_life (life_nextReady nobody) rfl).symm
  | fire n => exact Nat.le_of_eq (s.now_fireDue n).symm
  | advance later =>
    unfold advance? at later
    split at later
    · cases later
    · cases later
      rw [now_fireDue]
      exact Nat.le_max_left ..
  | kill id cause => exact Nat.le_of_eq (s.now_kill id cause).symm
  | note e => exact Nat.le_refl _

/-- In a turn it stands still. -/
theorem Work.now (runs : s.current = some me) (here : s.life.tasks me = some k) (work : s.Work s') : s'.now = s.now := by
  cases work with
  | operate steps => exact now_steps steps
  | attempt done => exact now_start runs here (p := .amid _) done
  | stay parked => exact now_start runs here (p := .amid _) parked
  | awake op => exact now_goOn runs here (.amid op)
  | refuse refused => exact now_takeLock runs here refused
  | deny parked => exact now_takeLock runs here parked

end Scheduler

namespace Scene

variable {x y : Scene V E B}

theorem Orderly.now_le (orderly : x.Orderly) (step : x.Step y) : x.sched.now ≤ y.sched.now := by
  obtain ⟨regular, current⟩ := orderly
  have inHand {me : TaskId} (turn : x.hand = some me) :
      x.sched.current = some me ∧ ∃ k, x.sched.life.tasks me = some k := by
    rw [turn] at regular
    obtain ⟨k, here⟩ := regular.task?_hand
    exact ⟨current.trans turn, k.lasting, congrArg (Option.map Task.lasting) here⟩
  have left (s : Scheduler V E B) : (s.notePark.setCurrent none).now = s.now := congrArg Life.now (Play.life_notePark s)
  -- only between two turns time can pass
  cases step with
  | between free interlude => exact interlude.now_le
  | unwind | giveUp | rest => exact Nat.le_refl _
  | dispatch free next =>
    obtain ⟨k, -, -, lives⟩ := Play.life_dispatch next
    exact Nat.le_of_eq (congrArg Life.now lives).symm
  | work turn calm work =>
    obtain ⟨runs, k, here⟩ := inHand turn
    exact Nat.le_of_eq (work.now runs here).symm
  | park turn calm parked =>
    obtain ⟨runs, k, here⟩ := inHand turn
    exact Nat.le_of_eq ((left _).trans (Scheduler.now_start runs here (p := .amid _) parked)).symm
  | enter turn calm taken =>
    obtain ⟨runs, k, here⟩ := inHand turn
    exact Nat.le_of_eq (Scheduler.now_takeLock runs here taken).symm
  | queue turn calm parked =>
    obtain ⟨runs, k, here⟩ := inHand turn
    exact Nat.le_of_eq ((left _).trans (Scheduler.now_takeLock runs here parked)).symm
  | enterAfter => exact Nat.le_refl _
  | leave => exact Nat.le_of_eq (congrArg Life.now ((Scheduler.Same.refl x.sched).leaveBlock _).life).symm
  | finish turn errorText result fault =>
    obtain ⟨-, k, here⟩ := inHand turn
    exact Nat.le_of_eq (congrArg Life.now (Scheduler.life_finish here errorText result fault)).symm

/-- However a run goes on, time does not go back. -/
theorem Orderly.now_le_steps (orderly : x.Orderly) (steps : x.Steps y) : x.sched.now ≤ y.sched.now := by
  induction steps with
  | refl => exact Nat.le_refl _
  | tail before step ih => exact Nat.le_trans ih ((orderly.steps before).now_le step)

end Scene

end

/-! ## What a program is told -/

namespace Eval

variable (now : Nat)

/-- What a program is told when so many milliseconds have passed. -/
def toldMillis (now : Nat) : Int :=
  (WholeKind.long.wrap (now * 1000000)).tdiv 1000000

theorem proc_now (args : List Value) (span : Span) (y : World RunState Value Fault Request) :
    (callBuiltin .now args span).proc y = .done y (.ok (.long (toldMillis y.sched.now))) :=
  rfl

/-- A program is never told more than this. -/
theorem toldMillis_le : -9223372036854 ≤ toldMillis now ∧ toldMillis now ≤ 9223372036854 := by
  obtain ⟨low, high⟩ := (WholeKind.reduced_wrap .long (now * 1000000)).inRange
  simp only [WholeKind.bits] at low high
  rw [toldMillis, Int.tdiv_eq_ediv, show (1000000 : Int).sign = 1 from rfl]
  split <;> omega

/-- A program is told the time for as long as its nanoseconds fit. -/
theorem toldMillis_eq_iff : toldMillis now = now ↔ now ≤ 9223372036854 := by
  constructor
  · intro same
    have most := (toldMillis_le now).2
    omega
  · intro soon
    have fits : WholeKind.long.InRange (now * 1000000) := by
      unfold WholeKind.InRange
      simp only [WholeKind.bits]
      omega
    rw [toldMillis, WholeKind.wrap_of_inRange fits]
    exact Int.mul_tdiv_cancel _ (by decide)

theorem long_toldMillis : Value.long (toldMillis now) = .whole .long (toldMillis now) := by
  obtain ⟨low, high⟩ := toldMillis_le now
  have fits : WholeKind.long.InRange (toldMillis now) := by
    unfold WholeKind.InRange
    simp only [WholeKind.bits]
    omega
  rw [Value.long, Value.ofInt, WholeKind.wrap_of_inRange fits]

/-- In every run of every program two calls of `now`, each at a stage and after whatever the task in turn has done since, read a
time that has not gone back.  They give it to the program for as long as it fits into a word in nanoseconds, and then what they
give does not go back either. -/
theorem now_is_monotone {m : Machine RunState Value Fault Request Answer}
    {stage stage' : Stage RunState Value Fault Request Answer} {y z : World RunState Value Fault Request} (fresh : m.Fresh)
    (before : Stage.Reaches Eval.host (.between m) stage) (later : Stage.Reaches Eval.host stage stage')
    (first : stage.sched.Steps y.sched) (second : stage'.sched.Steps z.sched) (args args' : List Value) (span span' : Span) :
    y.sched.now ≤ z.sched.now ∧ ∃ n n' : Int,
      (callBuiltin .now args span).proc y = .done y (.ok (.whole .long n)) ∧
      (callBuiltin .now args' span').proc z = .done z (.ok (.whole .long n')) ∧
      (n' = z.sched.now ↔ z.sched.now ≤ 9223372036854) ∧
      (z.sched.now ≤ 9223372036854 → n = y.sched.now ∧ n ≤ n') := by
  have same (stage : Stage RunState Value Fault Request Answer) : stage.scene.sched = stage.sched := by
    cases stage <;> rfl
  have onward : y.sched.now ≤ z.sched.now := by
    obtain ⟨start, scenes⟩ := fresh.reaches before
    have sound : (Stage.between m).Sound := by simp [Stage.Sound, fresh.threads]
    have passed := (start.steps scenes).now_le_steps ((sound.reaches before).1.reaches later).2
    rw [same, same] at passed
    rw [Scheduler.now_steps first, Scheduler.now_steps second]
    exact passed
  refine ⟨onward, _, _, (proc_now args span y).trans (by rw [long_toldMillis]),
    (proc_now args' span' z).trans (by rw [long_toldMillis]), toldMillis_eq_iff _, fun soon => ?_⟩
  have told := (toldMillis_eq_iff _).mpr (Nat.le_trans onward soon)
  have later := (toldMillis_eq_iff _).mpr soon
  omega

/-- A task with a deadline, before it runs. -/
def expiring : Machine RunState Value Fault Request Answer where
  world := {
    sched := (({ defaultDeadline := 5000000 } : Scheduler Value Fault Request).spawn "main" (.topLevel [] 0 none)).2
    own := {
      heap := {}, env := {}, global := 0, builtins := [], messageClass := 0, ledger := {}
      modules := { read := fun path => .error (.notFound path) } } }

/-- Its deadline has come. -/
theorem now_is_monotone_expiring : ∃ s, expiring.world.sched.advance? = some s ∧ expiring.Fresh ∧
    (callBuiltin .now [] {}).proc expiring.world = .done expiring.world (.ok (.whole .long 0)) ∧
    (callBuiltin .now [] {}).proc ⟨s, expiring.world.own⟩ = .done ⟨s, expiring.world.own⟩ (.ok (.whole .long 5)) := by
  have seen : expiring.world.sched.advance?.any (·.now = 5) := by decide +kernel
  obtain ⟨s, advances, later⟩ := (Option.any_eq_true _ _).mp seen
  rw [decide_eq_true_eq] at later
  have fresh : expiring.Fresh := ⟨.operate (.new 5000000 [] []) (.spawn "main" _ id), rfl⟩
  obtain ⟨-, n, n', first, second, times, told⟩ :=
    now_is_monotone (z := ⟨s, expiring.world.own⟩) fresh .refl (.single (.advance advances)) (.refl _) (.refl _) [] [] {} {}
  have soon : s.now ≤ 9223372036854 := by omega
  obtain rfl : n' = 5 := (times.mpr soon).trans (by rw [later]; rfl)
  obtain rfl : n = 0 := (told soon).1
  exact ⟨s, advances, fresh, first, second⟩

end Eval

end LedgerScript
