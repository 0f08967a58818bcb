import LedgerScript.Proofs.Schedule.Queues

/-!
# Lines

Tasks that want a lock, or a permit of a semaphore, and can not have it stand in a line.  `SyncObject.LineStep` says how a
line moves that is served fairly: whoever comes joins at the end, only the first one is served, and nobody takes what
others wait for.  Those who are killed drop out.

While a task waits in such a line, what it waits for only goes to those who were ahead of it, in their order.
-/

namespace LedgerScript

variable {V : Type}

/-- Those in a line who stand in front of a task. -/
def ahead (t : TaskId) (line : List TaskId) : List TaskId :=
  line.takeWhile (· ≠ t)

section

variable {t u : TaskId} {line line' front back : List TaskId}

theorem ahead_eq (absent : t ∉ front) : ahead t (front ++ t :: back) = front := by
  induction front with
  | nil => simp [ahead]
  | cons u front ih =>
    obtain ⟨other, absent⟩ := not_or.mp (mt List.mem_cons.mpr absent)
    rw [ahead, List.cons_append, List.takeWhile_cons_of_pos (by simpa using Ne.symm other)]
    exact congrArg (u :: ·) (ih absent)

/-- A line without repetitions is cut by each of its tasks. -/
theorem cut_ahead (distinct : line.Nodup) (here : t ∈ line) :
    ∃ back, line = ahead t line ++ t :: back ∧ t ∉ ahead t line := by
  obtain ⟨front, back, rfl⟩ := List.append_of_mem here
  have absent : t ∉ front := fun mem => (List.nodup_append.mp distinct).2.2 t mem t List.mem_cons_self rfl
  exact ⟨back, by rw [ahead_eq absent], by rwa [ahead_eq absent]⟩

theorem ahead_append (distinct : line.Nodup) (here : t ∈ line) (new : List TaskId) : ahead t (line ++ new) = ahead t line := by
  obtain ⟨back, eq, absent⟩ := cut_ahead distinct here
  conv_lhs => rw [eq, List.append_assoc, List.cons_append]
  exact ahead_eq absent

theorem ahead_cons (other : u ≠ t) : ahead t (u :: line) = u :: ahead t line :=
  List.takeWhile_cons_of_pos (by simpa using other)

theorem ahead_sublist_self (t : TaskId) (line : List TaskId) : (ahead t line).Sublist line :=
  List.takeWhile_sublist _

/-- When some leave a line, those of the others stay in front who were there. -/
theorem ahead_leave (distinct : line.Nodup) (fewer : line'.Sublist line) (here : t ∈ line') :
    (ahead t line').Sublist (ahead t line) ∧ ∀ u ∈ ahead t line, u ∈ line' → u ∈ ahead t line' := by
  obtain ⟨back, eq, absent⟩ := cut_ahead distinct (fewer.subset here)
  generalize ahead t line = front at eq absent
  subst eq
  obtain ⟨front', back', rfl, before, after⟩ := sublist_around fewer distinct here
  have apart := (List.nodup_append.mp distinct).2.2
  rw [ahead_eq fun mem => absent (before.subset mem)]
  refine ⟨before, fun u mem mem' => (List.mem_append.mp mem').resolve_right fun mem' => ?_⟩
  exact apart u mem u ((after.cons_cons t).subset mem') rfl

end

namespace SyncObject

def isTakeable : SyncObject V → Bool
  | lock _ | semaphore _ => true
  | barrier .. | channel .. => false

def IsFree : SyncObject V → Prop
  | lock holder => holder = none
  | semaphore permits => 0 < permits
  | barrier .. | channel .. => False

def taken (me : TaskId) : SyncObject V → SyncObject V
  | lock _ => lock (some me)
  | semaphore permits => semaphore (permits - 1)
  | o => o

/-- It has gone to a task that has waited for it. -/
def granted (t : TaskId) : SyncObject V → SyncObject V
  | lock _ => lock (some t)
  | o => o

/-- It has been given back while nobody waits for it. -/
def returned : SyncObject V → SyncObject V
  | lock _ => lock none
  | semaphore permits => semaphore (permits + 1)
  | o => o

/-- How a line moves that is served fairly, while a task, or nobody, has its turn, and who is served.  Those who are gone
drop out. -/
inductive LineStep (actor : Option TaskId) (gone : TaskId → Prop) :
    SyncObject V × List TaskId → List TaskId → SyncObject V × List TaskId → Prop where
  /-- What can be had is taken, if nobody waits for it. -/
  | take {o : SyncObject V} {me : TaskId} (turn : actor = some me) (free : o.IsFree) :
    LineStep actor gone (o, []) [] (o.taken me, [])
  | join {o : SyncObject V} {me : TaskId} {line : List TaskId} (turn : actor = some me) (wanted : ¬ o.IsFree)
    (new : me ∉ line) : LineStep actor gone (o, line) [] (o, line ++ [me])
  /-- The first one in the line gets it. -/
  | grant {o : SyncObject V} {t : TaskId} {line : List TaskId} : LineStep actor gone (o, t :: line) [t] (o.granted t, line)
  | giveBack {o : SyncObject V} : LineStep actor gone (o, []) [] (o.returned, [])
  | leave {o : SyncObject V} {line line' : List TaskId} (fewer : line'.Sublist line)
    (dead : ∀ t ∈ line, t ∉ line' → gone t) : LineStep actor gone (o, line) [] (o, line')

inductive LineSteps (actor : Option TaskId) (gone : TaskId → Prop) :
    SyncObject V × List TaskId → List TaskId → SyncObject V × List TaskId → Prop where
  | refl (x : SyncObject V × List TaskId) : LineSteps actor gone x [] x
  | tail {x y z : SyncObject V × List TaskId} {served served' : List TaskId} (first : LineSteps actor gone x served y)
    (step : LineStep actor gone y served' z) : LineSteps actor gone x (served ++ served') z

variable {actor : Option TaskId} {gone gone' : TaskId → Prop} {x y z : SyncObject V × List TaskId} {t : TaskId}
  {front served served' : List TaskId}

theorem LineStep.mono (more : ∀ t, gone t → gone' t) (step : LineStep actor gone x served y) :
    LineStep actor gone' x served y := by
  cases step with
  | take turn free => exact .take turn free
  | join turn wanted new => exact .join turn wanted new
  | grant => exact .grant
  | giveBack => exact .giveBack
  | leave fewer dead => exact .leave fewer fun t here left => more t (dead t here left)

theorem LineSteps.mono (more : ∀ t, gone t → gone' t) (steps : LineSteps actor gone x served y) :
    LineSteps actor gone' x served y := by
  induction steps with
  | refl => exact .refl x
  | tail _ step ih => exact .tail ih (step.mono more)

theorem LineSteps.single (step : LineStep actor gone x served y) : LineSteps actor gone x served y :=
  .tail (.refl x) step

theorem LineSteps.trans (first : LineSteps actor gone x served y) (second : LineSteps actor gone y served' z) :
    LineSteps actor gone x (served ++ served') z := by
  induction second with
  | refl => rwa [List.append_nil]
  | tail _ step ih =>
    rw [← List.append_assoc]
    exact .tail ih step

/-- What is taken and given back stays what it is. -/
theorem LineStep.same (step : LineStep actor gone x served y) :
    y.1.isTakeable = x.1.isTakeable ∧ ∀ m, y.1.key? m = x.1.key? m := by
  cases step with
  | join | leave => exact ⟨rfl, fun _ => rfl⟩
  | @take o => cases o <;> exact ⟨rfl, fun _ => rfl⟩
  | @grant o => cases o <;> exact ⟨rfl, fun _ => rfl⟩
  | @giveBack o => cases o <;> exact ⟨rfl, fun _ => rfl⟩

theorem LineSteps.same (steps : LineSteps actor gone x served y) :
    y.1.isTakeable = x.1.isTakeable ∧ ∀ m, y.1.key? m = x.1.key? m := by
  induction steps with
  | refl => exact ⟨rfl, fun _ => rfl⟩
  | tail _ step ih => exact ⟨step.same.1.trans ih.1, fun m => (step.same.2 m).trans (ih.2 m)⟩

/-- Nobody waits for what can be had. -/
theorem LineStep.idle (idle : x.1.IsFree → x.2 = []) (step : LineStep actor gone x served y) : y.1.IsFree → y.2 = [] := by
  cases step with
  | take | giveBack => exact fun _ => rfl
  | join turn wanted new => exact fun free => absurd free wanted
  | @grant o t line =>
    intro free
    cases o with
    | lock => cases free
    | semaphore => cases idle free
    | barrier | channel => exact free.elim
  | leave fewer dead =>
    intro free
    have nobody : _ = [] := idle free
    exact List.sublist_nil.mp (nobody ▸ fewer)

theorem LineSteps.idle (idle : x.1.IsFree → x.2 = []) (steps : LineSteps actor gone x served y) :
    y.1.IsFree → y.2 = [] := by
  induction steps with
  | refl => exact idle
  | tail _ step ih => exact step.idle ih

/-- Nobody stands in a line twice. -/
theorem LineStep.nodup (distinct : x.2.Nodup) (step : LineStep actor gone x served y) : y.2.Nodup := by
  cases step with
  | take | giveBack => exact .nil
  | join turn wanted new =>
    refine List.nodup_append.mpr ⟨distinct, by simp, fun t mem me here same => ?_⟩
    rw [List.mem_singleton.mp here] at same
    exact new (same ▸ mem)
  | grant => exact (List.nodup_cons.mp distinct).2
  | leave fewer dead => exact distinct.sublist fewer

theorem LineSteps.nodup (distinct : x.2.Nodup) (steps : LineSteps actor gone x served y) : y.2.Nodup := by
  induction steps with
  | refl => exact distinct
  | tail _ step ih => exact step.nodup ih

/-- Since a task stood in a line behind others, some have been served.  Unless the task is gone, those who were served
before it are the ones who stood in front, in the order in which they did, but for those who are gone. -/
inductive ServedAfter (gone : TaskId → Prop) (t : TaskId) (front : List TaskId) : List TaskId → List TaskId → Prop where
  | gone {served line : List TaskId} (dead : gone t) : ServedAfter gone t front served line
  | waits {served line : List TaskId} (here : t ∈ line) (order : (served ++ ahead t line).Sublist front)
    (others : ∀ u ∈ front, u ∈ served ++ ahead t line ∨ gone u) : ServedAfter gone t front served line
  | served {before after line : List TaskId} (order : before.Sublist front) (others : ∀ u ∈ front, u ∈ before ∨ gone u) :
    ServedAfter gone t front (before ++ t :: after) line

theorem ServedAfter.mono {line : List TaskId} (more : ∀ t, gone t → gone' t)
    (after : ServedAfter gone t front served line) : ServedAfter gone' t front served line := by
  cases after with
  | gone dead => exact .gone (more t dead)
  | waits here order others => exact .waits here order fun u mem => (others u mem).imp_right (more u)
  | served order others => exact .served order fun u mem => (others u mem).imp_right (more u)

/-- A line moves while a task has not its turn. -/
theorem ServedAfter.step (after : ServedAfter gone t front served x.2) (step : LineStep actor gone x served' y)
    (other : actor ≠ some t) (distinct : x.2.Nodup) : ServedAfter gone t front (served ++ served') y.2 := by
  cases after with
  | gone dead => exact .gone dead
  | served order others =>
    rw [List.append_assoc]
    exact .served order others
  | waits here order others =>
    cases step with
    | take | giveBack => exact absurd here List.not_mem_nil
    | @join o me line turn wanted new =>
      rw [List.append_nil]
      have same : ahead t (line ++ [me]) = ahead t line := ahead_append distinct here [me]
      exact .waits (List.mem_append_left _ here) (same ▸ order) (same ▸ others)
    | @grant o first line =>
      dsimp only at here order others distinct ⊢
      by_cases turn : first = t
      · subst turn
        have nobody : ahead first (first :: line) = [] := List.takeWhile_cons_of_neg (by simp)
        rw [nobody, List.append_nil] at order others
        exact .served order others
      · rw [ahead_cons turn] at order others
        have here : t ∈ line := (List.mem_cons.mp here).resolve_left (Ne.symm turn)
        exact .waits here (by simpa using order) (by simpa using others)
    | @leave o line line' fewer dead =>
      rw [List.append_nil]
      by_cases stays : t ∈ line'
      · obtain ⟨closer, gap⟩ := ahead_leave distinct fewer stays
        refine .waits stays ((closer.append_left served).trans order) fun u mem => ?_
        rcases others u mem with mem | gone
        · rcases List.mem_append.mp mem with mem | mem
          · exact .inl (List.mem_append_left _ mem)
          · by_cases stays' : u ∈ line'
            · exact .inl (List.mem_append_right _ (gap u mem stays'))
            · exact .inr (dead u ((ahead_sublist_self t line).subset mem) stays')
        · exact .inr gone
      · exact .gone (dead t here stays)

theorem ServedAfter.steps (after : ServedAfter gone t front served x.2) (steps : LineSteps actor gone x served' y)
    (other : actor ≠ some t) (distinct : x.2.Nodup) : ServedAfter gone t front (served ++ served') y.2 := by
  induction steps with
  | refl => rwa [List.append_nil]
  | tail first step ih =>
    rw [← List.append_assoc]
    exact ih.step step other (LineSteps.nodup distinct first)

end SyncObject

end LedgerScript
