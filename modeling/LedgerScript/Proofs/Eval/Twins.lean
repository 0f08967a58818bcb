import LedgerScript.Proofs.Eval.Holds

/-!
# Environments of which one copies more frames

Two environments are *twins* if the same holds are on frames that look the same, and the second one may have more frames
because it has copied where the first one went on in the same frame.  Frames that are in use in the first environment have
their own frame in the second one, so a change to one of them is a change to one frame on either side.

The next pass of a loop goes on in the same frame only if the hold of the loop is its single use.  Then the copy on the other side
can stand for it, since nothing else needs the frame that was copied.
-/

open Function (update)

namespace LedgerScript

namespace Env

variable {e e' e₁ e₁' : Env} {β : FrameId → FrameId} {id p : FrameId} {h : HoldId} {s : Scope}
variable {j : FrameId}

/-! ## What stays out of use -/

theorem uses_modify (frames : Array Frame) (id : FrameId) (n : Nat → Nat) (other : j ≠ id) :
    (frames.modify id fun f => { f with uses := n f.uses })[j]? = frames[j]? := by
  rw [Array.getElem?_modify, if_neg (Ne.symm other)]

theorem inUse_of_share (counted : e.Counted) (inUse : (e.share h).2.InUse j) : e.InUse j := by
  by_cases same : j = e.held h
  · exact same ▸ counted.inUse_held h
  · have unchanged : (e.share h).2.frame j = e.frame j := congrArg (·.getD default) (uses_modify e.frames _ (· + 1) same)
    unfold InUse at inUse ⊢
    rwa [unchanged] at inUse

theorem inUse_of_release (inUse : (e.release h).InUse j) : e.InUse j :=
  inUse.imp_right fun used => Nat.lt_of_lt_of_le used (frame_release e h j).2

theorem inUse_of_enter (around : e.InUse p) (inUse : (e.enter p s).2.InUse j) (other : j ≠ e.frames.size) : e.InUse j := by
  by_cases same : j = p
  · exact same ▸ around
  · have unchanged : (e.enter p s).2.frame j = e.frame j := by
      unfold frame enter
      dsimp only
      rw [Array.getElem?_push, if_neg (by simpa using other), uses_modify e.frames p (· + 1) same]
    unfold InUse at inUse ⊢
    rwa [unchanged] at inUse

/-! ## Twins -/

/-- The holds are on frames that look the same, however many frames the second environment has copied. -/
structure Twin (β : FrameId → FrameId) (e e' : Env) : Prop where
  counted : e.Counted
  inward : ∀ id, (e'.frame id).parent ≤ id - 1
  copies : e'.copies = true
  holds : e'.holds = e.holds.map β
  none : β 0 = 0
  bound : ∀ id, e.InUse id → β id < e'.frames.size
  scope : ∀ id, e.InUse id → (e'.frame (β id)).toScope = (e.frame id).toScope
  parent : ∀ id, e.InUse id → (e'.frame (β id)).parent = β (e.frame id).parent
  apart : ∀ i j, e.InUse i → e.InUse j → β i = β j → i = j

/-- At first the frames are the same. -/
theorem Counted.twin (counted : e.Counted) : Twin (fun id => id) e { e with copies := true } where
  counted := counted
  inward id := by
    cases there : e.frames[id]? with
    | none =>
      have absent : ({ e with copies := true } : Env).frame id = default := by rw [frame, there, Option.getD_none]
      rw [absent]
      exact Nat.zero_le _
    | some f =>
      have here : ({ e with copies := true } : Env).frame id = f := by rw [frame, there, Option.getD_some]
      exact here ▸ counted.inward id f there
  copies := rfl
  holds := (Array.map_id' e.holds).symm
  none := rfl
  bound _ := counted.bound
  scope _ _ := rfl
  parent _ _ := rfl
  apart _ _ _ _ := id

namespace Twin

variable (twin : Twin β e e')

include twin

theorem held (h : HoldId) : e'.held h = β (e.held h) := by
  unfold Env.held
  rw [twin.holds, Array.getElem?_map]
  cases e.holds[h]? with
  | none => exact twin.none.symm
  | some id => rfl

theorem eq_zero (inUse : e.InUse id) : β id = 0 ↔ id = 0 :=
  ⟨fun zero => twin.apart id 0 inUse (.inl rfl) (zero.trans twin.none.symm), fun zero => zero ▸ twin.none⟩

/-- The same is told about frames that look the same. -/
theorem find? {α : Type} (tell : Scope → Option α) (inUse : e.InUse id) : e'.find? tell (β id) = e.find? tell id := by
  have there' {id : FrameId} (inUse : e.InUse id) : e'.frames[β id]? = some (e'.frame (β id)) := by
    have inside := twin.bound id inUse
    rw [frame, Array.getElem?_eq_getElem inside, Option.getD_some]
  fun_induction Env.find? e tell id with
  | case1 => rw [twin.none, Env.find?, if_pos rfl]
  | case2 id _ absent =>
    rw [twin.counted.there inUse] at absent
    cases absent
  | case3 id some f there a told =>
    rw [Env.find?, if_neg (mt (twin.eq_zero inUse).mp some), there' inUse]
    dsimp only
    rw [twin.scope id inUse, frame_eq there, told]
  | case4 id some f there told less ih =>
    have parent := twin.parent id inUse
    rw [frame_eq there] at parent
    have around : e.InUse f.parent := frame_eq there ▸ twin.counted.inUse_parent inUse
    have less' : (e'.frame (β id)).parent < β id :=
      Nat.lt_of_le_pred (Nat.pos_of_ne_zero (mt (twin.eq_zero inUse).mp some)) (twin.inward (β id))
    rw [Env.find?, if_neg (mt (twin.eq_zero inUse).mp some), there' inUse]
    dsimp only
    rw [twin.scope id inUse, frame_eq there, told]
    dsimp only
    rw [if_pos less', parent, ih around]
  | case5 id some f there told around =>
    exact (around (Nat.lt_of_le_pred (Nat.pos_of_ne_zero some) (twin.counted.inward id f there))).elim

theorem outer (n : Nat) (inUse : e.InUse id) : e'.outer n (β id) = β (e.outer n id) := by
  induction n generalizing id with
  | zero => rfl
  | succ n ih =>
    unfold Env.outer
    by_cases zero : id = 0
    · rw [if_pos zero, if_pos ((twin.eq_zero inUse).mpr zero), twin.none]
    · rw [if_neg zero, if_neg (mt (twin.eq_zero inUse).mp zero), twin.parent id inUse]
      exact ih (twin.counted.inUse_parent inUse)

/-- What is found at some distance from a hold. -/
theorem outer_held (h : HoldId) (n : Nat) :
    e'.outer n (e'.held h) = β (e.outer n (e.held h)) ∧ e.InUse (e.outer n (e.held h)) := by
  have inUse := twin.counted.inUse_held h
  rw [twin.held]
  exact ⟨twin.outer n inUse, twin.counted.inUse_outer n inUse⟩

/-- A change to a frame that is in use is made on both sides. -/
theorem change (may : Scope → Bool) (g : Scope → Scope) (inUse : e.InUse id) :
    (e'.change (β id) may g).1 = (e.change id may g).1 ∧ Twin β (e.change id may g).2 (e'.change (β id) may g).2 := by
  have counted := twin.counted.change id may g
  have allowed : (β id ≠ 0 && may (e'.frame (β id)).toScope) = (id ≠ 0 && may (e.frame id).toScope) := by
    rw [twin.scope id inUse]
    simp [twin.eq_zero inUse]
  unfold Env.change at counted ⊢
  rw [allowed]
  split at counted
  · rename_i goes
    rw [if_pos goes, if_pos goes]
    have changed (e : Env) {id : FrameId} (inside : id < e.frames.size) (j : FrameId) :
        (⟨e.frames.modify id fun f => { f with toScope := g f.toScope }, e.holds, e.copies⟩ : Env).frame j =
          if j = id then { e.frame id with toScope := g (e.frame id).toScope } else e.frame j := by
      unfold frame
      dsimp only
      rw [Array.getElem?_modify]
      split
      · rename_i same
        subst same
        rw [if_pos rfl, Array.getElem?_eq_getElem inside]
        rfl
      · rename_i other
        rw [if_neg (Ne.symm other)]
    have left := changed e (twin.counted.bound inUse)
    have right := changed e' (twin.bound id inUse)
    have inUse_of {j : FrameId}
        (used : (⟨e.frames.modify id fun f => { f with toScope := g f.toScope }, e.holds, e.copies⟩ : Env).InUse j) :
        e.InUse j := by
      unfold InUse at used ⊢
      rw [left] at used
      split at used
      · rename_i same
        exact same ▸ used
      · exact used
    refine ⟨rfl, counted, fun j => ?_, twin.copies, twin.holds, twin.none, fun j used => ?_, fun j used => ?_,
      fun j used => ?_, fun i j used used' => twin.apart i j (inUse_of used) (inUse_of used')⟩
    · rw [right]
      split
      · rename_i same
        exact same ▸ twin.inward (β id)
      · exact twin.inward j
    · rw [Array.size_modify]
      exact twin.bound j (inUse_of used)
    · rw [left, right]
      by_cases same : j = id
      · rw [if_pos same, if_pos (congrArg β same), twin.scope id inUse]
      · rw [if_neg same, if_neg (mt (twin.apart j id (inUse_of used) inUse) same)]
        exact twin.scope j (inUse_of used)
    · rw [left, right]
      by_cases same : j = id
      · rw [if_pos same, if_pos (congrArg β same)]
        exact twin.parent id inUse
      · rw [if_neg same, if_neg (mt (twin.apart j id (inUse_of used) inUse) same)]
        exact twin.parent j (inUse_of used)
  · rename_i stays
    rw [if_neg stays, if_neg stays]
    exact ⟨rfl, twin⟩

/-- Frames may be used differently, as long as none comes into use. -/
theorem reuse (counted : e₁.Counted) (left : ∀ id, (e.frame id).Same (e₁.frame id))
    (right : ∀ id, (e'.frame id).Same (e₁'.frame id)) (size : e₁'.frames.size = e'.frames.size)
    (copies : e₁'.copies = e'.copies) (holds : e₁'.holds = e₁.holds.map β) (less : ∀ id, e₁.InUse id → e.InUse id) :
    Twin β e₁ e₁' where
  counted := counted
  inward id := (right id).parent ▸ twin.inward id
  copies := copies.trans twin.copies
  holds := holds
  none := twin.none
  bound id inUse := size ▸ twin.bound id (less id inUse)
  scope id inUse := by rw [(right _).scope, (left id).scope, twin.scope id (less id inUse)]
  parent id inUse := by rw [(right _).parent, (left id).parent, twin.parent id (less id inUse)]
  apart i j inUse inUse' := twin.apart i j (less i inUse) (less j inUse')

theorem share (h : HoldId) : (e'.share h).1 = (e.share h).1 ∧ Twin β (e.share h).2 (e'.share h).2 := by
  have size : e'.holds.size = e.holds.size := by rw [twin.holds, Array.size_map]
  refine ⟨size, twin.reuse (twin.counted.share h) (e.same_share h) (e'.same_share h) (by simp [Env.share]) rfl ?_
    fun id => inUse_of_share twin.counted⟩
  have shared : (e'.share h).2.holds = e'.holds.push (e'.held h) := rfl
  rw [shared, twin.held, twin.holds, ← Array.map_push]
  rfl

theorem release (h : HoldId) : Twin β (e.release h) (e'.release h) := by
  refine twin.reuse (twin.counted.release h) (fun id => (e.frame_release h id).1) (fun id => (e'.frame_release h id).1)
    (size_release e' h) rfl ?_ fun id => inUse_of_release
  have released : (e'.release h).holds = e'.holds.setIfInBounds h 0 := rfl
  rw [released, twin.holds, ← twin.none, ← Array.map_setIfInBounds]
  rfl

/-- A frame that is new on the second side may stand for a frame that no other one in use needs. -/
theorem extend {n : FrameId} (counted : e₁.Counted) (some : id ≠ 0) (new : n = e'.frames.size)
    (inward : ∀ id, (e₁'.frame id).parent ≤ id - 1) (copies : e₁'.copies = true)
    (holds : e₁'.holds = e₁.holds.map (update β id n)) (size : n < e₁'.frames.size)
    (old : ∀ j, j ≠ n → (e'.frame j).Same (e₁'.frame j))
    (scope : (e₁'.frame n).toScope = (e₁.frame id).toScope) (parent : (e₁'.frame n).parent = β (e₁.frame id).parent)
    (around : (e₁.frame id).parent ≠ id)
    (others : ∀ j, e₁.InUse j → j ≠ id → e.InUse j ∧ (e.frame j).Same (e₁.frame j) ∧ (e.frame j).parent ≠ id) :
    Twin (update β id n) e₁ e₁' := by
  have before {j : FrameId} (inUse : e₁.InUse j) (other : j ≠ id) : β j < n :=
    new ▸ twin.bound j (others j inUse other).1
  refine ⟨counted, inward, copies, holds, ?_, fun j inUse => ?_, fun j inUse => ?_, fun j inUse => ?_,
    fun i j inUse inUse' same => ?_⟩
  · rw [Function.update_of_ne (Ne.symm some), twin.none]
  · by_cases same : j = id
    · rw [same, Function.update_self]
      exact size
    · rw [Function.update_of_ne same]
      exact Nat.lt_trans (before inUse same) size
  · by_cases same : j = id
    · rw [same, Function.update_self, scope]
    · obtain ⟨inUse', unchanged, -⟩ := others j inUse same
      rw [Function.update_of_ne same, (old _ (Nat.ne_of_lt (before inUse same))).scope, unchanged.scope, twin.scope j inUse']
  · by_cases same : j = id
    · rw [same, Function.update_self, parent, Function.update_of_ne around]
    · obtain ⟨inUse', unchanged, away⟩ := others j inUse same
      rw [Function.update_of_ne same, (old _ (Nat.ne_of_lt (before inUse same))).parent, unchanged.parent,
        Function.update_of_ne away, twin.parent j inUse']
  · by_cases left : i = id <;> by_cases right : j = id
    · exact left.trans right.symm
    · rw [left, Function.update_self, Function.update_of_ne right] at same
      exact absurd same.symm (Nat.ne_of_lt (before inUse' right))
    · rw [right, Function.update_self, Function.update_of_ne left] at same
      exact absurd same (Nat.ne_of_lt (before inUse left))
    · rw [Function.update_of_ne left, Function.update_of_ne right] at same
      exact twin.apart i j (others i inUse left).1 (others j inUse' right).1 same

theorem inward_enter (inUse : e.InUse p) (s : Scope) (j : FrameId) : ((e'.enter (β p) s).2.frame j).parent ≤ j - 1 := by
  by_cases last : j = e'.frames.size
  · rw [last, frame_enter_self]
    exact Nat.le_pred_of_lt (twin.bound p inUse)
  · rw [(same_enter e' (β p) s last).parent]
    exact twin.inward j

theorem enter (inUse : e.InUse p) (s : Scope) : (e'.enter (β p) s).1 = (e.enter p s).1 ∧
    Twin (update β e.frames.size e'.frames.size) (e.enter p s).2 (e'.enter (β p) s).2 := by
  have inside {j : FrameId} (inUse : e.InUse j) : (e.frame j).parent ≠ e.frames.size :=
    Nat.ne_of_lt (twin.counted.bound (twin.counted.inUse_parent inUse))
  have size : e'.holds.size = e.holds.size := by rw [twin.holds, Array.size_map]
  refine ⟨size, twin.extend (twin.counted.enter inUse s) (Nat.ne_of_gt twin.counted.nonempty) rfl (twin.inward_enter inUse s)
    twin.copies ?_ (size_enter e' (β p) s ▸ Nat.lt_succ_self _) (fun j => same_enter e' (β p) s) ?_ ?_ ?_ fun j used other => ?_⟩
  · have mapped : e.holds.map (update β e.frames.size e'.frames.size) = e.holds.map β :=
      Array.map_congr_left fun j mem => Function.update_of_ne (Nat.ne_of_lt (twin.counted.known j mem)) ..
    have left : (e.enter p s).2.holds = e.holds.push e.frames.size := rfl
    have right : (e'.enter (β p) s).2.holds = e'.holds.push e'.frames.size := rfl
    rw [left, right, Array.map_push, mapped, Function.update_self, twin.holds]
  · rw [frame_enter_self, frame_enter_self]
  · rw [frame_enter_self, frame_enter_self]
  · rw [frame_enter_self]
    exact Nat.ne_of_lt (twin.counted.bound inUse)
  · have before := inUse_of_enter inUse used other
    exact ⟨before, same_enter e p s other, inside before⟩

/-- The next pass goes on in the same frame here, and in a copy there. -/
theorem goOn (some : e.held h ≠ 0) (once : (e.frame (e.held h)).uses ≤ 1) :
    Twin (update β (e.held h) e'.frames.size) ((e.share h).2.release h)
      ((e'.enter (β (e.frame (e.held h)).parent) (e.frame (e.held h)).toScope).2.release h) := by
  obtain ⟨-, empty⟩ := twin.counted.single some once
  have inUse := twin.counted.inUse_held h
  have around := twin.counted.inUse_parent inUse
  have same (j : FrameId) : (e.frame j).Same (((e.share h).2.release h).frame j) :=
    (e.same_share h j).trans (frame_release _ h j).1
  have entered := frame_release (e'.enter (β (e.frame (e.held h)).parent) (e.frame (e.held h)).toScope).2 h
  have new := (entered e'.frames.size).1
  refine twin.extend ((twin.counted.share h).release h) some rfl (fun j => ?_) twin.copies ?_ ?_ (fun j other => ?_) ?_ ?_ ?_
    fun j used other => ?_
  · rw [(entered j).1.parent]
    exact twin.inward_enter around _ j
  · have inside : h < e.holds.size := lt_of_held some
    have inside' : h < e'.holds.size := by rwa [twin.holds, Array.size_map]
    have mapped : (e.holds.set h 0).map (update β (e.held h) e'.frames.size) = (e.holds.set h 0).map β :=
      Array.map_congr_left fun j mem =>
        Function.update_of_ne (fun same : j = e.held h => twin.counted.unheld some once (same ▸ mem)) ..
    have left : ((e.share h).2.release h).holds = (e.holds.push (e.held h)).setIfInBounds h 0 := rfl
    have right : ((e'.enter (β (e.frame (e.held h)).parent) (e.frame (e.held h)).toScope).2.release h).holds =
      (e'.holds.push e'.frames.size).setIfInBounds h 0 := rfl
    have after {holds : Array FrameId} (inside : h < holds.size) (n : FrameId) :
        (holds.push n).setIfInBounds h 0 = (holds.set h 0).push n := by
      rw [Array.setIfInBounds_def, dif_pos (by simpa using Nat.lt_succ_of_lt inside), Array.set_push, dif_pos inside]
    rw [left, right, after inside, after inside', Array.map_push, mapped, Function.update_self, Array.map_set, twin.none]
    simp only [twin.holds]
  · rw [size_release, size_enter]
    exact Nat.lt_succ_self _
  · exact (same_enter e' _ _ other).trans (entered j).1
  · rw [new.scope, frame_enter_self, (same _).scope]
  · rw [new.parent, frame_enter_self, (same _).parent]
  · rw [(same _).parent]
    have less := twin.counted.inward _ _ (twin.counted.there inUse)
    exact Nat.ne_of_lt (Nat.lt_of_le_pred (Nat.pos_of_ne_zero some) less)
  · have before := inUse_of_share twin.counted (inUse_of_release used)
    refine ⟨before, same j, fun inside => ?_⟩
    have inner := twin.counted.inner_pos before (inside ▸ some)
    rw [inside, empty] at inner
    exact Nat.lt_irrefl 0 inner

/-- The next pass of a loop has a hold of the same number, on a frame that looks the same. -/
theorem renew (h : HoldId) : (e'.renew h).1 = (e.renew h).1 ∧ ∃ β', Twin β' (e.renew h).2 (e'.renew h).2 := by
  have inUse := twin.counted.inUse_held h
  unfold Env.renew
  dsimp only
  rw [twin.copies, twin.held, twin.scope _ inUse, twin.parent _ inUse]
  by_cases zero : e.held h = 0
  · rw [zero, twin.none]
    simp only [decide_true, Bool.true_or, if_true]
    obtain ⟨number, shared⟩ := twin.share h
    exact ⟨number, β, shared.release h⟩
  · have zero' := mt (twin.eq_zero inUse).mp zero
    obtain ⟨number, entered⟩ := twin.enter (twin.counted.inUse_parent inUse) (e.frame (e.held h)).toScope
    simp only [zero, zero', decide_false, Bool.false_or, Bool.not_true, Bool.and_false, Bool.false_eq_true, if_false]
    split
    · rename_i once
      have once : (e.frame (e.held h)).uses ≤ 1 := by simpa using (Bool.and_eq_true_iff.mp once).1
      exact ⟨number, _, twin.goOn zero once⟩
    · exact ⟨number, _, entered.release h⟩

end Twin

end Env

/-- Whatever is done with twins gives the same, and twins again. -/
theorem EnvOp.twin {α : Type} (op : EnvOp α) {β : FrameId → FrameId} {e e' : Env} (twin : Env.Twin β e e') :
    (op.run e').1 = (op.run e).1 ∧ ∃ β', Env.Twin β' (op.run e).2 (op.run e').2 := by
  cases op with
  | find h tell =>
    refine ⟨?_, β, twin⟩
    unfold EnvOp.run
    dsimp only
    rw [twin.held, twin.find? tell (twin.counted.inUse_held h)]
  | look h n f =>
    obtain ⟨outer, inUse⟩ := twin.outer_held h n
    refine ⟨?_, β, twin⟩
    unfold EnvOp.run
    dsimp only
    rw [outer, twin.scope _ inUse]
  | declare h n name kind v =>
    obtain ⟨outer, inUse⟩ := twin.outer_held h n
    obtain ⟨same, after⟩ := twin.change (·.declares name kind) (·.declare name kind v) inUse
    unfold EnvOp.run Env.declare
    dsimp only
    rw [outer]
    exact ⟨same, β, after⟩
  | store h n i v =>
    obtain ⟨outer, inUse⟩ := twin.outer_held h n
    obtain ⟨same, after⟩ := twin.change (fun s => !(s.slot i).kind.isImmutable) (·.assign i v) inUse
    unfold EnvOp.run Env.store
    dsimp only
    rw [outer]
    exact ⟨same, β, after⟩
  | enter parent s =>
    obtain ⟨same, after⟩ := twin.enter (twin.counted.inUse_held parent) s
    unfold EnvOp.run
    dsimp only
    rw [twin.held]
    exact ⟨same, _, after⟩
  | share h =>
    obtain ⟨same, after⟩ := twin.share h
    exact ⟨same, β, after⟩
  | release h => exact ⟨rfl, β, twin.release h⟩
  | renew h => exact twin.renew h

end LedgerScript
