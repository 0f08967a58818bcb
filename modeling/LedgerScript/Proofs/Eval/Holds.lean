import LedgerScript.Eval.Env
import Mathlib.Logic.Function.Basic

/-!
# Holds and the frames they are on

A frame counts its uses, and it never counts too few: each hold on it is one, and so is each frame inside it that is in use.
So every frame that can be reached from a hold is in use, and a frame with one use is reached from a single hold.
-/

namespace LedgerScript

variable {α : Type} {i : Nat}

/-! ## Counting -/

/-- A change of one item of an array. -/
theorem modify_eq_set {xs : Array α} (bound : i < xs.size) (f : α → α) : xs.modify i f = xs.set i (f xs[i]) := by
  ext j inside
  · simp
  · rw [Array.getElem_modify, Array.getElem_set]
    by_cases same : i = j
    · subst same
      simp
    · simp [same]

theorem modify_eq_self {xs : Array α} (outside : xs.size ≤ i) (f : α → α) : xs.modify i f = xs := by
  ext j inside
  · simp
  · rw [Array.getElem_modify, if_neg]
    rintro rfl
    simp at inside
    omega

/-- One item that changes counts before or after, or both times. -/
theorem countP_modify {xs : Array α} {a : α} (there : xs[i]? = some a) (p : α → Bool) (f : α → α) :
    (xs.modify i f).countP p + (if p a then 1 else 0) = xs.countP p + (if p (f a) then 1 else 0) := by
  obtain ⟨bound, rfl⟩ := Array.getElem?_eq_some_iff.mp there
  rw [modify_eq_set bound, Array.countP_set]
  have counted : p xs[i] = true → 0 < xs.countP p := fun holds => Array.countP_pos_iff.mpr ⟨_, Array.getElem_mem bound, holds⟩
  split <;> rename_i old
  · have := counted old
    omega
  · omega

/-- One item that changes is counted elsewhere. -/
theorem count_set {xs : Array Nat} {x y : Nat} (bound : i < xs.size) (z : Nat) (here : xs[i] = x) :
    (xs.set i y).count z + (if x = z then 1 else 0) = xs.count z + (if y = z then 1 else 0) := by
  subst here
  rw [Array.count_set]
  have counted : xs[i] = z → 0 < xs.count z := fun same => Array.count_pos_iff.mpr (same ▸ Array.getElem_mem bound)
  simp only [beq_iff_eq]
  split <;> rename_i old
  · have := counted old
    omega
  · omega

namespace Env

def inner (frames : Array Frame) (id : FrameId) : Nat :=
  frames.countP fun f => decide (0 < f.uses) && f.parent == id

/-- Every frame has a smaller one around it, and has at least the uses that it is known to have; some may be owed. -/
structure Balanced (frames : Array Frame) (holds : Array FrameId) (owed : FrameId → Nat) : Prop where
  nonempty : 0 < frames.size
  inward : ∀ id f, frames[id]? = some f → f.parent ≤ id - 1
  known : ∀ id ∈ holds, id < frames.size
  counted : ∀ id f, id ≠ 0 → frames[id]? = some f → holds.count id + inner frames id + owed id ≤ f.uses

variable {frames : Array Frame} {holds : Array FrameId} {owed : FrameId → Nat} {id : FrameId} {f : Frame}

/-- A frame is used more or less often. -/
theorem inner_uses (there : frames[id]? = some f) (n : Nat → Nat) (j : FrameId) :
    inner (frames.modify id fun f => { f with uses := n f.uses }) j + (if 0 < f.uses ∧ f.parent = j then 1 else 0) =
      inner frames j + (if 0 < n f.uses ∧ f.parent = j then 1 else 0) := by
  have counted := countP_modify there (fun f => decide (0 < f.uses) && f.parent == j) fun f => { f with uses := n f.uses }
  simpa [inner] using counted

/-- Other frames are owed other uses when a frame is used more or less often. -/
theorem Balanced.uses {owed' : FrameId → Nat} {n : Nat → Nat} (balanced : Balanced frames holds owed)
    (there : frames[id]? = some f)
    (own : id ≠ 0 → holds.count id + inner frames id + owed id ≤ f.uses → holds.count id + inner frames id + owed' id ≤ n f.uses)
    (others : ∀ j, j ≠ 0 → j ≠ id → owed' j + (if 0 < n f.uses ∧ f.parent = j then 1 else 0) ≤
      owed j + (if 0 < f.uses ∧ f.parent = j then 1 else 0)) :
    Balanced (frames.modify id fun f => { f with uses := n f.uses }) holds owed' := by
  refine ⟨by simpa using balanced.nonempty, fun j g here => ?_, by simpa using balanced.known, fun j g some here => ?_⟩
  · rw [Array.getElem?_modify] at here
    split at here
    · rename_i same
      subst same
      rw [there] at here
      cases here
      exact balanced.inward id f there
    · exact balanced.inward j g here
  · have same := inner_uses there n j
    have around := balanced.inward id f there
    rw [Array.getElem?_modify] at here
    split at here
    · rename_i same
      subst same
      rw [there] at here
      cases here
      have enough := own some (balanced.counted id f some there)
      have inside : ¬ f.parent = id := Nat.ne_of_lt (Nat.lt_of_le_pred (Nat.pos_of_ne_zero some) around)
      rw [if_neg fun both => inside both.2, if_neg fun both => inside both.2] at same
      rw [Nat.add_zero, Nat.add_zero] at same
      rw [same]
      exact enough
    · rename_i other
      have := others j some (Ne.symm other)
      have := balanced.counted j g some here
      omega

/-- A use that is owed is given up. -/
theorem balanced_letGo (balanced : Balanced frames holds fun j => if j = id then 1 else 0) :
    Balanced (letGo frames id) holds fun _ => 0 := by
  fun_induction letGo frames id with
  | case1 frames =>
    refine { balanced with counted := fun j g some here => ?_ }
    have := balanced.counted j g some here
    rwa [if_neg some] at this
  | case2 frames id some absent =>
    refine { balanced with counted := fun j g some here => ?_ }
    have other : j ≠ id := by
      rintro rfl
      rw [absent] at here
      cases here
    have := balanced.counted j g some here
    rwa [if_neg other] at this
  | case3 frames id some f there left more =>
    refine balanced.uses (n := (· - 1)) there (fun _ counted => ?_) fun j _ other => ?_
    · rw [if_pos rfl] at counted
      omega
    · have still : 0 < f.uses - 1 := by omega
      have before : 0 < f.uses := by omega
      simp [still, before]
  | case4 frames id some f there left last around ih =>
    refine ih (balanced.uses (n := (· - 1)) there (fun _ counted => ?_) fun j nonzero other => ?_)
    · rw [if_pos rfl] at counted
      rw [if_neg (Nat.ne_of_gt around)]
      omega
    · have counted := balanced.counted id f some there
      rw [if_pos rfl] at counted
      have before : 0 < f.uses := by omega
      have after : ¬ 0 < f.uses - 1 := by omega
      simp only [before, after, other, false_and, true_and, if_false, eq_comm (a := j)]
      omega
  | case5 frames id some f there left last around =>
    exact (around (Nat.lt_of_le_pred (Nat.pos_of_ne_zero some) (balanced.inward id f there))).elim

/-- A hold is given up, and a use is owed. -/
theorem Balanced.set_hold (balanced : Balanced frames holds fun _ => 0) (h : HoldId) :
    Balanced frames (holds.setIfInBounds h 0) fun j => if j = holds[h]?.getD 0 then 1 else 0 := by
  by_cases old : h < holds.size
  · rw [Array.setIfInBounds_def, dif_pos old, Array.getElem?_eq_getElem old, Option.getD_some]
    refine { balanced with known := fun j mem => ?_, counted := fun j g some here => ?_ }
    · obtain mem | rfl := Array.mem_or_eq_of_mem_set mem
      · exact balanced.known j mem
      · exact balanced.nonempty
    · have counted := balanced.counted j g some here
      have moved := count_set (y := 0) old j rfl
      rw [if_neg (Ne.symm some)] at moved
      simp only [eq_comm (a := j)]
      omega
  · rw [Array.setIfInBounds_def, dif_neg old, Array.getElem?_eq_none (Nat.le_of_not_lt old), Option.getD_none]
    refine { balanced with counted := fun j g some here => ?_ }
    rw [if_neg some]
    exact balanced.counted j g some here

/-- A use that is owed is one by a new hold. -/
theorem Balanced.push_hold (balanced : Balanced frames holds fun j => if j = id then 1 else 0) (inside : id < frames.size) :
    Balanced frames (holds.push id) fun _ => 0 := by
  refine { balanced with known := fun j mem => ?_, counted := fun j g some here => ?_ }
  · obtain mem | rfl := Array.mem_push.mp mem
    · exact balanced.known j mem
    · exact inside
  · have counted := balanced.counted j g some here
    rw [Array.count_push]
    simp only [beq_iff_eq, eq_comm (a := id)]
    omega

/-- A use that is owed is one by a new frame, which has a hold on it. -/
theorem Balanced.push_frame (balanced : Balanced frames holds fun j => if j = id then 1 else 0) (inside : id < frames.size)
    (s : Scope) : Balanced (frames.push { s with parent := id, uses := 1 }) (holds.push frames.size) fun _ => 0 := by
  have unheld : holds.count frames.size = 0 := by
    rw [Array.count_eq_zero]
    exact fun mem => Nat.lt_irrefl _ (balanced.known _ mem)
  have empty : inner frames frames.size = 0 := by
    unfold inner
    rw [Array.countP_eq_zero]
    intro g mem
    obtain ⟨j, bound, rfl⟩ := Array.mem_iff_getElem.mp mem
    have around := balanced.inward j _ (Array.getElem?_eq_getElem bound)
    have less : frames[j].parent < frames.size := Nat.lt_of_le_of_lt around (by omega)
    simp [Nat.ne_of_lt less]
  refine ⟨by simp, fun j g here => ?_, fun j mem => ?_, fun j g some here => ?_⟩
  · rw [Array.getElem?_push] at here
    split at here
    · rename_i last
      cases here
      exact last ▸ Nat.le_pred_of_lt inside
    · exact balanced.inward j g here
  · rw [Array.size_push]
    obtain mem | rfl := Array.mem_push.mp mem
    · exact Nat.lt_succ_of_lt (balanced.known j mem)
    · exact Nat.lt_succ_self _
  · have pushed : inner (frames.push { s with parent := id, uses := 1 }) j = inner frames j + if id = j then 1 else 0 := by
      simp [inner, Array.countP_push]
    rw [pushed, Array.count_push]
    simp only [beq_iff_eq]
    rw [Array.getElem?_push] at here
    split at here
    · rename_i last
      cases here
      subst last
      simp [unheld, empty, Nat.ne_of_lt inside]
    · rename_i before
      have counted := balanced.counted j g some here
      rw [if_neg (Ne.symm before)]
      simp only [eq_comm (a := id)]
      omega

def Counted (e : Env) : Prop :=
  Balanced e.frames e.holds fun _ => 0

theorem held_mem {e : Env} {h : HoldId} (some : e.held h ≠ 0) : e.held h ∈ e.holds := by
  unfold held at some ⊢
  cases here : e.holds[h]? with
  | none =>
    rw [here] at some
    exact absurd rfl some
  | some id => exact Array.mem_of_getElem? here

def InUse (e : Env) (id : FrameId) : Prop :=
  id = 0 ∨ 0 < (e.frame id).uses

namespace Counted

variable {e : Env} {h : HoldId} (counted : e.Counted)

include counted

theorem there (inUse : e.InUse id) : e.frames[id]? = some (e.frame id) := by
  obtain rfl | used := inUse
  · rw [frame, Array.getElem?_eq_getElem counted.nonempty, Option.getD_some]
  · unfold frame at used ⊢
    cases here : e.frames[id]? with
    | none =>
      rw [here] at used
      exact absurd used (Nat.lt_irrefl 0)
    | some f => rfl

theorem bound (inUse : e.InUse id) : id < e.frames.size :=
  (Array.getElem?_eq_some_iff.mp (counted.there inUse)).1

theorem inUse_held (h : HoldId) : e.InUse (e.held h) := by
  by_cases none : e.held h = 0
  · exact .inl none
  · have held := held_mem none
    have inside := counted.known _ held
    have enough := counted.counted _ _ none (Array.getElem?_eq_getElem inside)
    have once := Array.count_pos_iff.mpr held
    refine .inr ?_
    rw [frame, Array.getElem?_eq_getElem inside, Option.getD_some]
    omega

/-- The frame around a frame in use has it inside. -/
theorem inner_pos (inUse : e.InUse id) (some : (e.frame id).parent ≠ 0) : 0 < inner e.frames (e.frame id).parent := by
  have there := counted.there inUse
  have used : 0 < (e.frame id).uses := inUse.resolve_left fun zero => some (by
    subst zero
    exact Nat.le_zero.mp (counted.inward 0 _ there))
  exact Array.countP_pos_iff.mpr ⟨e.frame id, Array.mem_of_getElem? there, by simp [used]⟩

theorem inUse_parent (inUse : e.InUse id) : e.InUse (e.frame id).parent := by
  by_cases none : (e.frame id).parent = 0
  · exact .inl none
  · have around := counted.inward id _ (counted.there inUse)
    have inside : (e.frame id).parent < e.frames.size :=
      Nat.lt_of_le_of_lt (Nat.le_trans around (Nat.sub_le id 1)) (counted.bound inUse)
    have enough := counted.counted _ _ none (Array.getElem?_eq_getElem inside)
    have once := counted.inner_pos inUse none
    refine .inr ?_
    rw [frame, Array.getElem?_eq_getElem inside, Option.getD_some]
    omega

theorem single (some : e.held h ≠ 0) (once : (e.frame (e.held h)).uses ≤ 1) :
    e.holds.count (e.held h) = 1 ∧ inner e.frames (e.held h) = 0 := by
  have enough := counted.counted _ _ some (counted.there (counted.inUse_held h))
  have held := held_mem some
  have := Array.count_pos_iff.mpr held
  omega

theorem unheld (some : e.held h ≠ 0) (once : (e.frame (e.held h)).uses ≤ 1) :
    e.held h ∉ e.holds.set h 0 (lt_of_held some) := by
  have inside := lt_of_held some
  have here : e.holds[h] = e.held h := by
    rw [held, Array.getElem?_eq_getElem inside, Option.getD_some]
  have moved := count_set (y := 0) inside (e.held h) here
  rw [(counted.single some once).1, if_pos rfl, if_neg (Ne.symm some)] at moved
  exact Array.count_eq_zero.mp (Nat.add_right_cancel moved)

theorem inUse_outer (n : Nat) (inUse : e.InUse id) : e.InUse (e.outer n id) := by
  induction n generalizing id with
  | zero => exact inUse
  | succ n ih =>
    unfold outer
    split
    · exact .inl rfl
    · exact ih (counted.inUse_parent inUse)

theorem reserve (inUse : e.InUse id) :
    Balanced (e.frames.modify id fun f => { f with uses := f.uses + 1 }) e.holds fun j => if j = id then 1 else 0 := by
  have there := counted.there inUse
  refine Balanced.uses (n := (· + 1)) counted there (fun _ enough => ?_) fun j some other => ?_
  · rw [if_pos rfl]
    omega
  · rw [if_neg other]
    obtain rfl | used := inUse
    · have outermost : (e.frame 0).parent ≠ j := by
        rw [Nat.le_zero.mp (counted.inward 0 _ there)]
        exact Ne.symm some
      simp [outermost]
    · simp [used]

theorem share (h : HoldId) : (e.share h).2.Counted :=
  (counted.reserve (counted.inUse_held h)).push_hold (by simpa using counted.bound (counted.inUse_held h))

theorem enter {parent : FrameId} (inUse : e.InUse parent) (s : Scope) : (e.enter parent s).2.Counted := by
  have pushed := (counted.reserve inUse).push_frame (by simpa using counted.bound inUse) s
  rwa [Array.size_modify] at pushed

theorem release (h : HoldId) : (e.release h).Counted :=
  balanced_letGo (Balanced.set_hold counted h)

theorem renew (h : HoldId) : (e.renew h).2.Counted := by
  unfold Env.renew
  dsimp only
  split
  · exact (counted.share h).release h
  · exact (counted.enter (counted.inUse_parent (counted.inUse_held h)) _).release h

theorem change (id : FrameId) (may : Scope → Bool) (g : Scope → Scope) : (e.change id may g).2.Counted := by
  unfold Env.change
  split
  · have same (j : FrameId) : inner (e.frames.modify id fun f => { f with toScope := g f.toScope }) j = inner e.frames j := by
      cases there : e.frames[id]? with
      | none => rw [modify_eq_self (Array.getElem?_eq_none_iff.mp there)]
      | some f => exact Nat.add_right_cancel (countP_modify there (fun f => decide (0 < f.uses) && f.parent == j) _)
    have kept {j : FrameId} {f : Frame} (here : (e.frames.modify id fun f => { f with toScope := g f.toScope })[j]? = some f) :
        ∃ f', e.frames[j]? = some f' ∧ f.parent = f'.parent ∧ f.uses = f'.uses := by
      rw [Array.getElem?_modify] at here
      split at here
      · obtain ⟨f', there, rfl⟩ := Option.map_eq_some_iff.mp here
        exact ⟨f', there, rfl, rfl⟩
      · exact ⟨f, here, rfl, rfl⟩
    refine ⟨by simpa using counted.nonempty, fun j f here => ?_, by simpa using counted.known, fun j f some here => ?_⟩
    · obtain ⟨f', there, parent, -⟩ := kept here
      exact parent ▸ counted.inward j f' there
    · obtain ⟨f', there, -, uses⟩ := kept here
      rw [same, uses]
      exact counted.counted j f' some there
  · exact counted

end Counted

end Env

/-- Whatever is done with the environment, nothing is forgotten. -/
theorem EnvOp.counted {α : Type} (op : EnvOp α) {e : Env} (counted : e.Counted) : (op.run e).2.Counted := by
  cases op with
  | find | look => exact counted
  | declare | store => exact counted.change _ _ _
  | enter parent s => exact counted.enter (counted.inUse_held parent) s
  | share h => exact counted.share h
  | release h => exact counted.release h
  | renew h => exact counted.renew h

/-! ## What operations on holds do to frames -/

/-- Two frames differ at most in how often they are used. -/
structure Frame.Same (f g : Frame) : Prop where
  scope : g.toScope = f.toScope
  parent : g.parent = f.parent

theorem Frame.Same.trans {f g h : Frame} (first : f.Same g) (second : g.Same h) : f.Same h :=
  ⟨second.scope.trans first.scope, second.parent.trans first.parent⟩

namespace Env

variable (e : Env)

theorem same_uses (frames : Array Frame) (id : FrameId) (n : Nat → Nat) (j : FrameId) :
    (frames[j]?.getD default).Same ((frames.modify id fun f => { f with uses := n f.uses })[j]?.getD default) := by
  rw [Array.getElem?_modify]
  split
  · cases frames[j]? <;> exact ⟨rfl, rfl⟩
  · exact ⟨rfl, rfl⟩

theorem same_share (h : HoldId) (j : FrameId) : (e.frame j).Same ((e.share h).2.frame j) :=
  same_uses e.frames (e.held h) (· + 1) j

theorem size_letGo (frames : Array Frame) (id : FrameId) : (letGo frames id).size = frames.size := by
  fun_induction letGo frames id with
  | case1 | case2 => rfl
  | case3 | case5 => exact Array.size_modify
  | case4 =>
    rename_i ih
    exact ih.trans Array.size_modify

theorem size_release (h : HoldId) : (e.release h).frames.size = e.frames.size :=
  size_letGo e.frames (e.held h)

theorem frame_release (h : HoldId) (j : FrameId) :
    (e.frame j).Same ((e.release h).frame j) ∧ ((e.release h).frame j).uses ≤ (e.frame j).uses := by
  unfold frame
  cases there : e.frames[j]? with
  | none =>
    have absent : (e.release h).frames[j]? = none := by
      rw [Array.getElem?_eq_none_iff] at there ⊢
      rwa [size_release]
    rw [absent]
    exact ⟨⟨rfl, rfl⟩, Nat.le_refl _⟩
  | some f =>
    obtain ⟨n, less, there⟩ := letGo_frame e.frames (e.held h) there
    have here : (e.release h).frames[j]? = some { f with uses := n } := there
    rw [here]
    exact ⟨⟨rfl, rfl⟩, less⟩

theorem size_enter (p : FrameId) (s : Scope) : (e.enter p s).2.frames.size = e.frames.size + 1 := by
  simp [enter]

theorem frame_enter_self (p : FrameId) (s : Scope) :
    (e.enter p s).2.frame e.frames.size = { s with parent := p, uses := 1 } := by
  unfold frame enter
  dsimp only
  rw [Array.getElem?_push, if_pos (by simp), Option.getD_some]

theorem same_enter (p : FrameId) (s : Scope) {j : FrameId} (other : j ≠ e.frames.size) :
    (e.frame j).Same ((e.enter p s).2.frame j) := by
  have same := same_uses e.frames p (· + 1) j
  unfold frame enter
  dsimp only
  rw [Array.getElem?_push, if_neg (by simpa using other)]
  exact same

end Env

/-! ## The next pass of a loop -/

namespace Env

variable {e e' : Env} {h q : HoldId} {id : FrameId} {n : Nat}

/-- One more step outwards. -/
theorem outer_add_one (e : Env) (n : Nat) (id : FrameId) :
    e.outer (n + 1) id = if e.outer n id = 0 then 0 else (e.frame (e.outer n id)).parent := by
  induction n generalizing id with
  | zero => rfl
  | succ n ih =>
    rw [outer]
    split
    · rename_i zero
      rw [zero, outer_zero, if_pos rfl]
    · rename_i some
      rw [ih, outer, if_neg some]

/-- No other hold leads to a frame of which a hold is the only use. -/
theorem Counted.alone (counted : e.Counted) (some : e.held h ≠ 0) (once : (e.frame (e.held h)).uses ≤ 1) (other : q ≠ h)
    (n : Nat) : e.outer n (e.held q) ≠ e.held h := by
  intro same
  cases n with
  | zero =>
    have same : e.held q = e.held h := same
    have inside : q < e.holds.size := lt_of_held (same ▸ some)
    have there : (e.holds.set h 0 (lt_of_held some))[q]? = .some (e.held h) := by
      rw [Array.getElem?_set, if_neg (Ne.symm other), Array.getElem?_eq_getElem inside, ← same, held,
        Array.getElem?_eq_getElem inside, Option.getD_some]
    exact counted.unheld some once (Array.mem_of_getElem? there)
  | succ n =>
    rw [outer_add_one] at same
    split at same
    · exact some same.symm
    · have inner := counted.inner_pos (counted.inUse_outer n (counted.inUse_held q)) (same ▸ some)
      rw [same, (counted.single some once).2] at inner
      exact Nat.lt_irrefl 0 inner

/-- The way out from a frame stays the same. -/
theorem Keeps.outer (keeps : e.Keeps e') (counted : e.Counted) (inside : id < e.frames.size) (n : Nat) :
    e'.outer n id = e.outer n id := by
  induction n generalizing id with
  | zero => rfl
  | succ n ih =>
    by_cases zero : id = 0
    · rw [zero, outer_zero, outer_zero]
    · have there := Array.getElem?_eq_getElem inside
      obtain ⟨g, there', kept⟩ := keeps.frames id _ there
      have around := counted.inward id _ there
      rw [outer_succ zero there, outer_succ zero there', kept.parent]
      exact ih (Nat.lt_of_le_of_lt (Nat.le_trans around (Nat.sub_le id 1)) inside)

/-- The next pass of a loop has a frame that looks like that of the pass before.  All other holds and frames stay as they are.
None of the holds that there were before leads to the frame of the next pass, neither then nor ever. -/
structure Renewed (e : Env) (h h' : HoldId) (e' : Env) : Prop where
  looks : (e.frame (e.held h)).Same (e'.frame (e'.held h'))
  others : ∀ q < e.holds.size, q ≠ h → e'.held q = e.held q
  frames : ∀ id < e.frames.size, (e.frame id).Same (e'.frame id)
  apart : ∀ q < e.holds.size, ∀ e'', e'.Keeps e'' → ∀ n, e''.outer n (e''.held q) ≠ e'.held h'

theorem held_release (e : Env) (other : q ≠ h) : (e.release h).held q = e.held q := by
  unfold held release
  dsimp only
  rw [Array.getElem?_setIfInBounds, if_neg (Ne.symm other)]

theorem held_push (e : Env) (frames : Array Frame) (id : FrameId) (q : HoldId) :
    (⟨frames, e.holds.push id, e.copies⟩ : Env).held q = if q = e.holds.size then id else e.held q := by
  unfold held
  rw [Array.getElem?_push]
  split <;> rfl

/-- A frame on which a hold was given up has one use less. -/
theorem uses_release (e : Env) (some : e.held h ≠ 0) {f : Frame} (there : e.frames[e.held h]? = .some f) :
    ((e.release h).frame (e.held h)).uses ≤ f.uses - 1 := by
  have less : ((letGo e.frames (e.held h))[e.held h]?.getD default).uses ≤ f.uses - 1 := by
    have left : (e.frames.modify (e.held h) fun f => { f with uses := f.uses - 1 })[e.held h]? =
        .some { f with uses := f.uses - 1 } := by
      rw [Array.getElem?_modify, if_pos rfl, there]
      rfl
    rw [letGo, if_neg some, there]
    dsimp only
    split
    · rw [left]
      exact Nat.le_refl _
    · split
      · obtain ⟨n, less, after⟩ := letGo_frame _ f.parent left
        rw [after]
        exact less
      · rw [left]
        exact Nat.le_refl _
  exact less

/-- A hold was put in place of another one, on a frame that is not used otherwise. -/
theorem renewed_of_single (counted : e'.Counted) {h' : HoldId} (looks : (e.frame (e.held h)).Same (e'.frame (e'.held h')))
    (others : ∀ q < e.holds.size, q ≠ h → e'.held q = e.held q) (frames : ∀ id < e.frames.size, (e.frame id).Same (e'.frame id))
    (new : e.holds.size ≤ h') (some : e'.held h' ≠ 0) (once : (e'.frame (e'.held h')).uses ≤ 1) : Renewed e h h' e' := by
  refine ⟨looks, others, frames, fun q old e'' keeps n => ?_⟩
  have inside := Nat.lt_of_lt_of_le old new
  obtain same | gone := keeps.holds q (Nat.lt_trans inside (lt_of_held some))
  · rw [same, keeps.outer counted (counted.bound (counted.inUse_held q))]
    exact counted.alone some once (Nat.ne_of_lt inside) n
  · rw [gone, outer_zero]
    exact some.symm

theorem Counted.renewed (counted : e.Counted) (some : e.held h ≠ 0) : Renewed e h (e.renew h).1 (e.renew h).2 := by
  have after := counted.renew h
  have inside := lt_of_held some
  have there := counted.there (counted.inUse_held h)
  have released (e : Env) (j : FrameId) : (e.frame j).Same ((e.release h).frame j) := (e.frame_release h j).1
  unfold Env.renew at after ⊢
  dsimp only at after ⊢
  split at after
  · rename_i goesOn
    rw [if_pos goesOn]
    have once : (e.frame (e.held h)).uses ≤ 1 ∧ e.copies = false := by simpa [some] using goesOn
    have shared (q : HoldId) : (e.share h).2.held q = if q = e.holds.size then e.held h else e.held q := e.held_push _ _ q
    have same (j : FrameId) := (e.same_share h j).trans (released _ j)
    have here : (e.share h).2.held h = e.held h := by rw [shared, if_neg (Nat.ne_of_lt inside)]
    have next : ((e.share h).2.release h).held e.holds.size = e.held h := by
      rw [held_release _ (Nat.ne_of_gt inside), shared, if_pos rfl]
    have used : (e.share h).2.frames[e.held h]? = .some { e.frame (e.held h) with uses := (e.frame (e.held h)).uses + 1 } := by
      show (e.frames.modify (e.held h) fun f => { f with uses := f.uses + 1 })[e.held h]? = _
      rw [Array.getElem?_modify, if_pos rfl, there]
      rfl
    refine renewed_of_single after (next.symm ▸ same _) (fun q old other => ?_) (fun id _ => same id) (Nat.le_refl _)
      (next.symm ▸ some) ?_
    · rw [held_release _ other, shared, if_neg (Nat.ne_of_lt old)]
    · have less := (e.share h).2.uses_release (here.symm ▸ some) (here.symm ▸ used)
      rw [here] at less
      exact next.symm ▸ Nat.le_trans less once.1
  · rename_i copies
    rw [if_neg copies]
    have entered (q : HoldId) : (e.enter (e.frame (e.held h)).parent (e.frame (e.held h)).toScope).2.held q =
        if q = e.holds.size then e.frames.size else e.held q := e.held_push _ _ q
    have next : ((e.enter (e.frame (e.held h)).parent (e.frame (e.held h)).toScope).2.release h).held e.holds.size =
        e.frames.size := by
      rw [held_release _ (Nat.ne_of_gt inside), entered, if_pos rfl]
    have new := e.frame_enter_self (e.frame (e.held h)).parent (e.frame (e.held h)).toScope
    have looks : (e.frame (e.held h)).Same
        ((e.enter (e.frame (e.held h)).parent (e.frame (e.held h)).toScope).2.frame e.frames.size) := new ▸ ⟨rfl, rfl⟩
    have used := (frame_release (e.enter (e.frame (e.held h)).parent (e.frame (e.held h)).toScope).2 h e.frames.size).2
    rw [new] at used
    refine renewed_of_single after (next.symm ▸ looks.trans (released _ _)) (fun q old other => ?_) (fun id old => ?_)
      (Nat.le_refl _) (next.symm ▸ Nat.ne_of_gt counted.nonempty) (next.symm ▸ used)
    · rw [held_release _ other, entered, if_neg (Nat.ne_of_lt old)]
    · exact (same_enter e _ _ (Nat.ne_of_lt old)).trans (released _ id)

/-- A new frame that looks like that of a hold takes its place. -/
def afresh (e : Env) (h : HoldId) : HoldId × Env :=
  let (h', e) := e.enter (e.frame (e.held h)).parent (e.frame (e.held h)).toScope
  (h', e.release h)

/-- Where frames are always copied, the next pass has a new frame. -/
theorem renew_eq_afresh (copies : e.copies = true) (some : e.held h ≠ 0) : e.renew h = e.afresh h := by
  simp [renew, afresh, copies, some]

end Env

end LedgerScript
