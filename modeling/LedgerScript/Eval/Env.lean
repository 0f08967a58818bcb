import LedgerScript.Value.Heap

/-!
# Environments

The environment is an arena of frames.  A frame has the number of the frame around it, which is always smaller than
its own, so a walk outwards ends; frame zero is no frame.  A frame binds names to slots.  A slot holds a value, or
stands for a slot of contract storage.

The frames of methods also know the receiver, the class that declares the method and whether it is a constructor,
and the frame of a contract activation knows the address whose storage its slots stand for.

Frames are reached through *holds*.  Whatever runs in a frame has a hold on it until it is done, and so has every function,
class and task that is made there.  A frame counts the holds on it and the frames inside it, and when nothing uses it
any more, it no longer uses the frame around it.

Each pass of a `for` loop takes the frame of the loop over from the pass before.  If nothing else uses the frame, it goes
on in the same frame, else in a copy, so that what was made in one pass keeps the variables of that pass.
-/

namespace LedgerScript

abbrev FrameId := Nat

structure Slot where
  name : String
  value : Value
  kind : DeclKind
  /-- The slot stands for a slot of contract storage. -/
  onLedger : Bool := false
  deriving Inhabited

/-- What a frame knows about the method that runs in it. -/
structure Receiver where
  this : Value
  home? : Option Ref
  isCtor : Bool
  deriving Inhabited

/-- A slot that stands for a slot of contract storage. -/
def Slot.ledger (name : String) : Slot :=
  { name, value := .null, kind := .letDecl, onLedger := true }

/-- What a frame binds and knows. -/
structure Scope where
  /-- Variables declared with `var` land in the nearest function frame. -/
  isFunction : Bool := false
  slots : Array Slot := #[]
  receiver : Option Receiver := none
  /-- The address whose storage the slots stand for. -/
  contract : Bytes := []
  deriving Inhabited

namespace Scope

def position? (s : Scope) (name : String) : Option Nat :=
  s.slots.findIdx? (·.name == name)

def slot (s : Scope) (i : Nat) : Slot :=
  (s.slots[i]?).getD default

def assign (s : Scope) (i : Nat) (v : Value) : Scope :=
  { s with slots := s.slots.modify i fun t => { t with value := v } }

/-- A name can be bound, unless it is bound already; but it can be declared twice with `var`. -/
def declares (s : Scope) (name : String) (kind : DeclKind) : Bool :=
  match s.position? name with
  | none => true
  | some i => kind = .varDecl && (s.slot i).kind = .varDecl

/-- A name is bound, or its slot gets the value. -/
def declare (s : Scope) (name : String) (kind : DeclKind) (v : Value) : Scope :=
  match s.position? name with
  | none => { s with slots := s.slots.push { name, value := v, kind } }
  | some i => s.assign i v

end Scope

structure Frame extends Scope where
  parent : FrameId
  /-- How many holds there are on the frame, and frames in use inside it. -/
  uses : Nat := 0
  deriving Inhabited

structure Env where
  frames : Array Frame := #[default]
  /-- The frames that the holds are on.  A hold that has been given up is on no frame. -/
  holds : Array FrameId := #[0]
  /-- A pass of a loop always goes on in a copy of the frame. -/
  copies : Bool := false
  deriving Inhabited

namespace Env

def frame (e : Env) (id : FrameId) : Frame :=
  e.frames[id]?.getD default

def held (e : Env) (h : HoldId) : FrameId :=
  e.holds[h]?.getD 0

/-- What can be told about the nearest frame, going outwards, about which something can be told, and how far out it is. -/
def find? {α : Type} (e : Env) (tell : Scope → Option α) (id : FrameId) : Option (Nat × α) :=
  if id = 0 then none
  else
    match e.frames[id]? with
    | none => none
    | some f =>
      match tell f.toScope with
      | some a => some (0, a)
      | none => if f.parent < id then (find? e tell f.parent).map fun (n, a) => (n + 1, a) else none
termination_by id

/-- The frame that is so far out from another one. -/
def outer (e : Env) : Nat → FrameId → FrameId
  | 0, id => id
  | n + 1, id => if id = 0 then 0 else e.outer n (e.frame id).parent

def lookup? (e : Env) (id : FrameId) (name : String) : Option (FrameId × Nat) :=
  (e.find? (·.position? name) id).map fun (n, i) => (e.outer n id, i)

def slot (e : Env) (id : FrameId) (i : Nat) : Slot :=
  (e.frame id).slot i

/-- A change to what a frame binds, if it may be; the result says whether it was. -/
def change (e : Env) (id : FrameId) (may : Scope → Bool) (f : Scope → Scope) : Bool × Env :=
  if id ≠ 0 && may (e.frame id).toScope then
    match e with
    | ⟨frames, holds, copies⟩ => (true, ⟨frames.modify id fun g => { g with toScope := f g.toScope }, holds, copies⟩)
  else (false, e)

def store (e : Env) (id : FrameId) (i : Nat) (v : Value) : Bool × Env :=
  e.change id (fun s => !(s.slot i).kind.isImmutable) (·.assign i v)

def declare (e : Env) (id : FrameId) (name : String) (kind : DeclKind) (v : Value) : Bool × Env :=
  e.change id (·.declares name kind) (·.declare name kind v)

/-! ## Holds -/

/-- A new frame inside another one, with a hold on it. -/
def enter (e : Env) (parent : FrameId) (s : Scope) : HoldId × Env :=
  match e with
  | ⟨frames, holds, copies⟩ =>
    let id := frames.size
    let h := holds.size
    let frames := frames.modify parent fun f => { f with uses := f.uses + 1 }
    (h, ⟨frames.push { s with parent, uses := 1 }, holds.push id, copies⟩)

/-- Another hold on the same frame. -/
def share (e : Env) (h : HoldId) : HoldId × Env :=
  match e with
  | ⟨frames, holds, copies⟩ =>
    let id := holds[h]?.getD 0
    let h := holds.size
    (h, ⟨frames.modify id fun f => { f with uses := f.uses + 1 }, holds.push id, copies⟩)

/-- A frame has one use less.  If that was the last one, the frame around it has one use less too. -/
def letGo (frames : Array Frame) (id : FrameId) : Array Frame :=
  if id = 0 then frames
  else
    match frames[id]? with
    | none => frames
    | some f =>
      let left := frames.modify id fun f => { f with uses := f.uses - 1 }
      if 1 < f.uses then left
      else if f.parent < id then letGo left f.parent else left
termination_by id

def release (e : Env) (h : HoldId) : Env :=
  match e with
  | ⟨frames, holds, copies⟩ =>
    let id := holds[h]?.getD 0
    ⟨letGo frames id, holds.setIfInBounds h 0, copies⟩

/-- The hold of the next pass of a loop, in place of that of the pass before. -/
def renew (e : Env) (h : HoldId) : HoldId × Env :=
  let id := e.held h
  let f := e.frame id
  let (h', e) := if id = 0 || (f.uses ≤ 1 && !e.copies) then e.share h else e.enter f.parent f.toScope
  (h', e.release h)

end Env

inductive EnvOp : Type → Type 1 where
  /-- What can be told about the nearest frame, and how far out it is. -/
  | find {α : Type} (h : HoldId) (tell : Scope → Option α) : EnvOp (Option (Nat × α))
  /-- Something of a frame that is so far out. -/
  | look {α : Type} (h : HoldId) (n : Nat) (f : Scope → α) : EnvOp α
  | declare (h : HoldId) (n : Nat) (name : String) (kind : DeclKind) (v : Value) : EnvOp Bool
  | store (h : HoldId) (n i : Nat) (v : Value) : EnvOp Bool
  | enter (parent : HoldId) (s : Scope) : EnvOp HoldId
  | share (h : HoldId) : EnvOp HoldId
  | release (h : HoldId) : EnvOp Unit
  | renew (h : HoldId) : EnvOp HoldId

/-- What comes of an operation. -/
def EnvOp.run {α : Type} (op : EnvOp α) (e : Env) : α × Env :=
  match op with
  | find h tell => (e.find? tell (e.held h), e)
  | look h n f => (f (e.frame (e.outer n (e.held h))).toScope, e)
  | declare h n name kind v => e.declare (e.outer n (e.held h)) name kind v
  | store h n i v => e.store (e.outer n (e.held h)) i v
  | enter parent s => e.enter (e.held parent) s
  | share h => e.share h
  | release h => ((), e.release h)
  | renew h => e.renew h

namespace Env

variable {e : Env}

theorem frame_eq {id : FrameId} {f : Frame} (there : e.frames[id]? = some f) : e.frame id = f := by
  rw [frame, there, Option.getD_some]

theorem lt_of_held {h : HoldId} (some : e.held h ≠ 0) : h < e.holds.size :=
  Nat.lt_of_not_le fun absent => some (by rw [held, Array.getElem?_eq_none absent, Option.getD_none])

theorem outer_succ {id : FrameId} {f : Frame} {n : Nat} (some : id ≠ 0) (there : e.frames[id]? = .some f) :
    e.outer (n + 1) id = e.outer n f.parent := by
  rw [outer, if_neg some, frame_eq there]

theorem outer_zero (e : Env) : ∀ n, e.outer n 0 = 0
  | 0 => rfl
  | _ + 1 => by rw [outer, if_pos rfl]

end Env

/-! ## What stays -/

/-- A slot keeps its name and kind, and what it stands for.  If it is immutable then it keeps its value too. -/
structure Slot.Keeps (s t : Slot) : Prop where
  name : t.name = s.name
  kind : t.kind = s.kind
  onLedger : t.onLedger = s.onLedger
  value : s.kind.isImmutable = true → t.value = s.value

/-- All stays but the values of slots, and there may be more slots. -/
structure Scope.Keeps (f g : Scope) : Prop where
  isFunction : g.isFunction = f.isFunction
  receiver : g.receiver = f.receiver
  contract : g.contract = f.contract
  slots : ∀ (i : Nat) (s : Slot), f.slots[i]? = some s → ∃ t, g.slots[i]? = some t ∧ s.Keeps t

structure Frame.Keeps (f g : Frame) : Prop extends Scope.Keeps f.toScope g.toScope where
  parent : g.parent = f.parent

/-- All frames stay, and keep what frames keep.  A hold stays on its frame until it is given up. -/
structure Env.Keeps (e e' : Env) : Prop where
  frames : ∀ (id : FrameId) (f : Frame), e.frames[id]? = some f → ∃ g, e'.frames[id]? = some g ∧ f.Keeps g
  grows : e.holds.size ≤ e'.holds.size
  holds : ∀ h < e.holds.size, e'.held h = e.held h ∨ e'.held h = 0

theorem Slot.Keeps.refl (s : Slot) : s.Keeps s :=
  ⟨rfl, rfl, rfl, fun _ => rfl⟩

theorem Slot.Keeps.trans {s t u : Slot} (first : s.Keeps t) (second : t.Keeps u) : s.Keeps u where
  name := second.name.trans first.name
  kind := second.kind.trans first.kind
  onLedger := second.onLedger.trans first.onLedger
  value immutable := (second.value (first.kind ▸ immutable)).trans (first.value immutable)

namespace Scope

variable {f : Scope}

theorem Keeps.refl (f : Scope) : f.Keeps f :=
  ⟨rfl, rfl, rfl, fun _ s there => ⟨s, there, .refl s⟩⟩

theorem Keeps.trans {g h : Scope} (first : f.Keeps g) (second : g.Keeps h) : f.Keeps h where
  isFunction := second.isFunction.trans first.isFunction
  receiver := second.receiver.trans first.receiver
  contract := second.contract.trans first.contract
  slots i s there := by
    obtain ⟨t, there, keeps⟩ := first.slots i s there
    obtain ⟨u, there, keeps'⟩ := second.slots i t there
    exact ⟨u, there, keeps.trans keeps'⟩

/-- A slot that may change gets a value. -/
theorem keeps_assign {i : Nat} (mutable : (f.slot i).kind.isImmutable = false) (v : Value) : f.Keeps (f.assign i v) := by
  refine ⟨rfl, rfl, rfl, fun j s there => ?_⟩
  unfold assign
  rw [Array.getElem?_modify]
  by_cases same : i = j
  · subst same
    refine ⟨{ s with value := v }, by rw [if_pos rfl, there]; rfl, rfl, rfl, rfl, fun immutable => ?_⟩
    rw [slot, there, Option.getD_some, immutable] at mutable
    cases mutable
  · exact ⟨s, by rw [if_neg same, there], .refl s⟩

theorem keeps_declare {name : String} {kind : DeclKind} (may : f.declares name kind = true) (v : Value) :
    f.Keeps (f.declare name kind v) := by
  unfold declares at may
  unfold declare
  cases found : f.position? name with
  | none =>
    refine ⟨rfl, rfl, rfl, fun i s there => ⟨s, ?_, .refl s⟩⟩
    rw [Array.getElem?_push, if_neg (Nat.ne_of_lt (Array.getElem?_eq_some_iff.mp there).1)]
    exact there
  | some i =>
    rw [found] at may
    have var : (f.slot i).kind = .varDecl := by simpa using (Bool.and_eq_true_iff.mp may).2
    exact keeps_assign (by rw [var]; rfl) v

end Scope

theorem Frame.Keeps.refl (f : Frame) : f.Keeps f :=
  ⟨.refl f.toScope, rfl⟩

theorem Frame.Keeps.trans {f g h : Frame} (first : f.Keeps g) (second : g.Keeps h) : f.Keeps h :=
  ⟨first.toKeeps.trans second.toKeeps, second.parent.trans first.parent⟩

namespace Env

variable {frames : Array Frame} {id : FrameId} (e : Env)

theorem Keeps.refl : e.Keeps e :=
  ⟨fun _ f there => ⟨f, there, .refl f⟩, Nat.le_refl _, fun _ _ => .inl rfl⟩

theorem Keeps.trans {e e' e'' : Env} (first : e.Keeps e') (second : e'.Keeps e'') : e.Keeps e'' where
  frames id f there := by
    obtain ⟨g, there, keeps⟩ := first.frames id f there
    obtain ⟨h, there, keeps'⟩ := second.frames id g there
    exact ⟨h, there, keeps.trans keeps'⟩
  grows := Nat.le_trans first.grows second.grows
  holds h old := by
    obtain same | gone := second.holds h (Nat.lt_of_lt_of_le old first.grows)
    · rw [same]
      exact first.holds h old
    · exact .inr gone

/-- Frames may change as long as they keep what frames keep, and there may be new ones, and new holds. -/
theorem keeps_mk {e : Env} {holds : Array FrameId} {copies : Bool}
    (kept : ∀ (id : FrameId) (f : Frame), e.frames[id]? = some f → ∃ g, frames[id]? = some g ∧ f.Keeps g)
    (grows : e.holds.size ≤ holds.size) (same : ∀ h < e.holds.size, holds[h]? = e.holds[h]?) :
    e.Keeps ⟨frames, holds, copies⟩ :=
  ⟨kept, grows, fun h old => .inl (congrArg (·.getD 0) (same h old))⟩

theorem kept_modify {f : Frame → Frame}
    (keeps : ∀ g, frames[id]? = some g → g.Keeps (f g)) (id' : FrameId) (g : Frame) (there : frames[id']? = some g) :
    ∃ g', (frames.modify id f)[id']? = some g' ∧ g.Keeps g' := by
  rw [Array.getElem?_modify]
  by_cases here : id = id'
  · subst here
    exact ⟨f g, by rw [if_pos rfl, there]; rfl, keeps g there⟩
  · exact ⟨g, by rw [if_neg here, there], .refl g⟩

theorem keeps_change {e : Env} {may : Scope → Bool} {f : Scope → Scope}
    (keeps : ∀ s, may s = true → s.Keeps (f s)) : e.Keeps (e.change id may f).2 := by
  unfold change
  split
  · rename_i allowed
    have allowed := (Bool.and_eq_true_iff.mp allowed).2
    refine keeps_mk (kept_modify fun g here => ⟨keeps _ ?_, rfl⟩) (Nat.le_refl _) fun _ _ => rfl
    rw [frame, here] at allowed
    exact allowed
  · exact .refl e

theorem keeps_store (id : FrameId) (i : Nat) (v : Value) : e.Keeps (e.store id i v).2 :=
  keeps_change fun _ may => Scope.keeps_assign (by simpa using may) v

theorem keeps_declare (id : FrameId) (name : String) (kind : DeclKind) (v : Value) : e.Keeps (e.declare id name kind v).2 :=
  keeps_change fun _ may => Scope.keeps_declare may v

/-- A frame that is used more or less often is the same otherwise. -/
theorem kept_uses (n : Nat → Nat) (id' : FrameId) (g : Frame) (there : frames[id']? = some g) :
    ∃ g', (frames.modify id fun f => { f with uses := n f.uses })[id']? = some g' ∧ g.Keeps g' :=
  kept_modify (f := fun f => { f with uses := n f.uses }) (fun g _ => ⟨.refl g.toScope, rfl⟩) id' g there

theorem keeps_enter (parent : FrameId) (s : Scope) : e.Keeps (e.enter parent s).2 := by
  refine keeps_mk (fun id f there => ?_) (by simp) fun h old => by rw [Array.getElem?_push, if_neg (Nat.ne_of_lt old)]
  obtain ⟨g, there, keeps⟩ := kept_uses (· + 1) id f there
  refine ⟨g, ?_, keeps⟩
  rw [Array.getElem?_push, if_neg, there]
  exact Nat.ne_of_lt (by simpa using (Array.getElem?_eq_some_iff.mp there).1)

theorem keeps_share (h : HoldId) : e.Keeps (e.share h).2 :=
  keeps_mk (kept_uses (· + 1)) (by simp) fun h old => by rw [Array.getElem?_push, if_neg (Nat.ne_of_lt old)]

/-- Frames that are let go are used less, and are the same otherwise. -/
theorem letGo_frame (frames : Array Frame) (id : FrameId) {id' : FrameId} {f : Frame} (there : frames[id']? = some f) :
    ∃ n ≤ f.uses, (letGo frames id)[id']? = some { f with uses := n } := by
  have left (frames : Array Frame) (id : FrameId) {f : Frame} (there : frames[id']? = some f) :
      ∃ n ≤ f.uses, (frames.modify id fun f => { f with uses := f.uses - 1 })[id']? = some { f with uses := n } := by
    rw [Array.getElem?_modify, there]
    split
    · exact ⟨_, Nat.sub_le _ 1, rfl⟩
    · exact ⟨_, Nat.le_refl _, rfl⟩
  fun_induction letGo frames id generalizing f with
  | case1 | case2 => exact ⟨_, Nat.le_refl _, there⟩
  | case3 | case5 => exact left _ _ there
  | case4 =>
    rename_i ih
    obtain ⟨n, less, there⟩ := left _ _ there
    obtain ⟨m, less', there⟩ := ih there
    exact ⟨m, Nat.le_trans less' less, there⟩

theorem keeps_release (h : HoldId) : e.Keeps (e.release h) := by
  refine ⟨fun id f there => ?_, by simp [release], fun h' old => ?_⟩
  · obtain ⟨n, -, there⟩ := letGo_frame e.frames (e.held h) there
    exact ⟨_, there, .refl f.toScope, rfl⟩
  · unfold release held
    rw [Array.getElem?_setIfInBounds]
    split
    · exact .inr (by split <;> rfl)
    · exact .inl rfl

theorem keeps_renew (h : HoldId) : e.Keeps (e.renew h).2 := by
  unfold renew
  dsimp only
  split
  · exact (e.keeps_share h).trans (keeps_release _ h)
  · exact (e.keeps_enter _ _).trans (keeps_release _ h)

end Env

theorem EnvOp.keeps {α : Type} (op : EnvOp α) (e : Env) : e.Keeps (op.run e).2 := by
  cases op with
  | find | look => exact .refl e
  | declare h n name kind v => exact e.keeps_declare _ name kind v
  | store h n i v => exact e.keeps_store _ i v
  | enter parent s => exact e.keeps_enter _ s
  | share h => exact e.keeps_share h
  | release h => exact e.keeps_release h
  | renew h => exact e.keeps_renew h

end LedgerScript
