import LedgerScript.Proofs.Eval.Committed
import LedgerScript.Proofs.Eval.Logic

/-!
# Constants

A name that is declared with `const` or `readonly`, by a class, an interface or a contract, or by an import, is bound to a
slot that never changes.  That is so because nothing a task does to the environment changes it: frames and slots are only
added, and a slot gets another value only if it may.

Whoever writes to a variable finds its slot first, then evaluates operands, during which anything may happen, and stores
at last.  If the slot was immutable then it still is, and so the end of it is an error.
-/

namespace LedgerScript

/-! ## Slots that stay -/

namespace Env

variable {e e' : Env} {id : FrameId} {i : Nat} {name : String}

theorem slot_of_immutable (immutable : (e.slot id i).kind.isImmutable = true) :
    ∃ f, e.frames[id]? = some f ∧ f.slots[i]? = some (e.slot id i) := by
  have absent {f : Frame} (none : f.slots[i]? = none) : ((f.slots[i]?).getD default).kind.isImmutable = false := by
    rw [none]
    rfl
  unfold slot Scope.slot frame at immutable ⊢
  cases there : e.frames[id]? with
  | none =>
    rw [there] at immutable
    exact absurd immutable (by rw [absent Array.getElem?_empty]; exact Bool.false_ne_true)
  | some f =>
    rw [there] at immutable
    cases here : f.slots[i]? with
    | none => exact absurd immutable (by rw [Option.getD_some, absent here]; exact Bool.false_ne_true)
    | some s => exact ⟨f, rfl, by rw [Option.getD_some, here]; rfl⟩

theorem Keeps.slot_eq (keeps : e.Keeps e') (immutable : (e.slot id i).kind.isImmutable = true) :
    e'.slot id i = e.slot id i := by
  obtain ⟨f, there, here⟩ := slot_of_immutable immutable
  obtain ⟨g, there', kept⟩ := keeps.frames id f there
  obtain ⟨t, here', same⟩ := kept.slots i _ here
  have slot : e'.slot id i = t := by rw [Env.slot, Scope.slot, frame, there', Option.getD_some, here', Option.getD_some]
  rw [slot]
  generalize e.slot id i = s at immutable same
  obtain ⟨name, value, kind, onLedger⟩ := s
  obtain ⟨rfl, rfl, rfl, value⟩ := same
  obtain rfl := value immutable
  rfl

/-- A name is bound in a frame to a slot that is no storage and keeps its value. -/
def Fixed (e : Env) (id : FrameId) (name : String) : Prop :=
  ∃ f i s, e.frames[id]? = some f ∧ f.position? name = some i ∧ f.slots[i]? = some s ∧
    s.kind.isImmutable = true ∧ s.onLedger = false

theorem Fixed.mono (fixed : e.Fixed id name) (keeps : e.Keeps e') : e'.Fixed id name := by
  obtain ⟨f, i, s, there, found, here, immutable, plain⟩ := fixed
  obtain ⟨g, there', kept⟩ := keeps.frames id f there
  obtain ⟨t, here', same⟩ := kept.slots i s here
  refine ⟨g, i, t, there', ?_, here', same.kind ▸ immutable, same.onLedger ▸ plain⟩
  obtain ⟨bound, named, others⟩ := Array.findIdx?_eq_some_iff_getElem.mp found
  have name_eq {j : Nat} (hj : j < f.slots.size) : ∃ hj' : j < g.slots.size, g.slots[j].name = f.slots[j].name := by
    obtain ⟨u, there, keeps⟩ := kept.slots j _ (Array.getElem?_eq_getElem hj)
    obtain ⟨hj', rfl⟩ := Array.getElem?_eq_some_iff.mp there
    exact ⟨hj', keeps.name⟩
  obtain ⟨bound', same⟩ := name_eq bound
  refine Array.findIdx?_eq_some_iff_getElem.mpr ⟨bound', by rw [same]; exact named, fun j less => ?_⟩
  obtain ⟨_, same⟩ := name_eq (Nat.lt_trans less bound)
  rw [same]
  exact others j less

/-- The name is found there from the frame itself. -/
theorem Fixed.lookup? (fixed : e.Fixed id name) (some : id ≠ 0) : ∃ i, e.lookup? id name = .some (id, i) ∧
    (e.slot id i).kind.isImmutable = true ∧ (e.slot id i).onLedger = false := by
  obtain ⟨f, i, s, there, found, here, immutable, plain⟩ := fixed
  have slot : e.slot id i = s := by rw [Env.slot, Scope.slot, frame, there, Option.getD_some, here, Option.getD_some]
  refine ⟨i, ?_, slot ▸ immutable, slot ▸ plain⟩
  rw [Env.lookup?, find?, if_neg some, there]
  dsimp only
  rw [found]
  rfl

/-- A declaration that succeeds binds the name to a slot that keeps its value. -/
theorem fixed_declare {f : Frame} {kind : DeclKind} {v : Value} (there : e.frames[id]? = some f)
    (immutable : kind.isImmutable = true) (bound : (e.declare id name kind v).1 = true) :
    (e.declare id name kind v).2.Fixed id name := by
  have here : e.frame id = f := by rw [frame, there, Option.getD_some]
  have novar : ¬ kind = .varDecl := by
    rintro rfl
    cases immutable
  unfold declare change at bound ⊢
  split at bound
  · rename_i may
    have free := (Bool.and_eq_true_iff.mp may).2
    rw [if_pos may, here] at *
    cases absent : f.position? name with
    | some i => simp [Scope.declares, absent, novar] at free
    | none =>
      refine ⟨{ f with toScope := f.declare name kind v }, f.slots.size, { name, value := v, kind }, ?_, ?_, ?_, immutable, rfl⟩
      · rw [Array.getElem?_modify, if_pos rfl, there]
        rfl
      · unfold Scope.position? at absent
        simp [Scope.declare, Scope.position?, absent, Array.findIdx?_push]
      · simp [Scope.declare, absent]
  · cases bound

/-! ## From a hold to a slot -/

variable {α : Type} {tell : Scope → Option α} {h : HoldId} {n : Nat} {a : α}

/-- What is told about a frame that was found may depend on the whole of it. -/
theorem find?_map {β : Type} (k : Scope → α → β) (found : e.find? tell id = some (n, a)) :
    e.find? (fun s => (tell s).map (k s)) id = some (n, k (e.frame (e.outer n id)).toScope a) := by
  fun_induction find? e tell id generalizing n with
  | case1 | case2 | case5 => cases found
  | case3 id some f there a' told =>
    cases found
    rw [find?, if_neg some, there]
    simp only [told, Option.map_some]
    rw [outer, frame_eq there]
  | case4 id some f there told less ih =>
    obtain ⟨⟨m, b⟩, found, same⟩ := Option.map_eq_some_iff.mp found
    cases same
    rw [find?, if_neg some, there]
    simp only [told, Option.map_none, if_pos less, ih found, Option.map_some]
    rw [outer_succ some there]

/-- The way out to a frame that was found stays the same. -/
theorem Keeps.outer_eq (keeps : e.Keeps e') (found : e.find? tell id = some (n, a)) : e'.outer n id = e.outer n id := by
  fun_induction find? e tell id generalizing n with
  | case1 | case2 | case5 => cases found
  | case3 => 
    cases found
    rfl
  | case4 id some f there told less ih =>
    obtain ⟨⟨m, b⟩, found, same⟩ := Option.map_eq_some_iff.mp found
    cases same
    obtain ⟨g, there', kept⟩ := keeps.frames id f there
    rw [outer_succ some there, outer_succ some there', kept.parent, ih found]

/-- A hold stays on its frame until it is given up. -/
theorem Keeps.held (keeps : e.Keeps e') (some : e.held h ≠ 0) : e'.held h = e.held h ∨ e'.held h = 0 :=
  keeps.holds h (lt_of_held some)

/-- Whoever has found an immutable slot cannot store there later. -/
theorem Keeps.store_eq (keeps : e.Keeps e') (found : e.find? tell (e.held h) = some (n, a))
    (immutable : (e.slot (e.outer n (e.held h)) i).kind.isImmutable = true) (v : Value) :
    e'.store (e'.outer n (e'.held h)) i v = (false, e') := by
  have some : e.held h ≠ 0 := by
    intro none
    rw [none, find?, if_pos rfl] at found
    cases found
  unfold store change
  obtain same | gone := keeps.held some
  · have kept : (e'.frame (e'.outer n (e'.held h))).slot i = e.slot (e.outer n (e.held h)) i := by
      rw [same, keeps.outer_eq found]
      exact keeps.slot_eq immutable
    simp [kept, immutable]
  · rw [gone, outer_zero]
    rfl

end Env

namespace RunState

variable {s t : RunState}

/-- Whatever a task does, frames and slots stay, and immutable slots keep their values. -/
theorem Moves.keeps (moves : s.Moves t) : s.env.Keeps t.env := by
  induction moves with
  | refl => exact .refl _
  | tail _ move ih =>
    cases move with
    | env op => exact ih.trans (op.keeps _)
    | _ => exact ih

end RunState

/-! ## Attempts to write -/

/-- The variable that an expression is, perhaps in parentheses, and its place in the text. -/
def Expr.variable? : Expr → Option (Span × String)
  | .paren _ x => x.variable?
  | .ident span name => some (span, name)
  | _ => none

def Expr.written? : Expr → Option (Span × String)
  | .assign _ _ target _ | .unary _ (.step _) target | .stepAfter _ _ target => target.variable?
  | _ => none

namespace Eval

variable {α : Type} {y z : World RunState Value Fault Request} {f : HoldId} {g : FrameId} {n i : Nat} {span : Span}
  {name : String}

/-- What is done between finding a variable that has some value and storing: operands are evaluated, and operators applied. -/
def beforeStore (old : Value) (f : HoldId) : Expr → Eval Unit
  | .assign span op target value =>
    match op.binary? with
    | none => do
      let v ← evalExpr value f
      if let some name := targetName? target then nameFunction value name v
    | some op => do
      let r ← evalExpr value f
      let _ ← applyBinary op old r span
  | .unary span (.step op) _ | .stepAfter span op _ => do
    let _ ← operand span (old.step (stepSize op))
  | _ => return ()

def refusal (s : Slot) : Object where
  cls := ErrorClass.immutableAssignment.ref
  fields := [("message", .str (utf8 ("cannot assign to " ++ s.kind.word ++ " " ++ s.name)))]

def refused (h : Heap) (s : Slot) (span : Span) : Exit :=
  .fault (.thrown (h.newObject (refusal s)).1 span none)

/-- Nothing but the error is new. -/
def withRefusal (y : World RunState Value Fault Request) (s : Slot) : World RunState Value Fault Request :=
  { y with own := { y.own with heap := (y.own.heap.newObject (refusal s)).2 } }

theorem proc_refuseStore (s : Slot) (span : Span) (y : World RunState Value Fault Request) :
    (refuseStore s span : Eval α).proc y = .done (withRefusal y s) (.error (refused y.own.heap s span)) := rfl

section

variable {s : Slot} {c : Address} (found : y.own.env.find? (·.position? name) (y.own.env.held f) = some (n, i))
  (here : y.own.env.slot (y.own.env.outer n (y.own.env.held f)) i = s) (immutable : s.kind.isImmutable = true)
  (plain : s.onLedger = false)

include found here in
theorem proc_boundSlot : (boundSlot? name f).proc y =
    .done y (.ok (some ⟨n, i, s, (y.own.env.frame (y.own.env.outer n (y.own.env.held f))).contract⟩)) := by
  have looked : (boundSlot? name f).proc y = .done y (.ok
      ((y.own.env.find? (fun s => (s.position? name).map fun i => (i, s.slot i, s.contract)) (y.own.env.held f)).map
        fun q => ⟨q.1, q.2.1, q.2.2.1, q.2.2.2⟩)) := rfl
  rw [looked, Env.find?_map (fun s i => (i, s.slot i, s.contract)) found, ← here]
  rfl

include found here in
/-- The target is found at once. -/
theorem proc_evalPlace : ∀ target : Expr, target.variable? = some (span, name) → (evalPlace target f).proc y =
    .done y (.ok (.variable f ⟨n, i, s, (y.own.env.frame (y.own.env.outer n (y.own.env.held f))).contract⟩ span))
  | .paren _ x, named => proc_evalPlace x named
  | .ident _ _, named => by
    cases named
    exact proc_bind_done (proc_boundSlot found here) _

include here plain in
theorem proc_read : (Place.variable f ⟨n, i, s, c⟩ span).read.proc y = .done y (.ok s.value) := by
  unfold Place.read loadSlot
  dsimp only
  rw [plain, ← here]
  rfl

include found here immutable plain in
/-- An immutable slot gets no other value. -/
theorem proc_storeSlot (moves : y.own.Moves z.own) (v : Value) :
    (storeSlot f ⟨n, i, s, c⟩ v span).proc z = (refuseStore s span : Eval Unit).proc z := by
  have refuses : (onEnv (.store f n i v)).proc z = .done z (.ok false) := by
    have step : (onEnv (.store f n i v)).proc z =
        .done { z with own := { z.own with env := (z.own.env.store (z.own.env.outer n (z.own.env.held f)) i v).2 } }
          (.ok (z.own.env.store (z.own.env.outer n (z.own.env.held f)) i v).1) := rfl
    rw [step, moves.keeps.store_eq found (here ▸ immutable)]
  unfold storeSlot
  dsimp only
  rw [plain, if_neg Bool.false_ne_true, proc_bind_done refuses]
  rfl

include found here immutable plain in
/-- Whoever stores there ends with an error. -/
theorem proc_write (moves : y.own.Moves z.own) (v : Value) (rest : Unit → Eval α) :
    ((Place.variable f ⟨n, i, s, c⟩ span).write v >>= rest).proc z = (refuseStore s span : Eval α).proc z :=
  proc_bind_error ((proc_storeSlot found here immutable plain moves v).trans (proc_refuseStore s span z)) rest

include found here immutable plain in
theorem matches_step (op : StepOp) (at' : Span) (rest : Value × Value → Eval α) :
    ((stepPlace (.variable f ⟨n, i, s, c⟩ span) op at' >>= rest).proc y).Matches
      (((operand at' (s.value.step (stepSize op)) >>= fun _ => pure ()) >>= fun _ => (refuseStore s span : Eval α)).proc y) := by
  unfold stepPlace
  rw [proc_assoc, proc_bind_done (proc_read here plain), proc_assoc, proc_assoc]
  refine matches_bind _ fun z v moves => ?_
  rw [proc_assoc, proc_write found here immutable plain moves]
  exact .refl _

include found here immutable plain in
/-- Whoever tries to write to an immutable slot does all that comes before, and then an error is thrown. -/
theorem matches_attempt {x : Expr} (writes : x.written? = some (span, name)) :
    ((evalExpr x f).proc y).Matches ((beforeStore s.value f x >>= fun _ => (refuseStore s span : Eval Value)).proc y) := by
  have stored {z : World RunState Value Fault Request} (moves : y.own.Moves z.own) (c : Address) (v : Value)
      (rest : Unit → Eval Value) : ((Place.variable f ⟨n, i, s, c⟩ span).write v >>= rest).proc z =
        (refuseStore s span : Eval Value).proc z :=
    proc_write found here immutable plain moves v rest
  cases x with
  | assign at' op target value =>
    change ((evalPlace target f >>= _).proc y).Matches _
    rw [proc_bind_done (proc_evalPlace found here target writes), beforeStore]
    cases op.binary? with
    | none =>
      dsimp only
      rw [proc_assoc]
      refine matches_bind _ fun z v moves => ?_
      cases targetName? target with
      | none =>
        dsimp only
        rw [stored moves]
        exact .refl _
      | some name =>
        dsimp only
        refine matches_bind _ fun u _ moves' => ?_
        rw [stored (moves.trans moves')]
        exact .refl _
    | some op =>
      dsimp only
      rw [proc_bind_done (proc_read here plain), proc_assoc]
      refine matches_bind _ fun z r moves => ?_
      rw [proc_assoc]
      refine matches_bind _ fun u v moves' => ?_
      rw [stored (moves.trans moves')]
      exact .refl _
  | unary at' op target =>
    cases op with
    | step op =>
      change ((evalPlace target f >>= _).proc y).Matches _
      rw [proc_bind_done (proc_evalPlace found here target writes)]
      exact matches_step found here immutable plain op at' _
    | not | negate => cases writes
  | stepAfter at' op target =>
    change ((evalPlace target f >>= _).proc y).Matches _
    rw [proc_bind_done (proc_evalPlace found here target writes)]
    exact matches_step found here immutable plain op at' _
  | _ => cases writes

end

end Eval

/-! ## Declarations -/

def Stmt.constants : Stmt → List String
  | .declare kind d => if kind.isImmutable then [d.name] else []
  | .classDecl d => [d.name]
  | .interface d => [d.name]
  | .contract d => [d.name]
  | .import _ names _ => names.map (·.binding)
  | _ => []

/-- A hold is on a frame in which some names are bound for good, or it has been given up. -/
structure RunState.Binds (f : HoldId) (g : FrameId) (names : List String) (s : RunState) : Prop where
  there : ∃ frame, s.env.frames[g]? = some frame
  old : f < s.env.holds.size
  held : s.env.held f = g ∨ s.env.held f = 0
  fixed : ∀ name ∈ names, s.env.Fixed g name

theorem RunState.Binds.keeps {f : HoldId} {g : FrameId} {names : List String} {s t : RunState} (binds : s.Binds f g names)
    (keeps : s.env.Keeps t.env) : t.Binds f g names := by
  obtain ⟨frame, there⟩ := binds.there
  obtain ⟨frame', there', -⟩ := keeps.frames g frame there
  refine ⟨⟨frame', there'⟩, Nat.lt_of_lt_of_le binds.old keeps.grows, ?_, fun name mem => (binds.fixed name mem).mono keeps⟩
  obtain same | gone := keeps.holds f binds.old
  · rw [same]
    exact binds.held
  · exact .inr gone

theorem RunState.lasts_binds (f : HoldId) (g : FrameId) (names : List String) : Deed.Lasts (RunState.Binds f g names) :=
  fun _ _ moves binds => binds.keeps moves.keeps

namespace Eval

open RunState (Binds lasts_binds)

variable {α : Type} {f : HoldId} {g : FrameId} {names : List String}
variable {name : String}

/-- In a frame some names are bound for good, whatever is done. -/
theorem settles_binds (x : Eval α) : Settles (fun y => Binds f g names y.own) x fun _ y => Binds f g names y.own :=
  settles_lasting (lasts_binds f g names) x

/-- A name is bound for good, if it can be bound. -/
theorem settles_bind {kind : DeclKind} (immutable : kind.isImmutable = true) (v : Value) :
    Settles (fun y => Binds f g names y.own) (bind f name kind v)
      fun bound y => bound = true → Binds f g (name :: names) y.own := by
  refine settles_of_done fun y binds => ⟨_, _, rfl, ?_⟩
  rintro _ ⟨⟩ bound
  have keeps := y.own.env.keeps_declare (y.own.env.held f) name kind v
  obtain ⟨there, old, held, fixed⟩ := binds.keeps (t := { y.own with env := _ }) keeps
  refine ⟨there, old, held, List.forall_mem_cons.mpr ⟨?_, fixed⟩⟩
  obtain ⟨frame, there⟩ := binds.there
  obtain here | gone := binds.held
  · rw [here] at keeps bound ⊢
    exact Env.fixed_declare there immutable bound
  · rw [gone] at bound
    cases bound

theorem settles_declareName {kind : DeclKind} (immutable : kind.isImmutable = true) (v : Value) (span : Span)
    (refusal : String) : Settles (fun y => Binds f g names y.own) (declareName f name kind v span refusal)
      fun _ y => Binds f g (name :: names) y.own := by
  refine (settles_bind immutable v).bind fun bound => ?_
  cases bound with
  | true => exact settles_pure fun y binds => binds rfl
  | false => exact settles_raiseText _ _ _

theorem settles_declareClass (d : ClassDecl) : Settles (fun y => Binds f g names y.own) (declareClass d f)
    fun _ y => Binds f g (d.name :: names) y.own := by
  obtain ⟨span, name, superName, interfaces, mods, decorators, fields, ctor, methods, doc⟩ := d
  refine (settles_binds (superclass name superName f span)).bind fun super? => ?_
  refine (settles_binds (newClass _ ctor methods)).bind fun cls => ?_
  exact (settles_declareName rfl _ _ _).bind fun _ => settles_binds _

theorem settles_declareInterface (d : InterfaceDecl) : Settles (fun y => Binds f g names y.own) (declareInterface d f)
    fun _ y => Binds f g (d.name :: names) y.own :=
  (settles_binds _).bind fun _ => settles_declareName rfl _ _ _

theorem settles_declareContract (d : ContractDecl) : Settles (fun y => Binds f g names y.own) (declareContract d f)
    fun _ y => Binds f g (d.name :: names) y.own := by
  obtain ⟨span, name, onChain, ledger, fields, ctor, methods, classes, doc⟩ := d
  refine (settles_binds (onEnv (.enter f {}))).bind fun scope => Settles.andFinally ?_ fun _ => settles_binds (giveUp scope)
  refine (settles_binds (newClass _ ctor methods)).bind fun cls => ?_
  refine (settles_binds (declareClasses cls classes scope)).bind fun _ => ?_
  exact (settles_declareName rfl _ _ _).bind fun _ => settles_binds _

theorem settles_importNames (path : Bytes) (exports : Ref) : ∀ (specs : List ImportSpec) (names : List String),
    Settles (fun y => Binds f g names y.own) (importNames path exports f specs)
      fun _ y => Binds f g names y.own ∧ ∀ spec ∈ specs, y.own.env.Fixed g spec.binding
  | [], _ => settles_pure fun _ binds => ⟨binds, nofun⟩
  | spec :: rest, names => by
    refine (settles_binds _).bind fun v? => ?_
    cases v? with
    | none => exact (settles_binds (newError _ _)).bind fun _ => Deed.Logic.works_eval_throw fun _ _ => trivial
    | some v =>
      refine (settles_bind rfl v).bind fun bound => ?_
      cases bound with
      | false => exact settles_raiseText _ _ _
      | true =>
        refine Deed.Logic.Works.weaken (settles_importNames path exports rest (spec.binding :: names))
          (fun _ binds => binds rfl) (fun _ _ ends => ?_) fun _ _ => id
        obtain ⟨⟨there, old, held, bound⟩, others⟩ := ends
        obtain ⟨first, before⟩ := List.forall_mem_cons.mp bound
        exact ⟨⟨there, old, held, before⟩, List.forall_mem_cons.mpr ⟨first, others⟩⟩

theorem settles_importModule (specs : List ImportSpec) (path : Bytes) (span : Span) :
    Settles (fun y => Binds f g [] y.own) (importModule specs path f span)
      fun _ y => ∀ spec ∈ specs, y.own.env.Fixed g spec.binding := by
  refine (settles_binds (outcome (loadModule path))).bind fun r => ?_
  match r with
  | .ok exports => exact (settles_importNames path exports specs []).weaken fun _ _ ends => ends.2
  | .error (.fault e) => exact (settles_binds (toThrown e span)).bind fun _ => Deed.Logic.works_eval_throw fun _ _ => trivial
  | .error (.crash _) | .error .killed => exact Deed.Logic.works_eval_throw fun _ _ => trivial

/-- A statement that declares a name and ends normally. -/
theorem settles_declared {x : Eval α}
    (settles : Settles (fun y => Binds f g [] y.own) x fun _ y => Binds f g [name] y.own) :
    Settles (fun y => Binds f g [] y.own) (x >>= fun _ => pure Control.next) fun _ y => ∀ n ∈ [name], y.own.env.Fixed g n :=
  (settles.bind fun _ => settles_binds _).weaken fun _ _ binds => binds.fixed

/-- A declaration that ends normally has bound its names for good. -/
theorem settles_execStmt (d : Stmt) : Settles (fun y => Binds f g [] y.own) (execStmt d f)
    fun _ y => ∀ name ∈ d.constants, y.own.env.Fixed g name := by
  cases d with
  | declare kind d =>
    cases immutable : kind.isImmutable with
    | false => exact (settles_binds _).weaken fun _ _ _ => by simp [Stmt.constants, immutable]
    | true =>
      obtain ⟨span, name, type, init, mods, doc⟩ := d
      have constants : (Stmt.declare kind ⟨span, name, type, init, mods, doc⟩).constants = [name] := by
        simp [Stmt.constants, immutable]
      have novar : ¬ kind = .varDecl := by
        rintro rfl
        cases immutable
      rw [constants]
      have declared (v : Value) : Settles (fun y => Binds f g [] y.own)
          (declareVariable kind name (.coerce type v) f span >>= fun _ => pure Control.next)
          fun _ y => ∀ other ∈ [name], y.own.env.Fixed g other := by
        refine settles_declared ?_
        unfold declareVariable
        rw [if_neg novar]
        exact settles_declareName immutable _ _ _
      cases init with
      | none => exact declared .null
      | some x => exact (settles_binds (evalExpr x f)).bind fun v => (settles_binds (nameFunction x name v)).bind fun _ => declared v
  | classDecl d => exact settles_declared (settles_declareClass d)
  | interface d => exact settles_declared (settles_declareInterface d)
  | contract d => exact settles_declared (settles_declareContract d)
  | «import» span specs path =>
    have runs : execStmt (.import span specs path) f = importModule specs path f span >>= fun _ => pure .next := rfl
    rw [runs]
    refine (settles_importModule specs path span).bind fun _ => settles_pure fun y fixed name mem => ?_
    obtain ⟨spec, there, rfl⟩ := List.mem_map.mp mem
    exact fixed spec there
  | _ => exact (settles_binds _).weaken fun _ _ _ => nofun

end Eval

/-- In every run of every program immutable slots stay as they are, whatever its tasks do, which is nothing but moves.  Whoever
writes to a variable that is bound to such a slot, with an assignment or with a step, perhaps in parentheses and from whatever
frame, does what comes before and then throws an error, unless something has failed before.  And a declaration of a
constant, a class, an interface or a contract, or an import, that ends normally has bound its names to such slots. -/
theorem constants_never_change :
    (∀ {m : Machine RunState Value Fault Request Answer} {stage stage' : Stage RunState Value Fault Request Answer},
      m.threads = [] → Stage.Reaches Eval.host (.between m) stage → Stage.Reaches Eval.host stage stage' →
      stage.own.Moves stage'.own ∧ ∀ (f : FrameId) (i : Nat), (stage.own.env.slot f i).kind.isImmutable = true →
        stage'.own.env.slot f i = stage.own.env.slot f i) ∧
    (∀ (x : Expr) (span : Span) (name : String) (f : HoldId) (g : FrameId) (i : Nat) (y : World RunState Value Fault Request)
      (s : Slot), x.written? = some (span, name) → y.own.env.lookup? (y.own.env.held f) name = some (g, i) →
      y.own.env.slot g i = s → s.kind.isImmutable = true → s.onLedger = false →
        ((Eval.evalExpr x f).proc y).Matches
          ((Eval.beforeStore s.value f x >>= fun _ => (Eval.refuseStore s span : Eval Value)).proc y) ∧
        ∀ z, (Eval.refuseStore s span : Eval Value).proc z =
          .done (Eval.withRefusal z s) (.error (Eval.refused z.own.heap s span))) ∧
    (∀ (d : Stmt) (f : HoldId) (g : FrameId) (y : World RunState Value Fault Request), y.own.env.held f = g → g ≠ 0 →
      (y.own.env.frames[g]?).isSome →
      ((Eval.execStmt d f).proc y).Comes fun r z => ∀ c, r = .ok c → ∀ name ∈ d.constants,
        ∃ i, z.own.env.lookup? g name = some (g, i) ∧ (z.own.env.slot g i).kind.isImmutable = true ∧
          (z.own.env.slot g i).onLedger = false) := by
  refine ⟨fun {m stage stage'} new before later => ?_, fun x span name f g i y s writes found here immutable plain => ?_,
    fun d f g y held some there => ?_⟩
  · have start : (Stage.between m).Abides RunState.Moves := by simp [Stage.Abides, new]
    have left := (start.reaches (fun _ => .refl) Eval.host_abides .trans before).1
    have moves := (left.reaches (fun _ => .refl) Eval.host_abides .trans later).2
    exact ⟨moves, fun f i immutable => moves.keeps.slot_eq immutable⟩
  · obtain ⟨⟨n, i⟩, found, outer⟩ := Option.map_eq_some_iff.mp found
    cases outer
    exact ⟨Eval.matches_attempt found here immutable plain writes, Eval.proc_refuseStore s span⟩
  · have old : f < y.own.env.holds.size := Env.lt_of_held (held ▸ some)
    have binds : RunState.Binds f g [] y.own := ⟨Option.isSome_iff_exists.mp there, old, .inl held, List.forall_mem_nil _⟩
    refine Proc.Comes.mono (Eval.settles_execStmt d y binds) ?_
    rintro _ z fixed c rfl name mem
    exact (fixed name mem).lookup? some

/-- A constant, and a task that assigns to it in parentheses. -/
def reassigning : Machine RunState Value Fault Request Answer where
  world := {
    sched := (({} : Scheduler Value Fault Request).spawn "main" (.topLevel [.expr {} attempt] 1 none)).2
    own := {
      heap := {}, global := 1, builtins := [], messageClass := 0, ledger := {}
      env := { frames := #[default, { parent := 0, isFunction := true, slots := #[constant], uses := 1 }], holds := #[0, 1] }
      modules := { read := fun path => .error (.notFound path) }
      contexts := #[{ sender := [] }] } }
where
  attempt : Expr := .assign {} .set (.paren {} (.ident {} "x")) (.literal {} [] (.int 2))
  constant : Slot := { name := "x", value := .int 1, kind := .constDecl }

/-- The task ends, the constant is as it was, and the attempt has ended with the error.  A class would be another constant. -/
theorem constants_never_change_reassigning :
    (∃ w, reassigning.Turns Eval.host w ∧ w.world.sched.isDone 1 = true ∧
      w.world.own.env.slot 1 0 = reassigning.constant) ∧
    (Eval.evalExpr reassigning.attempt 1).proc reassigning.world =
      .done (Eval.withRefusal reassigning.world reassigning.constant)
        (.error (Eval.refused {} reassigning.constant {})) ∧
    ((Eval.execStmt (.interface ⟨{}, "Thing", [], [], []⟩) 1).proc reassigning.world).Comes fun r z =>
      ∀ c, r = .ok c → ∃ i, z.own.env.lookup? 1 "Thing" = some (1, i) ∧ (z.own.env.slot 1 i).kind.isImmutable = true := by
  obtain ⟨stay, attempts, declared⟩ := constants_never_change
  refine ⟨?_, ?_, ?_⟩
  · have seen : (reassigning.after Eval.host 1).any fun w => w.world.sched.isDone 1 := by decide +kernel
    obtain ⟨w, later, ended⟩ := (Option.any_eq_true _ _).mp seen
    have turns := Machine.turns_of_after 1 reassigning later
    exact ⟨w, turns, ended, (stay rfl .refl turns.reaches).2 1 0 rfl⟩
  · obtain ⟨same, refuses⟩ := attempts reassigning.attempt {} "x" 1 1 0 reassigning.world reassigning.constant
      rfl (by decide +kernel) rfl rfl rfl
    have ends : (Eval.beforeStore reassigning.constant.value 1 reassigning.attempt).proc reassigning.world =
      .done reassigning.world (.ok ()) := rfl
    rw [Eval.proc_bind_done ends, refuses] at same
    exact same.eq_done
  · refine (declared (.interface ⟨{}, "Thing", [], [], []⟩) 1 1 reassigning.world rfl (by decide) rfl).mono
      fun r z ends c same => ?_
    obtain ⟨i, found, immutable, -⟩ := ends c same "Thing" List.mem_cons_self
    exact ⟨i, found, immutable⟩

end LedgerScript
