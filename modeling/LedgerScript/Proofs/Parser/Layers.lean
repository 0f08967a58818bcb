import LedgerScript.Parser.Expression

/-!
# Operators in layers

Of the operators between two operands some bind more strongly than others, and a test of a type binds like a comparison.
`OpTree` is what is left of an expression if nothing but these is looked at: an operand is whatever stands between them,
with parentheses around it or without any operator at all.

A tree is `Ordered` if no operand would have to be put in parentheses.  A left operand binds at least as strongly as the
operator that follows it.  A right operand binds more strongly than the operator in front of it, and so does every operator
that is reached from there through left operands, for all of them stand to the right of that operator without parentheses.
A test of a type has no right operand: it may be the left operand of any operator, however strongly that one binds, since
the type takes no part in what follows it.

An expression is `Layered` if all operators in it are in order, down to the bodies of its functions, and if the operand of a
unary operator has no operator of two operands, no conditional and no assignment without parentheses.
-/

namespace LedgerScript

/-! ## How strongly operators bind -/

/-- How strongly an operator binds. -/
def BinaryOp.rank : BinaryOp → Nat
  | coalesce => 0
  | or => 1
  | and => 2
  | eq | ne => 3
  | lt | le | gt | ge => 4
  | add | sub => 5
  | mul | div | rem => 6

/-- How strongly a test of a type binds. -/
def isRank : Nat := 4

inductive OpTree where
  | operand (x : Expr)
  | binary (op : BinaryOp) (x y : OpTree)
  | is (x : OpTree) (type : TypeRef)

namespace OpTree

/-- How strongly the outermost operator binds that has a right operand. -/
def rank? : OpTree → Option Nat
  | binary op _ _ => some op.rank
  | _ => none

/-- All operators that are reached through left operands bind at least so strongly. -/
def Binds (least : Nat) : OpTree → Prop
  | operand _ => True
  | binary op x _ => least ≤ op.rank ∧ x.Binds least
  | is x _ => least ≤ isRank ∧ x.Binds least

/-- What stands on the left of an operator of this rank may stand there. -/
def Precedes (x : OpTree) (rank : Nat) : Prop :=
  ∀ r ∈ x.rank?, rank ≤ r

def Ordered : OpTree → Prop
  | operand _ => True
  | binary op x y => x.Ordered ∧ y.Ordered ∧ x.Precedes op.rank ∧ y.Binds (op.rank + 1)
  | is x _ => x.Ordered ∧ x.Precedes isRank

end OpTree

def Expr.opTree : Expr → OpTree
  | .binary _ op x y => .binary op x.opTree y.opTree
  | .is _ x type => .is x.opTree type
  | x => .operand x

/-! ## Expressions in layers -/

def Expr.isLoose : Expr → Bool
  | .ternary .. | .assign .. => true
  | _ => false

/-- No operator of two operands, no conditional and no assignment, but for what is in parentheses. -/
def Expr.isTight : Expr → Bool
  | .binary .. | .is .. | .ternary .. | .assign .. => false
  | _ => true

theorem Expr.isLoose_of_isTight {x : Expr} (tight : x.isTight = true) : x.isLoose = false := by
  cases x with
  | ternary | assign => cases tight
  | _ => rfl

theorem Expr.opTree_of_isTight {x : Expr} (tight : x.isTight = true) : x.opTree = .operand x := by
  cases x with
  | binary | is => cases tight
  | _ => rfl

mutual

/-- All operators in the expression are in order. -/
inductive Expr.Layered : Expr → Prop where
  | literal {s raw v} : Expr.Layered (.literal s raw v)
  | ident {s name} : Expr.Layered (.ident s name)
  | this {s} : Expr.Layered (.this s)
  | super {s} : Expr.Layered (.super s)
  | template {s texts holes} (each : ∀ x ∈ holes, Expr.Layered x) : Expr.Layered (.template s texts holes)
  | paren {s x} (inner : Expr.Layered x) : Expr.Layered (.paren s x)
  | unary {s op x} (operand : Expr.Layered x) (tight : x.isTight) : Expr.Layered (.unary s op x)
  | stepAfter {s op x} (operand : Expr.Layered x) (tight : x.isTight) : Expr.Layered (.stepAfter s op x)
  | binary {s op x y} (left : Expr.Layered x) (right : Expr.Layered y) (firm : x.isLoose = false ∧ y.isLoose = false)
    (ordered : (Expr.binary s op x y).opTree.Ordered) : Expr.Layered (.binary s op x y)
  | is {s x type} (left : Expr.Layered x) (firm : x.isLoose = false) (ordered : (Expr.is s x type).opTree.Ordered) :
    Expr.Layered (.is s x type)
  | typeof {s x} (operand : Expr.Layered x) (tight : x.isTight) : Expr.Layered (.typeof s x)
  | await {s x} (operand : Expr.Layered x) (tight : x.isTight) : Expr.Layered (.await s x)
  | spawn {s x} (operand : Expr.Layered x) (tight : x.isTight) : Expr.Layered (.spawn s x)
  | new {s cls hasArgs args} (operand : Expr.Layered cls) (tight : cls.isTight) (each : ∀ x ∈ args, Expr.Layered x) :
    Expr.Layered (.new s cls hasArgs args)
  | assign {s op target value} (left : Expr.Layered target) (right : Expr.Layered value) (place : isPlace target) :
    Expr.Layered (.assign s op target value)
  | ternary {s cond yes no} (first : Expr.Layered cond) (second : Expr.Layered yes) (third : Expr.Layered no)
    (firm : cond.isLoose = false) : Expr.Layered (.ternary s cond yes no)
  | call {s fn args optional} (operand : Expr.Layered fn) (tight : fn.isTight) (each : ∀ x ∈ args, Expr.Layered x) :
    Expr.Layered (.call s fn args optional)
  | member {s x name optional} (operand : Expr.Layered x) (tight : x.isTight) : Expr.Layered (.member s x name optional)
  | index {s x i} (operand : Expr.Layered x) (tight : x.isTight) (inner : Expr.Layered i) : Expr.Layered (.index s x i)
  | array {s elems} (each : ∀ x ∈ elems, Expr.Layered x) : Expr.Layered (.array s elems)
  | tuple {s elems} (each : ∀ x ∈ elems, Expr.Layered x) : Expr.Layered (.tuple s elems)
  | set {s elems} (each : ∀ x ∈ elems, Expr.Layered x) : Expr.Layered (.set s elems)
  | map {s entries} (keys : ∀ e ∈ entries, Expr.Layered e.key) (values : ∀ e ∈ entries, Expr.Layered e.value) :
    Expr.Layered (.map s entries)
  | spread {s x} (inner : Expr.Layered x) : Expr.Layered (.spread s x)
  | function {s fn} (inner : Function.Layered fn) : Expr.Layered (.function s fn)
  | validate {s cond msg} (first : Expr.Layered cond) (second : ∀ x ∈ msg, Expr.Layered x) :
    Expr.Layered (.validate s cond msg)
  | emit {s name args} (each : ∀ x ∈ args, Expr.Layered x) : Expr.Layered (.emit s name args)
  | «match» {s subject arms} (first : Expr.Layered subject) (patterns : ∀ a ∈ arms, ∀ x ∈ a.pattern, Expr.Layered x)
    (bodies : ∀ a ∈ arms, Body.Layered a.body) : Expr.Layered (.match s subject arms)

/-- All operators in a body are in order. -/
inductive Body.Layered : Body → Prop where
  | block {b} (inner : Block.Layered b) : Body.Layered (.block b)
  | expr {x} (inner : Expr.Layered x) : Body.Layered (.expr x)
  | missing : Body.Layered .missing

/-- All operators in the default values of a parameter are in order. -/
inductive Param.Layered : Param → Prop where
  | mk {p} (default : ∀ x ∈ p.default, Expr.Layered x) (fields : ∀ f ∈ p.fields, Param.Layered f) : Param.Layered p

/-- All operators in a function are in order. -/
inductive Function.Layered : Function → Prop where
  | mk {fn} (params : ∀ p ∈ fn.params, Param.Layered p) (body : Body.Layered fn.body) : Function.Layered fn

/-- All operators in a block are in order. -/
inductive Block.Layered : Block → Prop where
  | mk {b} (each : ∀ s ∈ b.stmts, Stmt.Layered s) : Block.Layered b

/-- All operators in a statement are in order. -/
inductive Stmt.Layered : Stmt → Prop where
  | declare {kind b} (init : ∀ x ∈ b.init, Expr.Layered x) : Stmt.Layered (.declare kind b)
  | block {b} (inner : Block.Layered b) : Stmt.Layered (.block b)
  | expr {s x} (inner : Expr.Layered x) : Stmt.Layered (.expr s x)
  | «if» {s cond yes no} (first : Expr.Layered cond) (second : Stmt.Layered yes) (third : ∀ t ∈ no, Stmt.Layered t) :
    Stmt.Layered (.if s cond yes no)
  | while {s cond body} (first : Expr.Layered cond) (second : Stmt.Layered body) : Stmt.Layered (.while s cond body)
  | doWhile {s body cond} (first : Stmt.Layered body) (second : Expr.Layered cond) : Stmt.Layered (.doWhile s body cond)
  | «for» {s init cond post body} (first : ∀ t ∈ init, Stmt.Layered t) (second : ∀ x ∈ cond, Expr.Layered x)
    (third : ∀ x ∈ post, Expr.Layered x) (fourth : Stmt.Layered body) : Stmt.Layered (.for s init cond post body)
  | forEach {s kind name iter body} (first : Expr.Layered iter) (second : Stmt.Layered body) :
    Stmt.Layered (.forEach s kind name iter body)
  | switch {s tag cases} (first : Expr.Layered tag) (values : ∀ c ∈ cases, ∀ x ∈ c.value, Expr.Layered x)
    (bodies : ∀ c ∈ cases, ∀ t ∈ c.body, Stmt.Layered t) : Stmt.Layered (.switch s tag cases)
  | «try» {s body catches final} (first : Block.Layered body) (bodies : ∀ c ∈ catches, Block.Layered c.body)
    (last : ∀ b ∈ final, Block.Layered b) : Stmt.Layered (.try s body catches final)
  | throw {s x} (inner : Expr.Layered x) : Stmt.Layered (.throw s x)
  | «return» {s x} (inner : ∀ y ∈ x, Expr.Layered y) : Stmt.Layered (.return s x)
  | «break» {s} : Stmt.Layered (.break s)
  | «continue» {s} : Stmt.Layered (.continue s)
  | lock {s target body} (first : Expr.Layered target) (second : Block.Layered body) : Stmt.Layered (.lock s target body)
  | unlock {s target} (inner : Expr.Layered target) : Stmt.Layered (.unlock s target)
  | transfer {s payer payee amount} (first : Expr.Layered payer) (second : Expr.Layered payee)
    (third : Expr.Layered amount) : Stmt.Layered (.transfer s payer payee amount)
  | function {d} (inner : Function.Layered d.fn) : Stmt.Layered (.function d)
  | classDecl {d} (inner : ClassDecl.Layered d) : Stmt.Layered (.classDecl d)
  | interface {d} (params : ∀ m ∈ d.members, ∀ p ∈ m.params, Param.Layered p) : Stmt.Layered (.interface d)
  | contract {d} (fields : ∀ b ∈ d.ledger ++ d.fields, ∀ x ∈ b.init, Expr.Layered x)
    (ctor : ∀ fn ∈ d.ctor, Function.Layered fn) (methods : ∀ m ∈ d.methods, Function.Layered m.fn)
    (classes : ∀ c ∈ d.classes, ClassDecl.Layered c) : Stmt.Layered (.contract d)
  | «import» {s names path} : Stmt.Layered (.import s names path)
  | «export» {s d} (inner : Stmt.Layered d) : Stmt.Layered (.export s d)

/-- All operators in a class are in order. -/
inductive ClassDecl.Layered : ClassDecl → Prop where
  | mk {d} (fields : ∀ b ∈ d.fields, ∀ x ∈ b.init, Expr.Layered x) (ctor : ∀ fn ∈ d.ctor, Function.Layered fn)
    (methods : ∀ m ∈ d.methods, Function.Layered m.fn) : ClassDecl.Layered d

end

theorem Expr.Layered.ordered {x : Expr} (layered : x.Layered) : x.opTree.Ordered := by
  cases layered with
  | binary _ _ _ ordered => exact ordered
  | is _ _ ordered => exact ordered
  | _ => trivial

end LedgerScript

/-!
## Climbing

Read from left to right, a tree of operators is an operand, and then operators and operands in turn with tests of types in
between: `OpTree.items`.  `Climbs` is how such a reading is made into a tree: to what has been made so far the next operator
and its right operand are added, as long as it binds at least so strongly; the right operand is made in the same way of what
follows, as long as that binds more strongly.

There is only one way to climb, and from its own reading a tree in order climbs to itself.  So there is only one tree in order
of a reading.
-/

namespace LedgerScript

/-- What a tree of operators is read as. -/
inductive OpItem where
  | operand (x : Expr)
  | op (op : BinaryOp)
  | is (type : TypeRef)

/-- How strongly an item binds on its left. -/
def OpItem.rank? : OpItem → Option Nat
  | operand _ => none
  | op o => some o.rank
  | is _ => some isRank

namespace OpTree

/-- The tree from left to right. -/
def items : OpTree → List OpItem
  | operand x => [.operand x]
  | binary op x y => x.items ++ .op op :: y.items
  | is x type => x.items ++ [.is type]

def first : OpTree → Expr
  | operand x => x
  | binary _ x _ => x.first
  | is x _ => x.first

/-- What follows the first operand. -/
def tail : OpTree → List OpItem
  | operand _ => []
  | binary op x y => x.tail ++ .op op :: .operand y.first :: y.tail
  | is x type => x.tail ++ [.is type]

theorem items_eq (t : OpTree) : t.items = .operand t.first :: t.tail := by
  induction t with
  | operand x => rfl
  | binary op x y ih ih' => rw [items, ih, ih']; rfl
  | is x type ih => rw [items, ih]; rfl

end OpTree

/-- The next item, if it binds, binds less strongly. -/
def WeakerThan (least : Nat) (items : List OpItem) : Prop :=
  ∀ i ∈ items.head?, ∀ r ∈ i.rank?, r < least

theorem weakerThan_op {least : Nat} {op : BinaryOp} {items : List OpItem} :
    WeakerThan least (.op op :: items) ↔ op.rank < least := by
  refine ⟨fun weak => weak _ rfl _ rfl, fun lt i mem r rank => ?_⟩
  cases mem
  cases rank
  exact lt

theorem weakerThan_is {least : Nat} {type : TypeRef} {items : List OpItem} :
    WeakerThan least (.is type :: items) ↔ isRank < least := by
  refine ⟨fun weak => weak _ rfl _ rfl, fun lt i mem r rank => ?_⟩
  cases mem
  cases rank
  exact lt

/-- From what has been made so far and the items that follow, this is made, and these items are left. -/
inductive Climbs : Nat → OpTree → List OpItem → OpTree → List OpItem → Prop where
  | stop {least x items} (weak : WeakerThan least items) : Climbs least x items x items
  | binary {least op x a y z items items' rest} (strong : least ≤ op.rank)
    (right : Climbs (op.rank + 1) (.operand a) items y items') (more : Climbs least (.binary op x y) items' z rest) :
    Climbs least x (.op op :: .operand a :: items) z rest
  | is {least x type z items rest} (strong : least ≤ isRank) (more : Climbs least (.is x type) items z rest) :
    Climbs least x (.is type :: items) z rest

namespace Climbs

variable {least : Nat} {x y y' z : OpTree} {items rest rest' : List OpItem}

theorem functional (climbs : Climbs least x items y rest) (climbs' : Climbs least x items y' rest') :
    y = y' ∧ rest = rest' := by
  induction climbs generalizing y' rest' with
  | stop weak =>
    cases climbs' with
    | stop => exact ⟨rfl, rfl⟩
    | binary strong => exact absurd (weak _ rfl _ rfl) (Nat.not_lt.mpr strong)
    | is strong => exact absurd (weak _ rfl _ rfl) (Nat.not_lt.mpr strong)
  | binary strong _ _ ih ih' =>
    cases climbs' with
    | stop weak => exact absurd (weak _ rfl _ rfl) (Nat.not_lt.mpr strong)
    | binary _ right more =>
      obtain ⟨rfl, rfl⟩ := ih right
      exact ih' more
  | is strong _ ih =>
    cases climbs' with
    | stop weak => exact absurd (weak _ rfl _ rfl) (Nat.not_lt.mpr strong)
    | is _ more => exact ih more

/-- Climbing stops where the next item does not bind strongly enough. -/
theorem weak (climbs : Climbs least x items y rest) : WeakerThan least rest := by
  induction climbs with
  | stop weak => exact weak
  | binary _ _ _ _ ih => exact ih
  | is _ _ ih => exact ih

/-- Nothing is lost, and nothing changes its place. -/
theorem items_eq (climbs : Climbs least x items y rest) : y.items ++ rest = x.items ++ items := by
  induction climbs with
  | stop => rfl
  | @binary least op x a y z items items' rest _ _ _ ih ih' =>
    rw [ih', OpTree.items, List.append_assoc, List.cons_append, ih]
    rfl
  | is _ _ ih => rw [ih, OpTree.items, List.append_assoc]; rfl

/-- What has been made before weaker operators are added is part of what is made with them. -/
theorem trans (climbs : Climbs least x items y rest) {least' : Nat} (le : least' ≤ least)
    (more : Climbs least' y rest z rest') : Climbs least' x items z rest' := by
  induction climbs with
  | stop => exact more
  | binary strong right _ _ ih => exact .binary (Nat.le_trans le strong) right (ih le more)
  | is strong _ ih => exact .is (Nat.le_trans le strong) (ih le more)

end Climbs

/-- A tree in order is climbed to from its first operand, if the next item may follow it. -/
theorem OpTree.Ordered.climbs {t : OpTree} (ordered : t.Ordered) : ∀ {least : Nat} {z : OpTree} {rest rest' : List OpItem},
    t.Binds least → (∀ i ∈ rest.head?, ∀ r ∈ i.rank?, t.Precedes r) → Climbs least t rest z rest' →
    Climbs least (.operand t.first) (t.tail ++ rest) z rest' := by
  induction t with
  | operand a => exact fun _ _ more => more
  | binary op x y ih ih' =>
    intro least z rest rest' ⟨strong, binds⟩ precedes more
    obtain ⟨ordered, ordered', left, right⟩ := ordered
    -- the operators that follow do not bind more strongly than this one
    have weak : WeakerThan (op.rank + 1) rest := fun i mem r rank => Nat.lt_succ_of_le (precedes i mem r rank _ rfl)
    have follows : ∀ i ∈ rest.head?, ∀ r ∈ i.rank?, y.Precedes r := by
      intro i mem r rank q same
      have above : op.rank + 1 ≤ q := by
        cases y with
        | binary op' => cases same; exact right.1
        | operand | is => cases same
      exact Nat.le_trans (Nat.le_of_lt_succ (weak i mem r rank)) (Nat.le_of_succ_le above)
    rw [tail, List.append_assoc]
    refine ih ordered binds (fun i mem r rank => ?_) (.binary strong (ih' ordered' right follows (.stop weak)) more)
    cases mem
    cases rank
    exact left
  | is x type ih =>
    intro least z rest rest' ⟨strong, binds⟩ precedes more
    obtain ⟨ordered, left⟩ := ordered
    rw [tail, List.append_assoc]
    refine ih ordered binds (fun i mem r rank => ?_) (.is strong more)
    cases mem
    cases rank
    exact left

theorem OpTree.binds_zero (t : OpTree) : t.Binds 0 := by
  induction t with
  | operand => trivial
  | binary op x y ih => exact ⟨Nat.zero_le _, ih⟩
  | is x type ih => exact ⟨Nat.zero_le _, ih⟩

theorem OpTree.Ordered.eq_of_climbs {t z : OpTree} (ordered : t.Ordered) {a : Expr} {items : List OpItem}
    (reads : t.items = .operand a :: items) (climbs : Climbs 0 (.operand a) items z []) : t = z := by
  rw [t.items_eq] at reads
  cases reads
  have own : Climbs 0 (.operand t.first) (t.tail ++ []) t [] := ordered.climbs t.binds_zero nofun (.stop nofun)
  rw [List.append_nil] at own
  exact (own.functional climbs).1

end LedgerScript
