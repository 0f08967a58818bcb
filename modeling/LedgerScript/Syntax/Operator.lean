import LedgerScript.Token.Basic

/-!
# Operators and modifiers

The operators of expressions, each with the symbol it is written with, and the modifiers of declarations.
-/

namespace LedgerScript

/-- Operators between two operands. -/
inductive BinaryOp where
  | add | sub | mul | div | rem
  | eq | ne | lt | le | gt | ge
  | and | or | coalesce
  deriving DecidableEq, Repr, Inhabited

def BinaryOp.symbol : BinaryOp → Symbol
  | add => .plus | sub => .minus | mul => .star | div => .slash | rem => .percent
  | eq => .eqEq | ne => .bangEq | lt => .lt | le => .ltEq | gt => .gt | ge => .gtEq
  | and => .andAnd | or => .orOr | coalesce => .questionQuestion

def BinaryOp.ofSymbol? : Symbol → Option BinaryOp
  | .plus => some add | .minus => some sub | .star => some mul | .slash => some div | .percent => some rem
  | .eqEq => some eq | .bangEq => some ne | .lt => some lt | .ltEq => some le | .gt => some gt | .gtEq => some ge
  | .andAnd => some and | .orOr => some or | .questionQuestion => some coalesce
  | _ => none

theorem BinaryOp.ofSymbol?_symbol (op : BinaryOp) : BinaryOp.ofSymbol? op.symbol = some op := by
  cases op <;> rfl

inductive StepOp where
  | increment
  | decrement
  deriving DecidableEq, Repr, Inhabited

def StepOp.symbol : StepOp → Symbol
  | increment => .plusPlus
  | decrement => .minusMinus

/-- Operators in front of one operand. -/
inductive UnaryOp where
  | negate
  | not
  | step (op : StepOp)
  deriving DecidableEq, Repr, Inhabited

def UnaryOp.symbol : UnaryOp → Symbol
  | negate => .minus
  | not => .bang
  | step op => op.symbol

/-- Assignments: plain, or with an operator in front. -/
inductive AssignOp where
  | set | add | sub | mul | div | rem
  deriving DecidableEq, Repr, Inhabited

def AssignOp.symbol : AssignOp → Symbol
  | set => .assign | add => .plusAssign | sub => .minusAssign | mul => .starAssign | div => .slashAssign
  | rem => .percentAssign

def AssignOp.ofSymbol? : Symbol → Option AssignOp
  | .assign => some set | .plusAssign => some add | .minusAssign => some sub | .starAssign => some mul
  | .slashAssign => some div | .percentAssign => some rem
  | _ => none

/-- The operator that a compound assignment applies before it stores. -/
def AssignOp.binary? : AssignOp → Option BinaryOp
  | set => none | add => some .add | sub => some .sub | mul => some .mul | div => some .div | rem => some .rem

inductive DeclKind where
  | letDecl
  | varDecl
  | constDecl
  | readonlyDecl
  deriving DecidableEq, Repr, Inhabited

def DeclKind.word : DeclKind → String
  | letDecl => "let"
  | varDecl => "var"
  | constDecl => "const"
  | readonlyDecl => "readonly"

/-- The variable keeps its first value. -/
def DeclKind.isImmutable : DeclKind → Bool
  | constDecl | readonlyDecl => true
  | _ => false

/-- Words in front of declarations and members. -/
inductive Modifier where
  | publicMod | privateMod | protectedMod | staticMod | abstractMod | readonlyMod | payableMod | viewMod | pureMod
  | asyncMod
  deriving DecidableEq, Repr, Inhabited

namespace Modifier

def word : Modifier → String
  | publicMod => "public" | privateMod => "private" | protectedMod => "protected" | staticMod => "static"
  | abstractMod => "abstract" | readonlyMod => "readonly" | payableMod => "payable" | viewMod => "view"
  | pureMod => "pure" | asyncMod => "async"

/-- All modifiers in the order in which they are written out. -/
def all : List Modifier :=
  [publicMod, privateMod, protectedMod, staticMod, abstractMod, readonlyMod, payableMod, viewMod, pureMod, asyncMod]

/-- The modifier of a reserved word. -/
def ofKeyword? : Keyword → Option Modifier
  | .public_ => some publicMod | .private_ => some privateMod | .protected_ => some protectedMod
  | .static_ => some staticMod | .abstract_ => some abstractMod | .readonly_ => some readonlyMod
  | .payable_ => some payableMod | .view_ => some viewMod | .pure_ => some pureMod | .async_ => some asyncMod
  | _ => none

end Modifier

/-- A set of modifiers: one flag for each, so that the order in which they were written is forgotten. -/
structure Modifiers where
  isPublic : Bool := false
  isPrivate : Bool := false
  isProtected : Bool := false
  isStatic : Bool := false
  isAbstract : Bool := false
  isReadonly : Bool := false
  isPayable : Bool := false
  isView : Bool := false
  isPure : Bool := false
  isAsync : Bool := false
  deriving DecidableEq, Repr, Inhabited

namespace Modifiers

def has (ms : Modifiers) : Modifier → Bool
  | .publicMod => ms.isPublic | .privateMod => ms.isPrivate | .protectedMod => ms.isProtected
  | .staticMod => ms.isStatic | .abstractMod => ms.isAbstract | .readonlyMod => ms.isReadonly
  | .payableMod => ms.isPayable | .viewMod => ms.isView | .pureMod => ms.isPure | .asyncMod => ms.isAsync

def insert (ms : Modifiers) : Modifier → Modifiers
  | .publicMod => { ms with isPublic := true } | .privateMod => { ms with isPrivate := true }
  | .protectedMod => { ms with isProtected := true } | .staticMod => { ms with isStatic := true }
  | .abstractMod => { ms with isAbstract := true } | .readonlyMod => { ms with isReadonly := true }
  | .payableMod => { ms with isPayable := true } | .viewMod => { ms with isView := true }
  | .pureMod => { ms with isPure := true } | .asyncMod => { ms with isAsync := true }

/-- The modifiers of the set in the order in which they are written out. -/
def toList (ms : Modifiers) : List Modifier :=
  Modifier.all.filter ms.has

def text (ms : Modifiers) : String :=
  " ".intercalate (ms.toList.map Modifier.word)

/-- A method with one of these modifiers may not write to the ledger. -/
def isReadOnly (ms : Modifiers) : Bool :=
  ms.isView || ms.isPure

theorem has_insert (ms : Modifiers) (m k : Modifier) : (ms.insert m).has k = (m == k || ms.has k) := by
  cases m <;> cases k <;> rfl

end Modifiers

end LedgerScript
