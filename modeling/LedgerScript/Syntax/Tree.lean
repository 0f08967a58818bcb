import LedgerScript.Syntax.Operator

/-!
# Syntax trees

A file is a list of items.  Expressions and statements contain each other, through function literals and the
blocks of match arms, so they are defined together with all the nodes between them.  Every node has the span of
the source it was read from; two trees of the same meaning may differ in spans alone.

Literals keep the text they were written with beside their value, and parentheses are nodes, so that a tree can be
written out again.
-/

namespace LedgerScript

inductive TypeRef where
  | mk (span : Span) (name : String) (args : List TypeRef) (arrays : Nat)
  deriving Repr, Inhabited

namespace TypeRef

def span : TypeRef → Span
  | mk s _ _ _ => s

def name : TypeRef → String
  | mk _ n _ _ => n

def args : TypeRef → List TypeRef
  | mk _ _ as _ => as

def arrays : TypeRef → Nat
  | mk _ _ _ n => n

mutual

def text : TypeRef → String
  | mk _ name args arrays =>
    name ++ (match args with
      | [] => ""
      | first :: rest => "<" ++ text first ++ textMore rest) ++ String.join (List.replicate arrays "[]")

/-- The type arguments after the first, and the closing bracket. -/
def textMore : List TypeRef → String
  | [] => ">"
  | t :: rest => ", " ++ text t ++ textMore rest

end

end TypeRef

/-- The value of a literal, by the kind it was written as. -/
inductive LiteralValue where
  | null
  | bool (b : Bool)
  | int (n : Int)
  | long (n : Int)
  | short (n : Int)
  | float (x : Float)
  | double (x : Float)
  | string (s : Bytes)
  | char (c : Char)
  deriving Repr, Inhabited

def LiteralValue.kindName : LiteralValue → String
  | null => "null"
  | bool _ => "bool"
  | int _ => "int"
  | long _ => "long"
  | short _ => "short"
  | float _ => "float"
  | double _ => "double"
  | string _ => "string"
  | char _ => "char"

inductive ArmArrow where
  | fat
  | thin
  deriving DecidableEq, Repr, Inhabited

def ArmArrow.symbol : ArmArrow → Symbol
  | fat => .fatArrow
  | thin => .arrow

/-- A name taken from a module, perhaps under another name. -/
structure ImportSpec where
  span : Span
  name : String
  alias? : Option String
  deriving DecidableEq, Repr, Inhabited

def ImportSpec.binding (s : ImportSpec) : String :=
  s.alias?.getD s.name

mutual

inductive Expr where
  | literal (span : Span) (raw : Bytes) (value : LiteralValue)
  | ident (span : Span) (name : String)
  | this (span : Span)
  | super (span : Span)
  | template (span : Span) (texts : List Bytes) (holes : List Expr)
  | paren (span : Span) (x : Expr)
  | unary (span : Span) (op : UnaryOp) (x : Expr)
  | stepAfter (span : Span) (op : StepOp) (x : Expr)
  | binary (span : Span) (op : BinaryOp) (x y : Expr)
  | is (span : Span) (x : Expr) (type : TypeRef)
  | typeof (span : Span) (x : Expr)
  | await (span : Span) (x : Expr)
  | spawn (span : Span) (x : Expr)
  /-- An object; without an argument list the arguments are empty and `hasArgs` is false. -/
  | new (span : Span) (cls : Expr) (hasArgs : Bool) (args : List Expr)
  | assign (span : Span) (op : AssignOp) (target value : Expr)
  | ternary (span : Span) (cond yes no : Expr)
  | call (span : Span) (fn : Expr) (args : List Expr) (optional : Bool)
  | member (span : Span) (x : Expr) (name : String) (optional : Bool)
  | index (span : Span) (x i : Expr)
  | array (span : Span) (elems : List Expr)
  | tuple (span : Span) (elems : List Expr)
  | set (span : Span) (elems : List Expr)
  | map (span : Span) (entries : List MapEntry)
  | spread (span : Span) (x : Expr)
  | function (span : Span) (fn : Function)
  | validate (span : Span) (cond : Expr) (msg : Option Expr)
  | emit (span : Span) (name : String) (args : List Expr)
  | «match» (span : Span) (subject : Expr) (arms : List MatchArm)

structure MapEntry where
  key : Expr
  value : Expr

/-- An arm of a match: a pattern, or none for the one that takes all, and what the arm does. -/
structure MatchArm where
  span : Span
  pattern : Option Expr
  arrow : ArmArrow
  body : Body

/-- What a function or an arm does: a block, an expression, or nothing for an abstract method. -/
inductive Body where
  | block (b : Block)
  | expr (x : Expr)
  | missing

/-- A parameter.  One that takes a map apart has no name; its fields are the names it takes out. -/
structure Param where
  span : Span
  name : String
  type : Option TypeRef
  default : Option Expr
  isRest : Bool
  takesApart : Bool
  fields : List Param

structure Function where
  span : Span
  name : String
  params : List Param
  result : Option TypeRef
  body : Body
  isAsync : Bool
  isArrow : Bool

/-- A list of statements in braces. -/
structure Block where
  span : Span
  stmts : List Stmt

inductive Stmt where
  | declare (kind : DeclKind) (name : Binding)
  | block (b : Block)
  | expr (span : Span) (x : Expr)
  | «if» (span : Span) (cond : Expr) (yes : Stmt) (no : Option Stmt)
  | while (span : Span) (cond : Expr) (body : Stmt)
  | doWhile (span : Span) (body : Stmt) (cond : Expr)
  | «for» (span : Span) (init : Option Stmt) (cond post : Option Expr) (body : Stmt)
  | forEach (span : Span) (kind : DeclKind) (name : String) (iter : Expr) (body : Stmt)
  | switch (span : Span) (tag : Expr) (cases : List CaseClause)
  | «try» (span : Span) (body : Block) (catches : List CatchClause) (final : Option Block)
  | throw (span : Span) (x : Expr)
  | «return» (span : Span) (x : Option Expr)
  | «break» (span : Span)
  | «continue» (span : Span)
  | lock (span : Span) (target : Expr) (body : Block)
  | unlock (span : Span) (target : Expr)
  | transfer (span : Span) (payer payee amount : Expr)
  | function (decl : FunctionDecl)
  | classDecl (decl : ClassDecl)
  | interface (decl : InterfaceDecl)
  | contract (decl : ContractDecl)
  | «import» (span : Span) (names : List ImportSpec) (path : Bytes)
  | «export» (span : Span) (decl : Stmt)

/-- A declared name with an optional type and an optional first value: a variable, or a field of a class, a
contract or the ledger. -/
structure Binding where
  span : Span
  name : String
  type : Option TypeRef
  init : Option Expr
  mods : Modifiers
  doc : Bytes

/-- A clause of a switch; the default clause has no value. -/
structure CaseClause where
  span : Span
  value : Option Expr
  body : List Stmt

/-- A handler of a try statement. -/
structure CatchClause where
  span : Span
  name : Option String
  type : Option TypeRef
  body : Block

/-- A declared function, or a method of a class or contract. -/
structure FunctionDecl where
  span : Span
  fn : Function
  mods : Modifiers
  decorators : List String
  doc : Bytes

structure ClassDecl where
  span : Span
  name : String
  superName : Option String
  interfaces : List String
  mods : Modifiers
  decorators : List String
  fields : List Binding
  ctor : Option Function
  methods : List FunctionDecl
  doc : Bytes

structure InterfaceMember where
  span : Span
  name : String
  isMethod : Bool
  params : List Param
  type : Option TypeRef

structure InterfaceDecl where
  span : Span
  name : String
  bases : List String
  members : List InterfaceMember
  doc : Bytes

/-- A contract.  The fields of `ledger` are kept on the ledger. -/
structure ContractDecl where
  span : Span
  name : String
  onChain : Bool
  ledger : List Binding
  fields : List Binding
  ctor : Option Function
  methods : List FunctionDecl
  classes : List ClassDecl
  doc : Bytes

end

instance : Inhabited Expr := ⟨.this {}⟩
instance : Inhabited Block := ⟨{ span := {}, stmts := [] }⟩
instance : Inhabited Stmt := ⟨.break {}⟩
instance : Inhabited Function := ⟨⟨{}, "", [], none, .missing, false, false⟩⟩

def Expr.span : Expr → Span
  | literal s _ _ | ident s _ | this s | super s | template s _ _ | paren s _ | unary s _ _ | stepAfter s _ _
  | binary s _ _ _ | is s _ _ | typeof s _ | await s _ | spawn s _ | new s _ _ _ | assign s _ _ _ | ternary s _ _ _
  | call s _ _ _ | member s _ _ _ | index s _ _ | array s _ | tuple s _ | set s _ | map s _ | spread s _
  | function s _ | validate s _ _ | emit s _ _ | .match s _ _ => s

def Stmt.span : Stmt → Span
  | declare _ d => d.span
  | block b => b.span
  | expr s _ | .if s _ _ _ | .while s _ _ | doWhile s _ _ | .for s _ _ _ _ | forEach s _ _ _ _ | switch s _ _
  | .try s _ _ _ | .throw s _ | .return s _ | .break s | .continue s | lock s _ _ | unlock s _ | transfer s _ _ _
  | .import s _ _ | .export s _ => s
  | function d => d.span
  | classDecl d => d.span
  | interface d => d.span
  | contract d => d.span

def Stmt.declName : Stmt → String
  | declare _ d => d.name
  | function d => d.fn.name
  | classDecl d => d.name
  | interface d => d.name
  | contract d => d.name
  | .export _ d => d.declName
  | _ => ""

def Stmt.doc : Stmt → Bytes
  | declare _ d => d.doc
  | function d => d.doc
  | classDecl d => d.doc
  | interface d => d.doc
  | contract d => d.doc
  | .export _ d => d.doc
  | _ => []

def Stmt.withDoc (doc : Bytes) : Stmt → Stmt
  | declare k d => .declare k { d with doc }
  | function d => .function { d with doc }
  | classDecl d => .classDecl { d with doc }
  | interface d => .interface { d with doc }
  | contract d => .contract { d with doc }
  | s => s

structure SyntaxFile where
  span : Span
  path : Bytes
  items : List Stmt
  deriving Inhabited

end LedgerScript
