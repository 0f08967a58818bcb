import LedgerScript.Number.Text
import LedgerScript.Syntax.Tree

/-!
# A uniform view of trees

For tools a tree is shown as nodes that have a name, a span and named fields.  Numbers are shown as text, so that
none loses digits; an absent part is shown as nothing.
-/

namespace LedgerScript

/-- A tree of named nodes. -/
inductive View where
  | nothing
  | flag (b : Bool)
  | count (n : Nat)
  | text (t : Bytes)
  | list (items : List View)
  | node (name : String) (span : Option Span) (fields : List (String × View))
  deriving Inhabited

namespace View

/-- A text made of characters. -/
def word (s : String) : View := .text (utf8 s)

def words (ss : List String) : View := .list (ss.map word)

def at' (name : String) (span : Span) (fields : List (String × View)) : View := .node name (some span) fields

def ofLiteral : LiteralValue → List (String × View)
  | .null => []
  | .bool b => [("Value", .flag b)]
  | .int n | .long n | .short n => [("Value", .text (Text.decimalInt n))]
  | .float x | .double x => [("Value", .text (doubleText x))]
  | .string s => [("Value", .text s)]
  | .char c => [("Value", .text (Text.decimal c.toNat))]

mutual

def ofType : TypeRef → View
  | .mk span name args arrays =>
    at' "TypeRef" span [("Name", word name), ("Args", .list (ofTypes args)), ("Array", .count arrays)]

def ofTypes : List TypeRef → List View
  | [] => []
  | t :: rest => ofType t :: ofTypes rest

end

def ofType? : Option TypeRef → View
  | none => .nothing
  | some t => ofType t

def templateParts : List Bytes → List View → List View
  | [], _ => []
  | t :: ts, [] => .node "TemplatePart" none [("Text", .text t), ("X", .nothing)] :: templateParts ts []
  | t :: ts, x :: xs => .node "TemplatePart" none [("Text", .text t), ("X", x)] :: templateParts ts xs

def ofImport (s : ImportSpec) : View :=
  at' "ImportSpec" s.span [("Name", word s.name), ("Alias", word (s.alias?.getD ""))]

mutual

def ofExpr : Expr → View
  | .literal s raw v => at' "Literal" s (("Kind", word v.kindName) :: ("Raw", .text raw) :: ofLiteral v)
  | .ident s n => at' "Ident" s [("Name", word n)]
  | .this s => at' "ThisExpr" s []
  | .super s => at' "SuperExpr" s []
  | .template s texts holes => at' "TemplateLit" s [("Parts", .list (templateParts texts (ofExprs holes)))]
  | .paren s x => at' "Paren" s [("X", ofExpr x)]
  | .unary s op x => at' "Unary" s [("Op", word op.symbol.spelling), ("X", ofExpr x)]
  | .stepAfter s op x => at' "Postfix" s [("Op", word op.symbol.spelling), ("X", ofExpr x)]
  | .binary s op x y => at' "Binary" s [("Op", word op.symbol.spelling), ("X", ofExpr x), ("Y", ofExpr y)]
  | .is s x t => at' "IsExpr" s [("X", ofExpr x), ("Type", ofType t)]
  | .typeof s x => at' "TypeofExpr" s [("X", ofExpr x)]
  | .await s x => at' "AwaitExpr" s [("X", ofExpr x)]
  | .spawn s x => at' "SpawnExpr" s [("X", ofExpr x)]
  | .new s c hasArgs args =>
    at' "NewExpr" s [("Class", ofExpr c), ("Args", if hasArgs then .list (ofExprs args) else .nothing)]
  | .assign s op t v =>
    at' "Assign" s [("Op", word op.symbol.spelling), ("Target", ofExpr t), ("Value", ofExpr v)]
  | .ternary s c y n => at' "Ternary" s [("Cond", ofExpr c), ("Then", ofExpr y), ("Else", ofExpr n)]
  | .call s f args opt =>
    at' "Call" s [("Fn", ofExpr f), ("Args", .list (ofExprs args)), ("Optional", .flag opt)]
  | .member s x n opt => at' "Member" s [("X", ofExpr x), ("Name", word n), ("Optional", .flag opt)]
  | .index s x i => at' "Index" s [("X", ofExpr x), ("Index", ofExpr i)]
  | .array s xs => at' "ArrayLit" s [("Elems", .list (ofExprs xs))]
  | .tuple s xs => at' "TupleLit" s [("Elems", .list (ofExprs xs))]
  | .set s xs => at' "SetLit" s [("Elems", .list (ofExprs xs))]
  | .map s es => at' "MapLit" s [("Entries", .list (ofEntries es))]
  | .spread s x => at' "Spread" s [("X", ofExpr x)]
  | .function s fn => at' "FuncLit" s [("Fn", ofFunction fn)]
  | .validate s c m => at' "ValidateExpr" s [("Cond", ofExpr c), ("Msg", ofExpr? m)]
  | .emit s n args => at' "EmitExpr" s [("Name", word n), ("Args", .list (ofExprs args))]
  | .match s x arms => at' "MatchExpr" s [("Subject", ofExpr x), ("Arms", .list (ofArms arms))]

def ofExprs : List Expr → List View
  | [] => []
  | x :: xs => ofExpr x :: ofExprs xs

def ofExpr? : Option Expr → View
  | none => .nothing
  | some x => ofExpr x

def ofEntries : List MapEntry → List View
  | [] => []
  | ⟨k, v⟩ :: rest => .node "MapEntry" none [("Key", ofExpr k), ("Value", ofExpr v)] :: ofEntries rest

/-- The two fields of a body, of which one is filled at most: the block and the expression. -/
def ofBody : Body → View × View
  | .block b => (ofBlock b, .nothing)
  | .expr x => (.nothing, ofExpr x)
  | .missing => (.nothing, .nothing)

def ofArms : List MatchArm → List View
  | [] => []
  | ⟨s, p, arrow, b⟩ :: rest =>
    at' "MatchArm" s [("Pattern", ofExpr? p), ("Arrow", word arrow.symbol.spelling), ("Block", (ofBody b).1),
      ("Body", (ofBody b).2)] :: ofArms rest

def ofParams : List Param → List View
  | [] => []
  | ⟨s, n, t, d, isRest, takesApart, fields⟩ :: rest =>
    at' "Param" s [("Name", word n), ("Type", ofType? t), ("Default", ofExpr? d), ("Rest", .flag isRest),
      ("Fields", if takesApart then .list (ofParams fields) else .nothing)] :: ofParams rest

def ofFunction : Function → View
  | ⟨s, n, ps, r, b, isAsync, isArrow⟩ =>
    at' "Function" s [("Name", word n), ("Params", .list (ofParams ps)), ("Return", ofType? r),
      ("Body", (ofBody b).1), ("Expr", (ofBody b).2), ("Async", .flag isAsync), ("Arrow", .flag isArrow)]

def ofFunction? : Option Function → View
  | none => .nothing
  | some fn => ofFunction fn

def ofBlock : Block → View
  | ⟨s, stmts⟩ => at' "Block" s [("Stmts", .list (ofStmts stmts))]

def ofBlock? : Option Block → View
  | none => .nothing
  | some b => ofBlock b

def ofStmt : Stmt → View
  | .declare k ⟨s, n, t, x, _, doc⟩ =>
    at' "VarDecl" s [("Kind", word k.word), ("Name", word n), ("Type", ofType? t), ("Init", ofExpr? x),
      ("Doc", .text doc)]
  | .block b => ofBlock b
  | .expr s x => at' "ExprStmt" s [("X", ofExpr x)]
  | .if s c y n => at' "If" s [("Cond", ofExpr c), ("Then", ofStmt y), ("Else", ofStmt? n)]
  | .while s c b => at' "While" s [("Cond", ofExpr c), ("Body", ofStmt b)]
  | .doWhile s b c => at' "DoWhile" s [("Body", ofStmt b), ("Cond", ofExpr c)]
  | .for s i c p b =>
    at' "For" s [("Init", ofStmt? i), ("Cond", ofExpr? c), ("Post", ofExpr? p), ("Body", ofStmt b)]
  | .forEach s k n x b =>
    at' "ForEach" s [("Kind", word k.word), ("Name", word n), ("Iter", ofExpr x), ("Body", ofStmt b)]
  | .switch s t cs => at' "Switch" s [("Tag", ofExpr t), ("Cases", .list (ofCases cs))]
  | .try s b cs f =>
    at' "Try" s [("Body", ofBlock b), ("Catches", .list (ofCatches cs)), ("Finally", ofBlock? f)]
  | .throw s x => at' "Throw" s [("X", ofExpr x)]
  | .return s x => at' "Return" s [("X", ofExpr? x)]
  | .break s => at' "Break" s []
  | .continue s => at' "Continue" s []
  | .lock s t b => at' "LockStmt" s [("Target", ofExpr t), ("Body", ofBlock b)]
  | .unlock s t => at' "Unlock" s [("Target", ofExpr t)]
  | .transfer s a b c => at' "Transfer" s [("From", ofExpr a), ("To", ofExpr b), ("Amount", ofExpr c)]
  | .function ⟨s, fn, mods, decorators, doc⟩ =>
    at' "FuncDecl" s [("Fn", ofFunction fn), ("Mods", word mods.text), ("Decorators", words decorators),
      ("Doc", .text doc)]
  | .classDecl d => ofClass d
  | .interface ⟨s, n, bases, ms, doc⟩ =>
    at' "InterfaceDecl" s [("Name", word n), ("Extends", words bases), ("Members", .list (ofInterfaceMembers ms)),
      ("Doc", .text doc)]
  | .contract ⟨s, n, onChain, ledger, fields, ctor, methods, classes, doc⟩ =>
    at' "ContractDecl" s [("Name", word n), ("Blockchain", .flag onChain), ("Ledger", .list (ofLedger ledger)),
      ("Fields", .list (ofFields fields)), ("Ctor", ofFunction? ctor), ("Methods", .list (ofMethods methods)),
      ("Classes", .list (ofClasses classes)), ("Doc", .text doc)]
  | .import s names path => at' "ImportDecl" s [("Names", .list (names.map ofImport)), ("Path", .text path)]
  | .export s d => at' "ExportDecl" s [("Decl", ofStmt d)]

def ofStmt? : Option Stmt → View
  | none => .nothing
  | some s => ofStmt s

def ofStmts : List Stmt → List View
  | [] => []
  | s :: rest => ofStmt s :: ofStmts rest

/-- Clauses of a switch as nodes. -/
def ofCases : List CaseClause → List View
  | [] => []
  | ⟨s, v, b⟩ :: rest => at' "CaseClause" s [("Value", ofExpr? v), ("Body", .list (ofStmts b))] :: ofCases rest

/-- Handlers as nodes. -/
def ofCatches : List CatchClause → List View
  | [] => []
  | ⟨s, n, t, b⟩ :: rest =>
    at' "CatchClause" s [("Name", word (n.getD "")), ("Type", ofType? t), ("Body", ofBlock b)] :: ofCatches rest

def ofFields : List Binding → List View
  | [] => []
  | ⟨s, n, t, x, mods, doc⟩ :: rest =>
    at' "FieldDecl" s [("Name", word n), ("Type", ofType? t), ("Init", ofExpr? x), ("Mods", word mods.text),
      ("Doc", .text doc)] :: ofFields rest

/-- Ledger fields as nodes. -/
def ofLedger : List Binding → List View
  | [] => []
  | ⟨s, n, t, x, _, doc⟩ :: rest =>
    at' "LedgerField" s [("Name", word n), ("Type", ofType? t), ("Init", ofExpr? x), ("Doc", .text doc)] ::
      ofLedger rest

def ofMethods : List FunctionDecl → List View
  | [] => []
  | ⟨s, fn, mods, _, doc⟩ :: rest =>
    at' "MethodDecl" s [("Fn", ofFunction fn), ("Mods", word mods.text), ("Doc", .text doc)] :: ofMethods rest

def ofInterfaceMembers : List InterfaceMember → List View
  | [] => []
  | ⟨s, n, isMethod, ps, t⟩ :: rest =>
    at' "InterfaceMember" s [("Name", word n), ("Method", .flag isMethod), ("Params", .list (ofParams ps)),
      ("Type", ofType? t)] :: ofInterfaceMembers rest

def ofClass : ClassDecl → View
  | ⟨s, n, sup, ifs, mods, decorators, fields, ctor, methods, doc⟩ =>
    at' "ClassDecl" s [("Name", word n), ("Super", word (sup.getD "")), ("Implements", words ifs),
      ("Mods", word mods.text), ("Decorators", words decorators), ("Fields", .list (ofFields fields)),
      ("Ctor", ofFunction? ctor), ("Methods", .list (ofMethods methods)), ("Doc", .text doc)]

def ofClasses : List ClassDecl → List View
  | [] => []
  | c :: rest => ofClass c :: ofClasses rest

end

def ofFile (f : SyntaxFile) : View :=
  at' "File" f.span [("Path", .text f.path), ("Items", .list (ofStmts f.items))]

def nodeName : View → String
  | .node name _ _ => name
  | _ => ""

end View

def Stmt.kindName (s : Stmt) : String :=
  (View.ofStmt s).nodeName

end LedgerScript
