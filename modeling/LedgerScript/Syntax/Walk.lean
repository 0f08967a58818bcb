import LedgerScript.Syntax.Tree

/-!
# Walking a tree

`found` lists the declared functions and the calls of a tree in the order in which they are written, outer ones
before inner ones.  Types are not entered, nor are the parameters of interface members and of abstract methods of
a class.
-/

namespace LedgerScript

/-- What a walk reports. -/
inductive Found where
  /-- A declared function. -/
  | declared (fn : Function)
  | call (fn : Expr) (args : List Expr)
  deriving Inhabited

mutual

def Expr.found : Expr → List Found
  | .literal .. | .ident .. | .this .. | .super .. => []
  | .template _ _ holes => foundInAll holes
  | .paren _ x | .unary _ _ x | .stepAfter _ _ x | .is _ x _ | .typeof _ x | .await _ x | .spawn _ x
  | .member _ x _ _ | .spread _ x => x.found
  | .binary _ _ x y | .assign _ _ x y | .index _ x y => x.found ++ y.found
  | .new _ cls _ args => cls.found ++ foundInAll args
  | .ternary _ c y n => c.found ++ y.found ++ n.found
  | .call _ fn args _ => .call fn args :: fn.found ++ foundInAll args
  | .array _ xs | .tuple _ xs | .set _ xs | .emit _ _ xs => foundInAll xs
  | .map _ entries => foundInEntries entries
  | .function _ fn => fn.found
  | .validate _ c m => c.found ++ foundInOption m
  | .match _ x arms => x.found ++ foundInArms arms

def foundInAll : List Expr → List Found
  | [] => []
  | x :: xs => x.found ++ foundInAll xs

def foundInOption : Option Expr → List Found
  | none => []
  | some x => x.found

def foundInEntries : List MapEntry → List Found
  | [] => []
  | ⟨k, v⟩ :: rest => k.found ++ v.found ++ foundInEntries rest

def foundInArms : List MatchArm → List Found
  | [] => []
  | ⟨_, p, _, b⟩ :: rest => foundInOption p ++ b.found ++ foundInArms rest

def Body.found : Body → List Found
  | .block b => b.found
  | .expr x => x.found
  | .missing => []

def foundInParams : List Param → List Found
  | [] => []
  | ⟨_, _, _, d, _, _, fields⟩ :: rest => foundInOption d ++ foundInParams fields ++ foundInParams rest

def Function.found : Function → List Found
  | ⟨_, _, params, _, body, _, _⟩ => foundInParams params ++ body.found

def Block.found : Block → List Found
  | ⟨_, stmts⟩ => foundInStmts stmts

def foundInStmts : List Stmt → List Found
  | [] => []
  | s :: rest => s.found ++ foundInStmts rest

def foundInOptStmt : Option Stmt → List Found
  | none => []
  | some s => s.found

def Stmt.found : Stmt → List Found
  | .declare _ b => b.found
  | .block b => b.found
  | .expr _ x | .throw _ x | .unlock _ x => x.found
  | .if _ c y n => c.found ++ y.found ++ foundInOptStmt n
  | .while _ c b => c.found ++ b.found
  | .doWhile _ b c => b.found ++ c.found
  | .for _ i c p b => foundInOptStmt i ++ foundInOption c ++ foundInOption p ++ b.found
  | .forEach _ _ _ x b => x.found ++ b.found
  | .switch _ t cs => t.found ++ foundInCases cs
  | .try _ b cs f => b.found ++ foundInCatches cs ++ foundInOptBlock f
  | .return _ x => foundInOption x
  | .break _ | .continue _ | .interface _ | .import .. => []
  | .lock _ t b => t.found ++ b.found
  | .transfer _ a b c => a.found ++ b.found ++ c.found
  | .function d => d.declared
  | .classDecl d => d.found
  | .contract d => d.found
  | .export _ d => d.found

/-- What is found in a first value. -/
def Binding.found : Binding → List Found
  | ⟨_, _, _, x, _, _⟩ => foundInOption x

/-- What is found in the first values of several names. -/
def foundInBindings : List Binding → List Found
  | [] => []
  | b :: rest => b.found ++ foundInBindings rest

def foundInCases : List CaseClause → List Found
  | [] => []
  | ⟨_, v, b⟩ :: rest => foundInOption v ++ foundInStmts b ++ foundInCases rest

def foundInCatches : List CatchClause → List Found
  | [] => []
  | ⟨_, _, _, b⟩ :: rest => b.found ++ foundInCatches rest

def foundInOptBlock : Option Block → List Found
  | none => []
  | some b => b.found

def FunctionDecl.declared : FunctionDecl → List Found
  | ⟨_, fn, _, _, _⟩ => .declared fn :: fn.found

/-- What is found in methods; those of a class without a body are passed over. -/
def foundInMethods (skipMissing : Bool) : List FunctionDecl → List Found
  | [] => []
  | ⟨_, ⟨_, _, params, _, body, _, _⟩, _, _, _⟩ :: rest =>
    (match body with
      | .missing => if skipMissing then [] else foundInParams params
      | body => foundInParams params ++ body.found) ++ foundInMethods skipMissing rest

def foundInCtor : Option Function → List Found
  | none => []
  | some fn => fn.found

def ClassDecl.found : ClassDecl → List Found
  | ⟨_, _, _, _, _, _, fields, ctor, methods, _⟩ =>
    foundInBindings fields ++ foundInCtor ctor ++ foundInMethods true methods

def foundInClasses : List ClassDecl → List Found
  | [] => []
  | c :: rest => c.found ++ foundInClasses rest

def ContractDecl.found : ContractDecl → List Found
  | ⟨_, _, _, ledger, fields, ctor, methods, classes, _⟩ =>
    foundInBindings ledger ++ foundInBindings fields ++ foundInCtor ctor ++ foundInMethods false methods ++
      foundInClasses classes

end

end LedgerScript
