import LedgerScript.Lexer.Basic
import LedgerScript.Parser.Statement
import LedgerScript.Syntax.Walk

/-!
# Parsing a file

`grammar n` is the grammar in which things may be nested `n` deep.  `parseFuel` counts the tokens of a list with
those in the holes of its templates; no text nests deeper than twice that number.

After a file is parsed, calls of its own functions are checked: a map literal given for a parameter that takes a
map apart may only have keys that the parameter names.  Functions that share their name with another one are left
out.
-/

namespace LedgerScript

/-- The grammar with a bound on the depth of nesting. -/
def grammar : Nat → Grammar
  | 0 => .exhausted
  | n + 1 =>
    let g := grammar n
    { expr := exprRule g
      ternary := ternaryRule g
      binary := binaryRule g
      unary := unaryRule g
      type := typeRule g
      stmt := stmtRule g
      block := blockRule g }

mutual

/-- Number of tokens of a token, with those in its holes. -/
def tokenWeight : Token → Nat
  | ⟨_, _, _, _, parts⟩ => 1 + partsWeight parts

/-- Number of tokens in the holes of parts. -/
def partsWeight : List TemplatePart → Nat
  | [] => 0
  | ⟨_, hole⟩ :: rest => holeWeight hole + partsWeight rest

/-- Number of tokens in a hole. -/
def holeWeight : Option TemplateHole → Nat
  | none => 0
  | some ⟨tokens, _⟩ => tokensWeight tokens

/-- Number of tokens of a list, with those in holes. -/
def tokensWeight : List Token → Nat
  | [] => 0
  | t :: rest => tokenWeight t + tokensWeight rest

end

/-- A bound on the depth of nesting of a token list. -/
def parseFuel (tokens : List Token) : Nat :=
  2 * tokensWeight tokens + 8

/-- The items of a file up to the end. -/
def itemsRule (g : Grammar) : Parse (List Stmt) :=
  Parse.repeatStep (fun (items : List Stmt) => do
    if ← Parse.at? .eof then return .inr items.reverse
    if ← Parse.acceptSymbol .semicolon then return .inl items
    return .inl ((← itemRule g) :: items)) []

def fileRule (g : Grammar) (path : Bytes) : Parse SyntaxFile := do
  let start ← Parse.here
  let items ← itemsRule g
  return ⟨start.cover (← Parse.here), path, items⟩

/-! ## Named arguments -/

/-- The key of a map entry that is written as a name or as a text. -/
def staticKey? : Expr → Option Bytes
  | .ident _ name => some (utf8 name)
  | .literal _ _ (.string s) => some s
  | _ => none

/-- The declared functions whose names no other one has. -/
def uniqueFunctions (found : List Found) : List Function :=
  let fns := found.filterMap fun f => match f with
    | .declared fn => some fn
    | .call .. => none
  fns.filter fun fn => (fns.filter (·.name == fn.name)).length == 1

/-- The first entry of a map literal that a parameter does not name. -/
def badEntry? (fn : Function) (p : Param) (arg : Expr) : Option SyntaxFault :=
  match p.takesApart, arg with
  | true, .map _ entries =>
    let names := p.fields.map (·.name)
    entries.findSome? fun e =>
      match staticKey? e.key with
      | some key =>
        if names.any (utf8 · == key) then none else some (.unknownNamedArgument key names fn.name e.key.span)
      | none => none
  | _, _ => none

def badCall? (fns : List Function) : Found → Option SyntaxFault
  | .call (.ident _ name) args =>
    match fns.find? (·.name == name) with
    | some fn => (fn.params.zip args).findSome? fun (p, arg) => badEntry? fn p arg
    | none => none
  | _ => none

/-- The first call of a file with a wrongly named argument. -/
def checkNamedArguments (f : SyntaxFile) : Option SyntaxFault :=
  let found := foundInStmts f.items
  let fns := uniqueFunctions found
  found.findSome? (badCall? fns)

/-! ## The whole -/

/-- The tokens with an end behind them if they have none. -/
def closeTokens (file : Nat) (tokens : List Token) : List Token :=
  match tokens.getLast? with
  | none => [{ kind := .eof, span := ⟨file, 0, 0⟩ }]
  | some last =>
    if last.kind = .eof then tokens
    else tokens ++ [{ kind := .eof, span := ⟨last.span.file, last.span.stop, last.span.stop⟩ }]

def parseTokens (f : SourceFile) (tokens : List Token) : Except SyntaxFault SyntaxFile := do
  let tokens := closeTokens f.id tokens
  let (tree, _) ← (fileRule (grammar (parseFuel tokens)) f.path).run { rest := tokens, prev := {} }
  match checkNamedArguments tree with
  | some fault => throw fault
  | none => return tree

/-- Why a file could not be read. -/
inductive SourceFault where
  | lexical (fault : LexFault)
  | grammatical (fault : SyntaxFault)
  deriving Inhabited

namespace SourceFault

def lexCode : LexClass → DiagnosticCode
  | .invalidCharacter => .invalidCharacter
  | .unterminatedString => .unterminatedString
  | .unterminatedComment => .unterminatedComment

def code : SourceFault → DiagnosticCode
  | lexical f => lexCode f.cause.lexClass
  | grammatical f => f.code

def span : SourceFault → Span
  | lexical f => f.span
  | grammatical f => f.span

def text : SourceFault → Bytes
  | lexical f => f.text
  | grammatical f => f.message

end SourceFault

def parse (f : SourceFile) : Except SourceFault SyntaxFile :=
  match tokenize f with
  | (_, some fault) => .error (.lexical fault)
  | (tokens, none) =>
    match parseTokens f tokens with
    | .ok tree => .ok tree
    | .error fault => .error (.grammatical fault)

end LedgerScript
