import LedgerScript.Parser.Declaration

/-!
# Statements

The statements of blocks, and the items of a file, where modules may be imported and names exported.
-/

namespace LedgerScript

open Parse

def declKind? : TokenKind → Option DeclKind
  | .keyword .let_ => some .letDecl
  | .keyword .var_ => some .varDecl
  | .keyword .const_ => some .constDecl
  | .keyword .readonly_ => some .readonlyDecl
  | _ => none

/-- A variable declaration without the semicolon; one that keeps its first value must have one. -/
def variableRule (g : Grammar) (arrows : Bool) (kind : DeclKind) : Parse Binding := do
  let word ← advance
  let name ← expectIdent "variable name"
  let type ← typeAfterColon g
  if kind.isImmutable && !(← at? (.symbol .assign)) then failExpected [(TokenKind.symbol .assign).name]
  let init ← initialValue g arrows
  return ⟨← spanFrom word.span, name.nameText, type, init, {}, word.doc⟩

/-- Statements up to a stop, with stray semicolons passed over. -/
def statementsUntil (g : Grammar) (arrows : Bool) (stop : TokenKind → Bool) (one : Grammar → Bool → Parse Stmt) :
    Parse (List Stmt) :=
  repeatStep (fun (ss : List Stmt) => do
    if stop (← nextKind) then return .inr ss.reverse
    if ← at? .eof then failExpected [(TokenKind.symbol .rbrace).name]
    if ← acceptSymbol .semicolon then return .inl ss
    return .inl ((← one g arrows) :: ss)) []

/-- A for loop. -/
def forRule (g : Grammar) (arrows : Bool) : Parse Stmt := do
  let start := (← advance).span
  expectSymbol .lparen
  let init ← match ← nextKind with
    | .symbol .semicolon => pure none
    | .keyword .let_ => (some <| Stmt.declare .letDecl ·) <$> variableRule g arrows .letDecl
    | .keyword .var_ => (some <| Stmt.declare .varDecl ·) <$> variableRule g arrows .varDecl
    | .keyword .const_ => (some <| Stmt.declare .constDecl ·) <$> variableRule g arrows .constDecl
    | _ => do
      let x ← g.expr arrows
      pure (some (Stmt.expr x.span x))
  expectSymbol .semicolon
  let cond ← if ← at? (.symbol .semicolon) then pure none else some <$> g.expr arrows
  expectSymbol .semicolon
  let post ← if ← at? (.symbol .rparen) then pure none else some <$> g.expr arrows
  expectSymbol .rparen
  let body ← g.stmt arrows
  return .for (← spanFrom start) init cond post body

/-- The kind of a loop variable; `let` may be left out. -/
def loopKind : Parse DeclKind := do
  if ← accept (.keyword .const_) then return .constDecl
  else if ← accept (.keyword .let_) then return .letDecl
  else if ← accept (.keyword .var_) then return .varDecl
  else return .letDecl

/-- A loop over the elements of something. -/
def forEachRule (g : Grammar) (arrows : Bool) : Parse Stmt := do
  let start := (← advance).span
  expectSymbol .lparen
  let kind ← loopKind
  let name ← expectIdent "loop variable"
  let _ ← expect (.keyword .in_)
  let iter ← g.expr arrows
  expectSymbol .rparen
  let body ← g.stmt arrows
  return .forEach (← spanFrom start) kind name.nameText iter body

/-- The next token ends the statements of a clause. -/
def endsClause (k : TokenKind) : Bool :=
  k = .keyword .case_ || k = .keyword .default_ || k = .symbol .rbrace

/-- A switch.  The default clause is the last one. -/
def switchRule (g : Grammar) (arrows : Bool) : Parse Stmt := do
  let start := (← advance).span
  let tag ← parenthesized g
  expectSymbol .lbrace
  let cases ← repeatStep (fun ((hasDefault, cs) : Bool × List CaseClause) => do
    if ← acceptSymbol .rbrace then return .inr cs.reverse
    let tok ← peek
    let value ← match tok.kind with
      | .keyword .case_ => do
        if hasDefault then throw (.caseAfterDefault tok)
        let _ ← advance
        some <$> g.expr arrows
      | .keyword .default_ => do
        if hasDefault then throw (.duplicateDefault tok)
        let _ ← advance
        pure none
      | _ => failExpected [(TokenKind.keyword .case_).name, (TokenKind.keyword .default_).name,
          (TokenKind.symbol .rbrace).name]
    expectSymbol .colon
    let body ← statementsUntil g arrows endsClause fun g => g.stmt
    let clause : CaseClause := ⟨← spanFrom tok.span, value, body⟩
    return .inl (value.isNone, clause :: cs)) (false, [])
  return .switch (← spanFrom start) tag cases

/-- A handler takes all errors: it names no type, or the type of anything. -/
def takesAll (t : Option TypeRef) : Bool :=
  match t with
  | none => true
  | some t => t.name = "any"

/-- A try statement with handlers, a final block, or both. -/
def tryRule (g : Grammar) (arrows : Bool) : Parse Stmt := do
  let start := (← advance).span
  let body ← g.block arrows
  let catches ← repeatStep (fun ((catchAll, cs) : Bool × List CatchClause) => do
    if !(← at? (.keyword .catch_)) then return .inr cs.reverse
    let tok ← advance
    if catchAll then throw (.catchAfterCatchAll tok)
    let (name, type) ← if ← acceptSymbol .lparen then do
        let name ← expectIdent "error binding"
        let type ← typeAfterColon g
        expectSymbol .rparen
        pure (some name.nameText, type)
      else pure (none, none)
    let body ← g.block arrows
    let clause : CatchClause := ⟨← spanFrom tok.span, name, type, body⟩
    return .inl (takesAll type, clause :: cs)) (false, [])
  let final ← if ← accept (.keyword .finally_) then some <$> g.block arrows else pure none
  if catches.isEmpty && final.isNone then
    failExpected [(TokenKind.keyword .catch_).name, (TokenKind.keyword .finally_).name]
  return .try (← spanFrom start) body catches final

/-- A transfer of native balance. -/
def transferRule (g : Grammar) (arrows : Bool) : Parse Stmt := do
  let start := (← advance).span
  expectSymbol .lbrace
  let payer ← g.expr arrows
  expectSymbol .arrow
  let payee ← g.expr arrows
  expectSymbol .colon
  let amount ← g.expr arrows
  expectSymbol .rbrace
  let _ ← acceptSymbol .semicolon
  return .transfer (← spanFrom start) payer payee amount

/-- A declaration starts here.  A function without a name is an expression. -/
def startsDecl : Parse Bool := do
  match ← nextKind with
  | .keyword .function_ => return (← kindAt 1) = .ident
  | .keyword .async_ => return (← kindAt 1) = .keyword .function_ && (← kindAt 2) = .ident
  | .keyword .class_ | .keyword .interface_ | .keyword .contract_ | .keyword .blockchain_ | .symbol .at
  | .keyword .abstract_ | .keyword .public_ | .keyword .private_ | .keyword .protected_ | .keyword .static_ =>
    return true
  | _ => return false

def stmtRule (g : Grammar) (arrows : Bool) : Parse Stmt := do
  let tok ← peek
  match tok.kind with
  | .symbol .lbrace => return .block (← g.block arrows)
  | .keyword .if_ =>
    let _ ← advance
    let cond ← parenthesized g
    let yes ← g.stmt arrows
    let no ← if ← accept (.keyword .else_) then some <$> g.stmt arrows else pure none
    return .if (← spanFrom tok.span) cond yes no
  | .keyword .while_ =>
    let _ ← advance
    let cond ← parenthesized g
    let body ← g.stmt arrows
    return .while (← spanFrom tok.span) cond body
  | .keyword .do_ =>
    let _ ← advance
    let body ← g.stmt arrows
    let _ ← expect (.keyword .while_)
    let cond ← parenthesized g
    expectSymbol .semicolon
    return .doWhile (← spanFrom tok.span) body cond
  | .keyword .for_ => forRule g arrows
  | .keyword .foreach_ => forEachRule g arrows
  | .keyword .switch_ => switchRule g arrows
  | .keyword .try_ => tryRule g arrows
  | .keyword .throw_ =>
    let _ ← advance
    let x ← g.expr arrows
    expectSymbol .semicolon
    return .throw (← spanFrom tok.span) x
  | .keyword .return_ =>
    let _ ← advance
    let x ← if (← at? (.symbol .semicolon)) || (← at? (.symbol .rbrace)) then pure none
      else some <$> g.expr arrows
    expectSymbol .semicolon
    return .return (← spanFrom tok.span) x
  | .keyword .break_ =>
    let _ ← advance
    expectSymbol .semicolon
    return .break (← spanFrom tok.span)
  | .keyword .continue_ =>
    let _ ← advance
    expectSymbol .semicolon
    return .continue (← spanFrom tok.span)
  | .keyword .lock_ =>
    let _ ← advance
    expectSymbol .lparen
    let target ← g.expr arrows
    expectSymbol .rparen
    let body ← g.block arrows
    return .lock (← spanFrom tok.span) target body
  | .keyword .unlock_ =>
    let _ ← advance
    expectSymbol .lparen
    let target ← g.expr arrows
    expectSymbol .rparen
    expectSymbol .semicolon
    return .unlock (← spanFrom tok.span) target
  | .keyword .transaction_ => transferRule g arrows
  | .keyword .match_ =>
    let x ← matchRule g arrows
    let _ ← acceptSymbol .semicolon
    return .expr (← spanFrom tok.span) x
  | .keyword .import_ | .keyword .export_ => throw (.onlyAtTopLevel tok)
  | kind =>
    match declKind? kind with
    | some declared =>
      let b ← variableRule g arrows declared
      expectSymbol .semicolon
      return .declare declared { b with span := ← spanFrom b.span }
    | none =>
      if ← startsDecl then declRule g arrows
      else
        let x ← exprRule g arrows
        expectSymbol .semicolon
        return .expr (← spanFrom tok.span) x

/-- Statements in braces. -/
def blockRule (g : Grammar) (arrows : Bool) : Parse Block := do
  let start := (← expect (.symbol .lbrace)).span
  let stmts ← statementsUntil g arrows (· = .symbol .rbrace) stmtRule
  let _ ← advance
  return ⟨← spanFrom start, stmts⟩

/-- The next token is a given word that is not reserved. -/
def atWord (word : String) : Parse Bool := do
  let tok ← peek
  return tok.kind = .ident && tok.text = utf8 word

/-- An import of names from a module. -/
def importRule : Parse Stmt := do
  let start := (← advance).span
  expectSymbol .lbrace
  let names ← commaList .rbrace do
    let name ← expectWord "imported name"
    let alias? ← if ← atWord "as" then do
        let _ ← advance
        (some ·.nameText) <$> expectIdent "alias"
      else pure none
    return (⟨← spanFrom name.span, name.nameText, alias?⟩ : ImportSpec)
  if !(← atWord "from") then failExpected ["'from'"]
  let _ ← advance
  let path ← expect (.literal .string)
  expectSymbol .semicolon
  return .import (← spanFrom start) names (stringText path)

def itemRule (g : Grammar) : Parse Stmt := do
  let tok ← peek
  match tok.kind with
  | .keyword .import_ => importRule
  | .keyword .export_ =>
    let _ ← advance
    let decl ← match declKind? (← nextKind) with
      | some declared => do
        let b ← variableRule g true declared
        expectSymbol .semicolon
        pure (Stmt.declare declared b)
      | none => declRule g true
    let decl := if tok.doc = [] then decl else decl.withDoc tok.doc
    return .export (← spanFrom tok.span) decl
  | _ => stmtRule g true

end LedgerScript
