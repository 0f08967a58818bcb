import LedgerScript.Parser.Literal

/-!
# Expressions

From weak to strong: assignment, conditional, `??`, the binary operators by precedence, unary operators, and what
may follow a primary expression.  Assignment associates to the right, all binary operators to the left.
-/

namespace LedgerScript

open Parse

/-- How strongly a binary operator or `is` binds; `??` is not among them. -/
def precedence? : TokenKind → Option Nat
  | .symbol .orOr => some 1
  | .symbol .andAnd => some 2
  | .symbol .eqEq | .symbol .bangEq => some 3
  | .symbol .lt | .symbol .ltEq | .symbol .gt | .symbol .gtEq | .keyword .is_ => some 4
  | .symbol .plus | .symbol .minus => some 5
  | .symbol .star | .symbol .slash | .symbol .percent => some 6
  | _ => none

/-- The weakest of the binary operators. -/
def weakest : Nat := 1

/-- A type: a word, type arguments, and pairs of brackets. -/
def typeRule (g : Grammar) : Parse TypeRef := do
  let name ← expectWord "type"
  let args ← if ← acceptSymbol .lt then
      let args ← commaSeparated g.type
      expectSymbol .gt
      pure args
    else pure []
  let arrays ← repeatStep (fun (n : Nat) => do
    if (← at? (.symbol .lbracket)) && (← kindAt 1) = .symbol .rbracket then
      let _ ← advance
      let _ ← advance
      return .inl (n + 1)
    else return .inr n) 0
  return .mk (← spanFrom name.span) name.nameText args arrays

def typeAfterColon (g : Grammar) : Parse (Option TypeRef) := do
  if ← acceptSymbol .colon then return some (← typeRule g) else return none

def isPlace : Expr → Bool
  | .ident .. | .index .. => true
  | .member _ _ _ optional => !optional
  | _ => false

/-- Stops unless an operator that stores is applied to a place. -/
def checkPlace (x : Expr) (op : Token) : Parse Unit :=
  if isPlace x then pure () else throw (.invalidTarget op x.span)

/-- An element of a list: an expression, or the elements of another list. -/
def element (g : Grammar) : Parse Expr := do
  if ← at? (.symbol .dotDotDot) then
    let start := (← advance).span
    let x ← g.expr true
    return .spread (← spanFrom start) x
  else g.expr true

def arguments (g : Grammar) : Parse (List Expr) := do
  expectSymbol .lparen
  commaList .rparen (element g)

def initialValue (g : Grammar) (arrows : Bool) : Parse (Option Expr) := do
  if ← acceptSymbol .assign then some <$> g.expr arrows else return none

/-- A name that a parameter takes out of a map. -/
def paramField (g : Grammar) : Parse Param := do
  let start ← here
  let name := (← expectIdent "field name").nameText
  let type ← typeAfterColon g
  let default ← initialValue g true
  return ⟨← spanFrom start, name, type, default, false, false, []⟩

/-- What a parameter binds: its name, whether it takes the rest of the arguments, whether it takes a map apart, and
the names it takes out. -/
def paramHead (g : Grammar) : Parse (String × Bool × Bool × List Param) := do
  if ← acceptSymbol .dotDotDot then
    let name ← expectIdent "parameter name"
    return (name.nameText, true, false, [])
  else if ← acceptSymbol .lbrace then
    let fields ← commaList .rbrace (paramField g)
    return ("", false, true, fields)
  else
    let name ← expectIdent "parameter name"
    return (name.nameText, false, false, [])

/-- A parameter: a name, a rest of arguments, or a map taken apart. -/
def param (g : Grammar) : Parse Param := do
  let start ← here
  let (name, isRest, takesApart, fields) ← paramHead g
  let type ← typeAfterColon g
  let default ← if isRest then pure none else initialValue g true
  return ⟨← spanFrom start, name, type, default, isRest, takesApart, fields⟩

/-- Parameters in parentheses; nothing follows a rest parameter. -/
def params (g : Grammar) : Parse (List Param) := do
  expectSymbol .lparen
  repeatStep (fun (ps : List Param) => do
    if ← acceptSymbol .rparen then return .inr ps.reverse
    let p ← param g
    if ps.head?.any (·.isRest) then throw (.restNotLast (← peek) p.span)
    if ← acceptSymbol .comma then return .inl (p :: ps)
    expectSymbol .rparen
    return .inr (p :: ps).reverse) []

/-- A function after the word `function`; a declared one needs a name. -/
def functionRule (g : Grammar) (arrows isAsync named : Bool) : Parse Function := do
  let start := (← expect (.keyword .function_)).span
  let name ← if named || (← at? .ident) then (·.nameText) <$> expectIdent "function name" else pure ""
  let ps ← params g
  let result ← typeAfterColon g
  let body ← g.block arrows
  return ⟨← spanFrom start, name, ps, result, .block body, isAsync, false⟩

/-- A block if a brace follows, else an expression. -/
def bodyRule (g : Grammar) (arrows : Bool) : Parse Body := do
  if ← at? (.symbol .lbrace) then return .block (← g.block arrows) else return .expr (← g.expr arrows)

/-- An arrow function: one name or parameters, the arrow, and a body. -/
def arrowFunction (g : Grammar) (arrows isAsync : Bool) (start : Span) : Parse Expr := do
  let ps ← if ← at? .ident then do
      let name ← advance
      pure [(⟨name.span, name.nameText, none, none, false, false, []⟩ : Param)]
    else params g
  expectSymbol .fatArrow
  let body ← bodyRule g arrows
  let span ← spanFrom start
  return .function span ⟨span, "", ps, none, body, isAsync, true⟩

/-- After the parenthesis that closes the first one comes the arrow of a function. -/
def arrowFollows : Nat → List Token → Bool
  | _, [] => false
  | depth, t :: rest =>
    match t.kind with
    | .symbol .lparen | .symbol .lbracket | .symbol .lbrace => arrowFollows (depth + 1) rest
    | .symbol .rparen | .symbol .rbracket | .symbol .rbrace =>
      if depth = 1 then rest.head?.any (·.kind = .symbol .fatArrow) else arrowFollows (depth - 1) rest
    | .eof => false
    | _ => arrowFollows depth rest

/-- An expression in parentheses, or a tuple. -/
def groupRule (g : Grammar) : Parse Expr := do
  let start := (← expect (.symbol .lparen)).span
  let first ← g.expr true
  if !(← at? (.symbol .comma)) then
    expectSymbol .rparen
    return .paren (← spanFrom start) first
  let elems ← repeatStep (fun (xs : List Expr) => do
    if !(← acceptSymbol .comma) then return .inr xs.reverse
    if ← at? (.symbol .rparen) then return .inr xs.reverse
    return .inl ((← g.expr true) :: xs)) [first]
  expectSymbol .rparen
  return .tuple (← spanFrom start) elems

/-- A key of a map: a literal, a word, or an expression in brackets.  A computed key that is a name or a literal is
kept in parentheses, to tell it from a written one. -/
def mapKey (g : Grammar) : Parse Expr := do
  let tok ← peek
  match tok.kind with
  | .literal .string =>
    let _ ← advance
    return .literal tok.span tok.text (.string (stringText tok))
  | .literal .int =>
    let _ ← advance
    numberLiteral tok false tok.span
  | .literal .char =>
    let _ ← advance
    return charLiteral tok
  | .symbol .lbracket =>
    let _ ← advance
    let key ← g.expr true
    expectSymbol .rbracket
    match key with
    | .ident .. | .literal .. => return .paren (← spanFrom tok.span) key
    | _ => return key
  | kind =>
    if kind.isWord then
      let _ ← advance
      return .ident tok.span tok.nameText
    else failExpected ["map key"]

def mapLiteral (g : Grammar) : Parse Expr := do
  let start := (← expect (.symbol .lbrace)).span
  let entries ← commaList .rbrace do
    let key ← mapKey g
    expectSymbol .colon
    return (⟨key, ← g.expr true⟩ : MapEntry)
  return .map (← spanFrom start) entries

/-- An expression in parentheses, as statements and match need it. -/
def parenthesized (g : Grammar) : Parse Expr := do
  expectSymbol .lparen
  let x ← g.expr true
  expectSymbol .rparen
  return x

def armArrow : Parse ArmArrow := do
  if ← acceptSymbol .fatArrow then return .fat
  else if ← acceptSymbol .arrow then return .thin
  else failExpected [(TokenKind.symbol .fatArrow).name, (TokenKind.symbol .arrow).name]

/-- A match expression.  Nothing follows the arm that takes all. -/
def matchRule (g : Grammar) (arrows : Bool) : Parse Expr := do
  let start := (← expect (.keyword .match_)).span
  let subject ← parenthesized g
  expectSymbol .lbrace
  let arms ← repeatStep (fun ((catchAll, arms) : Bool × List MatchArm) => do
    if ← acceptSymbol .rbrace then return .inr arms.reverse
    let tok ← peek
    if catchAll then throw (.armAfterCatchAll tok)
    let pattern ← if ← acceptSymbol .underscore then pure none else some <$> g.ternary false
    let arrow ← armArrow
    let body ← bodyRule g arrows
    let arm : MatchArm := ⟨← spanFrom tok.span, pattern, arrow, body⟩
    if !(← acceptSymbol .comma) then
      let _ ← acceptSymbol .semicolon
    return .inl (pattern.isNone, arm :: arms)) (false, [])
  return .match (← spanFrom start) subject arms

/-- An expression without operators around it. -/
def primary (g : Grammar) (arrows : Bool) : Parse Expr := do
  let tok ← peek
  match tok.kind with
  | .literal .int | .literal .float =>
    let _ ← advance
    numberLiteral tok false tok.span
  | .literal .string =>
    let _ ← advance
    return .literal tok.span tok.text (.string (stringText tok))
  | .literal .char =>
    let _ ← advance
    return charLiteral tok
  | .literal .template =>
    let _ ← advance
    templateLiteral g tok
  | .keyword .true_ =>
    let _ ← advance
    return .literal tok.span tok.text (.bool true)
  | .keyword .false_ =>
    let _ ← advance
    return .literal tok.span tok.text (.bool false)
  | .keyword .null_ =>
    let _ ← advance
    return .literal tok.span tok.text .null
  | .keyword .this_ =>
    let _ ← advance
    return .this tok.span
  | .keyword .super_ =>
    let _ ← advance
    return .super tok.span
  | .ident =>
    if arrows && (← kindAt 1) = .symbol .fatArrow then arrowFunction g arrows false tok.span
    else
      let _ ← advance
      return .ident tok.span tok.nameText
  | .symbol .lparen =>
    if arrows && arrowFollows 0 (← get).rest then arrowFunction g arrows false tok.span else groupRule g
  | .symbol .lbracket =>
    let _ ← advance
    let elems ← commaList .rbracket (element g)
    return .array (← spanFrom tok.span) elems
  | .symbol .hash =>
    let _ ← advance
    expectSymbol .lbrace
    let elems ← commaList .rbrace (element g)
    return .set (← spanFrom tok.span) elems
  | .symbol .lbrace => mapLiteral g
  | .keyword .function_ =>
    let fn ← functionRule g arrows false false
    return .function fn.span fn
  | .keyword .async_ =>
    let next ← kindAt 1
    if next = .keyword .function_ then
      let _ ← advance
      let fn ← functionRule g arrows true false
      let span ← spanFrom tok.span
      return .function span { fn with span }
    else if (next = .ident && (← kindAt 2) = .symbol .fatArrow) || next = .symbol .lparen then
      let _ ← advance
      arrowFunction g arrows true tok.span
    else failExpected ["expression"]
  | .keyword .validate_ =>
    let _ ← advance
    expectSymbol .lparen
    let cond ← g.expr true
    let msg ← if ← acceptSymbol .comma then some <$> g.expr true else pure none
    expectSymbol .rparen
    return .validate (← spanFrom tok.span) cond msg
  | .keyword .emit_ =>
    let _ ← advance
    let name ← expectIdent "event name"
    let args ← arguments g
    return .emit (← spanFrom tok.span) name.nameText args
  | .keyword .match_ => matchRule g arrows
  | _ => failExpected ["expression"]

/-- What follows a primary expression: calls, indexes, members and steps. -/
def suffixes (g : Grammar) (x : Expr) (start : Span) : Parse Expr :=
  repeatStep (fun (x : Expr) => do
    let tok ← peek
    match tok.kind with
    | .symbol .lparen =>
      let args ← arguments g
      let optional := match x with
        | .member _ _ _ optional => optional
        | _ => false
      return .inl (.call (← spanFrom start) x args optional)
    | .symbol .lbracket =>
      let _ ← advance
      let i ← g.expr true
      expectSymbol .rbracket
      return .inl (.index (← spanFrom start) x i)
    | .symbol .dot =>
      let _ ← advance
      let name ← expectWord "member name"
      return .inl (.member (← spanFrom start) x name.nameText false)
    | .symbol .questionDot =>
      let _ ← advance
      let name ← expectWord "member name"
      return .inl (.member (← spanFrom start) x name.nameText true)
    | .symbol .plusPlus =>
      checkPlace x tok
      let _ ← advance
      return .inl (.stepAfter (← spanFrom start) .increment x)
    | .symbol .minusMinus =>
      checkPlace x tok
      let _ ← advance
      return .inl (.stepAfter (← spanFrom start) .decrement x)
    | _ => return .inr x) x

/-- A new object: a class name, perhaps inside others, and perhaps arguments. -/
def newRule (g : Grammar) : Parse Expr := do
  let start := (← advance).span
  let name ← expectIdent "class name"
  let cls ← repeatStep (fun (cls : Expr) => do
    if ← acceptSymbol .dot then
      let m ← expectWord "member name"
      return .inl (.member (← spanFrom name.span) cls m.nameText false)
    else return .inr cls) (.ident name.span name.nameText)
  if ← at? (.symbol .lparen) then
    let args ← arguments g
    return .new (← spanFrom start) cls true args
  else return .new (← spanFrom start) cls false []

/-- An operator in front of an operand. -/
def unaryRule (g : Grammar) (arrows : Bool) : Parse Expr := do
  let tok ← peek
  let operand : Parse Expr := do
    let _ ← advance
    g.unary arrows
  match tok.kind with
  | .symbol .minus =>
    let next ← kindAt 1
    if next = .literal .int || next = .literal .float then
      let _ ← advance
      let lit ← advance
      let x ← numberLiteral lit true (tok.span.cover lit.span)
      suffixes g x tok.span
    else
      let x ← operand
      return .unary (← spanFrom tok.span) .negate x
  | .symbol .bang =>
    let x ← operand
    return .unary (← spanFrom tok.span) .not x
  | .symbol .plusPlus =>
    let x ← operand
    checkPlace x tok
    return .unary (← spanFrom tok.span) (.step .increment) x
  | .symbol .minusMinus =>
    let x ← operand
    checkPlace x tok
    return .unary (← spanFrom tok.span) (.step .decrement) x
  | .keyword .await_ =>
    let x ← operand
    return .await (← spanFrom tok.span) x
  | .keyword .typeof_ =>
    let x ← operand
    return .typeof (← spanFrom tok.span) x
  | .keyword .spawn_ =>
    let x ← operand
    return .spawn (← spanFrom tok.span) x
  | .keyword .new_ =>
    let x ← newRule g
    suffixes g x tok.span
  | _ =>
    let x ← primary g arrows
    suffixes g x tok.span

/-- Operands joined by operators that bind at least as strongly as `least`. -/
def binaryRule (g : Grammar) (arrows : Bool) (least : Nat) : Parse Expr := do
  let start ← here
  let x ← unaryRule g arrows
  repeatStep (fun (x : Expr) => do
    let kind ← nextKind
    match precedence? kind with
    | none => return .inr x
    | some p =>
      if p < least then return .inr x
      let _ ← advance
      match kind with
      | .symbol s =>
        match BinaryOp.ofSymbol? s with
        | some op =>
          let y ← g.binary arrows (p + 1)
          return .inl (.binary (← spanFrom start) op x y)
        | none => return .inr x
      | _ =>
        let t ← typeRule g
        return .inl (.is (← spanFrom start) x t)) x

/-- Operands joined by `??`. -/
def coalesceRule (g : Grammar) (arrows : Bool) : Parse Expr := do
  let start ← here
  let x ← binaryRule g arrows weakest
  repeatStep (fun (x : Expr) => do
    if ← acceptSymbol .questionQuestion then
      let y ← binaryRule g arrows weakest
      return .inl (.binary (← spanFrom start) .coalesce x y)
    else return .inr x) x

/-- A conditional, or something stronger. -/
def ternaryRule (g : Grammar) (arrows : Bool) : Parse Expr := do
  let start ← here
  let cond ← coalesceRule g arrows
  if ← acceptSymbol .question then
    let yes ← g.expr arrows
    expectSymbol .colon
    let no ← g.expr arrows
    return .ternary (← spanFrom start) cond yes no
  else return cond

def assignOp? : TokenKind → Option AssignOp
  | .symbol s => AssignOp.ofSymbol? s
  | _ => none

def exprRule (g : Grammar) (arrows : Bool) : Parse Expr := do
  let start ← here
  let left ← ternaryRule g arrows
  let tok ← peek
  match assignOp? tok.kind with
  | none => return left
  | some op =>
    checkPlace left tok
    let _ ← advance
    let right ← g.expr arrows
    return .assign (← spanFrom start) op left right

end LedgerScript
