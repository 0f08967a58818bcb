import LedgerScript.Diagnostic.Basic
import LedgerScript.Syntax.Tree

/-!
# Parsing

The faults that end parsing, and the state that it works on.
-/

/-!
## Grammatical faults

Parsing stops at the first fault.  Most faults are a token that does not fit, with a list of what would have; the
others have a wording of their own.
-/

namespace LedgerScript

/-- Why parsing stopped. -/
inductive SyntaxFault where
  /-- None of the wanted things stands here. -/
  | expected (wanted : List String) (found : Token)
  /-- A number that its kind cannot hold. -/
  | overflow (raw : Bytes) (kind : String) (found : Token) (span : Span)
  /-- An assignment or a step on what is no place. -/
  | invalidTarget (op : Token) (span : Span)
  | duplicateModifier (found : Token)
  | restNotLast (found : Token) (span : Span)
  | duplicateConstructor (found : Token)
  | armAfterCatchAll (found : Token)
  | caseAfterDefault (found : Token)
  | duplicateDefault (found : Token)
  | catchAfterCatchAll (found : Token)
  | onlyAtTopLevel (found : Token)
  | unknownNamedArgument (key : Bytes) (names : List String) (fn : String) (span : Span)
  /-- Parsing looked at a token or a byte that is not there, or would go on without taking a token.  It never does. -/
  | exhausted
  deriving Inhabited

namespace SyntaxFault

def code : SyntaxFault → DiagnosticCode
  | overflow .. => .literalOverflow
  | invalidTarget .. => .invalidTarget
  | armAfterCatchAll _ | caseAfterDefault _ | catchAfterCatchAll _ => .catchAllNotLast
  | duplicateDefault _ => .duplicateDefault
  | unknownNamedArgument .. => .unknownNamedArgument
  | _ => .unexpectedToken

def found : SyntaxFault → TokenKind × Bytes
  | expected _ t | overflow _ _ t _ | invalidTarget t _ | duplicateModifier t | restNotLast t _
  | duplicateConstructor t | armAfterCatchAll t | caseAfterDefault t | duplicateDefault t | catchAfterCatchAll t
  | onlyAtTopLevel t => (t.kind, t.text)
  | unknownNamedArgument key .. => (.ident, key)
  | exhausted => (.invalid, [])

/-- What would have fitted. -/
def wanted : SyntaxFault → List String
  | expected ws _ => ws
  | unknownNamedArgument _ names _ _ => names
  | _ => []

def span : SyntaxFault → Span
  | expected _ t | duplicateModifier t | duplicateConstructor t | armAfterCatchAll t | caseAfterDefault t
  | duplicateDefault t | catchAfterCatchAll t | onlyAtTopLevel t => t.span
  | overflow _ _ _ s | invalidTarget _ s | restNotLast _ s | unknownNamedArgument _ _ _ s => s
  | exhausted => {}

/-- Things one of which is wanted: `a, b or c`. -/
def alternatives : List String → String
  | [] => ""
  | [a] => a
  | [a, b] => a ++ " or " ++ b
  | a :: rest => a ++ ", " ++ alternatives rest

def tokenName (t : Token) : Bytes :=
  if t.text = [] then utf8 t.kind.name else utf8 "'" ++ t.text ++ utf8 "'"

def message : SyntaxFault → Bytes
  | expected [] t => utf8 "unexpected " ++ tokenName t
  | expected ws t => utf8 "expected " ++ utf8 (alternatives ws) ++ utf8 ", found " ++ tokenName t
  | overflow raw kind _ _ => utf8 "literal " ++ raw ++ utf8 " overflows " ++ utf8 kind
  | invalidTarget op _ => utf8 "invalid target for " ++ utf8 op.kind.name
  | duplicateModifier t => utf8 "duplicate modifier " ++ t.text
  | restNotLast _ _ => utf8 "rest parameter must be last"
  | duplicateConstructor _ => utf8 "duplicate constructor"
  | armAfterCatchAll _ => utf8 "match arm after '_' is unreachable: '_' must be the last arm"
  | caseAfterDefault _ => utf8 "case after default: default must be the last clause"
  | duplicateDefault _ => utf8 "duplicate default clause"
  | catchAfterCatchAll _ => utf8 "catch after an untyped catch is unreachable"
  | onlyAtTopLevel t => t.text ++ utf8 " is only allowed at top level"
  | unknownNamedArgument key _ fn _ => utf8 "unknown named argument " ++ Text.quoted key ++ utf8 " in call to " ++ utf8 fn
  | exhausted => utf8 "nesting bound exceeded"

end SyntaxFault

/-!
## The state of parsing

A parser reads tokens from the front of a list and remembers the span of the last token it took.  The list ends
with the end token, which is never taken, so there is always a token to look at.

The grammar is written by open recursion.  `Grammar` holds the parsers that others call for what is nested inside
them, and every rule is a plain function that takes a `Grammar`.  The knot is tied once, with a bound on the depth
of nesting.  A nested parser is called only after a token was taken, or takes one right away, so a bound above the
number of tokens is never reached.
-/

/-- Tokens left and the span of the last token taken. -/
structure ParserState where
  rest : List Token
  prev : Span

abbrev Parse := StateT ParserState (Except SyntaxFault)

namespace Parse

def peek : Parse Token := do
  match (← get).rest with
  | [] => throw .exhausted
  | t :: _ => return t

def nextKind : Parse TokenKind := do
  return (← peek).kind

/-- The kind of the token `n` places ahead; the end beyond the last. -/
def kindAt (n : Nat) : Parse TokenKind := do
  return (((← get).rest[n]?).map Token.kind).getD .eof

def at? (k : TokenKind) : Parse Bool := do
  return (← nextKind) = k

/-- Takes the next token; the end is looked at but not taken. -/
def advance : Parse Token := do
  let t ← peek
  if t.kind ≠ .eof then modify fun s => { rest := s.rest.tail, prev := t.span }
  return t

def accept (k : TokenKind) : Parse Bool := do
  if ← at? k then
    let _ ← advance
    return true
  else return false

/-- Takes the next token if it is a symbol. -/
def acceptSymbol (s : Symbol) : Parse Bool :=
  accept (.symbol s)

/-- Stops: none of the wanted things stands here. -/
def failExpected (wanted : List String) : Parse α := do
  throw (.expected wanted (← peek))

def expect (k : TokenKind) : Parse Token := do
  if ← at? k then advance else failExpected [k.name]

/-- Takes a symbol, or stops. -/
def expectSymbol (s : Symbol) : Parse Unit := do
  let _ ← expect (.symbol s)

/-- Takes a name, or stops and says what the name was for. -/
def expectIdent (what : String) : Parse Token := do
  if ← at? .ident then advance else failExpected [what]

/-- Takes a name or a reserved word, or stops and says what it was for. -/
def expectWord (what : String) : Parse Token := do
  if (← nextKind).isWord then advance else failExpected [what]

/-- The span from a start up to the last token taken. -/
def spanFrom (start : Span) : Parse Span := do
  return start.cover (← get).prev

/-- The span of the next token. -/
def here : Parse Span := do
  return (← peek).span

/-- Repeats a step until it gives a result, at most `n` times.  A step that gives none has to take a token. -/
def iterate (step : σ → Parse (σ ⊕ α)) : Nat → σ → Parse α
  | 0, _ => throw .exhausted
  | n + 1, s => do
    let left := (← get).rest.length
    match ← step s with
    | .inl s => if (← get).rest.length < left then iterate step n s else throw .exhausted
    | .inr a => return a

/-- Repeats a step that takes a token each time until it gives a result. -/
def repeatStep (step : σ → Parse (σ ⊕ α)) (s : σ) : Parse α := do
  iterate step ((← get).rest.length + 1) s

/-- Items up to a closing symbol, with commas between them and perhaps one at the end.  The opening symbol is
taken already. -/
def commaList (close : Symbol) (item : Parse α) : Parse (List α) :=
  repeatStep (fun (items : List α) => do
    if ← acceptSymbol close then return .inr items.reverse
    let x ← item
    if ← acceptSymbol .comma then return .inl (x :: items)
    expectSymbol close
    return .inr (x :: items).reverse) []

def commaSeparated (item : Parse α) : Parse (List α) :=
  repeatStep (fun (items : List α) => do
    let x ← item
    if ← acceptSymbol .comma then return .inl (x :: items)
    return .inr (x :: items).reverse) []

/-- Runs a parser on other tokens and comes back. -/
def within (tokens : List Token) (p : Parse α) : Parse α := do
  let s ← get
  set ({ rest := tokens, prev := {} } : ParserState)
  let a ← p
  set s
  return a

end Parse

def Token.nameText (t : Token) : String :=
  Text.shown t.text

/-- The parsers of what is nested inside something else.  The flag says whether an arrow function may start here;
it may not at the top of a match pattern, where the arrow ends the pattern. -/
structure Grammar where
  expr : Bool → Parse Expr
  ternary : Bool → Parse Expr
  binary : Bool → Nat → Parse Expr
  unary : Bool → Parse Expr
  type : Parse TypeRef
  stmt : Bool → Parse Stmt
  block : Bool → Parse Block

/-- The grammar in which nothing may be nested any more. -/
def Grammar.exhausted : Grammar where
  expr _ := throw .exhausted
  ternary _ := throw .exhausted
  binary _ _ := throw .exhausted
  unary _ := throw .exhausted
  type := throw .exhausted
  stmt _ := throw .exhausted
  block _ := throw .exhausted

end LedgerScript
