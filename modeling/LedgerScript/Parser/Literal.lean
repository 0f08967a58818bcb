import LedgerScript.Lexer.Escape
import LedgerScript.Number.Binary
import LedgerScript.Parser.State
import LedgerScript.Text.Normal

/-!
# Literals

A numeric literal has the kind its suffix says, and must fit into it: a literal out of range is a fault and never
wraps around.  A minus sign right in front of a number belongs to the literal, so that the least number of a kind
can be written.  Texts are kept in composed normal form.
-/

namespace LedgerScript

-- Powers are those of the numbers themselves, whatever algebra is at hand.
attribute [local instance (high)] instPowNat

/-- The value of digits in a base; underscores were removed before. -/
def numberInBase (base : Nat) (digits : Bytes) : Nat :=
  digits.foldl (fun n d => n * base + (hexByteValue d).toNat) 0

/-- The base of an integer literal without underscores, and the digits and suffix after the base letter. -/
def splitBase (text : Bytes) : Nat × Bytes :=
  match text with
  | 48 :: b :: rest =>
    if rest = [] then (10, text)
    else if b = ascii 'x' || b = ascii 'X' then (16, rest)
    else if b = ascii 'b' || b = ascii 'B' then (2, rest)
    else if b = ascii 'o' || b = ascii 'O' then (8, rest)
    else (10, text)
  | _ => (10, text)

inductive IntegerKind where
  | int
  | long
  | short
  deriving DecidableEq, Repr, Inhabited

namespace IntegerKind

def bits : IntegerKind → Nat
  | int => 32
  | long => 64
  | short => 16

def name : IntegerKind → String
  | int => "int"
  | long => "long"
  | short => "short"

def holds (k : IntegerKind) (n : Int) : Bool :=
  -(2 ^ (k.bits - 1)) ≤ n && n < 2 ^ (k.bits - 1)

def literal (k : IntegerKind) (n : Int) : LiteralValue :=
  match k with
  | int => .int n
  | long => .long n
  | short => .short n

end IntegerKind

/-- The digits of an integer literal and the kind that its last byte says. -/
def splitSuffix (text : Bytes) : Option (Bytes × IntegerKind) :=
  match text.getLast? with
  | some b =>
    if b = ascii 'L' || b = ascii 'l' then some (text.dropLast, .long)
    else if b = ascii 's' || b = ascii 'S' then some (text.dropLast, .short)
    else some (text, .int)
  | none => none

def isDigitOf (base : Nat) (b : UInt8) : Bool :=
  isHexByte b && (hexByteValue b).toNat < base

/-- The word that digits spell in a base, if they spell any and it is not too large. -/
def readWord (base : Nat) (digits : Bytes) : Option UInt64 :=
  if digits = [] || !digits.all (isDigitOf base) then none
  else
    let n := numberInBase base digits
    if n < 2 ^ (64 : Nat) then some (.ofNat n) else none

/-- A word, perhaps with a minus sign in front, as a signed word.  The least one is its own opposite. -/
def signedWord (negative : Bool) (u : UInt64) : Option Int64 :=
  if negative then if u ≤ 0x8000000000000000 then some (-u.toInt64) else none
  else if u < 0x8000000000000000 then some u.toInt64 else none

/-- The signed word is a number of the kind. -/
def IntegerKind.fits (k : IntegerKind) (n : Int64) : Bool :=
  match k with
  | int => int.holds n.toInt
  | long => true
  | short => short.holds n.toInt

/-- The digits of a float literal, and whether its last byte asks for the narrow kind. -/
def splitFloatSuffix (text : Bytes) : Option (Bytes × Bool) :=
  match text.getLast? with
  | some b =>
    if b = ascii 'f' || b = ascii 'F' then some (text.dropLast, true)
    else if b = ascii 'd' || b = ascii 'D' then some (text.dropLast, false)
    else some (text, false)
  | none => none

/-- A numeric literal, with or without a minus sign in front. -/
def numberLiteral (tok : Token) (negative : Bool) (span : Span) : Parse Expr := do
  let raw := if negative then ascii '-' :: tok.text else tok.text
  let text := tok.text.filter (· ≠ 95)
  if tok.kind = .literal .float then
    match splitFloatSuffix text with
    | none => throw .exhausted
    | some (digits, narrow) =>
      let format := if narrow then BinaryFormat.single else .double
      match (readNumber format digits).toFloat? format with
      | none => throw (.overflow raw (if narrow then "float" else "double") tok span)
      | some x =>
        let x := if negative then -x else x
        return .literal span raw (if narrow then .float x else .double x)
  else
    let (base, body) := splitBase text
    match splitSuffix body with
    | none => throw .exhausted
    | some (digits, kind) =>
      match (readWord base digits).bind (signedWord negative) with
      | none => throw (.overflow raw kind.name tok span)
      | some n =>
        if kind.fits n then return .literal span raw (kind.literal n.toInt)
        else throw (.overflow raw kind.name tok span)

def charLiteral (tok : Token) : Expr :=
  let c := match Text.glyphs (unquote tok.text) with
    | g :: _ => g.shown
    | [] => '\uFFFD'
  .literal tok.span tok.text (.char c)

/-- The text of a string literal in composed normal form. -/
def stringText (tok : Token) : Bytes :=
  Text.compose (unquote tok.text)

def templateLiteral (g : Grammar) (tok : Token) : Parse Expr := do
  let holes ← tok.parts.filterMapM fun part => do
    match part.hole with
    | none => return none
    | some hole =>
      Parse.within hole.tokens do
        if ← Parse.at? .eof then Parse.failExpected ["expression"]
        let x ← g.expr true
        let _ ← Parse.expect .eof
        return some x
  return .template tok.span (tok.parts.map fun part => Text.compose part.text) holes

end LedgerScript
