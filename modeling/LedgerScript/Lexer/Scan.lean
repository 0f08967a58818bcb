import LedgerScript.Lexer.Escape
import LedgerScript.Token.Basic

/-!
# What stands at the front of a text

What a text starts with decides what is cut from it.  Each function of this module takes a text that starts with a thing of
one sort and gives its length, with its kind if there are several.
-/

namespace LedgerScript

/-!
## Blanks and comments

Between tokens stand runs of blanks, runs of newlines, line comments and block comments, which nest.  Three slashes,
and no fourth, start a documentation line; `/**` starts a documentation block unless the comment is `/**/`.
-/

/-- A blank inside a line. -/
def isInlineBlank (b : UInt8) : Bool :=
  b == 32 || b == 9 || b == 13

/-- Length of a block comment of which `n` bytes were taken and that is `depth` comments deep, if it is closed. -/
def blockCommentLength? : Nat → Nat → Bytes → Option Nat
  | 0, n, _ => some n
  | _ + 1, _, [] => none
  | depth + 1, n, 47 :: 42 :: rest => blockCommentLength? (depth + 2) (n + 2) rest
  | depth + 1, n, 42 :: 47 :: rest => blockCommentLength? depth (n + 2) rest
  | depth + 1, n, _ :: rest => blockCommentLength? (depth + 1) (n + 1) rest

/-- The trivia at the front of a text, if there is one: its kind and its length. -/
def scanTrivia (text : Bytes) : Except LexStop (Option (TriviaKind × Nat)) :=
  match text with
  | [] => .ok none
  | 47 :: 47 :: rest =>
    let kind := if rest.head? = some 47 && rest[1]? ≠ some 47 then TriviaKind.docLine else .lineComment
    .ok (some (kind, (text.takeWhile (· ≠ 10)).length))
  | 47 :: 42 :: rest =>
    let kind := if rest.head? = some 42 && rest[1]? ≠ some 47 then TriviaKind.docBlock else .blockComment
    match blockCommentLength? 1 2 rest with
    | some n => .ok (some (kind, n))
    | none => .error ⟨.openComment, 0, text.length⟩
  | b :: _ =>
    if isInlineBlank b then .ok (some (.space, (text.takeWhile isInlineBlank).length))
    else if b = 10 then .ok (some (.newline, (text.takeWhile (· == 10)).length))
    else .ok none

/-!
## Quoted literals

A string literal stands between double quotes on one line; a character literal holds one character or one escape
between apostrophes.  Both functions give the length of the literal at the front of a text.
-/

/-- Length of the string literal of which `n` bytes were taken; the first `skip` bytes of the text belong to an
escape already checked. -/
def stringLength : Nat → Nat → Bytes → Except LexStop Nat
  | _, n, [] => .error ⟨.openString, 0, n⟩
  | skip + 1, n, _ :: rest => stringLength skip (n + 1) rest
  | 0, n, b :: rest =>
    if b = ascii '"' then .ok (n + 1)
    else if b = ascii '\\' then
      match readEscape (b :: rest) with
      | .ok (_, width) => stringLength (width - 1) (n + 1) rest
      | .error (cause, width) => .error ⟨cause, n, n + width⟩
    else if b = 10 then .error ⟨.newlineInString, 0, n⟩
    else stringLength 0 (n + 1) rest

/-- Length of the string literal at the front; the text starts with the opening quote. -/
def scanString (text : Bytes) : Except LexStop Nat :=
  stringLength 0 1 (text.drop 1)

/-- Width of the character, or of the stray byte, at the front. -/
def glyphWidth (text : Bytes) : Nat :=
  match Text.decode? text with
  | some (_, width) => width
  | none => min 1 text.length

/-- The end of a character literal whose content ends after `n` bytes. -/
def closeChar (text : Bytes) (n : Nat) : Except LexStop Nat :=
  match text[n]? with
  | none => .error ⟨.openChar, 0, n⟩
  | some b =>
    if b = ascii '\'' then .ok (n + 1)
    else if b = 10 then .error ⟨.openChar, 0, n⟩
    else .error ⟨.longChar, n, n + glyphWidth (text.drop n)⟩

/-- Length of the character literal at the front; the text starts with the opening apostrophe. -/
def scanChar (text : Bytes) : Except LexStop Nat :=
  match text.drop 1 with
  | [] => .error ⟨.openChar, 0, 1⟩
  | b :: rest =>
    if b = 10 then .error ⟨.openChar, 0, 1⟩
    else if b = ascii '\'' then .error ⟨.emptyChar, 0, 2⟩
    else if b = ascii '\\' then
      match readEscape (b :: rest) with
      | .ok (_, width) => closeChar text (1 + width)
      | .error (cause, width) => .error ⟨cause, 1, 1 + width⟩
    else closeChar text (1 + glyphWidth (b :: rest))

/-!
## Numeric literals

A number is written in base ten with an optional fraction and exponent, or in base sixteen, two or eight after
`0x`, `0b` or `0o`.  Underscores may stand between digits.  A suffix fixes the kind: `L` and `s` for integers, `f`
and `d` for floats.  A letter, digit or non-ASCII byte right after the literal is a fault.
-/

/-- A letter of the ASCII alphabets or an underscore. -/
def isWordStartByte (b : UInt8) : Bool :=
  (97 ≤ b && b ≤ 122) || (65 ≤ b && b ≤ 90) || b == 95

/-- An ASCII letter, an underscore or a digit. -/
def isWordByte (b : UInt8) : Bool :=
  isWordStartByte b || isDecimalByte b

def baseDigit? (b : UInt8) : Option (UInt8 → Bool) :=
  if b = ascii 'x' || b = ascii 'X' then some isHexByte
  else if b = ascii 'b' || b = ascii 'B' then some fun d => d == 48 || d == 49
  else if b = ascii 'o' || b = ascii 'O' then some fun d => 48 ≤ d && d ≤ 55
  else none

def isIntSuffix (b : UInt8) : Bool :=
  b == ascii 'L' || b == ascii 'l' || b == ascii 's' || b == ascii 'S'

def isFloatSuffix (b : UInt8) : Bool :=
  b == ascii 'f' || b == ascii 'F' || b == ascii 'd' || b == ascii 'D'

def startsWithDigit (text : Bytes) : Bool :=
  text.head?.any isDecimalByte

/-- Length of the decimal digits and underscores at the front. -/
def decimalsLength (text : Bytes) : Nat :=
  (text.takeWhile fun b => isDecimalByte b || b == 95).length

/-- Length of the fraction at the front, if there is one: a point and a digit at least. -/
def fractionLength (text : Bytes) : Nat :=
  match text with
  | 46 :: rest => if startsWithDigit rest then 1 + decimalsLength rest else 0
  | _ => 0

def exponentLength (text : Bytes) : Nat :=
  match text with
  | e :: rest =>
    if e = ascii 'e' || e = ascii 'E' then
      match rest with
      | s :: more =>
        if isDecimalByte s then 1 + decimalsLength rest
        else if (s == ascii '+' || s == ascii '-') && startsWithDigit more then 2 + decimalsLength more
        else 0
      | [] => 0
    else 0
  | [] => 0

/-- A literal of `n` bytes is over unless a letter, digit or non-ASCII byte follows. -/
def finishNumber (kind : LiteralKind) (n : Nat) (text : Bytes) : Except LexStop (LiteralKind × Nat) :=
  match text[n]? with
  | some b => if isWordByte b || 0x80 ≤ b then .error ⟨.badNumber, n, n + 1⟩ else .ok (kind, n)
  | none => .ok (kind, n)

/-- A number in base sixteen, two or eight; its text starts with `0` and the base letter. -/
def scanBased (digit : UInt8 → Bool) (text : Bytes) : Except LexStop (LiteralKind × Nat) :=
  let body := (text.drop 2).takeWhile fun b => digit b || b == 95
  let n := 2 + body.length
  if body.all (· == 95) then .error ⟨.missingDigits, 0, n⟩
  else
    let n := if (text[n]?).any isIntSuffix then n + 1 else n
    finishNumber .int n text

/-- A number in base ten. -/
def scanDecimal (text : Bytes) : Except LexStop (LiteralKind × Nat) :=
  let whole := if text.head? = some 46 then 0 else decimalsLength text
  let fraction := fractionLength (text.drop whole)
  let exponent := exponentLength (text.drop (whole + fraction))
  let n := whole + fraction + exponent
  let kind := if fraction = 0 && exponent = 0 then LiteralKind.int else .float
  match text[n]? with
  | some b =>
    if isFloatSuffix b then finishNumber .float (n + 1) text
    else if isIntSuffix b && kind = .int then finishNumber .int (n + 1) text
    else finishNumber kind n text
  | none => finishNumber kind n text

/-- The number at the front of a text: its kind and its length. -/
def scanNumber (text : Bytes) : Except LexStop (LiteralKind × Nat) :=
  match text with
  | 48 :: b :: _ =>
    match baseDigit? b with
    | some digit => scanBased digit text
    | none => scanDecimal text
  | _ => scanDecimal text

/-!
## Words

A word starts with a letter or an underscore and goes on with letters, decimal digits and underscores, of any
script.  A word that is reserved is a keyword, any other one is a name.
-/

def isWordStart (c : Char) : Bool :=
  if c.toNat < 0x80 then isWordStartByte c.toNat.toUInt8 else Text.isLetter c

def isWordContinue (c : Char) : Bool :=
  if c.toNat < 0x80 then isWordByte c.toNat.toUInt8 else Text.isLetter c || Text.isDecimalDigit c

/-- Number of bytes at the front that continue a word, when the first `skip` bytes belong to a character already
taken. -/
def wordTail : Nat → Bytes → Nat
  | _, [] => 0
  | skip + 1, _ :: rest => 1 + wordTail skip rest
  | 0, b :: rest =>
    match Text.decode? (b :: rest) with
    | some (c, width) => if isWordContinue c then 1 + wordTail (width - 1) rest else 0
    | none => 0

def scanWord (text : Bytes) : Except LexStop Nat :=
  match Text.decode? text with
  | some (c, width) =>
    if isWordStart c then .ok (width + wordTail 0 (text.drop width)) else .error ⟨.unexpectedCharacter, 0, width⟩
  | none => .error ⟨.unexpectedCharacter, 0, 1⟩

/-- The reserved word of a spelling. -/
def Keyword.ofText? (text : Bytes) : Option Keyword :=
  Keyword.all.find? fun k => utf8 k.spelling == text

def wordKind (text : Bytes) : TokenKind :=
  match Keyword.ofText? text with
  | some k => .keyword k
  | none => .ident

/-!
## Symbols

The longest symbol at the front wins.  The one exception is `?.` before a digit: there the question mark stands
alone, so that a conditional may go on with a fraction.
-/

/-- The symbols in the order in which they are tried: longer ones first.  The lone underscore is found apart. -/
def Symbol.greedy : List Symbol :=
  [.dotDotDot, .plusPlus, .minusMinus, .plusAssign, .minusAssign, .starAssign, .slashAssign, .percentAssign, .eqEq,
   .bangEq, .ltEq, .gtEq, .andAnd, .orOr, .questionQuestion, .arrow, .fatArrow, .questionDot, .plus, .minus, .star,
   .slash, .percent, .assign, .bang, .lt, .gt, .question, .colon, .semicolon, .comma, .dot, .lparen, .rparen,
   .lbrace, .rbrace, .lbracket, .rbracket, .at, .hash]

def Symbol.heads (text : Bytes) (s : Symbol) : Bool :=
  Text.startsWith text (utf8 s.spelling) && !(s == .questionDot && (text[2]?).any isDecimalByte)

def scanSymbol (text : Bytes) : Except LexStop (Symbol × Nat) :=
  match Symbol.greedy.find? (Symbol.heads text) with
  | some s => .ok (s, (utf8 s.spelling).length)
  | none => .error ⟨.unexpectedCharacter, 0, 1⟩

end LedgerScript
