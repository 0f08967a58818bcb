import LedgerScript.Source.File

/-!
# Escapes

Inside quotes a backslash starts an escape.  One letter may follow it (`n t r 0`), a quote, a backslash or a dollar
sign, `x` and two hexadecimal digits, or `u` and one to six hexadecimal digits in braces.  `readEscape` checks and
decodes one escape; `unquote` decodes a whole literal that was checked before.

Checking and decoding are two functions on purpose: the first is used while a literal is cut from the source, the
second when its value is needed.
-/

/-!
## Lexical faults

Lexing stops at the first fault.  A fault has a cause and the span it was seen at; the cause decides the class of
the fault and its wording.
-/

namespace LedgerScript

/-- The three classes of lexical faults. -/
inductive LexClass where
  | invalidCharacter
  | unterminatedString
  | unterminatedComment
  deriving DecidableEq, Repr, Inhabited

/-- How a class of faults is called. -/
def LexClass.name : LexClass → String
  | invalidCharacter => "invalid character"
  | unterminatedString => "unterminated string"
  | unterminatedComment => "unterminated comment"

/-- Why lexing stopped. -/
inductive LexCause where
  | unexpectedCharacter
  | missingDigits
  | badNumber
  | invalidUtf8
  | badEscape
  | escapeAtEnd
  | newlineInString
  | openString
  | openChar
  | emptyChar
  | longChar
  | openTemplate
  | openHole
  | openComment
  deriving DecidableEq, Repr, Inhabited

namespace LexCause

def lexClass : LexCause → LexClass
  | unexpectedCharacter | missingDigits | badNumber | invalidUtf8 | badEscape | emptyChar | longChar =>
    .invalidCharacter
  | escapeAtEnd | newlineInString | openString | openChar | openTemplate | openHole => .unterminatedString
  | openComment => .unterminatedComment

def message : LexCause → String
  | unexpectedCharacter => "unexpected character"
  | missingDigits => "missing digits after base prefix"
  | badNumber => "invalid numeric literal"
  | invalidUtf8 => "invalid utf-8"
  | badEscape => "invalid escape sequence"
  | escapeAtEnd => "escape at end of input"
  | newlineInString => "newline in string literal"
  | openString => "string literal is not closed"
  | openChar => "char literal is not closed"
  | emptyChar => "empty char literal"
  | longChar => "char literal holds more than one character"
  | openTemplate => "template string is not closed"
  | openHole => "template expression is not closed"
  | openComment => "block comment is not closed"

end LexCause

/-- A fault relative to the start of the token that has it. -/
structure LexStop where
  cause : LexCause
  /-- Distance of the faulty bytes from the start of the token. -/
  start : Nat
  /-- Distance of their end. -/
  stop : Nat
  deriving DecidableEq, Repr, Inhabited

structure LexFault where
  cause : LexCause
  span : Span
  deriving DecidableEq, Repr, Inhabited

namespace LexFault

def ofStop (file off : Nat) (s : LexStop) : LexFault :=
  ⟨s.cause, ⟨file, off + s.start, off + s.stop⟩⟩

def text (f : LexFault) : Bytes :=
  utf8 f.cause.lexClass.name ++ utf8 " at offset " ++ Text.decimal f.span.start ++ utf8 ": " ++
    utf8 f.cause.message

end LexFault

end LedgerScript

/-! ## Reading and undoing escapes -/

namespace LedgerScript

/-- Value of a decimal digit. -/
def isDecimalByte (b : UInt8) : Bool :=
  48 ≤ b && b ≤ 57

/-- A hexadecimal digit. -/
def isHexByte (b : UInt8) : Bool :=
  isDecimalByte b || (97 ≤ b && b ≤ 102) || (65 ≤ b && b ≤ 70)

/-- Value of a hexadecimal digit, computed in bytes: digits, then small letters, then capitals. -/
def hexByteValue (b : UInt8) : UInt8 :=
  if b ≤ 57 then b - 48 else if 97 ≤ b then b - 97 + 10 else b - 65 + 10

def hexNumber (digits : Bytes) : Nat :=
  digits.foldl (fun n d => n * 16 + (hexByteValue d).toNat) 0

/-- The number of bytes of an escape and the character it stands for; for a bad one, the cause and the number of
bytes looked at.  The text starts with the backslash. -/
def readEscape : Bytes → Except (LexCause × Nat) (Char × Nat)
  | [] => .error (.escapeAtEnd, 0)
  | [_] => .error (.escapeAtEnd, 1)
  | _ :: b :: rest =>
    if b = ascii 'n' then .ok ('\n', 2)
    else if b = ascii 't' then .ok ('\t', 2)
    else if b = ascii 'r' then .ok ('\r', 2)
    else if b = ascii '0' then .ok (Char.ofNat 0, 2)
    else if b = ascii '\\' || b = ascii '"' || b = ascii '\'' || b = 96 || b = ascii '$' then
      .ok (Char.ofNat b.toNat, 2)
    else if b = ascii 'x' then
      match rest with
      | h1 :: h2 :: _ =>
        if isHexByte h1 && isHexByte h2 then .ok (Char.ofNat (hexNumber [h1, h2]), 4) else .error (.badEscape, 2)
      | _ => .error (.badEscape, 2)
    else if b = ascii 'u' then
      match rest with
      | 123 :: more =>
        let digits := (more.take 6).takeWhile isHexByte
        let n := digits.length
        if n = 0 then .error (.badEscape, 3)
        else if more[n]? = some 125 then
          match Text.charOfCode? (hexNumber digits) with
          | some c => .ok (c, n + 4)
          | none => .error (.badEscape, n + 4)
        else .error (.badEscape, n + 3)
      | _ => .error (.badEscape, 2)
    else if b = 0 && rest.isEmpty then .error (.escapeAtEnd, 2)
    else .error (.badEscape, 2)

/-- The bytes of a code point; one that is no character becomes the replacement character. -/
def codeBytes (code : Nat) : Bytes :=
  Text.encodeChar ((Text.charOfCode? code).getD '\uFFFD')

/-- A literal's body with its escapes decoded; the count says how many bytes of the current escape are still to be
passed over. -/
def decodeEscapes : Nat → Bytes → Bytes
  | _, [] => []
  | skip + 1, _ :: rest => decodeEscapes skip rest
  | 0, b :: rest =>
    if b ≠ ascii '\\' then b :: decodeEscapes 0 rest
    else
      match rest with
      | [] => [b]
      | e :: more =>
        if e = ascii 'n' then 10 :: decodeEscapes 1 rest
        else if e = ascii 't' then 9 :: decodeEscapes 1 rest
        else if e = ascii 'r' then 13 :: decodeEscapes 1 rest
        else if e = ascii '0' then 0 :: decodeEscapes 1 rest
        else if e = ascii 'x' then
          match more with
          | h1 :: h2 :: _ => codeBytes (hexNumber [h1, h2]) ++ decodeEscapes 3 rest
          | _ => decodeEscapes 1 rest
        else if e = ascii 'u' then
          let digits := (more.drop 1).takeWhile (· ≠ 125)
          codeBytes (hexNumber digits) ++ decodeEscapes (digits.length + 3) rest
        else e :: decodeEscapes 1 rest

/-- The value of a checked string or character literal, quotes included. -/
def unquote (text : Bytes) : Bytes :=
  if text.length < 2 then [] else decodeEscapes 0 ((text.drop 1).dropLast)

end LedgerScript
