

/-!
# Bytes and UTF-8

A text of the language is a sequence of bytes.  It is meant to be UTF-8 but need not be: a string literal may
hold any byte, and so may a string that a program builds.  `decode?` reads the first character of a text, if the
text starts with one, and `glyphs` is the view of a whole text as characters and stray bytes.

Only the shortest form of a character counts, no surrogate is a character, and nothing lies above U+10FFFF.
`glyphs` walks the bytes structurally: a count says how many bytes of the current character are still to be
passed over.
-/

namespace LedgerScript

/-- A text: bytes that are usually, but not always, UTF-8. -/
abbrev Bytes := List UInt8

/-- The bytes of a text that is known to be made of characters. -/
def utf8 (s : String) : Bytes :=
  s.toUTF8.data.toList

/-- A single byte, named by its ASCII character. -/
def ascii (c : Char) : UInt8 :=
  c.toNat.toUInt8

namespace Text

def encodeChar (c : Char) : Bytes :=
  String.utf8EncodeChar c

def encode (cs : List Char) : Bytes :=
  cs.flatMap encodeChar

/-- A byte that continues a character of several bytes. -/
def isContinuation (b : UInt8) : Bool :=
  0x80 ≤ b && b < 0xC0

/-- The low six bits of a continuation byte. -/
def continuationBits (b : UInt8) : Nat :=
  b.toNat % 64

/-- A code point as a character, unless it is a surrogate or too large. -/
def charOfCode? (code : Nat) : Option Char :=
  if code < 0xD800 || (0xDFFF < code && code < 0x110000) then some (Char.ofNat code) else none

/-- A code point that needs at least so many bytes, as a character of that width. -/
def charOfWidth? (code least width : Nat) : Option (Char × Nat) :=
  if code < least then none else (charOfCode? code).map (·, width)

/-- The character that the text starts with, and the number of its bytes. -/
def decode? : Bytes → Option (Char × Nat)
  | [] => none
  | b0 :: rest =>
    if b0 < 0x80 then some (Char.ofNat b0.toNat, 1)
    else if b0 < 0xC0 then none
    else if b0 < 0xE0 then
      match rest with
      | b1 :: _ =>
        if isContinuation b1 then charOfWidth? ((b0.toNat - 0xC0) * 64 + continuationBits b1) 0x80 2 else none
      | [] => none
    else if b0 < 0xF0 then
      match rest with
      | b1 :: b2 :: _ =>
        if isContinuation b1 && isContinuation b2 then
          charOfWidth? (((b0.toNat - 0xE0) * 64 + continuationBits b1) * 64 + continuationBits b2) 0x800 3
        else none
      | _ => none
    else if b0 < 0xF8 then
      match rest with
      | b1 :: b2 :: b3 :: _ =>
        if isContinuation b1 && isContinuation b2 && isContinuation b3 then
          charOfWidth?
            ((((b0.toNat - 0xF0) * 64 + continuationBits b1) * 64 + continuationBits b2) * 64 + continuationBits b3)
            0x10000 4
        else none
      | _ => none
    else none

/-- One step through a text: a character, or a byte that starts none. -/
inductive Glyph where
  | char (c : Char)
  | stray (b : UInt8)
  deriving DecidableEq, Repr, Inhabited

def Glyph.bytes : Glyph → Bytes
  | .char c => encodeChar c
  | .stray b => [b]

/-- What a glyph shows: a stray byte shows as the replacement character. -/
def Glyph.shown : Glyph → Char
  | .char c => c
  | .stray _ => '\uFFFD'

/-- The glyphs of a text whose first `skip` bytes belong to a character already seen. -/
def glyphsAfter : Nat → Bytes → List Glyph
  | _, [] => []
  | skip + 1, _ :: rest => glyphsAfter skip rest
  | 0, b :: rest =>
    match decode? (b :: rest) with
    | some (c, width) => .char c :: glyphsAfter (width - 1) rest
    | none => .stray b :: glyphsAfter 0 rest

def glyphs (text : Bytes) : List Glyph :=
  glyphsAfter 0 text

def shownChars (text : Bytes) : List Char :=
  (glyphs text).map Glyph.shown

def shown (text : Bytes) : String :=
  String.ofList (shownChars text)

def isUtf8 (text : Bytes) : Bool :=
  (glyphs text).all fun g => match g with
    | .char _ => true
    | .stray _ => false

def toString? (text : Bytes) : Option String :=
  if isUtf8 text then some (shown text) else none

def join (separator : Bytes) : List Bytes → Bytes
  | [] => []
  | [t] => t
  | t :: u :: rest => t ++ separator ++ join separator (u :: rest)

/-- The text cut at every occurrence of a byte; there is always at least one piece. -/
def splitOn (separator : UInt8) : Bytes → List Bytes
  | [] => [[]]
  | b :: rest =>
    match splitOn separator rest with
    | [] => [[b]]
    | first :: others => if b = separator then [] :: first :: others else (b :: first) :: others

def startsWith (text start : Bytes) : Bool :=
  start.isPrefixOf text

def dropStart? (text start : Bytes) : Option Bytes :=
  if start.isPrefixOf text then some (text.drop start.length) else none

def trimStart (text start : Bytes) : Bytes :=
  (dropStart? text start).getD text

def trimEnd (text finish : Bytes) : Bytes :=
  if finish.isSuffixOf text then text.take (text.length - finish.length) else text

/-- Decimal digits of a natural number. -/
def decimal (n : Nat) : Bytes :=
  utf8 (Nat.repr n)

/-- Decimal digits of an integer, with a minus sign when it is negative. -/
def decimalInt (i : Int) : Bytes :=
  match i with
  | .ofNat n => decimal n
  | .negSucc n => ascii '-' :: decimal (n + 1)

def lexLe : Bytes → Bytes → Bool
  | [], _ => true
  | _ :: _, [] => false
  | a :: as, b :: bs => a < b || (a == b && lexLe as bs)

theorem splitOn_ne_nil (separator : UInt8) (text : Bytes) : splitOn separator text ≠ [] := by
  cases text with
  | nil => simp [splitOn]
  | cons b rest =>
    unfold splitOn
    split
    · simp
    · split <;> simp

end Text

end LedgerScript

/-!
## Searching and cutting texts

A text inside another one is found by its bytes.  Cutting a text at every occurrence of another one, and replacing
the occurrences, go from left to right, and occurrences do not overlap.  The empty text occurs in front of every
character and at the end.
-/

namespace LedgerScript.Text

/-- Where a text first occurs in another one, counted in bytes. -/
def indexOf? (part : Bytes) : Bytes → Option Nat
  | [] => if part = [] then some 0 else none
  | b :: rest => if part.isPrefixOf (b :: rest) then some 0 else (indexOf? part rest).map (· + 1)

def occursIn (part text : Bytes) : Bool :=
  (indexOf? part text).isSome

/-- The pieces between the occurrences of a text that is not empty.  `skip` counts the bytes of an occurrence that
are still to be passed over, and `piece` is the current piece, last byte first. -/
def piecesBetween (separator : Bytes) (skip : Nat) (piece : Bytes) : Bytes → List Bytes
  | [] => [piece.reverse]
  | b :: rest =>
    match skip with
    | n + 1 => piecesBetween separator n piece rest
    | 0 =>
      if separator.isPrefixOf (b :: rest) then
        piece.reverse :: piecesBetween separator (separator.length - 1) [] rest
      else piecesBetween separator 0 (b :: piece) rest

/-- A text cut at every occurrence of another one; the empty text cuts it into its characters. -/
def splitAt (separator text : Bytes) : List Bytes :=
  if separator = [] then (glyphs text).map Glyph.bytes else piecesBetween separator 0 [] text

def replaceAll (part replacement text : Bytes) : Bytes :=
  if part = [] then (glyphs text).flatMap (fun g => replacement ++ g.bytes) ++ replacement
  else join replacement (piecesBetween part 0 [] text)

end LedgerScript.Text
