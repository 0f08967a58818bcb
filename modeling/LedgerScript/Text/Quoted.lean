import LedgerScript.Text.Class

/-!
# Quoted text

Text between quotes for messages and listings.  Printable characters stand for themselves; the quote and the
backslash get a backslash; a few controls have a letter of their own; other characters are written by number and
stray bytes as `\\x` and two digits.
-/

/-!
## Printable characters

Letters, marks, numbers, punctuation and symbols of Unicode 15.0, and the ASCII space.  Quoted text shows these
characters as they are and escapes all others.
-/

namespace LedgerScript.Text

/-- Letters, marks, numbers, punctuation, symbols, and U+0020. -/
def printableRuns : List (Nat × List Nat) :=
  [(0x20, [95, 34, 12, 1, 714, 2, 6, 4, 7, 1, 1, 1, 20, 1, 397, 1, 38, 2, 50, 2, 3, 1, 55, 8, 27, 4, 6]),
   (0x606, [22, 1, 192, 1, 48, 2, 59, 2, 101, 14, 59, 2, 49, 2, 15, 1, 28, 2, 1, 1, 11, 5, 31, 9, 74, 1, 161]),
   (0x985, [8, 2, 2, 2, 22, 1, 7, 1, 1, 3, 4, 2, 9, 2, 2, 2, 4, 8, 1, 4, 2, 1, 5, 2, 25, 2, 3, 1, 6, 4, 2]),
   (0xA13, [22, 1, 7, 1, 2, 1, 2, 1, 2, 2, 1, 1, 5, 4, 2, 2, 3, 3, 1, 7, 4, 1, 1, 7, 17, 10, 3, 1, 9, 1, 3]),
   (0xA93, [22, 1, 7, 1, 2, 1, 5, 2, 10, 1, 3, 1, 3, 2, 1, 15, 4, 2, 12, 7, 7, 1, 3, 1, 8, 2, 2, 2, 22, 1, 7]),
   (0xB32, [2, 1, 5, 2, 9, 2, 2, 2, 3, 7, 3, 4, 2, 1, 5, 2, 18, 10, 2, 1, 6, 3, 3, 1, 4, 3, 2, 1, 1, 1, 2]),
   (0xBA3, [2, 3, 3, 3, 12, 4, 5, 3, 3, 1, 4, 2, 1, 6, 1, 14, 21, 5, 13, 1, 3, 1, 23, 1, 16, 2, 9, 1, 3]),
   (0xC4A, [4, 7, 2, 1, 3, 2, 1, 2, 4, 2, 10, 7, 22, 1, 3, 1, 23, 1, 10, 1, 5, 2, 9, 1, 3, 1, 4, 7, 2, 6, 2]),
   (0xCE0, [4, 2, 10, 1, 3, 12, 13, 1, 3, 1, 51, 1, 3, 1, 6, 4, 16, 2, 26, 1, 3, 1, 18, 3, 24, 1, 9, 1, 1]),
   (0xDC0, [7, 3, 1, 4, 6, 1, 1, 1, 8, 6, 10, 2, 3, 12, 58, 4, 29, 37, 2, 1, 1, 1, 5, 1, 24, 1, 1, 1, 23]),
   (0xEC0, [5, 1, 1, 1, 7, 1, 10, 2, 4, 32, 72, 1, 36, 4, 39, 1, 36, 1, 15, 1, 13, 37, 198, 1, 1, 5, 1]),
   (0x10D0, [377, 1, 4, 2, 7, 1, 1, 1, 4, 2, 41, 1, 4, 2, 33, 1, 4, 2, 7, 1, 1, 1, 4, 2, 15, 1, 57, 1, 4]),
   (0x1318, [67, 2, 32, 3, 26, 6, 86, 2, 6, 2, 640, 1, 28, 3, 89, 7, 22, 9, 24, 9, 20, 12, 13, 1, 3, 1, 2]),
   (0x1780, [94, 2, 10, 6, 10, 6, 14, 1, 11, 6, 89, 7, 43, 5, 70, 10, 31, 1, 12, 4, 12, 4, 1, 3, 42, 2, 5]),
   (0x1980, [44, 4, 26, 6, 11, 3, 62, 2, 65, 1, 29, 2, 11, 6, 10, 6, 14, 2, 31, 49, 77, 3, 47, 1, 116, 8, 60]),
   (0x1C3B, [15, 3, 60, 7, 43, 2, 11, 8, 43, 5, 534, 2, 6, 2, 38, 2, 6, 2, 8, 1, 1, 1, 1, 1, 1, 1, 31, 2, 53]),
   (0x1FB6, [15, 1, 14, 2, 6, 1, 19, 2, 3, 1, 9, 17, 24, 8, 47, 17, 2, 2, 27, 1, 13, 3, 33, 15, 33, 15, 140]),
   (0x2190, [663, 25, 11, 21, 1812, 2, 32, 1, 349, 5, 45, 1, 1, 5, 1, 2, 56, 7, 2, 14, 24, 9, 7, 1, 7, 1, 7]),
   (0x2DB8, [7, 1, 7, 1, 7, 1, 7, 1, 7, 1, 126, 34, 26, 1, 89, 12, 214, 26, 12, 5, 63, 1, 86, 2, 103, 5, 43]),
   (0x3131, [94, 1, 84, 12, 47, 1, 29293, 3, 55, 9, 348, 20, 184, 8, 203, 5, 2, 1, 1, 1, 5, 24, 59, 3, 10]),
   (0xA840, [56, 8, 70, 8, 12, 6, 116, 11, 30, 3, 78, 1, 11, 4, 33, 1, 55, 9, 14, 2, 10, 2, 103, 24, 28]),
   (0xAB01, [6, 2, 6, 2, 6, 9, 7, 1, 7, 1, 60, 4, 126, 2, 10, 6, 11172, 12, 23, 4, 49]),
   (0xF900, [366, 2, 106, 38, 7, 12, 5, 5, 26, 1, 5, 1, 1, 1, 2, 1, 2, 1, 125, 16, 445, 2, 54, 7, 1, 32, 42]),
   (0xFE20, [51, 1, 19, 1, 4, 4, 5, 1, 135, 4, 190, 3, 6, 2, 6, 2, 6, 2, 3, 3, 7, 1, 7, 13, 2, 2, 12, 1, 26]),
   (0x10028, [19, 1, 2, 1, 15, 2, 14, 34, 123, 5, 3, 4, 45, 3, 88, 1, 13, 3, 1, 47, 46, 130, 29, 3, 49, 15, 28]),
   (0x10300, [36, 9, 30, 5, 43, 5, 30, 1, 37, 4, 14, 42, 158, 2, 10, 6, 36, 4, 36, 4, 40, 8, 52, 11, 12, 1, 15]),
   (0x1058C, [7, 1, 2, 1, 11, 1, 15, 1, 7, 1, 2, 67, 311, 9, 22, 10, 8, 24, 6, 1, 42, 1, 9, 69, 6, 2, 1, 1, 44]),
   (0x10837, [2, 3, 1, 2, 23, 1, 72, 8, 9, 48, 19, 1, 2, 5, 33, 3, 27, 5, 1, 64, 56, 4, 20, 2, 50, 1, 2, 5, 8]),
   (0x10A15, [3, 1, 29, 2, 3, 4, 10, 7, 9, 7, 64, 32, 39, 4, 12, 9, 54, 3, 29, 2, 27, 5, 26, 7, 4, 12, 7]),
   (0x10C00, [73, 55, 51, 13, 51, 7, 46, 8, 10, 294, 31, 1, 42, 1, 3, 2, 2, 75, 43, 8, 42, 22, 26, 38, 28]),
   (0x10FE0, [23, 9, 78, 4, 36, 9, 62, 1, 5, 13, 25, 7, 10, 6, 53, 1, 18, 8, 39, 9, 96, 1, 20, 11, 18, 1, 47]),
   (0x11280, [7, 1, 1, 1, 4, 1, 15, 1, 11, 6, 59, 5, 10, 6, 4, 1, 8, 2, 2, 2, 22, 1, 7, 1, 2, 1, 5, 1, 10]),
   (0x11347, [2, 2, 3, 2, 1, 6, 1, 5, 7, 2, 7, 3, 5, 139, 92, 1, 5, 30, 72, 8, 10, 166, 54, 2, 38, 34, 69]),
   (0x11650, [10, 6, 13, 19, 58, 6, 10, 54, 27, 2, 15, 4, 23, 185, 60, 100, 83, 12, 8, 2, 1, 2, 8, 1, 2, 1, 30]),
   (0x11937, [2, 2, 12, 9, 10, 70, 8, 2, 46, 2, 11, 27, 72, 8, 83, 13, 73, 7, 10, 246, 9, 1, 45, 1, 14, 10, 29]),
   (0x11C70, [32, 2, 22, 1, 14, 73, 7, 1, 2, 1, 44, 3, 1, 1, 2, 1, 9, 8, 10, 6, 6, 1, 2, 1, 37, 1, 2, 1, 6]),
   (0x11DA0, [10, 310, 25, 7, 17, 1, 41, 3, 28, 86, 1, 15, 50, 13, 923, 102, 111, 1, 5, 11, 196]),
   (0x12F90, [99, 13, 1072, 16, 22]), (0x14400, [583]),
   (0x16800, [569, 7, 31, 1, 10, 4, 81, 1, 10, 6, 30, 2, 6, 10, 70, 10, 10, 1, 7, 1, 21, 5, 19, 688, 91]),
   (0x16F00, [75, 4, 57, 7, 17, 64, 5, 11, 2, 14, 6136, 8, 1238, 42, 9]),
   (0x1AFF0, [4, 1, 7, 1, 2, 1, 291, 15, 1, 29, 3, 2, 1, 14, 4, 8, 396]), (0x1BC00, [107, 5, 13, 3, 9, 7, 10, 2, 4]),
   (0x1CF00, [46, 2, 23, 9, 116, 60, 246, 10, 39, 2, 74, 8, 112, 21, 70, 122, 20, 12, 20, 12, 87, 9, 25]),
   (0x1D400, [85, 1, 71, 1, 2, 2, 1, 2, 2, 2, 4, 1, 12, 1, 1, 1, 7, 1, 65, 1, 4, 2, 8, 1, 7, 1, 28, 1, 4, 1, 5]),
   (0x1D546, [1, 3, 7, 1, 340, 2, 292, 2, 702, 15, 5, 1, 15]),
   (0x1DF00, [31, 6, 6, 213, 7, 1, 17, 2, 7, 1, 2, 1, 5, 5, 62, 33, 1, 112, 45, 3, 14, 2, 10, 4, 2, 320, 31]),
   (0x1E2C0, [58, 5, 1, 464, 42, 742, 7, 1, 4, 1, 2, 1, 15, 1, 197, 2, 16, 41, 76, 4, 10, 4, 2, 785, 68]),
   (0x1ED01, [61, 194, 4, 1, 27, 1, 2, 1, 1, 2, 1, 1, 10, 1, 4, 1, 1, 1, 1, 6, 1, 4, 1, 1, 1, 1, 1, 1, 3, 1, 2]),
   (0x1EE54, [1, 2, 1, 1, 1, 1, 1, 1, 1, 1, 1, 1, 2, 1, 1, 2, 4, 1, 7, 1, 4, 1, 4, 1, 1, 1, 10, 1, 17, 5, 3]),
   (0x1EEA5, [5, 1, 17, 52, 2, 270, 44, 4, 100, 12, 15, 2, 15, 1, 15, 1, 37, 10, 174, 56, 29, 13, 44, 4, 9]),
   (0x1F250, [2, 14, 6, 154, 984, 4, 17, 3, 13, 3, 119, 4, 95, 6, 12, 4, 1, 15, 12, 4, 56, 8, 10, 6, 40, 8, 30]),
   (0x1F8B0, [2, 78, 340, 12, 14, 2, 13, 3, 9, 7, 46, 1, 7, 8, 14, 4, 9, 7, 9, 7, 147, 1, 55, 37, 10]),
   (0x20000, [42720, 32, 4154, 6, 222, 2, 5762, 14, 7473]), (0x2F800, [542]), (0x30000, [4939, 5, 4192]),
   (0xE0100, [240])]

/-- The character has a visible form of its own. -/
def isPrintable (c : Char) : Bool :=
  inRuns printableRuns c.toNat

end LedgerScript.Text

/-! ## Quoting -/

namespace LedgerScript.Text

/-- A hexadecimal digit in small letters. -/
def hexDigit (n : Nat) : UInt8 :=
  if n < 10 then 48 + n.toUInt8 else 87 + n.toUInt8

/-- The lowest `digits` hexadecimal digits of a number. -/
def hexFixed : Nat → Nat → Bytes
  | 0, _ => []
  | digits + 1, n => hexFixed digits (n / 16) ++ [hexDigit (n % 16)]

def hex (text : Bytes) : Bytes :=
  text.flatMap fun b => [hexDigit (b.toNat / 16), hexDigit (b.toNat % 16)]

/-- The value of a hexadecimal digit. -/
def unhexDigit? (b : UInt8) : Option UInt8 :=
  if ascii '0' ≤ b && b ≤ ascii '9' then some (b - ascii '0')
  else if ascii 'a' ≤ b && b ≤ ascii 'f' then some (b - ascii 'a' + 10)
  else if ascii 'A' ≤ b && b ≤ ascii 'F' then some (b - ascii 'A' + 10)
  else none

/-- The bytes that pairs of hexadecimal digits stand for. -/
def unhex? : Bytes → Option Bytes
  | [] => some []
  | [_] => none
  | a :: b :: rest => do
    let high ← unhexDigit? a
    let low ← unhexDigit? b
    return (high * 16 + low) :: (← unhex? rest)

/-- The letter that stands for a control character after a backslash. -/
def controlLetter? (code : Nat) : Option Char :=
  match code with
  | 7 => some 'a'
  | 8 => some 'b'
  | 12 => some 'f'
  | 10 => some 'n'
  | 13 => some 'r'
  | 9 => some 't'
  | 11 => some 'v'
  | _ => none

def quotedChar (mark c : Char) : Bytes :=
  if c = mark || c = '\\' then ascii '\\' :: encodeChar c
  else if isPrintable c then encodeChar c
  else
    match controlLetter? c.toNat with
    | some letter => [ascii '\\', ascii letter]
    | none =>
      if c.toNat < 0x20 || c.toNat = 0x7F then utf8 "\\x" ++ hexFixed 2 c.toNat
      else if c.toNat < 0x10000 then utf8 "\\u" ++ hexFixed 4 c.toNat
      else utf8 "\\U" ++ hexFixed 8 c.toNat

def quotedGlyph (mark : Char) : Glyph → Bytes
  | .char c => quotedChar mark c
  | .stray b => utf8 "\\x" ++ hexFixed 2 b.toNat

def quoted (text : Bytes) : Bytes :=
  ascii '"' :: (glyphs text).flatMap (quotedGlyph '"') ++ [ascii '"']

def quotedSingle (c : Char) : Bytes :=
  ascii '\'' :: quotedChar '\'' c ++ [ascii '\'']

/-!
## JSON documents

A document of objects, lists, texts and numbers, and its text over several lines with two blanks for each level.
Markup characters and line separators are written by number, and a stray byte as the replacement character.
-/

/-- A document. -/
inductive Json where
  | text (t : Bytes)
  | number (n : Nat)
  | literal (t : Bytes)
  | list (items : List Json)
  | object (fields : List (String × Json))
  deriving Inhabited

namespace Json

def escapedChar (c : Char) : Bytes :=
  if c = '"' || c = '\\' then [ascii '\\', ascii c]
  else if c = '\n' then utf8 "\\n"
  else if c = '\r' then utf8 "\\r"
  else if c = '\t' then utf8 "\\t"
  else if c.toNat = 8 then utf8 "\\b"
  else if c.toNat = 12 then utf8 "\\f"
  else if c.toNat < 0x20 || c = '<' || c = '>' || c = '&' || c.toNat = 0x2028 || c.toNat = 0x2029 then
    utf8 "\\u" ++ hexFixed 4 c.toNat
  else encodeChar c

/-- A stray byte is written as the number of the replacement character. -/
def escapedGlyph : Glyph → Bytes
  | .char c => escapedChar c
  | .stray _ => utf8 "\\ufffd"

def quotedText (t : Bytes) : Bytes :=
  ascii '"' :: (glyphs t).flatMap escapedGlyph ++ [ascii '"']

/-- A newline and the blanks of a level. -/
def lineStart (level : Nat) : Bytes :=
  10 :: List.replicate (2 * level) 32

mutual

/-- The text of a document over several lines. -/
def indented (level : Nat) : Json → Bytes
  | text t => quotedText t
  | number n => decimal n
  | literal t => t
  | list [] => utf8 "[]"
  | list (x :: xs) => 91 :: lineStart (level + 1) ++ indented (level + 1) x ++ indentedItems level xs
  | object [] => [123, 125]
  | object ((k, v) :: fs) =>
    123 :: lineStart (level + 1) ++ quotedText (utf8 k) ++ utf8 ": " ++ indented (level + 1) v ++
      indentedFields level fs

/-- The items after the first and the closing bracket. -/
def indentedItems (level : Nat) : List Json → Bytes
  | [] => lineStart level ++ [93]
  | x :: xs => 44 :: lineStart (level + 1) ++ indented (level + 1) x ++ indentedItems level xs

/-- The fields after the first and the closing brace. -/
def indentedFields (level : Nat) : List (String × Json) → Bytes
  | [] => lineStart level ++ [125]
  | (k, v) :: fs =>
    44 :: lineStart (level + 1) ++ quotedText (utf8 k) ++ utf8 ": " ++ indented (level + 1) v ++
      indentedFields level fs

end

mutual

/-- The text of a document on one line without blanks. -/
def compact : Json → Bytes
  | text t => quotedText t
  | number n => decimal n
  | literal t => t
  | list [] => utf8 "[]"
  | list (x :: xs) => 91 :: compact x ++ compactItems xs
  | object [] => [123, 125]
  | object ((k, v) :: fs) => 123 :: quotedText (utf8 k) ++ 58 :: compact v ++ compactFields fs

/-- The items after the first and the closing bracket. -/
def compactItems : List Json → Bytes
  | [] => [93]
  | x :: xs => 44 :: compact x ++ compactItems xs

/-- The fields after the first and the closing brace. -/
def compactFields : List (String × Json) → Bytes
  | [] => [125]
  | (k, v) :: fs => 44 :: quotedText (utf8 k) ++ 58 :: compact v ++ compactFields fs

end

end Json

end LedgerScript.Text
