import LedgerScript.Number.Binary
import LedgerScript.Text.Quoted

/-!
# Reading TOML

The text has to be UTF-8 without control characters, and a carriage return stands before a newline only.  Each reader
takes the characters that are left and gives what it has read together with the rest, or nothing if the text is
malformed.  Lists and tables in braces nest, and a bound on the number of steps makes the readers of values total.
-/

/-!
## TOML values

A TOML text is a list of lines: headers of tables, headers of tables in a list, and entries.  A key is a list of parts.
Numbers with a point and moments in time are only told apart from the rest, since no setting takes them.
-/

namespace LedgerScript

/-- The parts of a dotted key. -/
abbrev TomlKey := List Bytes

namespace TomlKey

/-- A byte that a part may have without quotes. -/
def isBareByte (b : UInt8) : Bool :=
  (65 ≤ b && b ≤ 90) || (97 ≤ b && b ≤ 122) || (48 ≤ b && b ≤ 57) || b == ascii '_' || b == ascii '-'

def quotedByte (b : UInt8) : Bytes :=
  if b == ascii '"' || b == ascii '\\' then [ascii '\\', b]
  else if b == 8 then utf8 "\\b"
  else if b == 9 then utf8 "\\t"
  else if b == 10 then utf8 "\\n"
  else if b == 12 then utf8 "\\f"
  else if b == 13 then utf8 "\\r"
  else if b < 32 || b == 127 then utf8 "\\u00" ++ Text.hex [b]
  else [b]

def partText (part : Bytes) : Bytes :=
  if part ≠ [] && part.all isBareByte then part else ascii '"' :: part.flatMap quotedByte ++ [ascii '"']

def text (key : TomlKey) : Bytes :=
  Text.join (utf8 ".") (key.map partText)

end TomlKey

inductive TomlValue where
  | text (t : Bytes)
  | whole (n : Int)
  | real
  | flag (b : Bool)
  | moment
  | list (items : List TomlValue)
  | table (entries : List (TomlKey × TomlValue))
  deriving Inhabited

inductive TomlLine where
  | table (key : TomlKey)
  | tableInList (key : TomlKey)
  | entry (key : TomlKey) (value : TomlValue)
  deriving Inhabited

end LedgerScript

namespace LedgerScript.Toml

/-!
## Moments in time

A moment is a date, a time of day, or both with a `T` between them; then a zone may follow.  A date has to exist.  The
hour may have one digit, and seconds may have a fraction.
-/

def digitOf? (c : Char) : Option Nat :=
  if c.isDigit then some (c.toNat - 48) else none

def twoDigits? : List Char → Option (Nat × List Char)
  | a :: b :: rest => do return (10 * (← digitOf? a) + (← digitOf? b), rest)
  | _ => none

def after? (c : Char) : List Char → Option (List Char)
  | d :: rest => if c = d then some rest else none
  | [] => none

def daysIn (year month : Nat) : Nat :=
  if month = 2 then if year % 4 = 0 && (year % 100 ≠ 0 || year % 400 = 0) then 29 else 28
  else if month = 4 || month = 6 || month = 9 || month = 11 then 30
  else 31

def date? (cs : List Char) : Option (List Char) := do
  let (century, cs) ← twoDigits? cs
  let (years, cs) ← twoDigits? cs
  let (month, cs) ← twoDigits? (← after? '-' cs)
  let (day, cs) ← twoDigits? (← after? '-' cs)
  let year := 100 * century + years
  guard (1 ≤ month && month ≤ 12 && 1 ≤ day && day ≤ daysIn year month)
  return cs

def hour? (cs : List Char) : Option (List Char) :=
  match twoDigits? cs with
  | some (h, rest) => if h < 24 then some rest else none
  | none =>
    match cs with
    | c :: rest => if c.isDigit then some rest else none
    | [] => none

def afterFraction : List Char → List Char
  | '.' :: c :: rest => if c.isDigit then rest.dropWhile Char.isDigit else '.' :: c :: rest
  | cs => cs

/-- The rest after a time of day. -/
def time? (cs : List Char) : Option (List Char) := do
  let (minute, cs) ← twoDigits? (← after? ':' (← hour? cs))
  let (second, cs) ← twoDigits? (← after? ':' cs)
  guard (minute < 60 && second < 60)
  return afterFraction cs

def zone? : List Char → Option (List Char)
  | 'Z' :: rest => some rest
  | c :: rest => do
    guard (c = '+' || c = '-')
    let (hours, rest) ← twoDigits? rest
    let (minutes, rest) ← twoDigits? (← after? ':' rest)
    guard (hours ≤ 24 && minutes ≤ 60)
    return rest
  | [] => none

def isMoment (cs : List Char) : Bool :=
  let cs := cs.map fun c => if c = 't' || c = ' ' then 'T' else if c = 'z' then 'Z' else c
  let both := (date? cs).bind fun rest => (after? 'T' rest).bind time?
  both.bind zone? == some [] || both == some [] || date? cs == some [] || time? cs == some []

end LedgerScript.Toml

/-! ## Reading -/

namespace LedgerScript.Toml

abbrev Read (α : Type) := Option (α × List Char)

def isBlankChar (c : Char) : Bool :=
  c = ' ' || c = '\t'

def isLineEnd (c : Char) : Bool :=
  c = '\n' || c = '\r'

def skipBlanks (cs : List Char) : List Char :=
  cs.dropWhile isBlankChar

def skipLine (cs : List Char) : List Char :=
  cs.dropWhile (!isLineEnd ·)

/-- The rest after blanks, ends of lines and comments; the bound is the length of the text. -/
def skipLoose : Nat → List Char → List Char
  | 0, cs => cs
  | n + 1, cs =>
    match cs.dropWhile fun c => isBlankChar c || isLineEnd c with
    | '#' :: rest => skipLoose n (skipLine rest)
    | cs => cs

/-! ## Texts -/

def escapedChar? (digits : List Char) : Option Char := do
  let value (c : Char) : Option Nat :=
    if c.isDigit then some (c.toNat - 48)
    else if 'a' ≤ c ∧ c ≤ 'f' then some (c.toNat - 87)
    else if 'A' ≤ c ∧ c ≤ 'F' then some (c.toNat - 55)
    else none
  let n ← digits.foldlM (fun n c => do return 16 * n + (← value c)) 0
  Text.charOfCode? n

def simpleEscape? : Char → Option Char
  | 'b' => some (Char.ofNat 8)
  | 't' => some '\t'
  | 'n' => some '\n'
  | 'f' => some (Char.ofNat 12)
  | 'r' => some '\r'
  | '"' => some '"'
  | '\\' => some '\\'
  | _ => none

def escape? : List Char → Read Char
  | 'u' :: rest => (escapedChar? (rest.take 4)).bind fun c => if rest.length < 4 then none else some (c, rest.drop 4)
  | 'U' :: rest => (escapedChar? (rest.take 8)).bind fun c => if rest.length < 8 then none else some (c, rest.drop 8)
  | c :: rest => (simpleEscape? c).map fun c => (c, rest)
  | [] => none

/-- A text up to its closing quote; the bound is the length of the text. -/
def basicText : Nat → List Char → List Char → Read Bytes
  | 0, _, _ => none
  | n + 1, kept, cs =>
    match cs with
    | [] => none
    | '"' :: rest => some (Text.encode kept.reverse, rest)
    | '\\' :: rest => (escape? rest).bind fun (c, rest) => basicText n (c :: kept) rest
    | c :: rest => if isLineEnd c then none else basicText n (c :: kept) rest

/-- A text without escapes up to its closing apostrophe. -/
def literalText (cs : List Char) : Read Bytes :=
  let body := cs.takeWhile fun c => c ≠ '\'' && !isLineEnd c
  match cs.drop body.length with
  | '\'' :: rest => some (Text.encode body, rest)
  | _ => none

/-- The rest after an end of line right at the start. -/
def dropFirstLineEnd : List Char → List Char
  | '\n' :: rest => rest
  | '\r' :: '\n' :: rest => rest
  | cs => cs

/-- Three marks are followed by one more, and so many marks stand before them: are they too many?  A backslash before
exactly five marks belongs to the first of them. -/
def tooManyMarks (before : Nat) (afterBackslash : Bool) : Bool :=
  2 ≤ before && !(before = 2 && afterBackslash)

/-- A text over several lines up to three closing marks.  Counted are the marks just before, and noted is whether a
backslash stands before those. -/
def longText (mark : Char) (escapes : Bool) : Nat → List Char → Nat → Bool → List Char → Read Bytes
  | 0, _, _, _, _ => none
  | n + 1, kept, before, afterBackslash, cs =>
    match cs with
    | [] => none
    | c :: rest =>
      if c = mark then
        match rest with
        | d :: e :: more =>
          if d = mark ∧ e = mark then
            if more.head? ≠ some mark then some (Text.encode kept.reverse, more)
            else if tooManyMarks before afterBackslash then none
            else longText mark escapes n (c :: kept) (before + 1) afterBackslash rest
          else longText mark escapes n (c :: kept) (before + 1) afterBackslash rest
        | _ => longText mark escapes n (c :: kept) (before + 1) afterBackslash rest
      else if escapes && c = '\\' then
        let gap := rest.takeWhile fun c => isBlankChar c || isLineEnd c
        if gap.contains '\n' then longText mark escapes n kept 0 false (rest.drop gap.length)
        else
          match escape? rest with
          | none => none
          | some (c, more) =>
            let (before, afterBackslash) := match rest.head? with
              | some '"' => (1, true)
              | some '\\' => (0, true)
              | _ => (0, false)
            longText mark escapes n (c :: kept) before afterBackslash more
      else longText mark escapes n (c :: kept) 0 false rest

/-! ## Keys -/

def keyPart : List Char → Read Bytes
  | '"' :: rest => basicText (rest.length + 1) [] rest
  | '\'' :: rest => literalText rest
  | cs =>
    let bare := cs.takeWhile fun c => c.isAlphanum || c = '_' || c = '-'
    if bare.isEmpty then none else some (Text.encode bare, cs.drop bare.length)

/-- A dotted key and the blanks after it; the bound is the length of the text. -/
def dottedKey : Nat → List Char → Option (TomlKey × List Char)
  | 0, _ => none
  | n + 1, cs => do
    let (part, rest) ← keyPart (skipBlanks cs)
    match skipBlanks rest with
    | '.' :: rest =>
      let (more, rest) ← dottedKey n rest
      return (part :: more, rest)
    | rest => return ([part], rest)

/-! ## Numbers and words -/

def isHexChar (c : Char) : Bool :=
  c.isDigit || ('a' ≤ c && c ≤ 'f') || ('A' ≤ c && c ≤ 'F')

/-- Every underscore stands after a digit, and a digit comes last. -/
def underscoresFit (cs : List Char) : Bool :=
  cs.foldl (fun (fits, digit) c => (fits && (c ≠ '_' || digit), isHexChar c)) (true, false) |> fun r => r.1 && r.2

/-- The number starts with a zero that it should not have. -/
def hasLeadingZero : List Char → Bool
  | '0' :: c :: _ => !(c = 'b' || c = 'o' || c = 'x')
  | '-' :: '0' :: _ :: _ | '+' :: '0' :: _ :: _ => true
  | _ => false

/-- The magnitude of a number without a sign. -/
def magnitude : List Char → Nat
  | '0' :: 'x' :: ds => digits 16 ds
  | '0' :: 'o' :: ds => digits 8 ds
  | '0' :: 'b' :: ds => digits 2 ds
  | ds => digits 10 ds
where
  digits (base : Nat) (ds : List Char) : Nat :=
    (ds.filter (· ≠ '_')).foldl (fun n c =>
      base * n + if c.isDigit then c.toNat - 48 else if 'a' ≤ c then c.toNat - 87 else c.toNat - 55) 0

def wholeNumber? (cs : List Char) : Option TomlValue :=
  let n : Int := match cs with
    | '-' :: ds => -(magnitude ds : Int)
    | '+' :: ds => magnitude ds
    | ds => magnitude ds
  if underscoresFit cs && !hasLeadingZero cs && -Int.pow 2 63 ≤ n && n < Int.pow 2 63 then some (.whole n) else none

/-- The parts of a number between points and exponent marks. -/
def numberParts (cs : List Char) : List (List Char) :=
  let step (c : Char) : List (List Char) → List (List Char)
    | [] => if c = '.' || c = 'e' || c = 'E' then [[]] else [[c]]
    | p :: ps => if c = '.' || c = 'e' || c = 'E' then [] :: p :: ps else (c :: p) :: ps
  (cs.foldr step [[]]).filter (!·.isEmpty)

def pointsFit : List Char → Bool
  | [] => true
  | '.' :: rest => (match rest with | c :: _ => c.isDigit | [] => false) && pointsFit rest
  | _ :: rest => pointsFit rest

/-- A number with a point or an exponent. -/
def realNumber? (cs : List Char) : Option TomlValue :=
  let parts := numberParts cs
  let fits := parts.all underscoresFit && !(hasLeadingZero (parts.headD [])) && pointsFit cs
  match readNumber .double (Text.encode (cs.filter (· ≠ '_'))) with
  | .finite .. => if fits then some .real else none
  | _ => none

/-- A character of a number after a point or an exponent mark. -/
def isRealChar (c : Char) : Bool :=
  c.isDigit || c = '_' || c = '.' || c = '-' || c = '+' || c = 'e' || c = 'E'

def isMomentChar (c : Char) : Bool :=
  c.isDigit || c = '-' || c = ':' || c = 'T' || c = 't' || c = ' ' || c = '.' || c = 'Z' || c = 'z' || c = '+'

/-- What a number is whose first characters are given: whole or, if a point or exponent mark comes next, not. -/
def decimalNumber (start cs : List Char) : Read TomlValue :=
  let ds := cs.takeWhile fun c => c.isDigit || c = '_'
  let rest := cs.drop ds.length
  match rest with
  | c :: _ =>
    if c = '.' || c = 'e' || c = 'E' then
      let tail := rest.takeWhile isRealChar
      (realNumber? (start ++ ds ++ tail)).map (·, rest.drop tail.length)
    else (wholeNumber? (start ++ ds)).map (·, rest)
  | [] => (wholeNumber? (start ++ ds)).map (·, [])

def basedNumber (letter : Char) (isDigit : Char → Bool) (cs : List Char) : Read TomlValue :=
  let ds := cs.takeWhile fun c => isDigit c || c = '_'
  if (cs.head?.map isDigit).getD false then (wholeNumber? ('0' :: letter :: ds)).map (·, cs.drop ds.length) else none

def numberOrMoment (cs : List Char) : Read TomlValue :=
  match cs with
  | '0' :: 'x' :: rest => basedNumber 'x' isHexChar rest
  | '0' :: 'o' :: rest => basedNumber 'o' (fun c => '0' ≤ c && c ≤ '7') rest
  | '0' :: 'b' :: rest => basedNumber 'b' (fun c => c = '0' || c = '1') rest
  | cs =>
    let ds := cs.takeWhile Char.isDigit
    let next := (cs.drop ds.length).head?
    if (next = some '-' || next = some ':') && ds ≠ ['0'] then
      let body := cs.takeWhile isMomentChar
      let trimmed := (body.reverse.dropWhile (· = ' ')).reverse
      if isMoment trimmed then some (.moment, cs.drop body.length) else none
    else decimalNumber [] cs

def signedNumber (sign : Char) : List Char → Read TomlValue
  | 'i' :: 'n' :: 'f' :: rest => some (.real, rest)
  | 'n' :: 'a' :: 'n' :: rest => some (.real, rest)
  | '0' :: c :: rest => if c = 'b' || c = 'o' || c = 'x' then none else decimalNumber [sign] ('0' :: c :: rest)
  | c :: rest => if c.isDigit then decimalNumber [sign] (c :: rest) else none
  | [] => none

def word (cs : List Char) : Read TomlValue :=
  match cs with
  | 'i' :: 'n' :: 'f' :: rest => some (.real, rest)
  | 'n' :: 'a' :: 'n' :: rest => some (.real, rest)
  | cs =>
    let letters := cs.takeWhile Text.isLetter
    let rest := cs.drop letters.length
    if letters = "true".toList then some (.flag true, rest)
    else if letters = "false".toList then some (.flag false, rest)
    else none

/-! ## Values -/

mutual

def value : Nat → List Char → Read TomlValue
  | 0, _ => none
  | n + 1, cs =>
    match skipBlanks cs with
    | '[' :: rest => (listItems n [] rest).map fun (items, rest) => (.list items, rest)
    | '{' :: rest =>
      match skipBlanks rest with
      | '}' :: rest => some (.table [], rest)
      | rest => (tableEntries n [] rest).map fun (entries, rest) => (.table entries, rest)
    | '"' :: '"' :: '"' :: rest =>
      (longText '"' true (rest.length + 1) [] 0 false (dropFirstLineEnd rest)).map fun (t, rest) => (.text t, rest)
    | '\'' :: '\'' :: '\'' :: rest =>
      (longText '\'' false (rest.length + 1) [] 0 false (dropFirstLineEnd rest)).map fun (t, rest) => (.text t, rest)
    | '"' :: rest => (basicText (rest.length + 1) [] rest).map fun (t, rest) => (.text t, rest)
    | '\'' :: rest => (literalText rest).map fun (t, rest) => (.text t, rest)
    | c :: rest =>
      if c.isDigit then numberOrMoment (c :: rest)
      else if c = '-' || c = '+' then signedNumber c rest
      else word (c :: rest)
    | [] => none

def listItems : Nat → List TomlValue → List Char → Read (List TomlValue)
  | 0, _, _ => none
  | n + 1, items, cs =>
    match skipLoose cs.length cs with
    | ']' :: rest => some (items.reverse, rest)
    | cs =>
      match value n cs with
      | none => none
      | some (v, rest) =>
        match skipLoose rest.length rest with
        | ',' :: rest => listItems n (v :: items) rest
        | ']' :: rest => some ((v :: items).reverse, rest)
        | _ => none

/-- The entries of a table in braces, of which there is at least one. -/
def tableEntries : Nat → List (TomlKey × TomlValue) → List Char → Read (List (TomlKey × TomlValue))
  | 0, _, _ => none
  | n + 1, entries, cs =>
    match dottedKey (cs.length + 1) cs with
    | some (key, '=' :: rest) =>
      match value n rest with
      | none => none
      | some (v, rest) =>
        match skipBlanks rest with
        | ',' :: rest => tableEntries n ((key, v) :: entries) rest
        | '}' :: rest => some (((key, v) :: entries).reverse, rest)
        | _ => none
    | _ => none

end

/-! ## Lines -/

def line (cs : List Char) : Option (TomlLine × List Char) := do
  match cs with
  | '[' :: '[' :: rest =>
    let (key, rest) ← dottedKey (rest.length + 1) rest
    return (.tableInList key, ← after? ']' (← after? ']' rest))
  | '[' :: rest =>
    let (key, rest) ← dottedKey (rest.length + 1) rest
    return (.table key, ← after? ']' rest)
  | cs =>
    let (key, rest) ← dottedKey (cs.length + 1) cs
    let rest ← after? '=' rest
    let (v, rest) ← value (2 * rest.length + 2) rest
    return (.entry key v, rest)

/-- All lines; the bound is the length of the text. -/
def lines : Nat → List Char → Option (List TomlLine)
  | 0, _ => some []
  | n + 1, cs =>
    match skipLoose cs.length cs with
    | [] => some []
    | cs => do
      let (l, rest) ← line cs
      match skipBlanks rest with
      | [] => return [l]
      | c :: more =>
        guard (c = '#' || isLineEnd c)
        return l :: (← lines n (if c = '#' then skipLine more else more))

/-- Every control character is a tab or part of the end of a line. -/
def controlsFit : List Char → Bool
  | [] => true
  | '\r' :: rest => rest.head? = some '\n' && controlsFit rest
  | c :: rest => (c = '\t' || c = '\n' || (32 ≤ c.toNat && c.toNat ≠ 127)) && controlsFit rest

def dropMark (text : Bytes) : Bytes :=
  match text with
  | 0xFF :: 0xFE :: rest | 0xFE :: 0xFF :: rest | 0xEF :: 0xBB :: 0xBF :: rest => rest
  | text => text

def read? (text : Bytes) : Option (List TomlLine) := do
  let cs := (← Text.toString? (dropMark text)).toList
  guard (controlsFit cs)
  lines (cs.length + 1) cs

end LedgerScript.Toml
