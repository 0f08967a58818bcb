import LedgerScript.Text.Compatibility
import LedgerScript.Text.Utf8

/-!
# Normal forms

Two texts that look the same may be made of different characters: an accented letter, or a letter and an accent.
A normal form takes all characters apart and puts combining marks into the order of their classes; the composed
forms then put together what can be put together.  The compatible forms also replace variants of characters by what
they are variants of.  Texts of literals are kept in the composed form, so that equal looks are equal texts.

Stray bytes stay as they are and keep what stands on their two sides apart.
-/

namespace LedgerScript.Text

/-! ## Hangul syllables -/

/-- The first syllable, and the first of each of its three kinds of parts. -/
def syllableBase : Nat := 0xAC00

/-- A syllable as its two or three parts. -/
def splitSyllable? (code : Nat) : Option (List Nat) :=
  if syllableBase ≤ code && code < syllableBase + 11172 then
    let i := code - syllableBase
    let parts := [0x1100 + i / 588, 0x1161 + i % 588 / 28]
    some (if i % 28 = 0 then parts else parts ++ [0x11A7 + i % 28])
  else none

/-- Two parts that make a syllable, or a syllable and a third part. -/
def joinSyllable? (a b : Nat) : Option Nat :=
  if 0x1100 ≤ a && a < 0x1113 && 0x1161 ≤ b && b < 0x1176 then
    some (syllableBase + ((a - 0x1100) * 21 + (b - 0x1161)) * 28)
  else if syllableBase ≤ a && a < syllableBase + 11172 && (a - syllableBase) % 28 = 0 && 0x11A7 < b && b < 0x11C3 then
    some (a + (b - 0x11A7))
  else none

/-! ## Taking apart -/

structure NormalForm where
  /-- What can be put together is put together. -/
  composed : Bool
  /-- Variants of characters are replaced. -/
  compatible : Bool := false
  deriving DecidableEq, Repr, Inhabited

/-- One step of taking a character apart without changing what it is. -/
def splitCanonical? (code : Nat) : Option (List Nat) :=
  if code < 0xC0 then none
  else
    match partsOf? code with
    | some (a, b) => some [a, b]
    | none =>
      match doubleOf? code with
      | some a => some [a]
      | none => (brokenComposites.find? (·.1 == code)).map fun (_, a, b) => [a, b]

/-- One step of taking a character apart. -/
def NormalForm.splitOnce? (form : NormalForm) (code : Nat) : Option (List Nat) :=
  match splitCanonical? code with
  | some parts => some parts
  | none => if form.compatible then compatible? code else none

/-- A character taken apart as far as possible; no character is more than four steps deep. -/
def NormalForm.takeApart (form : NormalForm) : Nat → Nat → List Nat
  | 0, code => [code]
  | fuel + 1, code =>
    match splitSyllable? code with
    | some parts => parts
    | none =>
      match form.splitOnce? code with
      | some parts => parts.flatMap (form.takeApart fuel)
      | none => [code]

/-! ## Order of marks -/

/-- Inserts a mark behind all marks of its class and below, from the end; `done` holds the marks last first. -/
def insertMark (code : Nat) : List Nat → List Nat
  | [] => [code]
  | last :: before =>
    if markClass code < markClass last then last :: insertMark code before else code :: last :: before

/-- Runs of marks in the order of their classes; `marks` holds the current run, last first. -/
def orderMarks (marks : List Nat) : List Nat → List Nat
  | [] => marks.reverse
  | code :: rest =>
    if markClass code = 0 then marks.reverse ++ code :: orderMarks [] rest
    else orderMarks (insertMark code marks) rest

/-! ## Putting together -/

/-- The composite of two characters. -/
def join? (a b : Nat) : Option Nat :=
  match joinSyllable? a b with
  | some c => some c
  | none => compositeOf? a b

/-- Puts marks together with the last character that is no mark.  `pending` holds the marks since, last first, that
could not be put together; a character is blocked by a mark of its own class or above. -/
def putTogether (starter : Option Nat) (pending : List Nat) : List Nat → List Nat
  | [] => starter.toList ++ pending.reverse
  | code :: rest =>
    match starter with
    | none => if markClass code = 0 then putTogether (some code) [] rest else code :: putTogether none [] rest
    | some s =>
      let cls := markClass code
      let blocked := match pending with
        | [] => false
        | last :: _ => cls = 0 || cls ≤ markClass last
      match if blocked then none else join? s code with
      | some c => putTogether (some c) pending rest
      | none =>
        if cls = 0 then s :: pending.reverse ++ putTogether (some code) [] rest
        else putTogether (some s) (code :: pending) rest

namespace NormalForm

def run (form : NormalForm) (codes : List Nat) : List Nat :=
  let ordered := orderMarks [] (codes.flatMap (form.takeApart 5))
  if form.composed then putTogether none [] ordered else ordered

def chars (form : NormalForm) (cs : List Char) : List Char :=
  (form.run (cs.map Char.toNat)).map Char.ofNat

/-- The runs between stray bytes in a normal form; `held` holds the current run, last first. -/
def glyphRuns (form : NormalForm) (held : List Char) : List Glyph → Bytes
  | [] => encode (form.chars held.reverse)
  | .char c :: rest => form.glyphRuns (c :: held) rest
  | .stray b :: rest => encode (form.chars held.reverse) ++ b :: form.glyphRuns [] rest

def apply (form : NormalForm) (text : Bytes) : Bytes :=
  if text.all (· < 0x80) then text else form.glyphRuns [] (glyphs text)

end NormalForm

def compose (text : Bytes) : Bytes :=
  NormalForm.apply { composed := true } text

end LedgerScript.Text
