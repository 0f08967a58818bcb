import LedgerScript.Number.Binary

/-!
# The text of floating-point numbers

A number is written with its shortest decimal: first the digits are found, then they are laid out.
-/

namespace LedgerScript

/-!
## Shortest decimals

The shortest decimal of a binary number is the one with the fewest digits that rounds back to it; of several with
as few digits it is the nearest.  The reals that round back to a number form an interval, half-way to its
neighbours on both sides, and its ends belong to it when the mantissa is even.

All bounds are kept as multiples of one power of two over one power of ten, so that the search is done in natural
numbers.
-/

-- Powers are those of the numbers themselves, whatever algebra is at hand.
attribute [local instance (high)] instPowNat

/-- Digits `d₁ d₂ …` and a place: the number `0.d₁d₂… · 10^place`. -/
structure Decimal where
  digits : List Nat
  place : Int
  deriving DecidableEq, Repr, Inhabited

/-- Decimal digits of a natural number, most significant first; none for 0. -/
def digitsOf (n : Nat) : List Nat :=
  if n = 0 then [] else (Nat.toDigits 10 n).map fun c => c.toNat - 48

def dropTrailingZeros (ds : List Nat) : List Nat :=
  (ds.reverse.dropWhile (· == 0)).reverse

/-- An interval of reals with a marked point inside, all as numerators over one denominator. -/
structure RoundInterval where
  low : Nat
  value : Nat
  high : Nat
  den : Nat
  /-- The two ends belong to the interval. -/
  closed : Bool
  deriving DecidableEq, Repr, Inhabited

namespace RoundInterval

/-- The interval of the reals that round to a number of a format. -/
def ofBits (f : BinaryFormat) (bits : Nat) : RoundInterval :=
  let (m, e) := f.decode bits
  let atPower := m = 2 ^ f.width && f.least < e
  let (num, den) := BinaryFormat.scale 1 4 (-e)
  { low := (if atPower then 4 * m - 1 else 4 * m - 2) * num
    value := 4 * m * num
    high := (4 * m + 2) * num
    den
    closed := m % 2 = 0 }

/-- The real `n · 10^k` lies in the interval. -/
def holds (r : RoundInterval) (n : Nat) (k : Int) : Bool :=
  let (a, b) := match k with
    | .ofNat j => (n * 10 ^ j, 1)
    | .negSucc j => (n, 10 ^ (j + 1))
  let x := a * r.den
  if r.closed then r.low * b ≤ x && x ≤ r.high * b else r.low * b < x && x < r.high * b

/-- The marked point in units of `10^k`: the number below, and whether the point is nearer to the one above. -/
def neighbours (r : RoundInterval) (k : Int) : Nat × Bool :=
  let (num, den) := match k with
    | .ofNat j => (r.value, r.den * 10 ^ j)
    | .negSucc j => (r.value * 10 ^ (j + 1), r.den)
  let q := num / den
  let twice := 2 * (num % den)
  (q, den < twice || (twice = den && q % 2 = 1))

/-- The best multiple of `10^k` in the interval, if there is one. -/
def pick? (r : RoundInterval) (k : Int) : Option Nat :=
  let (below, up) := r.neighbours k
  let first := if up then below + 1 else below
  let second := if up then below else below + 1
  if r.holds first k then some first else if r.holds second k then some second else none

/-- Starts with the coarsest grid and refines it until a point lies in the interval. -/
def search (r : RoundInterval) : Nat → Int → Nat × Int
  | 0, k => ((r.neighbours k).1, k)
  | fuel + 1, k =>
    match r.pick? k with
    | some n => if n = 0 then search r fuel (k - 1) else (n, k)
    | none => search r fuel (k - 1)

end RoundInterval

/-- A bound on the decimal place of the first digit of a quotient. -/
def placeBound (num den : Nat) : Int :=
  (((num.log2 : Int) - den.log2 + 1) * 30103).fdiv 100000 + 1

/-- The shortest decimal of finite magnitude bits. -/
def shortest (f : BinaryFormat) (bits : Nat) : Decimal :=
  if bits = 0 then ⟨[], 0⟩
  else
    let r := RoundInterval.ofBits f bits
    let (n, k) := r.search 25 (placeBound r.value r.den)
    let ds := digitsOf n
    ⟨dropTrailingZeros ds, k + ds.length⟩

/-!
## The text of floating-point numbers

A number is written with its shortest decimal.  Numbers from `10^-4` up to and without `10^6` are written
positionally, all others with an exponent of at least two digits and its sign.
-/

-- Powers are those of the numbers themselves, whatever algebra is at hand.
attribute [local instance (high)] instPowNat

structure NumberNotation where
  lowest : Int
  /-- The least decimal exponent that is no longer written positionally. -/
  highest : Int
  /-- The least number of digits of an exponent. -/
  exponentDigits : Nat

/-- The notation of the language: positional from `10^-4` up to `10^6`, exponents of two digits. -/
def NumberNotation.standard : NumberNotation := ⟨-4, 6, 2⟩

def digitByte (d : Nat) : UInt8 := 48 + d.toUInt8

def digitBytes (ds : List Nat) : Bytes := ds.map digitByte

namespace Decimal

def positional (d : Decimal) : Bytes :=
  let n := d.digits.length
  if d.place ≤ 0 then utf8 "0" ++ (if n = 0 then [] else utf8 "." ++ List.replicate (-d.place).toNat 48 ++ digitBytes d.digits)
  else
    let whole := d.place.toNat
    if n ≤ whole then digitBytes d.digits ++ List.replicate (whole - n) 48
    else digitBytes (d.digits.take whole) ++ utf8 "." ++ digitBytes (d.digits.drop whole)

def scientific (exponentDigits : Nat) (d : Decimal) : Bytes :=
  let e := d.place - 1
  let abs := Text.decimal e.natAbs
  let mantissa := match d.digits with
    | [] => utf8 "0"
    | first :: rest => digitByte first :: (if rest = [] then [] else utf8 "." ++ digitBytes rest)
  mantissa ++ utf8 "e" ++ (if e < 0 then utf8 "-" else utf8 "+") ++
    List.replicate (exponentDigits - abs.length) 48 ++ abs

def text (rule : NumberNotation) (d : Decimal) : Bytes :=
  let e := d.place - 1
  if d.digits = [] then utf8 "0"
  else if e < rule.lowest || rule.highest ≤ e then d.scientific rule.exponentDigits else d.positional

end Decimal

/-- The texts of the three values that are no finite numbers. -/
structure SpecialTexts where
  nan : String
  infinity : String
  negInfinity : String

/-- The text of the number with the given bits in a format. -/
def binaryText (f : BinaryFormat) (special : SpecialTexts) (bits : Nat) : Bytes :=
  let signBit := 2 ^ (f.width + f.exponentBits)
  let negative := signBit ≤ bits
  let magnitude := bits % signBit
  if f.infinity < magnitude then utf8 special.nan
  else if magnitude = f.infinity then utf8 (if negative then special.negInfinity else special.infinity)
  else (if negative then utf8 "-" else []) ++ (shortest f magnitude).text .standard

/-- Special values in the style of listings. -/
def SpecialTexts.short : SpecialTexts := ⟨"NaN", "+Inf", "-Inf"⟩

/-- The text of a number that reads back as the same number of 64 bits. -/
def doubleText (x : Float) : Bytes :=
  binaryText .double .short x.toBits.toNat

end LedgerScript
