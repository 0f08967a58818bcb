import LedgerScript.Text.Utf8

/-!
# Binary floating point

A finite number of a binary format is `m · 2^e` with a bounded `m`.  A format is given by the bits of its mantissa
and of its exponent.  `roundRatio?` rounds a quotient of natural numbers to the format, to the nearest number and
half-way cases to the even one; `decode` takes the magnitude bits of a finite number apart.  Both work in exact
arithmetic.

The magnitude bits of `m · 2^e` are `(e - least) · 2^width + m`, where `least` is the exponent of the smallest
numbers and `width` the stored bits of the mantissa.  The formula covers the numbers below the normal range, where
`e` is `least`, and a mantissa that rounding carried to the next power of two.
-/

namespace LedgerScript

-- Powers are those of the numbers themselves, whatever algebra is at hand.
attribute [local instance (high)] instPowNat

structure BinaryFormat where
  /-- Stored bits of the mantissa. -/
  width : Nat
  exponentBits : Nat
  deriving DecidableEq, Repr, Inhabited

namespace BinaryFormat

def double : BinaryFormat := ⟨52, 11⟩

def single : BinaryFormat := ⟨23, 8⟩

/-- The exponent of the smallest numbers. -/
def least (f : BinaryFormat) : Int :=
  2 - 2 ^ (f.exponentBits - 1) - f.width

/-- The bits of infinity, just above those of the finite numbers. -/
def infinity (f : BinaryFormat) : Nat :=
  (2 ^ f.exponentBits - 1) * 2 ^ f.width

/-- The quotient rounded to a natural number, half-way cases to the even one. -/
def roundDiv (num den : Nat) : Nat :=
  let q := num / den
  let twice := 2 * (num % den)
  if den < twice || (twice = den && q % 2 = 1) then q + 1 else q

/-- The quotient of `num` and `den` in units of `2^e`, as a quotient of natural numbers. -/
def scale (num den : Nat) (e : Int) : Nat × Nat :=
  match e with
  | .ofNat n => (num, den * 2 ^ n)
  | .negSucc n => (num * 2 ^ (n + 1), den)

/-- The exponent with which the mantissa of the quotient has as many bits as the format stores and one more, or the
least one. -/
def exponentFor (f : BinaryFormat) (num den : Nat) : Int :=
  let guess : Int := (num.log2 : Int) - den.log2 - f.width
  let (a, b) := scale num den guess
  max f.least (if a / b < 2 ^ f.width then guess - 1 else guess)

/-- The magnitude bits of the number nearest to a quotient, or none if it is too large for the format. -/
def roundRatio? (f : BinaryFormat) (num den : Nat) : Option Nat :=
  if num = 0 then some 0
  else
    let e := f.exponentFor num den
    let (a, b) := scale num den e
    let bits := (e - f.least).toNat * 2 ^ f.width + roundDiv a b
    if bits < f.infinity then some bits else none

/-- Mantissa and exponent of finite magnitude bits. -/
def decode (f : BinaryFormat) (bits : Nat) : Nat × Int :=
  let high := bits / 2 ^ f.width
  let low := bits % 2 ^ f.width
  if high = 0 then (low, f.least) else (low + 2 ^ f.width, f.least + high - 1)

end BinaryFormat

/-!
## The remainder of a division of binary numbers

The remainder of `x` by `y` is exact: both are whole multiples of a common power of two, and the remainder of the
two multiples, with the sign of `x`, is again a number of the format.
-/

-- Powers are those of the numbers themselves, whatever algebra is at hand.
attribute [local instance (high)] instPowNat

/-- The magnitude of a finite number as a multiple of a power of two. -/
def magnitudeOf (x : Float) : Nat × Int :=
  BinaryFormat.double.decode (x.toBits.toNat % Nat.pow 2 63)

/-- The remainder with the sign of the first number.  There is none by zero or of an infinity. -/
def realRemainder (x y : Float) : Float :=
  if x.isNaN || x.isInf || y.isNaN || y == 0 then 0.0 / 0.0
  else if y.isInf || x == 0 then x
  else
    let (mx, ex) := magnitudeOf x
    let (my, ey) := magnitudeOf y
    let e := min ex ey
    let r := mx * 2 ^ (ex - e).toNat % (my * 2 ^ (ey - e).toNat)
    let (num, den) := if 0 ≤ e then (r * 2 ^ e.toNat, 1) else (r, 2 ^ (-e).toNat)
    let bits := (BinaryFormat.double.roundRatio? num den).getD 0
    let magnitude := Float.ofBits bits.toUInt64
    if x < 0 then -magnitude else magnitude

end LedgerScript

/-!
## Reading floating-point numbers

A decimal text is a sign, digits with at most one point and at least one digit, and perhaps an exponent.  It is
read as an exact quotient and then rounded once to the format asked for.  The names of infinity and of the value
that is no number are read too, in any case.
-/

namespace LedgerScript

-- Powers are those of the numbers themselves, whatever algebra is at hand.
attribute [local instance (high)] instPowNat

/-- An unsigned decimal: the number `digits · 10^exponent`. -/
structure DecimalText where
  digits : Nat
  exponent : Int
  deriving DecidableEq, Repr, Inhabited

def isDigitByte (b : UInt8) : Bool :=
  48 ≤ b && b ≤ 57

def digitsNumber (ds : Bytes) : Nat :=
  ds.foldl (fun n d => n * 10 + (d.toNat - 48)) 0

/-- The exponent part of a decimal: empty, or `e`, a sign and digits. -/
def readExponent? (text : Bytes) : Option Int :=
  match text with
  | [] => some 0
  | e :: rest =>
    if e = ascii 'e' || e = ascii 'E' then
      let (negative, digits) := match rest with
        | s :: more => if s = ascii '-' then (true, more) else if s = ascii '+' then (false, more) else (false, rest)
        | [] => (false, [])
      if digits.isEmpty || !digits.all isDigitByte then none
      else
        let n : Int := digitsNumber digits
        some (if negative then -n else n)
    else none

def readDecimal? (text : Bytes) : Option DecimalText :=
  let whole := text.takeWhile isDigitByte
  let rest := text.drop whole.length
  let (fraction, rest) := match rest with
    | 46 :: more => let f := more.takeWhile isDigitByte; (f, more.drop f.length)
    | _ => ([], rest)
  if whole.isEmpty && fraction.isEmpty then none
  else (readExponent? rest).map fun e => ⟨digitsNumber (whole ++ fraction), e - fraction.length⟩

/-- The magnitude bits nearest to a decimal, or none if it is too large.  An exponent that is out of reach for the
digits decides at once. -/
def DecimalText.round? (f : BinaryFormat) (d : DecimalText) : Option Nat :=
  let size : Int := (Nat.toDigits 10 d.digits).length
  if d.digits = 0 then some 0
  else if d.exponent + size > 400 then none
  else if d.exponent + size < -400 then some 0
  else
    match d.exponent with
    | .ofNat n => f.roundRatio? (d.digits * 10 ^ n) 1
    | .negSucc n => f.roundRatio? d.digits (10 ^ (n + 1))

inductive ReadNumber where
  | finite (negative : Bool) (bits : Nat)
  | infinite (negative : Bool)
  | notANumber
  | tooLarge (negative : Bool)
  | malformed
  deriving DecidableEq, Repr, Inhabited

def lowerAscii (text : Bytes) : Bytes :=
  text.map fun b => if 65 ≤ b && b ≤ 90 then b + 32 else b

def readNumber (f : BinaryFormat) (text : Bytes) : ReadNumber :=
  let (signed, negative, body) := match text with
    | s :: more => if s = ascii '-' then (true, true, more) else if s = ascii '+' then (true, false, more)
        else (false, false, text)
    | [] => (false, false, [])
  let name := lowerAscii body
  if name = utf8 "inf" || name = utf8 "infinity" then .infinite negative
  else if name = utf8 "nan" then if signed then .malformed else .notANumber
  else
    match readDecimal? body with
    | none => .malformed
    | some d => match d.round? f with
      | some bits => .finite negative bits
      | none => .tooLarge negative

def floatOfMagnitude (f : BinaryFormat) (negative : Bool) (bits : Nat) : Float :=
  let x := if f = .single then (Float32.ofBits bits.toUInt32).toFloat else Float.ofBits bits.toUInt64
  if negative then -x else x

/-- A read number as a number of 64 bits; none if it is malformed or too large. -/
def ReadNumber.toFloat? (f : BinaryFormat) : ReadNumber → Option Float
  | finite negative bits => some (floatOfMagnitude f negative bits)
  | infinite negative => some (floatOfMagnitude f negative f.infinity)
  | notANumber => some (Float.ofBits 0x7FF8000000000001)
  | _ => none

/-!
## Whole numbers as text

A whole number of any size is written with an optional sign and at least one decimal digit.
-/

def readDigits? (ds : Bytes) : Option Nat :=
  if ds.isEmpty || !ds.all isDigitByte then none else some (digitsNumber ds)

/-- The integer that a text stands for. -/
def readWhole? (text : Bytes) : Option Int :=
  match text with
  | [] => none
  | b :: rest =>
    if b == ascii '-' then (readDigits? rest).map fun n => -(n : Int)
    else if b == ascii '+' then (readDigits? rest).map Int.ofNat
    else (readDigits? text).map Int.ofNat

end LedgerScript
