import LedgerScript.Number.Binary
import LedgerScript.Text.Quoted

/-!
# Durations

A duration is a whole number of nanoseconds.  Its text has hours, minutes and seconds; below a second it has one
unit that leaves a digit before the point.  A fraction has no trailing zeros.

A written duration is a sign and at least one number with a unit; the numbers may have a point, and the parts are
added up.  The sum has to fit into 64 bits.
-/

namespace LedgerScript

/-- The fraction of a number below a power of ten, with its point, or nothing if it is zero. -/
def fractionText (n places : Nat) : String :=
  let digits := (Nat.repr n).toList
  let padded := List.replicate (places - digits.length) '0' ++ digits
  let kept := (padded.reverse.dropWhile (· = '0')).reverse
  if n = 0 then "" else "." ++ String.ofList kept

def nanosText (n : Nat) : String :=
  if n = 0 then "0s"
  else if n < 1000 then Nat.repr n ++ "ns"
  else if n < 1000000 then Nat.repr (n / 1000) ++ fractionText (n % 1000) 3 ++ "µs"
  else if n < 1000000000 then Nat.repr (n / 1000000) ++ fractionText (n % 1000000) 6 ++ "ms"
  else
    let total := n / 1000000000
    let hours := total / 3600
    (if hours > 0 then Nat.repr hours ++ "h" else "") ++
    (if total ≥ 60 then Nat.repr (total / 60 % 60) ++ "m" else "") ++
    Nat.repr (total % 60) ++ fractionText (n % 1000000000) 9 ++ "s"

def durationText (ns : Int) : String :=
  match ns with
  | .ofNat n => nanosText n
  | .negSucc n => "-" ++ nanosText (n + 1)

/-- The whole milliseconds of a duration, none if it is negative. -/
def wholeMillis (ns : Int) : Nat :=
  (ns.tdiv 1000000).toNat

/-! ## Reading -/

inductive DurationFault where
  | invalid (text : Bytes)
  | missingUnit (text : Bytes)
  | unknownUnit (unit text : Bytes)
  deriving DecidableEq, Repr, Inhabited

/-- A text between quotes with every byte outside of printable ASCII written by number. -/
def asciiQuoted (text : Bytes) : Bytes :=
  let one (b : UInt8) : Bytes :=
    if b < 32 || 128 ≤ b then utf8 "\\x" ++ Text.hex [b]
    else if b == ascii '"' || b == ascii '\\' then [ascii '\\', b]
    else [b]
  ascii '"' :: text.flatMap one ++ [ascii '"']

def DurationFault.text : DurationFault → Bytes
  | invalid t => utf8 "time: invalid duration " ++ asciiQuoted t
  | missingUnit t => utf8 "time: missing unit in duration " ++ asciiQuoted t
  | unknownUnit u t => utf8 "time: unknown unit " ++ asciiQuoted u ++ utf8 " in duration " ++ asciiQuoted t

def unitNanos? (unit : Bytes) : Option Nat :=
  let units : List (String × Nat) :=
    [("ns", 1), ("us", 1000), ("µs", 1000), ("μs", 1000), ("ms", 1000000), ("s", 1000000000), ("m", 60000000000),
      ("h", 3600000000000)]
  (units.find? (utf8 ·.1 == unit)).map (·.2)

/-- The largest magnitude of 64 bits with a sign. -/
def durationLimit : Nat := Nat.pow 2 63

/-- The digits after a point as a number below a power of ten; digits that do not fit any more are dropped. -/
def readFraction (digits : Bytes) : Nat × Nat :=
  digits.foldl
    (fun (x, scale, full) d =>
      let y := x * 10 + (d.toNat - 48)
      if full || (durationLimit - 1) / 10 < x || durationLimit < y then (x, scale, true) else (y, scale * 10, false))
    (0, 1, false) |> fun r => (r.1, r.2.1)

/-- The nanoseconds of a fraction of a unit, rounded as numbers of 64 bits are. -/
def fractionNanos (fraction scale unit : Nat) : Nat :=
  (Float.ofNat fraction * (Float.ofNat unit / Float.ofNat scale)).toUInt64.toNat

def isNumberByte (b : UInt8) : Bool :=
  isDigitByte b || b == ascii '.'

/-- The parts of a duration, added to a sum.  The first argument bounds their number. -/
def readDurationParts (text : Bytes) : Nat → Nat → Bytes → Except DurationFault Nat
  | 0, sum, _ => .ok sum
  | fuel + 1, sum, rest =>
    match rest with
    | [] => .ok sum
    | b :: _ =>
      let whole := rest.takeWhile isDigitByte
      let afterWhole := rest.dropWhile isDigitByte
      let (fraction, afterNumber) := match afterWhole with
        | p :: more => if p == ascii '.' then (more.takeWhile isDigitByte, more.dropWhile isDigitByte)
            else ([], afterWhole)
        | [] => ([], [])
      if !isNumberByte b || (whole.isEmpty && fraction.isEmpty) || durationLimit < digitsNumber whole then
        .error (.invalid text)
      else
        let unit := afterNumber.takeWhile (!isNumberByte ·)
        if unit.isEmpty then .error (.missingUnit text)
        else
          match unitNanos? unit with
          | none => .error (.unknownUnit unit text)
          | some n =>
            let v := digitsNumber whole
            let (f, scale) := readFraction fraction
            let nanos := v * n + if f > 0 then fractionNanos f scale n else 0
            if durationLimit / n < v || durationLimit < nanos || durationLimit < sum + nanos then
              .error (.invalid text)
            else readDurationParts text fuel (sum + nanos) (afterNumber.dropWhile (!isNumberByte ·))

/-- The duration that a text stands for, in nanoseconds. -/
def readDuration (text : Bytes) : Except DurationFault Int := do
  let (negative, body) := match text with
    | b :: rest => if b == ascii '-' then (true, rest) else if b == ascii '+' then (false, rest) else (false, text)
    | [] => (false, [])
  if body = utf8 "0" then return 0
  if body = [] then throw (.invalid text)
  let n ← readDurationParts text body.length 0 body
  if negative then return -n
  if durationLimit ≤ n then throw (.invalid text)
  return n

end LedgerScript
