import LedgerScript.Value.Display

/-!
# Arithmetic, comparison and conversion

Two numbers are brought to a common kind: the wider of the two, and a character counts as an `int`.  Whole numbers
are combined as words of 64 bits, and the lowest bits of the outcome are a number of the common kind; a quotient is
cut toward zero and a remainder has the sign of the dividend.  Reals are combined as doubles and rounded to the
common kind.

Addition also joins texts, when one side is a string, and arrays.  Multiplication repeats a string.
-/

namespace LedgerScript

/-- Why an operation on values has no result. -/
inductive OperandFault where
  /-- An operator of two operands that is not defined for their kinds. -/
  | binary (op : String) (left right : Kind)
  | unary (op : String) (operand : Kind)
  | divisionByZero
  | crash (c : Crash)
  deriving DecidableEq, Repr, Inhabited

def OperandFault.text : OperandFault → String
  | binary op left right => "operator " ++ op ++ " is not defined for " ++ left.name ++ " and " ++ right.name
  | unary op operand => "operator " ++ op ++ " is not defined for " ++ operand.name
  | divisionByZero => "division by zero"
  | crash c => c.text

namespace Value

/-- How wide a kind of number is; other kinds have no width. -/
def rank : Kind → Nat
  | .whole .short => 1
  | .whole .int | .whole .char => 2
  | .whole .long => 3
  | .real .float => 4
  | .real .double => 5
  | _ => 0

/-- The common kind of two operands: the wider one, the first of two equally wide ones, and never a character. -/
def promote (a b : Kind) : Kind :=
  let k := if rank a < rank b then b else a
  if k = .whole .char then .whole .int else k

/-- The common kind of two whole numbers. -/
def promoteWhole (a b : WholeKind) : WholeKind :=
  match promote (.whole a) (.whole b) with
  | .whole k => k
  | _ => .long

/-- A word cut to the bits of a common kind, with their sign. -/
def narrow : WholeKind → Int64 → Int64
  | .short, n => n.toInt16.toInt64
  | .int, n => n.toInt32.toInt64
  | _, n => n

/-- The number of a kind that the lowest bits of a word are. -/
def ofWord : WholeKind → Int64 → Value
  | .short, n => .whole .short n.toInt16.toInt
  | .int, n => .whole .int n.toInt32.toInt
  | .char, n => .whole .char n.toInt32.toInt
  | .long, n => .whole .long n.toInt

/-- Words combined, for a common kind. -/
def wholeArith (op : BinaryOp) (k : WholeKind) (x y : Int64) : Option (Except OperandFault Value) :=
  match op with
  | .add => some (.ok (ofWord k (x + y)))
  | .sub => some (.ok (ofWord k (x - y)))
  | .mul => some (.ok (ofWord k (x * y)))
  | .div => some (if y = 0 then .error .divisionByZero else .ok (ofWord k (narrow k x / narrow k y)))
  | .rem => some (if y = 0 then .error .divisionByZero else .ok (ofWord k (narrow k x % narrow k y)))
  | _ => none

/-- Reals combined as doubles. -/
def realArith (op : BinaryOp) (x y : Float) : Option Float :=
  match op with
  | .add => some (x + y)
  | .sub => some (x - y)
  | .mul => some (x * y)
  | .div => some (x / y)
  | .rem => some (realRemainder x y)
  | _ => none

def numberArith (op : BinaryOp) (a b : Value) : Except OperandFault Value :=
  let undefined := OperandFault.binary op.symbol.spelling a.kind b.kind
  match a, b with
  | .whole k x, .whole l y => (wholeArith op (promoteWhole k l) (.ofInt x) (.ofInt y)).getD (.error undefined)
  | a, b =>
    if a.isNumberLike && b.isNumberLike then
      match promote a.kind b.kind, realArith op a.toFloat b.toFloat with
      | .real k, some r => .ok (ofReal k r)
      | _, _ => .error undefined
    else .error undefined

/-- The largest length of a text. -/
def textLimit : Nat := Nat.pow 2 63

/-- The largest length for which there can be room. -/
def roomLimit : Nat := Nat.pow 2 47

/-- A text several times over. -/
def repeatText (s : Bytes) (n : Nat) : Except Crash Bytes :=
  if s.isEmpty then .ok []
  else if textLimit ≤ s.length * n then .error .tooLong
  else if roomLimit < s.length * n then .error .noRoom
  else .ok (List.replicate n s).flatten

/-- The opposite number; of a character, an `int`. -/
def negate : Value → Except OperandFault Value
  | .real k x => .ok (ofReal k (-x))
  | .whole .char n => .ok (ofWord .int (-.ofInt n))
  | .whole k n => .ok (ofWord k (-.ofInt n))
  | v => .error (.unary "-" v.kind)

/-- The number moved by a whole step, of the same kind. -/
def step (v : Value) (delta : Int) : Except OperandFault Value :=
  match v with
  | .real k x => .ok (ofReal k (x + Float.ofInt delta))
  | .whole k n => .ok (ofWord k (.ofInt n + .ofInt delta))
  | v => .error (.unary (if delta < 0 then "--" else "++") v.kind)

/-- The order of two numbers or two texts. -/
def compare (a b : Value) : Except OperandFault Ordering :=
  let undefined := OperandFault.binary "<" a.kind b.kind
  match a, b with
  | .whole _ m, .whole _ n => .ok (if m < n then .lt else if n < m then .gt else .eq)
  | .text _ s, .text _ t => .ok (if s == t then .eq else if Text.lexLe s t then .lt else .gt)
  | a, b =>
    if a.isNumberLike && b.isNumberLike then
      let x := a.toFloat
      let y := b.toFloat
      if x.isNaN || y.isNaN then .error undefined
      else .ok (if x < y then .lt else if y < x then .gt else .eq)
    else .error undefined

/-- A number or character as another kind of number or as a character. -/
def convert (v : Value) (k : Kind) : Except OperandFault Value :=
  if v.isNumberLike then
    match k with
    | .real k => .ok (ofReal k v.toFloat)
    | .whole k => .ok (ofInt k v.toInt)
    | _ => .error (.binary "convert" v.kind k)
  else .error (.binary "convert" v.kind k)

/-- A number as a declared numeric type, if it is one and the value is a number; else the value as it is. -/
def coerce (t : Option TypeRef) (v : Value) : Value :=
  match t with
  | none => v
  | some t =>
    if t.arrays > 0 || !v.kind.isNumeric then v
    else
      match Kind.ofName? t.name with
      | some k => if k.isNumeric then (v.convert k).toOption.getD v else v
      | none => v

end Value

/-- Arithmetic on any values: a string takes the other operand's text, arrays are joined, and a string is repeated. -/
def Heap.arith (h : Heap) (op : BinaryOp) (a b : Value) : Except OperandFault (Value × Heap) :=
  match op, a, b with
  | .add, .text .string s, b =>
    match h.plain b with
    | .ok t => .ok (.str (s ++ t), h)
    | .error c => .error (.crash c)
  | .add, a, .text .string t =>
    match h.plain a with
    | .ok s => .ok (.str (s ++ t), h)
    | .error c => .error (.crash c)
  | .add, .ref .array r, .ref .array s => .ok (h.newArray (h.items r ++ h.items s))
  | .mul, .text .string s, .whole k n =>
    if k = .char then .error (.binary "*" a.kind b.kind)
    else if n < 0 then .error (.binary "*" a.kind b.kind)
    else
      match Value.repeatText s n.toNat with
      | .ok t => .ok (.str t, h)
      | .error c => .error (.crash c)
  | op, a, b => (Value.numberArith op a b).map (·, h)

end LedgerScript
