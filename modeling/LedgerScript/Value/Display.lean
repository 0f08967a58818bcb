import LedgerScript.Number.Text
import LedgerScript.Value.Heap

/-!
# How values are shown

A value has two texts.  The plain text shows strings and characters as they are; the quoted text, which is also how
the contents of containers are shown, puts them in quotes.  Below a certain depth a value shows as three dots, so a
container that holds itself has a text too.

A map is shown by looking up each of its keys, and a tuple is looked up by its quoted text, so showing needs keys
and keys need showing.  The printer takes the function that makes keys as an argument, and `keyAt` ties the knot
with a bound on how often keys may be made inside keys.
-/

namespace LedgerScript

namespace Value

/-- The texts of the numbers that have no digits. -/
def specialReals : SpecialTexts := ⟨"NaN", "Infinity", "-Infinity"⟩

/-- The shortest digits that read back; a number without a point or an exponent gets `.0`. -/
def realText (k : RealKind) (x : Float) : Bytes :=
  let s := match k with
    | .float => binaryText .single specialReals x.toFloat32.toBits.toNat
    | .double => binaryText .double specialReals x.toBits.toNat
  if x.isNaN || x.isInf || s.any (fun b => b == ascii '.' || b == ascii 'e') then s else s ++ utf8 ".0"

/-- Several texts with a comma and a blank between them. -/
def commas (parts : List Bytes) : Bytes :=
  Text.join (utf8 ", ") parts

end Value

namespace Heap

/-- How deep values are shown. -/
def shownDepth : Nat := 17

def showAt (h : Heap) (keyOf : Value → Except Crash Key) : Nat → Bool → Value → Except Crash Bytes
  | 0, _, _ => .ok (utf8 "...")
  | depth + 1, quoted, v =>
    match v with
    | .null => .ok (utf8 "null")
    | .bool b => .ok (utf8 (if b then "true" else "false"))
    | .whole .char n =>
      let c := Value.shownCode n
      .ok (if quoted then Text.quotedSingle c else Text.encodeChar c)
    | .whole _ n => .ok (Text.decimalInt n)
    | .real k x => .ok (Value.realText k x)
    | .text .string s => .ok (if quoted then Text.quoted s else s)
    | .text .address s => .ok s
    | .text .account s => .ok (utf8 "account(" ++ s ++ utf8 ")")
    | .tuple items => do
      let parts ← items.mapM (showAt h keyOf depth true)
      let last := if items.length = 1 then "," else ""
      return utf8 "(" ++ Value.commas parts ++ utf8 last ++ utf8 ")"
    | .ref .array r => do
      let parts ← (h.items r).toList.mapM (showAt h keyOf depth true)
      return utf8 "[" ++ Value.commas parts ++ utf8 "]"
    | .ref .set r => do
      let parts ← (h.setTable r).order.mapM (showAt h keyOf depth true)
      return utf8 "#\x7b" ++ Value.commas parts ++ utf8 "\x7d"
    | .ref .map r => do
      let m := h.mapTable r
      let parts ← m.keys.toList.mapM fun k => do
        let shownKey ← showAt h keyOf depth true k
        let value ← m.get? (← keyOf k)
        return shownKey ++ utf8 ": " ++ (← showAt h keyOf depth true (value.getD .null))
      return utf8 "\x7b" ++ Value.commas parts ++ utf8 "\x7d"
    | .ref .object r =>
      match h.object? r with
      | none => .ok []
      | some o =>
        let name := utf8 (h.className o.cls)
        match lookupName "message" o.fields, h.isErrorClass o.cls with
        | some message, true => do return name ++ utf8 ": " ++ (← showAt h keyOf depth false message)
        | _, _ => do
          let parts ← o.fields.mapM fun f => do
            return utf8 (" " ++ f.1 ++ ": ") ++ (← showAt h keyOf depth true f.2)
          return name ++ utf8 " \x7b" ++ Text.join (utf8 ",") parts ++ utf8 " \x7d"
    | .ref .classRef r => .ok (utf8 ("class " ++ h.className r))
    | .ref .function r =>
      let name := match h.function? r with
        | some f => f.name
        | none => ""
      .ok (utf8 ("function " ++ if name = "" then "anonymous" else name))
    | .task id name => .ok (utf8 ("task #" ++ toString id ++ if name = "" then "" else " " ++ name))
    | .handle k _ => .ok (utf8 (Kind.handle k).name)

/-- What stands in front of the text of a tuple in its key form. -/
def tupleMark : Bytes :=
  0 :: utf8 "tuple"

/-- The key form of a value, with a bound on keys made inside keys. -/
def keyAt (h : Heap) : Nat → Value → Except Crash Key
  | 0, _ => .error .endless
  | n + 1, v =>
    match v with
    | .null => .ok .null
    | .bool b => .ok (.bool b)
    | .whole .char c => .ok (.char c)
    | .whole _ m => .ok (.whole m)
    | .real k x => .ok (.real k x)
    | .text .account s => .ok (.account s)
    | .text _ s => .ok (.text s)
    | .tuple _ => do return .text (tupleMark ++ (← h.showAt (keyAt h n) shownDepth true v))
    | .ref k r => .ok (.ref k r)
    | .task id _ => .ok (.task id)
    | .handle k id => .ok (.handle k id)

/-- How often keys may be made inside keys. -/
def keyRounds : Nat := 1000

def key (h : Heap) (v : Value) : Except Crash Key :=
  h.keyAt keyRounds v

def plain (h : Heap) (v : Value) : Except Crash Bytes :=
  h.showAt h.key shownDepth false v

def quoted (h : Heap) (v : Value) : Except Crash Bytes :=
  h.showAt h.key shownDepth true v

/-- The plain text, or what is said about the crash that it runs into. -/
def shown (h : Heap) (v : Value) : Bytes :=
  match h.plain v with
  | .ok t => t
  | .error c => utf8 c.text

/-- The quoted text, or what is said about the crash that it runs into. -/
def shownQuoted (h : Heap) (v : Value) : Bytes :=
  match h.quoted v with
  | .ok t => t
  | .error c => utf8 c.text

/-- A value as it is reported: its kind and its quoted text. -/
structure ShownValue where
  kind : String
  text : Bytes
  deriving DecidableEq, Repr, Inhabited

def report (h : Heap) (v : Value) : ShownValue :=
  { kind := v.kind.name, text := h.shownQuoted v }

/-- A map of given entries; of equal keys the last value stands, in the place of the first. -/
def mapOf (h : Heap) (entries : List (Value × Value)) (zero : Value) : Except Crash MapTable :=
  entries.foldlM (fun m e => do m.insert (← h.key e.1) e.1 e.2) { zero }

/-- A set of given members. -/
def setOf (h : Heap) (items : List Value) : Except Crash SetTable :=
  SetTable.ofList h.key items

end Heap

end LedgerScript
