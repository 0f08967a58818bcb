import LedgerScript.Value.Display
import LedgerScript.Wire.Pack

/-!
# Stored values

A value is stored as a pair of the number of its kind and its payload.  A map is stored as the flat list of its keys
and values, with the value of missing keys at the end unless it is null.  What has an identity that cannot be
stored, a function, an object, a class or a handle, is stored as the string it is shown with.
-/

namespace LedgerScript

def packTagged (k : Kind) (payload : Bytes) : Bytes :=
  Pack.listHead 2 ++ Pack.byte k.number ++ payload

/-- The bits with which a real is stored.  Not-a-number is stored with one fixed pattern for each kind. -/
def storedBits (k : RealKind) (x : Float) : Nat :=
  if x.isNaN then
    match k with
    | .float => 0x7ff8000000000000
    | .double => 0x7ff8000000000001
  else x.toBits.toNat

/-- The stored form of a value down to a depth. -/
def Heap.packAt (h : Heap) : Nat → Value → Except Crash Bytes
  | 0, _ => .error .endless
  | depth + 1, v =>
    let items (vs : List Value) : Except Crash Bytes := do
      return packTagged v.kind (Pack.list (← vs.mapM (h.packAt depth)))
    match v with
    | .null => .ok (packTagged v.kind Pack.absent)
    | .bool b => .ok (packTagged v.kind (Pack.bool b))
    | .whole _ n => .ok (packTagged v.kind (Pack.int n))
    | .real k x => .ok (packTagged v.kind (Pack.double (storedBits k x)))
    | .text _ s => .ok (packTagged v.kind (Pack.text s))
    | .tuple xs => items xs
    | .ref .array r => items (h.items r).toList
    | .ref .set r => items (h.setTable r).order
    | .ref .map r =>
      let m := h.mapTable r
      let zero := match m.zero with
        | .null => []
        | z => [z]
      items ((m.keys.toList.zip m.vals.toList).flatMap (fun e => [e.1, e.2]) ++ zero)
    | v => do return packTagged (.text .string) (Pack.text (← h.plain v))

/-- Values nested deeper than this are not stored. -/
def packDepth : Nat := 100000

/-- The stored form of a value. -/
def Heap.pack (h : Heap) (v : Value) : Except Crash Bytes :=
  h.packAt packDepth v

/-- Reading stored values, which makes new cells. -/
abbrev UnpackValue (α : Type) := StateT Heap (StateT Bytes Option) α

namespace UnpackValue

/-- Something that may crash counts as unreadable if it does. -/
def ofCrash {α : Type} (x : Except Crash α) : UnpackValue α :=
  match x with
  | .ok a => pure a
  | .error _ => failure

/-- Something that makes a cell. -/
def make (f : Heap → Value × Heap) : UnpackValue Value := fun h => pure (f h)

/-- A list read into keys and values, a last odd item being the value of missing keys. -/
def entries : List Value → List (Value × Value) × Value
  | k :: v :: rest =>
    let (es, zero) := entries rest
    ((k, v) :: es, zero)
  | [zero] => ([], zero)
  | [] => ([], .null)

def times (item : UnpackValue Value) : Nat → UnpackValue (List Value)
  | 0 => pure []
  | n + 1 => do
    let first ← item
    return first :: (← times item n)

/-- A stored value down to a depth. -/
def value : Nat → UnpackValue Value
  | 0 => failure
  | depth + 1 => do
    if (← (Unpack.listLength : StateT Bytes Option _)) != some 2 then failure
    let items : UnpackValue (List Value) := do
      let n ← (Unpack.listLength : StateT Bytes Option _)
      times (value depth) (n.getD 0)
    match Kind.ofNumber? (← (Unpack.natMod 8 : StateT Bytes Option _)) with
    | some .null => (Unpack.absent : StateT Bytes Option _); return .null
    | some .bool => return .bool (← (Unpack.bool : StateT Bytes Option _))
    | some (.whole k) => return .ofInt k (← (Unpack.int : StateT Bytes Option _))
    | some (.real k) => return .ofReal k (← (Unpack.double : StateT Bytes Option _))
    | some (.text k) => return .text k (← (Unpack.text : StateT Bytes Option _))
    | some .tuple => return .tuple (← items)
    | some (.ref .array) =>
      let xs ← items
      make (·.newArray xs.toArray)
    | some (.ref .set) =>
      let xs ← items
      let table ← ofCrash ((← get).setOf xs)
      make (·.newSet table)
    | some (.ref .map) =>
      let (es, zero) := entries (← items)
      let table ← ofCrash ((← get).mapOf es zero)
      make (·.newMap table)
    | _ => failure

end UnpackValue

/-- A stored value read from the front of some bytes into a heap. -/
def Heap.unpack (h : Heap) (bytes : Bytes) : Option (Value × Heap × Bytes) :=
  ((UnpackValue.value packDepth).run h bytes).map fun ((v, h), rest) => (v, h, rest)

end LedgerScript
