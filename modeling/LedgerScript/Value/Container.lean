import LedgerScript.Value.Display

/-!
# Containers on the heap

Reading and changing the maps and sets that references lead to.  The key of an entry is the key form of a value at
the time of the operation.
-/

namespace LedgerScript

namespace Heap

def mapGet? (h : Heap) (r : Ref) (k : Value) : Except Crash (Option Value) := do
  (h.mapTable r).get? (← h.key k)

/-- The value under a key of a map, or what a missing key reads as. -/
def mapLookup (h : Heap) (r : Ref) (k : Value) : Except Crash Value := do
  return (← h.mapGet? r k).getD (h.mapTable r).zero

def mapHas (h : Heap) (r : Ref) (k : Value) : Except Crash Bool := do
  return ((h.mapTable r).find? (← h.key k)).isSome

def mapInsert (h : Heap) (r : Ref) (k v : Value) : Except Crash Heap := do
  return h.put r (.map (← (h.mapTable r).insert (← h.key k) k v))

def mapErase (h : Heap) (r : Ref) (k : Value) : Heap × Except Crash Bool :=
  match h.key k with
  | .error c => (h, .error c)
  | .ok key =>
    let (m, found) := (h.mapTable r).erase h.key key
    (h.put r (.map m), found)

def setHas (h : Heap) (r : Ref) (v : Value) : Except Crash Bool := do
  return (h.setTable r).has (← h.key v)

def setAdd (h : Heap) (r : Ref) (v : Value) : Except Crash (Bool × Heap) := do
  let (isNew, s) := (h.setTable r).add (← h.key v) v
  return (isNew, h.put r (.set s))

def setRemove (h : Heap) (r : Ref) (v : Value) : Heap × Except Crash Bool :=
  match h.key v with
  | .error c => (h, .error c)
  | .ok key =>
    let (s, found) := (h.setTable r).remove h.key key
    (h.put r (.set s), found)

/-- The members of two sets. -/
def setUnion (h : Heap) (r s : Ref) : Except Crash SetTable := do
  SetTable.ofList h.key (h.setTable s).order (← h.setOf (h.setTable r).order)

/-- The members of the first set that are in the second. -/
def setIntersect (h : Heap) (r s : Ref) : Except Crash SetTable :=
  SetTable.restrict h.key true (h.setTable r) (h.setTable s)

/-- The members of the first set that are not in the second. -/
def setDifference (h : Heap) (r s : Ref) : Except Crash SetTable :=
  SetTable.restrict h.key false (h.setTable r) (h.setTable s)

end Heap

end LedgerScript
