import LedgerScript.Value.Display

/-!
# Copies of values

A deep copy gives every array, map, set and object that a value reaches a new cell, once: two references to one
cell become two references to one copy, and a cycle becomes a cycle.  Functions, classes and handles are shared, and
so are the keys of maps and the members of sets.

All containers are copied in the same way.  A new cell is reserved, so that references back to the container find it;
the values that the container *carries* are copied; then the new cell is filled.  A cell is begun before the values that
it carries are copied and no cell is begun twice, so at most as many cells are under way as the heap has.  The number
that counts down says so.
-/

namespace LedgerScript

namespace Cell

def carried : Cell → List Value
  | .array items => items.toList
  | .map m => m.vals.toList
  | .object o => o.fields.map (·.2)
  | .set _ | .classCell _ | .function _ => []

def isShared : Cell → Bool
  | .classCell _ | .function _ => true
  | .array _ | .map _ | .set _ | .object _ => false

end Cell

/-- The cell with other values for those that it carries.  Maps and sets are built anew from their keys and members. -/
def Heap.refill (h : Heap) (vs : List Value) : Cell → Except Crash Cell
  | .array _ => .ok (.array vs.toArray)
  | .map m => return .map (← h.mapOf (m.keys.toList.zip vs) m.zero)
  | .set t => return .set (← h.setOf t.order)
  | .object o => .ok (.object { o with fields := (o.fields.map (·.1)).zip vs })
  | c => .ok c

/-- A heap on which copies are being made, and what has been copied to what. -/
structure CopyState where
  heap : Heap
  copied : List (Ref × Ref) := []

abbrev Copying := StateT CopyState (Except Crash)

namespace Copying

def reserve (r : Ref) (c : Cell) : Copying Ref := fun s =>
  let (r', heap) := s.heap.alloc c
  .ok (r', { heap, copied := (r, r') :: s.copied })

def fill (r : Ref) (c : Cell) : Copying Unit :=
  modify fun s => { s with heap := s.heap.put r c }

section

variable (cell : RefKind → Ref → Copying Value)

mutual

/-- The copy of a value, given how the cells that it refers to are copied. -/
def copyWith : Value → Copying Value
  | .tuple items => do return .tuple (← copyEach items)
  | .ref k r => cell k r
  | v => pure v

def copyEach : List Value → Copying (List Value)
  | [] => pure []
  | v :: rest => do
    let u ← copyWith v
    return u :: (← copyEach rest)

end

end

/-- The copy of what a reference leads to, with a bound on the cells that are begun. -/
def copyRef : Nat → RefKind → Ref → Copying Value
  | 0, k, r => pure (.ref k r)
  | cells + 1, k, r => do
    let s ← get
    match s.copied.find? (·.1 = r) with
    | some (_, r') => return .ref k r'
    | none =>
      match s.heap.cells[r]? with
      | none => return .ref k r
      | some c =>
        if c.isShared then return .ref k r
        else
          let r' ← reserve r c
          let vs ← copyEach (copyRef cells) c.carried
          let filled ← (← get).heap.refill vs c
          fill r' filled
          return .ref k r'

end Copying

def Heap.deepCopy (h : Heap) (v : Value) : Except Crash (Value × Heap) := do
  let (v, s) ← (Copying.copyWith (Copying.copyRef (h.cells.size + 1)) v).run { heap := h }
  return (v, s.heap)

end LedgerScript
