import LedgerScript.Proofs.Value.Tables

/-!
# Maps are dictionaries

A map keeps an index beside its keys and values, and a set keeps key forms beside its members.  What a program sees of them is
simpler: a `Dictionary` is a list of entries in the order in which their keys were first set, and a set is a list of items in
the order in which they were first added.  In both, two values are the same key if their key forms are.

`ContainerCall` lists what is asked of maps and sets, on any number of them that share a heap.  `run` answers on the heap, and
`answer` on a `Shelf` of such lists.
-/

namespace LedgerScript

def Value.sameKey (v u : Value) : Bool :=
  (Heap.keyOf {} v).same (Heap.keyOf {} u)

/-! ## Dictionaries and lists of items -/

/-- A dictionary: its entries in the order in which their keys were first set, and what a missing key reads as. -/
structure Dictionary where
  entries : List (Value × Value) := []
  zero : Value := .null

namespace Dictionary

def get? (d : Dictionary) (k : Value) : Option Value :=
  (d.entries.find? fun e => e.1.sameKey k).map (·.2)

/-- A key gets a value.  Its entry keeps its place and the first spelling of the key; a new entry is the last one. -/
def setEntry (k v : Value) : List (Value × Value) → List (Value × Value)
  | [] => [(k.keptKey, v)]
  | e :: rest => if e.1.sameKey k then (e.1, v) :: rest else e :: setEntry k v rest

def set (d : Dictionary) (k v : Value) : Dictionary :=
  { d with entries := setEntry k v d.entries }

/-- The dictionary without a key; the other entries keep their order. -/
def erase (d : Dictionary) (k : Value) : Dictionary :=
  { d with entries := d.entries.filter fun e => !e.1.sameKey k }

end Dictionary

/-- Some items, none of which is the same key as another, in the order in which they were first added. -/
abbrev ItemList := List Value

namespace ItemList

def has (s : ItemList) (v : Value) : Bool :=
  s.any (·.sameKey v)

def add (s : ItemList) (v : Value) : ItemList :=
  if s.has v then s else s ++ [v.keptKey]

/-- The items without one; the others keep their order. -/
def remove (s : ItemList) (v : Value) : ItemList :=
  s.filter fun u => !u.sameKey v

/-- The items of both: those of the first, and then those that only the second one has. -/
def union (s t : ItemList) : ItemList :=
  s ++ t.filter fun v => !s.has v

/-- The items of the first that are in the second. -/
def intersect (s t : ItemList) : ItemList :=
  s.filter t.has

/-- The items of the first that are not in the second. -/
def difference (s t : ItemList) : ItemList :=
  s.filter fun v => !t.has v

/-- All items of the first are in the second. -/
def subset (s t : ItemList) : Bool :=
  s.all t.has

end ItemList

/-! ## Calls -/

/-- What is asked of maps and sets. -/
inductive ContainerCall where
  | newMap (zero : Value)
  | mapSet (m : Ref) (k v : Value)
  | mapGet (m : Ref) (k : Value)
  | mapLookup (m : Ref) (k : Value)
  | mapHas (m : Ref) (k : Value)
  | mapDelete (m : Ref) (k : Value)
  | mapLen (m : Ref)
  | mapKeys (m : Ref)
  | mapValues (m : Ref)
  | newSet (items : List Value)
  | setAdd (s : Ref) (v : Value)
  | setHas (s : Ref) (v : Value)
  | setRemove (s : Ref) (v : Value)
  | setLen (s : Ref)
  | setItems (s : Ref)
  | setUnion (s t : Ref)
  | setIntersect (s t : Ref)
  | setDifference (s t : Ref)
  | setSubset (s t : Ref)

inductive ContainerAnswer where
  | done
  | made (r : Ref)
  | flag (b : Bool)
  | found (v : Option Value)
  | value (v : Value)
  | count (n : Nat)
  | values (vs : List Value)

namespace ContainerCall

def keys : ContainerCall → List Value
  | mapSet _ k _ | mapGet _ k | mapLookup _ k | mapHas _ k | mapDelete _ k => [k]
  | setAdd _ v | setHas _ v | setRemove _ v => [v]
  | newSet items => items
  | _ => []

/-- A new container, and the answer that tells which one. -/
def made (h : Heap) (c : Cell) : ContainerAnswer × Heap :=
  (.made (h.alloc c).1, (h.alloc c).2)

def run (h : Heap) : ContainerCall → Except Crash (ContainerAnswer × Heap)
  | newMap zero => return made h (.map { zero })
  | mapSet m k v => do return (.done, ← h.mapInsert m k v)
  | mapGet m k => do return (.found (← h.mapGet? m k), h)
  | mapLookup m k => do return (.value (← h.mapLookup m k), h)
  | mapHas m k => do return (.flag (← h.mapHas m k), h)
  | mapDelete m k => do return (.flag (← (h.mapErase m k).2), (h.mapErase m k).1)
  | mapLen m => return (.count (h.mapTable m).size, h)
  | mapKeys m => return (.values (h.mapTable m).keys.toList, h)
  | mapValues m => return (.values (h.mapTable m).vals.toList, h)
  | newSet items => do return made h (.set (← h.setOf items))
  | setAdd s v => do
    let (isNew, h) ← h.setAdd s v
    return (.flag isNew, h)
  | setHas s v => do return (.flag (← h.setHas s v), h)
  | setRemove s v => do return (.flag (← (h.setRemove s v).2), (h.setRemove s v).1)
  | setLen s => return (.count (h.setTable s).size, h)
  | setItems s => return (.values (h.setTable s).order, h)
  | setUnion s t => do return made h (.set (← h.setUnion s t))
  | setIntersect s t => do return made h (.set (← h.setIntersect s t))
  | setDifference s t => do return made h (.set (← h.setDifference s t))
  | setSubset s t => return (.flag ((h.setTable s).subset (h.setTable t)), h)

def runAll (h : Heap) : List ContainerCall → Except Crash (List ContainerAnswer × Heap)
  | [] => return ([], h)
  | c :: rest => do
    let (a, h) ← c.run h
    let (as, h) ← runAll h rest
    return (a :: as, h)

end ContainerCall

/-! ## Shelves -/

/-- What a cell of the heap holds: a dictionary, a list of items, or something else. -/
inductive Container where
  | dictionary (d : Dictionary)
  | items (s : ItemList)
  | other

/-- What the cells of a heap hold. -/
abbrev Shelf := List Container

namespace Shelf

def dictionary (shelf : Shelf) (r : Ref) : Dictionary :=
  match shelf[r]? with
  | some (.dictionary d) => d
  | _ => {}

def items (shelf : Shelf) (r : Ref) : ItemList :=
  match shelf[r]? with
  | some (.items s) => s
  | _ => []

def made (shelf : Shelf) (c : Container) : ContainerAnswer × Shelf :=
  (.made shelf.length, shelf ++ [c])

end Shelf

/-- The answer to a call as dictionaries and lists of items give it. -/
def ContainerCall.answer (shelf : Shelf) : ContainerCall → ContainerAnswer × Shelf
  | newMap zero => shelf.made (.dictionary { zero })
  | mapSet m k v => (.done, shelf.set m (.dictionary ((shelf.dictionary m).set k v)))
  | mapGet m k => (.found ((shelf.dictionary m).get? k), shelf)
  | mapLookup m k => (.value (((shelf.dictionary m).get? k).getD (shelf.dictionary m).zero), shelf)
  | mapHas m k => (.flag ((shelf.dictionary m).get? k).isSome, shelf)
  | mapDelete m k =>
    (.flag ((shelf.dictionary m).get? k).isSome, shelf.set m (.dictionary ((shelf.dictionary m).erase k)))
  | mapLen m => (.count (shelf.dictionary m).entries.length, shelf)
  | mapKeys m => (.values ((shelf.dictionary m).entries.map (·.1)), shelf)
  | mapValues m => (.values ((shelf.dictionary m).entries.map (·.2)), shelf)
  | newSet items => shelf.made (.items (items.foldl ItemList.add []))
  | setAdd s v => (.flag (!(shelf.items s).has v), shelf.set s (.items ((shelf.items s).add v)))
  | setHas s v => (.flag ((shelf.items s).has v), shelf)
  | setRemove s v => (.flag ((shelf.items s).has v), shelf.set s (.items ((shelf.items s).remove v)))
  | setLen s => (.count (shelf.items s).length, shelf)
  | setItems s => (.values (shelf.items s), shelf)
  | setUnion s t => shelf.made (.items ((shelf.items s).union (shelf.items t)))
  | setIntersect s t => shelf.made (.items ((shelf.items s).intersect (shelf.items t)))
  | setDifference s t => shelf.made (.items ((shelf.items s).difference (shelf.items t)))
  | setSubset s t => (.flag ((shelf.items s).subset (shelf.items t)), shelf)

def Shelf.answers (shelf : Shelf) : List ContainerCall → List ContainerAnswer × Shelf
  | [] => ([], shelf)
  | c :: rest =>
    let (a, shelf) := c.answer shelf
    let (as, shelf) := Shelf.answers shelf rest
    (a :: as, shelf)

/-! ## Laws of dictionaries and lists of items -/

section

variable {k l v u w : Value}

theorem Value.sameKey_comm (v u : Value) : v.sameKey u = u.sameKey v :=
  Key.same_comm _ _

theorem Value.sameKey_trans (first : v.sameKey u = true) (second : u.sameKey w = true) : v.sameKey w = true :=
  Key.same_trans first second

theorem Value.sameKey_congr (same : v.sameKey u = true) (w : Value) : v.sameKey w = u.sameKey w := by
  rw [Bool.eq_iff_iff]
  constructor
  · intro first
    rw [sameKey_comm] at same
    exact sameKey_trans same first
  · exact sameKey_trans same

theorem Value.KeyLike.sameKey_keptKey (key : k.KeyLike) (l : Value) : k.keptKey.sameKey l = k.sameKey l := by
  rw [Value.sameKey, key.keptKey.2.2]
  rfl

namespace Dictionary

variable (d : Dictionary)

end Dictionary

namespace ItemList

variable {s t : ItemList}

theorem has_congr (same : v.sameKey u = true) (s : ItemList) : s.has v = s.has u := by
  simp only [has, Value.sameKey_comm _ v, Value.sameKey_comm _ u, Value.sameKey_congr same]

theorem has_append (s t : ItemList) (v : Value) : has (s ++ t) v = (s.has v || t.has v) :=
  List.any_append

theorem has_filter {p : Value → Bool} (respects : ∀ u, u.sameKey v = true → p u = p v) (s : ItemList) :
    has (s.filter p) v = (p v && s.has v) := by
  have each (u : Value) : (p u && u.sameKey v) = (p v && u.sameKey v) := by
    cases same : u.sameKey v with
    | true => rw [respects u same]
    | false => rw [Bool.and_false, Bool.and_false]
  simp only [has, List.any_filter, each]
  cases p v <;> simp

theorem has_add (key : v.KeyLike) (u : Value) : (s.add v).has u = (s.has u || v.sameKey u) := by
  cases there : s.has v with
  | true =>
    rw [add, if_pos there]
    cases same : v.sameKey u with
    | true => rw [← has_congr same, there, Bool.true_or]
    | false => rw [Bool.or_false]
  | false =>
    rw [add, there, if_neg Bool.false_ne_true, has_append]
    simp [key.sameKey_keptKey, has]

theorem has_remove (s : ItemList) (v u : Value) : (s.remove v).has u = (!u.sameKey v && s.has u) :=
  has_filter (fun w same => by rw [Value.sameKey_congr same]) s

end ItemList

end

/-! ## Keys that are apart -/

section

variable {vs us : List Value} {v : Value}

theorem Value.TableKeys.head_apart (keys : TableKeys (v :: vs)) : ∀ u ∈ vs, v.sameKey u = false :=
  (List.pairwise_cons.mp keys.apart).1

theorem Value.TableKeys.tail (keys : TableKeys (v :: vs)) : TableKeys vs :=
  keys.sublist (List.sublist_cons_self v vs)

namespace ItemList

/-- Adding items that are apart puts those at the end that are new. -/
theorem foldl_add (keys : Value.TableKeys vs) (s : ItemList) : vs.foldl add s = s.union vs := by
  induction vs generalizing s with
  | nil => exact (List.append_nil s).symm
  | cons v rest ih =>
    rw [List.foldl_cons, ih keys.tail, union, union, List.filter_cons]
    cases there : s.has v with
    | true => rw [add, if_pos there]; rfl
    | false =>
      have others : (rest.filter fun u => !(s.add v).has u) = rest.filter fun u => !s.has u := by
        refine List.filter_congr fun u mem => ?_
        rw [has_add (keys.each v (by simp)), keys.head_apart u mem, Bool.or_false]
      rw [others, add, there, keys.kept v (by simp)]
      simp

theorem nil_union (s : ItemList) : union [] s = s :=
  List.filter_eq_self.mpr fun _ _ => rfl

/-- Of lists whose items are apart, one that is in another is not longer. -/
theorem length_le_of_subset (keys : Value.TableKeys vs) (all : subset vs us = true) : vs.length ≤ us.length := by
  induction vs generalizing us with
  | nil => exact Nat.zero_le _
  | cons v rest ih =>
    rw [subset, List.all_cons, Bool.and_eq_true] at all
    have fewer : (remove us v).length < us.length := by
      obtain ⟨u, mem, same⟩ := List.any_eq_true.mp all.1
      exact List.length_filter_lt_length_iff_exists.mpr ⟨u, mem, by simp [same]⟩
    have others : subset rest (remove us v) = true := by
      refine List.all_eq_true.mpr fun u mem => ?_
      rw [has_remove, Value.sameKey_comm, keys.head_apart u mem]
      exact List.all_eq_true.mp all.2 u mem
    exact Nat.lt_of_le_of_lt (ih keys.tail others) fewer

end ItemList

end

end LedgerScript
