import LedgerScript.Proofs.Value.Dictionaries

/-!
# Maps and sets are ordered lists

A map whose keys cannot change holds a dictionary, and a set of such members a list of items.  Each operation on a heap does to
its map or set what the list does, so any number of calls on any number of them give the answers of the lists.
-/

namespace LedgerScript

/-! ## Sets -/

namespace SetTable.Sound

variable {s t : SetTable} {v : Value} {vs : List Value}

theorem has_eq (sound : s.Sound) (v : Value) : s.has (Heap.keyOf {} v) = ItemList.has s.order v := by
  rw [has, sound.members, List.any_map]
  rfl

theorem size_eq (sound : s.Sound) : s.size = s.order.length := by
  rw [size, sound.members, List.length_map]

theorem add_eq (sound : s.Sound) (v : Value) :
    (s.add (Heap.keyOf {} v) v).1 = !ItemList.has s.order v ∧
      (s.add (Heap.keyOf {} v) v).2.order = ItemList.add s.order v := by
  rw [SetTable.add, ItemList.add, sound.has_eq]
  cases ItemList.has s.order v <;> exact ⟨rfl, rfl⟩

theorem order_addAll (keys : ∀ v ∈ vs, v.KeyLike) (sound : s.Sound) : (s.addAll vs).order = vs.foldl ItemList.add s.order := by
  induction vs generalizing s with
  | nil => rfl
  | cons v rest ih =>
    rw [List.foldl_cons, ← (sound.add_eq v).2]
    exact ih (fun u mem => keys u (by simp [mem])) (sound.add (keys v (by simp)))

theorem order_addAll_empty (keys : Value.TableKeys vs) : (SetTable.addAll {} vs).order = vs := by
  rw [order_addAll keys.each .empty, ItemList.foldl_add keys]
  exact ItemList.nil_union vs

/-- Adding the members of one set to those of another. -/
theorem union (left : s.Sound) (right : t.Sound) (h : Heap) :
    ∃ u, (do SetTable.ofList h.key t.order (← SetTable.ofList h.key s.order)) = .ok u ∧ u.Sound ∧
      u.order = ItemList.union s.order t.order := by
  have first := SetTable.ofList_eq_addAll left.keys.each h {}
  have second := SetTable.ofList_eq_addAll right.keys.each h (SetTable.addAll {} s.order)
  have sound := empty.addAll left.keys.each
  refine ⟨_, ?_, sound.addAll right.keys.each, ?_⟩
  · rw [first]
    exact second
  · rw [sound.order_addAll right.keys.each, order_addAll_empty left.keys, ItemList.foldl_add right.keys]

/-- Keeping the members of a set that are, or are not, in another. -/
theorem restrict (left : s.Sound) (right : t.Sound) (h : Heap) (inOther : Bool) :
    ∃ u, SetTable.restrict h.key inOther s t = .ok u ∧ u.Sound ∧
      u.order = s.order.filter fun v => ItemList.has t.order v == inOther := by
  have made {vs : List Value} (keys : ∀ v ∈ vs, v.KeyLike) (out : SetTable) :
      vs.foldlM (fun out v => do
        let k ← h.key v
        return if t.has k == inOther then (out.add k v).2 else out) out =
      .ok (out.addAll (vs.filter fun v => ItemList.has t.order v == inOther)) := by
    induction vs generalizing out with
    | nil => rfl
    | cons v rest ih =>
      rw [List.foldlM_cons, (keys v (by simp)).key_eq h]
      refine (ih (fun u mem => keys u (by simp [mem])) _).trans ?_
      rw [right.has_eq, List.filter_cons]
      cases ItemList.has t.order v == inOther <;> rfl
  have fewer := left.keys.sublist (List.filter_sublist (p := fun v => ItemList.has t.order v == inOther))
  exact ⟨_, made left.keys.each {}, empty.addAll fewer.each, order_addAll_empty fewer⟩

theorem subset_eq (left : s.Sound) (right : t.Sound) : s.subset t = ItemList.subset s.order t.order := by
  have all : s.members.all t.has = ItemList.subset s.order t.order := by
    rw [left.members, List.all_map, ItemList.subset]
    exact congrArg _ (funext right.has_eq)
  rw [SetTable.subset, all, left.size_eq, right.size_eq]
  cases inside : ItemList.subset s.order t.order with
  | false => rw [Bool.and_false]
  | true => rw [decide_eq_true (ItemList.length_le_of_subset left.keys inside)]; rfl

end SetTable.Sound

/-! ## Maps -/

def MapTable.dictionary (m : MapTable) : Dictionary :=
  { entries := m.keys.toList.zip m.vals.toList, zero := m.zero }

def Value.hasForm (key : Key) (u : Value) : Bool :=
  (Heap.keyOf {} u).same key

namespace Dictionary

variable {ks vs : List Value} {k v : Value} {key : Key}

theorem find?_zip {p : Value → Bool} (paired : ks.length = vs.length) :
    ((ks.zip vs).find? fun e => p e.1).map (·.2) = (ks.findIdx? p).bind (vs[·]?) := by
  induction ks generalizing vs with
  | nil => rfl
  | cons k ks ih =>
    cases vs with
    | nil => cases paired
    | cons v vs =>
      rw [List.zip_cons_cons, List.find?_cons, List.findIdx?_cons]
      cases p k with
      | true => rfl
      | false =>
        have others := @ih vs (Nat.succ.inj paired)
        dsimp only
        rw [others, if_neg Bool.false_ne_true, Option.bind_map]
        rfl

theorem setEntry_zip_found {i : Nat} (paired : ks.length = vs.length)
    (found : ks.findIdx? (Value.hasForm (Heap.keyOf {} k)) = some i) : setEntry k v (ks.zip vs) = ks.zip (vs.set i v) := by
  induction ks generalizing vs i with
  | nil => cases found
  | cons u ks ih =>
    cases vs with
    | nil => cases paired
    | cons w vs =>
      rw [List.findIdx?_cons] at found
      cases here : u.hasForm (Heap.keyOf {} k) with
      | true =>
        rw [here] at found
        cases found
        exact if_pos here
      | false =>
        rw [here, if_neg Bool.false_ne_true, Option.map_eq_some_iff] at found
        obtain ⟨j, found, rfl⟩ := found
        have rest : setEntry k v ((u, w) :: ks.zip vs) = (u, w) :: setEntry k v (ks.zip vs) :=
          if_neg (Bool.eq_false_iff.mp here)
        rw [List.zip_cons_cons, rest, ih (Nat.succ.inj paired) found]
        rfl

theorem setEntry_zip_absent (paired : ks.length = vs.length) (absent : ∀ u ∈ ks, u.sameKey k = false) :
    setEntry k v (ks.zip vs) = (ks ++ [k.keptKey]).zip (vs ++ [v]) := by
  have apart : ∀ e ∈ ks.zip vs, e.1.sameKey k = false := fun e mem => absent e.1 (List.of_mem_zip mem).1
  have last : setEntry k v (ks.zip vs) = ks.zip vs ++ [(k.keptKey, v)] := by
    generalize ks.zip vs = es at apart ⊢
    induction es with
    | nil => rfl
    | cons e rest ih =>
      rw [setEntry, if_neg (Bool.eq_false_iff.mp (apart e (by simp))), ih fun e mem => apart e (by simp [mem])]
      rfl
  rw [last, List.zip_append paired]
  rfl

/-- Of keys that are apart, one is taken away with its value. -/
theorem eraseIdx_zip {i : Nat} (paired : ks.length = vs.length) (keys : Value.TableKeys ks)
    (found : ks.findIdx? (Value.hasForm key) = some i) :
    (ks.eraseIdx i).zip (vs.eraseIdx i) = (ks.zip vs).filter fun e => !e.1.hasForm key := by
  induction ks generalizing vs i with
  | nil => cases found
  | cons u ks ih =>
    cases vs with
    | nil => cases paired
    | cons w vs =>
      rw [List.findIdx?_cons] at found
      cases here : u.hasForm key with
      | true =>
        rw [here] at found
        cases found
        have kept : ((ks.zip vs).filter fun e => !e.1.hasForm key) = ks.zip vs := by
          refine List.filter_eq_self.mpr fun e mem => ?_
          have apart := keys.head_apart e.1 (List.of_mem_zip mem).1
          cases same : e.1.hasForm key with
          | false => rfl
          | true =>
            rw [Value.hasForm, Key.same_comm] at same
            exact absurd (Key.same_trans here same) (Bool.eq_false_iff.mp apart)
        rw [List.zip_cons_cons, List.filter_cons, here, kept]
        rfl
      | false =>
        rw [here, if_neg Bool.false_ne_true, Option.map_eq_some_iff] at found
        obtain ⟨j, found, rfl⟩ := found
        rw [List.zip_cons_cons, List.filter_cons, here, ← ih (Nat.succ.inj paired) keys.tail found]
        rfl

end Dictionary

namespace MapTable

/-- Searching an index that numbers the keys is searching the keys. -/
theorem find?_zipIdx (key : Key) (ks : List Value) (n : Nat) :
    (((ks.map (Heap.keyOf {})).zipIdx n).find? fun e => e.1.same key).map (·.2) =
      (ks.findIdx? (Value.hasForm key)).map (· + n) := by
  induction ks generalizing n with
  | nil => rfl
  | cons k ks ih =>
    rw [List.map_cons, List.zipIdx_cons, List.find?_cons, List.findIdx?_cons]
    cases here : k.hasForm key with
    | true =>
      rw [Value.hasForm] at here
      simp [here]
    | false =>
      rw [Value.hasForm] at here
      simp only [here, ih, Bool.false_eq_true, if_false, Option.map_map, Function.comp_def]
      exact congrArg (Option.map · _) (funext fun i => by omega)

namespace Sound

variable {m : MapTable} {k : Value}

theorem find?_eq (sound : m.Sound) (key : Key) : m.find? key = m.keys.toList.findIdx? (Value.hasForm key) := by
  rw [find?, sound.index, find?_zipIdx]
  simp

/-- The index leads to each key, and to nothing else. -/
theorem find?_eq_some_iff (sound : m.Sound) {key : Key} {i : Nat} :
    m.find? key = some i ↔ ∃ u, m.keys[i]? = some u ∧ (Heap.keyOf {} u).same key = true := by
  constructor
  · intro found
    obtain ⟨us, u, ws, keys, rfl, same⟩ := sound.split_of_find? found
    exact ⟨u, by simp [← Array.getElem?_toList, keys], same⟩
  · rintro ⟨u, there, same⟩
    rw [← Array.getElem?_toList] at there
    obtain ⟨inside, rfl⟩ := List.getElem?_eq_some_iff.mp there
    rw [sound.find?_eq, List.findIdx?_eq_some_iff_getElem]
    refine ⟨inside, same, fun j before too => ?_⟩
    have apart := List.pairwise_iff_getElem.mp sound.keys.apart j i (Nat.lt_trans before inside) inside before
    rw [Key.same_comm] at same
    exact Bool.eq_false_iff.mp apart (Key.same_trans too same)

theorem lengths (sound : m.Sound) : m.keys.toList.length = m.vals.toList.length :=
  sound.paired

theorem dictionary_get? (sound : m.Sound) (k : Value) :
    m.dictionary.get? k = (m.find? (Heap.keyOf {} k)).bind (m.vals[·]?) := by
  have read := Dictionary.find?_zip (p := Value.hasForm (Heap.keyOf {} k)) sound.lengths
  simp only [Array.getElem?_toList] at read
  rw [sound.find?_eq]
  exact read

theorem get?_eq (sound : m.Sound) (k : Value) : m.get? (Heap.keyOf {} k) = .ok (m.dictionary.get? k) := by
  rw [sound.dictionary_get?, get?]
  cases found : m.find? (Heap.keyOf {} k) with
  | none => rfl
  | some i =>
    have inside : i < m.vals.size := sound.paired ▸ sound.lt_of_find? found
    simp [inside]

theorem isSome_find? (sound : m.Sound) (k : Value) : (m.find? (Heap.keyOf {} k)).isSome = (m.dictionary.get? k).isSome := by
  rw [sound.dictionary_get?]
  cases found : m.find? (Heap.keyOf {} k) with
  | none => rfl
  | some i =>
    have inside : i < m.vals.size := sound.paired ▸ sound.lt_of_find? found
    simp [inside]

theorem insert_dictionary (sound : m.Sound) (key : k.KeyLike) (v : Value) :
    ∃ m', m.insert (Heap.keyOf {} k) k v = .ok m' ∧ m'.Sound ∧ m'.dictionary = m.dictionary.set k v := by
  obtain ⟨m', inserted, sound'⟩ := sound.insert key v
  refine ⟨m', inserted, sound', ?_⟩
  rw [MapTable.insert] at inserted
  cases found : m.find? (Heap.keyOf {} k) with
  | some i =>
    have inside : i < m.vals.size := sound.paired ▸ sound.lt_of_find? found
    rw [found] at inserted
    cases (if_pos inside).symm.trans inserted
    rw [sound.find?_eq] at found
    simp [dictionary, Dictionary.set, Dictionary.setEntry_zip_found sound.lengths found]
  | none =>
    rw [found] at inserted
    cases inserted
    simp [dictionary, Dictionary.set, Dictionary.setEntry_zip_absent sound.lengths (sound.new_of_find? found)]

theorem erase_dictionary (sound : m.Sound) (h : Heap) (k : Value) :
    (m.erase h.key (Heap.keyOf {} k)).2 = .ok (m.dictionary.get? k).isSome ∧
      (m.erase h.key (Heap.keyOf {} k)).1.dictionary = m.dictionary.erase k := by
  rw [← sound.isSome_find?]
  cases found : m.find? (Heap.keyOf {} k) with
  | none =>
    have others : m.dictionary.erase k = m.dictionary := by
      refine congrArg (Dictionary.mk · m.zero) (List.filter_eq_self.mpr fun e mem => ?_)
      rw [Value.sameKey, sound.new_of_find? found _ (List.of_mem_zip mem).1]
      rfl
    rw [MapTable.erase, found, others]
    exact ⟨rfl, rfl⟩
  | some i =>
    rw [sound.erase_eq h found]
    rw [sound.find?_eq] at found
    exact ⟨rfl, congrArg (Dictionary.mk · m.zero) (Dictionary.eraseIdx_zip sound.lengths sound.keys found)⟩

theorem size_eq (sound : m.Sound) : m.size = m.dictionary.entries.length := by
  rw [dictionary, List.length_zip, ← sound.lengths, Nat.min_self]
  rfl

theorem keys_eq (sound : m.Sound) : m.keys.toList = m.dictionary.entries.map (·.1) :=
  (List.map_fst_zip sound.lengths.le).symm

theorem vals_eq (sound : m.Sound) : m.vals.toList = m.dictionary.entries.map (·.2) :=
  (List.map_snd_zip sound.lengths.ge).symm

end Sound

end MapTable

/-! ## Heaps -/

def Cell.container : Cell → Container
  | .map m => .dictionary m.dictionary
  | .set s => .items s.order
  | _ => .other

def Heap.shelf (h : Heap) : Shelf :=
  h.cells.toList.map Cell.container

/-- A map or a set is in order, and its keys cannot change. -/
def Cell.Sound : Cell → Prop
  | .map m => m.Sound
  | .set s => s.Sound
  | _ => True

/-- All maps and sets are in order. -/
def Heap.Sound (h : Heap) : Prop :=
  ∀ c ∈ h.cells, c.Sound

namespace Heap

variable {h : Heap} {c : Cell}

theorem sound_empty : Heap.Sound {} := by
  intro c mem
  cases Array.not_mem_empty c mem

theorem Sound.mapTable (sound : h.Sound) (r : Ref) : (h.mapTable r).Sound := by
  rw [Heap.mapTable]
  split
  · next m there => exact sound _ (Array.mem_of_getElem? there)
  · exact .empty .null

theorem Sound.setTable (sound : h.Sound) (r : Ref) : (h.setTable r).Sound := by
  rw [Heap.setTable]
  split
  · next s there => exact sound _ (Array.mem_of_getElem? there)
  · exact .empty

theorem Sound.put (sound : h.Sound) (r : Ref) (cell : c.Sound) : (h.put r c).Sound := by
  intro d mem
  rcases Array.mem_or_eq_of_mem_setIfInBounds mem with mem | rfl
  · exact sound d mem
  · exact cell

theorem Sound.alloc (sound : h.Sound) (cell : c.Sound) : (h.alloc c).2.Sound := by
  intro d mem
  rcases Array.mem_push.mp mem with mem | rfl
  · exact sound d mem
  · exact cell

@[simp] theorem shelf_put (h : Heap) (r : Ref) (c : Cell) : (h.put r c).shelf = h.shelf.set r c.container := by
  simp [shelf, put, List.map_set]

@[simp] theorem shelf_alloc (h : Heap) (c : Cell) : (h.alloc c).2.shelf = h.shelf ++ [c.container] := by
  simp [shelf, alloc]

@[simp] theorem shelf_dictionary (h : Heap) (r : Ref) : h.shelf.dictionary r = (h.mapTable r).dictionary := by
  rw [Shelf.dictionary, shelf, List.getElem?_map, Array.getElem?_toList, mapTable]
  cases h.cells[r]? with
  | none => rfl
  | some c => cases c <;> rfl

@[simp] theorem shelf_items (h : Heap) (r : Ref) : h.shelf.items r = (h.setTable r).order := by
  rw [Shelf.items, shelf, List.getElem?_map, Array.getElem?_toList, setTable]
  cases h.cells[r]? with
  | none => rfl
  | some c => cases c <;> rfl

/-! What each operation gives on a heap whose tables are in order. -/

variable {k v : Value}

theorem Sound.mapGet?_eq (sound : h.Sound) (key : k.KeyLike) (r : Ref) :
    h.mapGet? r k = .ok ((h.shelf.dictionary r).get? k) := by
  rw [mapGet?, key.key_eq h, shelf_dictionary, ← (sound.mapTable r).get?_eq]
  rfl

theorem Sound.mapLookup_eq (sound : h.Sound) (key : k.KeyLike) (r : Ref) :
    h.mapLookup r k = .ok (((h.shelf.dictionary r).get? k).getD (h.shelf.dictionary r).zero) := by
  rw [mapLookup, sound.mapGet?_eq key, shelf_dictionary]
  rfl

theorem Sound.mapHas_eq (sound : h.Sound) (key : k.KeyLike) (r : Ref) :
    h.mapHas r k = .ok ((h.shelf.dictionary r).get? k).isSome := by
  rw [mapHas, key.key_eq h, shelf_dictionary, ← (sound.mapTable r).isSome_find?]
  rfl

theorem Sound.mapInsert (sound : h.Sound) (key : k.KeyLike) (r : Ref) (v : Value) :
    ∃ h', h.mapInsert r k v = .ok h' ∧ h'.Sound ∧
      h'.shelf = h.shelf.set r (.dictionary ((h.shelf.dictionary r).set k v)) := by
  obtain ⟨m, inserted, table, same⟩ := (sound.mapTable r).insert_dictionary key v
  refine ⟨h.put r (.map m), ?_, sound.put r table, ?_⟩
  · rw [Heap.mapInsert, key.key_eq h]
    exact congrArg (fun made => made >>= fun m => pure (h.put r (.map m))) inserted
  · rw [shelf_put, shelf_dictionary, ← same]
    rfl

theorem Sound.mapErase (sound : h.Sound) (key : k.KeyLike) (r : Ref) :
    (h.mapErase r k).2 = .ok ((h.shelf.dictionary r).get? k).isSome ∧ (h.mapErase r k).1.Sound ∧
      (h.mapErase r k).1.shelf = h.shelf.set r (.dictionary ((h.shelf.dictionary r).erase k)) := by
  obtain ⟨found, erased⟩ := (sound.mapTable r).erase_dictionary h k
  have made : h.mapErase r k = (h.put r (.map ((h.mapTable r).erase h.key (keyOf {} k)).1),
      ((h.mapTable r).erase h.key (keyOf {} k)).2) := by
    rw [Heap.mapErase, key.key_eq h]
  rw [made, shelf_dictionary]
  refine ⟨found, sound.put r ((sound.mapTable r).erase h _), ?_⟩
  rw [shelf_put, ← erased]
  rfl

theorem Sound.setHas_eq (sound : h.Sound) (key : v.KeyLike) (r : Ref) : h.setHas r v = .ok ((h.shelf.items r).has v) := by
  rw [setHas, key.key_eq h, shelf_items, ← (sound.setTable r).has_eq]
  rfl

theorem Sound.setAdd (sound : h.Sound) (key : v.KeyLike) (r : Ref) :
    ∃ h', h.setAdd r v = .ok (!(h.shelf.items r).has v, h') ∧ h'.Sound ∧
      h'.shelf = h.shelf.set r (.items ((h.shelf.items r).add v)) := by
  obtain ⟨isNew, items⟩ := (sound.setTable r).add_eq v
  refine ⟨h.put r (.set ((h.setTable r).add (keyOf {} v) v).2), ?_, sound.put r ((sound.setTable r).add key), ?_⟩
  · rw [Heap.setAdd, key.key_eq h, shelf_items, ← isNew]
    rfl
  · rw [shelf_put, shelf_items, ← items]
    rfl

theorem Sound.setRemove (sound : h.Sound) (key : v.KeyLike) (r : Ref) :
    (h.setRemove r v).2 = .ok ((h.shelf.items r).has v) ∧ (h.setRemove r v).1.Sound ∧
      (h.setRemove r v).1.shelf = h.shelf.set r (.items ((h.shelf.items r).remove v)) := by
  have removed := (sound.setTable r).remove_eq h (keyOf {} v)
  have made : h.setRemove r v = (h.put r (.set ((h.setTable r).remove h.key (keyOf {} v)).1),
      ((h.setTable r).remove h.key (keyOf {} v)).2) := by
    rw [Heap.setRemove, key.key_eq h]
  rw [made, shelf_items]
  refine ⟨?_, sound.put r ((sound.setTable r).remove h _), ?_⟩
  · rw [removed, (sound.setTable r).has_eq]
  · rw [shelf_put, removed]
    rfl

theorem setOf_items {items : List Value} (keys : ∀ v ∈ items, v.KeyLike) (h : Heap) :
    ∃ s, h.setOf items = .ok s ∧ s.Sound ∧ s.order = items.foldl ItemList.add [] :=
  ⟨_, SetTable.ofList_eq_addAll keys h {}, SetTable.Sound.empty.addAll keys, SetTable.Sound.empty.order_addAll keys⟩

theorem Sound.setUnion (sound : h.Sound) (r s : Ref) :
    ∃ u, h.setUnion r s = .ok u ∧ u.Sound ∧ u.order = (h.shelf.items r).union (h.shelf.items s) := by
  rw [shelf_items, shelf_items]
  exact (sound.setTable r).union (sound.setTable s) h

theorem Sound.setIntersect (sound : h.Sound) (r s : Ref) :
    ∃ u, h.setIntersect r s = .ok u ∧ u.Sound ∧ u.order = (h.shelf.items r).intersect (h.shelf.items s) := by
  obtain ⟨u, made, table, order⟩ := (sound.setTable r).restrict (sound.setTable s) h true
  refine ⟨u, made, table, ?_⟩
  rw [order, shelf_items, shelf_items, ItemList.intersect]
  simp

theorem Sound.setDifference (sound : h.Sound) (r s : Ref) :
    ∃ u, h.setDifference r s = .ok u ∧ u.Sound ∧ u.order = (h.shelf.items r).difference (h.shelf.items s) := by
  obtain ⟨u, made, table, order⟩ := (sound.setTable r).restrict (sound.setTable s) h false
  refine ⟨u, made, table, ?_⟩
  rw [order, shelf_items, shelf_items, ItemList.difference]
  simp

end Heap

/-! ## Refinement -/

namespace ContainerCall

variable {h : Heap}

/-- A new container is the one that is put on the shelf. -/
theorem made_eq (sound : h.Sound) {c : Cell} {k : Container} (cell : c.Sound) (holds : c.container = k) :
    (made h c).1 = (h.shelf.made k).1 ∧ (made h c).2.Sound ∧ (made h c).2.shelf = (h.shelf.made k).2 := by
  refine ⟨?_, sound.alloc cell, ?_⟩
  · simp [made, Shelf.made, Heap.shelf, Heap.alloc]
  · rw [← holds]
    exact Heap.shelf_alloc h c

theorem run_made {made? : Except Crash SetTable} {items : ItemList} (sound : h.Sound)
    (computed : ∃ s, made? = .ok s ∧ s.Sound ∧ s.order = items) :
    ∃ h', (do return made h (.set (← made?)) : Except Crash _) = .ok ((h.shelf.made (.items items)).1, h') ∧ h'.Sound ∧
      h'.shelf = (h.shelf.made (.items items)).2 := by
  obtain ⟨s, rfl, table, order⟩ := computed
  obtain ⟨name, sound', shelf⟩ := made_eq sound (c := .set s) table (congrArg Container.items order)
  exact ⟨(made h (.set s)).2, congrArg (fun a => Except.ok (a, (made h (.set s)).2)) name, sound', shelf⟩

/-- A call gives the answer that dictionaries and lists of items give, and keeps the tables in order. -/
theorem run_eq (sound : h.Sound) (c : ContainerCall) (keys : ∀ k ∈ c.keys, k.KeyLike) :
    ∃ h', c.run h = .ok ((c.answer h.shelf).1, h') ∧ h'.Sound ∧ h'.shelf = (c.answer h.shelf).2 := by
  cases c with
  | newMap zero =>
    obtain ⟨name, sound', shelf⟩ := made_eq sound (c := .map { zero }) (MapTable.Sound.empty zero) rfl
    exact ⟨_, congrArg (fun a => Except.ok (a, _)) name, sound', shelf⟩
  | mapSet m k v =>
    obtain ⟨h', inserted, after⟩ := sound.mapInsert (keys k (List.mem_singleton_self k)) m v
    exact ⟨h', by rw [run, inserted]; rfl, after⟩
  | mapGet m k =>
    have found := sound.mapGet?_eq (keys k (List.mem_singleton_self k)) m
    exact ⟨h, by rw [run, found]; rfl, sound, rfl⟩
  | mapLookup m k =>
    have found := sound.mapLookup_eq (keys k (List.mem_singleton_self k)) m
    exact ⟨h, by rw [run, found]; rfl, sound, rfl⟩
  | mapHas m k =>
    have found := sound.mapHas_eq (keys k (List.mem_singleton_self k)) m
    exact ⟨h, by rw [run, found]; rfl, sound, rfl⟩
  | mapDelete m k =>
    obtain ⟨found, after⟩ := sound.mapErase (keys k (List.mem_singleton_self k)) m
    exact ⟨_, by rw [run, found]; rfl, after⟩
  | mapLen m =>
    have size := (sound.mapTable m).size_eq
    rw [← Heap.shelf_dictionary] at size
    exact ⟨h, by rw [run, size]; rfl, sound, rfl⟩
  | mapKeys m =>
    have ks := (sound.mapTable m).keys_eq
    rw [← Heap.shelf_dictionary] at ks
    exact ⟨h, by rw [run, ks]; rfl, sound, rfl⟩
  | mapValues m =>
    have vs := (sound.mapTable m).vals_eq
    rw [← Heap.shelf_dictionary] at vs
    exact ⟨h, by rw [run, vs]; rfl, sound, rfl⟩
  | newSet items => exact run_made sound (Heap.setOf_items keys h)
  | setAdd s v =>
    obtain ⟨h', added, after⟩ := sound.setAdd (keys v (List.mem_singleton_self v)) s
    exact ⟨h', by rw [run, added]; rfl, after⟩
  | setHas s v =>
    have found := sound.setHas_eq (keys v (List.mem_singleton_self v)) s
    exact ⟨h, by rw [run, found]; rfl, sound, rfl⟩
  | setRemove s v =>
    obtain ⟨found, after⟩ := sound.setRemove (keys v (List.mem_singleton_self v)) s
    exact ⟨_, by rw [run, found]; rfl, after⟩
  | setLen s =>
    have size := (sound.setTable s).size_eq
    rw [← Heap.shelf_items] at size
    exact ⟨h, by rw [run, size]; rfl, sound, rfl⟩
  | setItems s => exact ⟨h, by rw [run, ← Heap.shelf_items]; rfl, sound, rfl⟩
  | setUnion s t => exact run_made sound (sound.setUnion s t)
  | setIntersect s t => exact run_made sound (sound.setIntersect s t)
  | setDifference s t => exact run_made sound (sound.setDifference s t)
  | setSubset s t =>
    have all := (sound.setTable s).subset_eq (sound.setTable t)
    rw [← Heap.shelf_items, ← Heap.shelf_items] at all
    exact ⟨h, by rw [run, all]; rfl, sound, rfl⟩

/-- All calls give the answers that dictionaries and lists of items give, and keep the tables in order. -/
theorem runAll_eq (sound : h.Sound) {calls : List ContainerCall} (keys : ∀ c ∈ calls, ∀ k ∈ c.keys, k.KeyLike) :
    ∃ h', runAll h calls = .ok ((h.shelf.answers calls).1, h') ∧ h'.Sound ∧ h'.shelf = (h.shelf.answers calls).2 := by
  induction calls generalizing h with
  | nil => exact ⟨h, rfl, sound, rfl⟩
  | cons c rest ih =>
    obtain ⟨h₁, first, sound₁, shelf₁⟩ := run_eq sound c (keys c (by simp))
    obtain ⟨h', others, sound', shelf'⟩ := ih sound₁ fun d mem => keys d (by simp [mem])
    rw [shelf₁] at others shelf'
    refine ⟨h', ?_, sound', shelf'⟩
    rw [runAll, first]
    change (runAll h₁ rest >>= fun p => pure ((c.answer h.shelf).1 :: p.1, p.2)) = _
    rw [others]
    rfl

end ContainerCall

/-- Maps and sets are dictionaries and lists of items in the order of insertion.  Whatever is called on them with keys that are
numbers, texts and the like, or tuples of them, no call crashes, the answers are those of the lists, and the heap that is left
holds the lists that are left.  In these no key is there twice, and the index of a map leads from each of its keys to the place of
that key, and from nothing else. -/
theorem containers_are_ordered_lists {h : Heap} (sound : h.Sound) {calls : List ContainerCall}
    (keys : ∀ c ∈ calls, ∀ k ∈ c.keys, k.KeyLike) :
    ∃ h', ContainerCall.runAll h calls = .ok ((h.shelf.answers calls).1, h') ∧ h'.shelf = (h.shelf.answers calls).2 ∧ h'.Sound ∧
      (∀ m, (h'.shelf.dictionary m).entries.Pairwise fun d e => d.1.sameKey e.1 = false) ∧
      (∀ m key i, (h'.mapTable m).find? key = some i ↔
        ∃ k, (h'.mapTable m).keys[i]? = some k ∧ (Heap.keyOf {} k).same key = true) ∧
      ∀ s, (h'.shelf.items s).Pairwise fun v u => v.sameKey u = false := by
  obtain ⟨h', run, sound', shelf⟩ := ContainerCall.runAll_eq sound keys
  refine ⟨h', run, shelf, sound', fun m => ?_, fun m key i => (sound'.mapTable m).find?_eq_some_iff, fun s => ?_⟩
  · have apart := (sound'.mapTable m).keys.apart
    rw [(sound'.mapTable m).keys_eq, List.pairwise_map] at apart
    rw [Heap.shelf_dictionary]
    exact apart
  · rw [Heap.shelf_items]
    exact (sound'.setTable s).keys.apart

/-- A short and a long `7` are one key of a map, which keeps its place and its first spelling; an address and a string with the
same text are one member of a set. -/
theorem containers_are_ordered_lists_spellings :
    let calls : List ContainerCall :=
      [.newMap .null, .mapSet 0 (.whole .short 7) (.bool true), .mapSet 0 (.tuple [.null]) .null,
        .mapSet 0 (.whole .long 7) (.bool false), .mapKeys 0, .mapDelete 0 (.tuple [.null]), .mapValues 0,
        .newSet [.text .address [97], .text .string [97]], .setItems 1]
    (∀ c ∈ calls, ∀ k ∈ c.keys, k.KeyLike) ∧
      ∃ h', ContainerCall.runAll {} calls =
        .ok ([.made 0, .done, .done, .done, .values [.whole .short 7, .tuple [.null]], .flag true, .values [.bool false],
          .made 1, .values [.text .string [97]]], h') := by
  intro calls
  have keys : ∀ c ∈ calls, ∀ k ∈ c.keys, k.KeyLike := by
    have tuple : (Value.tuple [.null]).KeyLike := .tuple fun v mem => List.mem_singleton.mp mem ▸ .null
    simp only [calls, List.forall_mem_cons, ContainerCall.keys, List.not_mem_nil, false_implies, implies_true, and_true, true_and]
    exact ⟨.whole _ _, tuple, .whole _ _, tuple, .text _ _, .text _ _⟩
  obtain ⟨h', run, -⟩ := containers_are_ordered_lists Heap.sound_empty keys
  exact ⟨keys, h', run⟩

end LedgerScript
