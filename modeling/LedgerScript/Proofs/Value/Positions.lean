import LedgerScript.Proofs.Value.Tables
import Mathlib.Logic.Relation

/-!
# Positions in maps

The index of a map numbers its keys by the forms that they had when they were numbered.  A tuple that holds an array may have
another form later, and then the index leads to it from where it was, or to nothing.  What is found lies inside the map all the
same: `MapTable.Indexed` is kept by every insertion, whatever has become of the keys.

An erasure numbers the later keys again by the forms that they have then, so it must find each of them where the index has it.
`MapTable.Agrees` says that it does.  In a run of heaps where maps only grow, and where every erasure is made while the index
agrees, no position is ever outside.
-/

namespace LedgerScript

namespace MapTable

/-- Every key has a value, every position is that of a key, and no two entries of the index are the same key. -/
structure Indexed (m : MapTable) : Prop where
  paired : m.keys.size = m.vals.size
  inside : ∀ e ∈ m.index, e.2 < m.vals.size
  apart : (m.index.map (·.1)).Pairwise fun k l => k.same l = false

/-- The keys have forms, and each entry of the index leads to a key of its form. -/
structure Agrees (keyOf : Value → Except Crash Key) (m : MapTable) : Prop where
  forms : ∀ v ∈ m.keys.toList, ∃ f, keyOf v = .ok f
  leads : ∀ e ∈ m.index, ∃ v f, m.keys.toList[e.2]? = some v ∧ keyOf v = .ok f ∧ e.1.same f = true

section

variable {m : MapTable} {k l : Key} {i : Nat} {index index' : List (Key × Nat)} {e : Key × Nat} {keyOf : Value → Except Crash Key}
variable {vs : List Value}

theorem Indexed.lt_of_find? (indexed : m.Indexed) (found : m.find? k = some i) : i < m.vals.size := by
  obtain ⟨l, mem, -⟩ := find?_eq_some found
  exact indexed.inside _ mem

theorem indexed_empty (zero : Value) : Indexed { zero } where
  paired := rfl
  inside := nofun
  apart := .nil

/-! ## Reading and inserting -/

theorem Indexed.get? (indexed : m.Indexed) (k : Key) : ∃ found, m.get? k = .ok found := by
  rw [MapTable.get?]
  cases found : m.find? k with
  | none => exact ⟨none, rfl⟩
  | some i =>
    have inside := indexed.lt_of_find? found
    exact ⟨some m.vals[i], by simp [inside]⟩

theorem Indexed.insert (indexed : m.Indexed) (k : Key) (kept v : Value) : ∃ m', m.insert k kept v = .ok m' ∧ m'.Indexed := by
  rw [MapTable.insert]
  cases found : m.find? k with
  | some i =>
    refine ⟨_, if_pos (indexed.lt_of_find? found), ?_⟩
    exact ⟨by simpa using indexed.paired, by simpa using indexed.inside, indexed.apart⟩
  | none =>
    refine ⟨_, rfl, by simpa using indexed.paired, ?_, ?_⟩
    · intro e mem
      rw [List.mem_append, List.mem_singleton] at mem
      rw [Array.size_push]
      rcases mem with mem | rfl
      · exact Nat.lt_succ_of_lt (indexed.inside e mem)
      · exact Nat.lt_succ_of_le indexed.paired.le
    · rw [List.map_append, List.pairwise_append]
      refine ⟨indexed.apart, List.pairwise_singleton _ _, ?_⟩
      simpa using find?_eq_none found

/-! ## Numbering again -/

/-- Numbering a key changes the position of its entry, or makes an entry for it. -/
theorem assign_keys (index : List (Key × Nat)) (k : Key) (i : Nat) :
    (assign index k i).map (·.1) = index.map (·.1) ∨
      (assign index k i).map (·.1) = index.map (·.1) ++ [k] ∧ ∀ l ∈ index.map (·.1), l.same k = false := by
  induction index with
  | nil => exact .inr ⟨rfl, nofun⟩
  | cons e rest ih =>
    obtain ⟨l, j⟩ := e
    cases same : l.same k with
    | true =>
      left
      rw [assign, if_pos same]
      rfl
    | false =>
      rw [assign, if_neg (Bool.eq_false_iff.mp same)]
      simp only [List.map_cons, List.cons_append, List.cons.injEq, true_and, List.forall_mem_cons]
      rcases ih with ih | ⟨ih, others⟩
      · exact .inl ih
      · exact .inr ⟨ih, same, others⟩

theorem apart_assign (apart : (index.map (·.1)).Pairwise fun k l => k.same l = false) (k : Key) (i : Nat) :
    ((assign index k i).map (·.1)).Pairwise fun k l => k.same l = false := by
  rcases assign_keys index k i with keys | ⟨keys, others⟩
  · rwa [keys]
  · rw [keys, List.pairwise_append]
    exact ⟨apart, List.pairwise_singleton _ _, by simpa using others⟩

/-- An entry that is not of the key that is numbered was there before. -/
theorem mem_assign (apart : (index.map (·.1)).Pairwise fun k l => k.same l = false) (mem : e ∈ assign index k i) :
    e.2 = i ∨ e ∈ index ∧ e.1.same k = false := by
  induction index with
  | nil =>
    rw [List.mem_singleton.mp mem]
    exact .inl rfl
  | cons first rest ih =>
    obtain ⟨l, j⟩ := first
    rw [List.map_cons, List.pairwise_cons] at apart
    cases same : l.same k with
    | true =>
      rw [assign, if_pos same, List.mem_cons] at mem
      rcases mem with rfl | mem
      · exact .inl rfl
      · have other := apart.1 e.1 (List.mem_map_of_mem mem)
        refine .inr ⟨by simp [mem], Bool.eq_false_iff.mpr fun too => ?_⟩
        rw [Key.same_comm] at too
        exact absurd (Key.same_trans same too) (Bool.eq_false_iff.mp other)
    | false =>
      rw [assign, if_neg (Bool.eq_false_iff.mp same), List.mem_cons] at mem
      rcases mem with rfl | mem
      · exact .inr ⟨by simp, same⟩
      · rcases ih apart.2 mem with here | ⟨mem, other⟩
        · exact .inl here
        · exact .inr ⟨by simp [mem], other⟩

/-- Numbering keys again keeps the entries of the index apart. -/
theorem apart_reindex (apart : (index.map (·.1)).Pairwise fun k l => k.same l = false)
    (done : reindex keyOf index i vs = .ok index') : (index'.map (·.1)).Pairwise fun k l => k.same l = false := by
  induction vs generalizing index i with
  | nil =>
    cases done
    exact apart
  | cons v rest ih =>
    obtain ⟨f, -, done⟩ := of_bind_ok done
    exact ih (apart_assign apart f i) done

/-- Numbering keys again brings all entries below a bound, if it comes to those that are not. -/
theorem inside_reindex {bound : Nat} (apart : (index.map (·.1)).Pairwise fun k l => k.same l = false)
    (reached : ∀ e ∈ index, e.2 < bound ∨ ∃ v ∈ vs, ∃ f, keyOf v = .ok f ∧ e.1.same f = true) (fits : i + vs.length ≤ bound)
    (done : reindex keyOf index i vs = .ok index') : ∀ e ∈ index', e.2 < bound := by
  induction vs generalizing index i with
  | nil =>
    cases done
    intro e mem
    rcases reached e mem with inside | ⟨v, none, -⟩
    · exact inside
    · cases none
  | cons v rest ih =>
    rw [List.length_cons] at fits
    obtain ⟨f, form, done⟩ := of_bind_ok done
    refine ih (apart_assign apart f i) (fun e mem => ?_) (by omega) done
    rcases mem_assign apart mem with here | ⟨mem, other⟩
    · exact .inl (by omega)
    · rcases reached e mem with inside | ⟨u, u_mem, g, form', same⟩
      · exact .inl inside
      · rcases List.mem_cons.mp u_mem with rfl | later
        · cases form.symm.trans form'
          rw [same] at other
          cases other
        · exact .inr ⟨u, later, g, form', same⟩

/-- Keys that have forms are numbered again. -/
theorem reindex_ok (forms : ∀ v ∈ vs, ∃ f, keyOf v = .ok f) (index : List (Key × Nat)) (i : Nat) :
    ∃ index', reindex keyOf index i vs = .ok index' := by
  induction vs generalizing index i with
  | nil => exact ⟨index, rfl⟩
  | cons v rest ih =>
    obtain ⟨f, form⟩ := forms v (by simp)
    obtain ⟨index', done⟩ := ih (fun u mem => forms u (by simp [mem])) (assign index f i) (i + 1)
    refine ⟨index', ?_⟩
    rw [reindex, form]
    exact done

/-! ## Erasing -/

/-- What an erasure leaves of the index has entries before the erased key, and entries of the keys behind it. -/
theorem Agrees.reached (agrees : m.Agrees keyOf) (found : m.find? k = some i) :
    ∀ e ∈ m.index.filter fun e => !e.1.same k,
      e.2 < i ∨ ∃ v ∈ m.keys.toList.drop (i + 1), ∃ f, keyOf v = .ok f ∧ e.1.same f = true := by
  intro e mem
  obtain ⟨mem, other⟩ := List.mem_filter.mp mem
  obtain ⟨l, erased, same⟩ := find?_eq_some found
  obtain ⟨v, f, there, form, leads⟩ := agrees.leads e mem
  rcases Nat.lt_trichotomy e.2 i with before | here | behind
  · exact .inl before
  · -- two entries of one position are of one form, so this one was left out
    obtain ⟨u, g, there', form', leads'⟩ := agrees.leads _ erased
    rw [here] at there
    cases there.symm.trans there'
    cases form.symm.trans form'
    rw [Key.same_comm] at leads'
    have one : e.1.same l = true := Key.same_trans leads leads'
    rw [Key.same_trans one same] at other
    cases other
  · refine .inr ⟨v, ?_, f, form, leads⟩
    rw [List.mem_iff_getElem?]
    exact ⟨e.2 - (i + 1), by rw [List.getElem?_drop, Nat.add_sub_cancel' behind, there]⟩

/-- An erasure that finds the keys where the index has them leaves no position outside, and does not crash. -/
theorem Agrees.erase (agrees : m.Agrees keyOf) (indexed : m.Indexed) (k : Key) :
    (m.erase keyOf k).1.Indexed ∧ ∃ found, (m.erase keyOf k).2 = .ok found := by
  cases found : m.find? k with
  | none =>
    rw [MapTable.erase, found]
    exact ⟨indexed, false, rfl⟩
  | some i =>
    have inside := indexed.lt_of_find? found
    have inside' : i < m.keys.size := indexed.paired ▸ inside
    have rest : (m.keys.toList.eraseIdx i).toArray.toList.drop i = m.keys.toList.drop (i + 1) := by
      rw [List.toList_toArray, List.eraseIdx_eq_take_drop_succ, List.drop_left' (List.length_take_of_le inside'.le)]
    have apart : ((m.index.filter fun e => !e.1.same k).map (·.1)).Pairwise fun k l => k.same l = false :=
      indexed.apart.sublist (List.filter_sublist.map _)
    obtain ⟨index, done⟩ := reindex_ok (fun v mem => agrees.forms v (List.mem_of_mem_drop mem)) (m.index.filter fun e => !e.1.same k) i
    have bounded : ∀ e ∈ index, e.2 < m.vals.size - 1 := by
      refine inside_reindex apart (fun e mem => ?_) ?_ done
      · rcases agrees.reached found e mem with before | behind
        · exact .inl (Nat.lt_of_lt_of_le before (Nat.le_sub_one_of_lt inside))
        · exact .inr behind
      · rw [List.length_drop, Array.length_toList, indexed.paired]
        omega
    rw [MapTable.erase, found]
    dsimp only
    rw [if_pos inside', rest, done]
    refine ⟨⟨?_, ?_, apart_reindex apart done⟩, true, rfl⟩
    · simp [List.length_eraseIdx, indexed.paired]
    · simpa [List.length_eraseIdx, inside] using bounded

end

end MapTable

/-! ## Failing -/

/-- A computation fails at nothing but a value that is shown through itself. -/
def StaysInside {α : Type} (x : Except Crash α) : Prop :=
  ∀ c, x = .error c → c = .endless

section

variable {α β : Type} {x : Except Crash α} {f : α → Except Crash β}

theorem stays_ok (a : α) : StaysInside (.ok a) :=
  nofun

theorem StaysInside.bind (first : StaysInside x) (rest : ∀ a, StaysInside (f a)) : StaysInside (x >>= f) := by
  cases x with
  | ok a => exact rest a
  | error c =>
    intro d fails
    cases fails
    exact first c rfl

theorem StaysInside.mapM (each : ∀ a, StaysInside (f a)) (items : List α) : StaysInside (items.mapM f) := by
  induction items with
  | nil => exact stays_ok []
  | cons a rest ih =>
    rw [List.mapM_cons]
    exact (each a).bind fun b => ih.bind fun bs => stays_ok _

end

namespace MapTable

variable {m : MapTable} {keyOf : Value → Except Crash Key}

theorem Indexed.stays_get? (indexed : m.Indexed) (k : Key) : StaysInside (m.get? k) := by
  obtain ⟨found, read⟩ := indexed.get? k
  rw [read]
  exact stays_ok found

theorem Indexed.stays_insert (indexed : m.Indexed) (k : Key) (kept v : Value) : StaysInside (m.insert k kept v) := by
  obtain ⟨m', inserted, -⟩ := indexed.insert k kept v
  rw [inserted]
  exact stays_ok m'

theorem stays_reindex (keys : ∀ v, StaysInside (keyOf v)) (vs : List Value) (index : List (Key × Nat)) (i : Nat) :
    StaysInside (reindex keyOf index i vs) := by
  induction vs generalizing index i with
  | nil => exact stays_ok index
  | cons v rest ih => exact (keys v).bind fun f => ih (assign index f i) (i + 1)

/-- An erasure does not crash even if the index does not agree with the keys. -/
theorem Indexed.stays_erase (indexed : m.Indexed) (keys : ∀ v, StaysInside (keyOf v)) (k : Key) : StaysInside (m.erase keyOf k).2 := by
  cases found : m.find? k with
  | none =>
    rw [MapTable.erase, found]
    exact stays_ok false
  | some i =>
    have inside : i < m.keys.size := indexed.paired ▸ indexed.lt_of_find? found
    rw [MapTable.erase, found]
    dsimp only
    rw [if_pos inside]
    have renumbered := stays_reindex keys ((m.keys.toList.eraseIdx i).toArray.toList.drop i)
      (m.index.filter fun e => !e.1.same k) i
    split
    · exact stays_ok true
    · next c fails =>
      intro d same
      cases same
      exact renumbered c fails

end MapTable

/-! ## Heaps -/

namespace Heap

def Indexed (h : Heap) : Prop :=
  ∀ r, (h.mapTable r).Indexed

section

variable {h : Heap} {keyOf : Value → Except Crash Key}

theorem Indexed.stays_showAt (indexed : h.Indexed) (keys : ∀ v, StaysInside (keyOf v)) (depth : Nat) (quoted : Bool) (v : Value) :
    StaysInside (h.showAt keyOf depth quoted v) := by
  induction depth generalizing quoted v with
  | zero => exact stays_ok _
  | succ depth ih =>
    have each (items : List Value) : StaysInside (items.mapM (h.showAt keyOf depth true)) := .mapM (ih true) items
    cases v with
    | null | bool | real | task | handle => exact stays_ok _
    | whole k | text k => cases k <;> exact stays_ok _
    | tuple items => exact (each items).bind fun _ => stays_ok _
    | ref k r =>
      cases k with
      | array | set => exact (each _).bind fun _ => stays_ok _
      | classRef | function => exact stays_ok _
      | map =>
        refine (StaysInside.mapM (fun k => ?_) _).bind fun _ => stays_ok _
        refine (ih true k).bind fun _ => (keys k).bind fun f => ?_
        exact ((indexed r).stays_get? f).bind fun value => (ih true _).bind fun _ => stays_ok _
      | object =>
        rw [showAt]
        split
        · exact stays_ok _
        · split
          · exact (ih false _).bind fun _ => stays_ok _
          · exact (StaysInside.mapM (fun _ => (ih true _).bind fun _ => stays_ok _) _).bind fun _ => stays_ok _

theorem Indexed.stays_keyAt (indexed : h.Indexed) (rounds : Nat) (v : Value) : StaysInside (h.keyAt rounds v) := by
  induction rounds generalizing v with
  | zero =>
    intro c fails
    cases fails
    rfl
  | succ rounds ih =>
    cases v with
    | null | bool | real | ref | task | handle => exact stays_ok _
    | whole k | text k => cases k <;> exact stays_ok _
    | tuple items => exact (indexed.stays_showAt ih shownDepth true _).bind fun _ => stays_ok _

theorem Indexed.stays_key (indexed : h.Indexed) (v : Value) : StaysInside (h.key v) :=
  indexed.stays_keyAt keyRounds v

/-- What the operations on maps, and showing values, come to on a heap where all positions are inside: nothing runs into a
position that is not. -/
structure NoneOutside (h : Heap) : Prop where
  get? : ∀ r k, StaysInside (h.mapGet? r k)
  lookup : ∀ r k, StaysInside (h.mapLookup r k)
  has : ∀ r k, StaysInside (h.mapHas r k)
  insert : ∀ r k v, StaysInside (h.mapInsert r k v)
  erase : ∀ r k, StaysInside (h.mapErase r k).2
  plain : ∀ v, StaysInside (h.plain v)
  quoted : ∀ v, StaysInside (h.quoted v)

theorem Indexed.noneOutside (indexed : h.Indexed) : h.NoneOutside where
  get? r k := (indexed.stays_key k).bind fun f => (indexed r).stays_get? f
  lookup r k := ((indexed.stays_key k).bind fun f => (indexed r).stays_get? f).bind fun _ => stays_ok _
  has r k := (indexed.stays_key k).bind fun _ => stays_ok _
  insert r k v := (indexed.stays_key k).bind fun f => ((indexed r).stays_insert f k v).bind fun _ => stays_ok _
  erase r k := by
    have form := indexed.stays_key k
    rw [mapErase]
    split
    · next c fails =>
      intro d same
      cases same
      exact form c fails
    · next f made => exact (indexed r).stays_erase indexed.stays_key f
  plain := indexed.stays_showAt indexed.stays_key shownDepth false
  quoted := indexed.stays_showAt indexed.stays_key shownDepth true

theorem mapTable_put (h : Heap) (r s : Ref) (m : MapTable) :
    (h.put r (.map m)).mapTable s = h.mapTable s ∨ (h.put r (.map m)).mapTable s = m := by
  by_cases same : r = s
  · subst same
    by_cases inside : r < h.cells.size
    · exact .inr (by simp [mapTable, put, inside])
    · exact .inl (by simp [mapTable, put, inside])
  · exact .inl (by simp [mapTable, put, same])

end

end Heap

/-! ## Growing -/

/-- A map grows by insertions, whatever the forms of the keys are. -/
inductive MapTable.Grows (m : MapTable) : MapTable → Prop
  | refl : Grows m m
  | insert {m' m'' : MapTable} {k : Key} {kept v : Value} (grown : Grows m m') (done : m'.insert k kept v = .ok m'') : Grows m m''

namespace MapTable

variable {m m' m'' : MapTable}

theorem Indexed.grows (indexed : m.Indexed) (grows : m.Grows m') : m'.Indexed := by
  induction grows with
  | refl => exact indexed
  | insert grown done ih =>
    obtain ⟨m'', inserted, indexed'⟩ := ih.insert _ _ _
    cases inserted.symm.trans done
    exact indexed'

end MapTable

namespace Heap

/-- The maps of a heap have grown, or they are new ones that have; a copy of a map grows from it.  All other cells may have become
anything. -/
def Grows (h h' : Heap) : Prop :=
  ∀ r, (∃ s, (h.mapTable s).Grows (h'.mapTable r)) ∨ ∃ zero, MapTable.Grows { zero } (h'.mapTable r)

variable {h h' h'' : Heap} {r : Ref} {c : Cell}

theorem Indexed.grows (indexed : h.Indexed) (grows : h.Grows h') : h'.Indexed := by
  intro r
  rcases grows r with ⟨s, grows⟩ | ⟨zero, grows⟩
  · exact (indexed s).grows grows
  · exact (MapTable.indexed_empty zero).grows grows

end Heap

/-! ## Runs -/

/-- What happens to the maps of a heap: they grow, or a key is erased from one whose index agrees with its keys at that time. -/
inductive Heap.Step (h : Heap) : Heap → Prop
  | grow {h' : Heap} (grows : h.Grows h') : Step h h'
  | erase {r : Ref} (agrees : (h.mapTable r).Agrees h.key) (k : Value) : Step h (h.mapErase r k).1

namespace Heap.Indexed

variable {h h' : Heap}

theorem step (indexed : h.Indexed) (step : h.Step h') : h'.Indexed := by
  cases step with
  | grow grows => exact indexed.grows grows
  | @erase r agrees k =>
    intro s
    rw [mapErase]
    split
    · exact indexed s
    · next f made =>
      rcases h.mapTable_put r s ((h.mapTable r).erase h.key f).1 with old | new
      · exact old ▸ indexed s
      · exact new ▸ (agrees.erase (indexed r) f).1

theorem steps (indexed : h.Indexed) (steps : Relation.ReflTransGen Heap.Step h h') : h'.Indexed := by
  induction steps with
  | refl => exact indexed
  | tail _ last ih => exact ih.step last

end Heap.Indexed

/-- Positions in maps stay inside.  Where maps grow by insertions, and keys are erased only while the index agrees with them, the
index of every map leads to entries of that map, whatever becomes of what the keys hold.  Then no reading, insertion or
erasure runs into a position outside, nor does showing a value. -/
theorem map_positions_stay_inside {h h' : Heap} (indexed : h.Indexed) (steps : Relation.ReflTransGen Heap.Step h h') :
    (∀ r, ∀ e ∈ (h'.mapTable r).index, e.2 < (h'.mapTable r).vals.size) ∧ h'.NoneOutside :=
  ⟨fun r => (indexed.steps steps r).inside, (indexed.steps steps).noneOutside⟩

def arrayTuple : Value :=
  .tuple [.ref .array 0]

def arrayAndMap (n : Int) (m : MapTable) : Heap :=
  { cells := #[.array #[.int n], .map m] }

/-- A map that has such a tuple as its key, under the form that it has while the number is one. -/
def tupleMap : MapTable :=
  { keys := #[arrayTuple], vals := #[.str (utf8 "x")], index := [(.text (Heap.tupleMark ++ utf8 "([1],)"), 0)] }

/-- A tuple is entered and erased, then its array is changed, and it is entered in another form under the old key. -/
theorem map_positions_stay_inside_changed :
    Heap.Indexed {} ∧ Relation.ReflTransGen Heap.Step {} (arrayAndMap 2 tupleMap) ∧
      (∀ e ∈ tupleMap.index, e.2 < tupleMap.vals.size) ∧ (arrayAndMap 2 tupleMap).NoneOutside := by
  have indexed : Heap.Indexed {} := fun r => by
    simpa [Heap.mapTable] using MapTable.indexed_empty .null
  have form : (arrayAndMap 1 tupleMap).key arrayTuple = .ok (.text (Heap.tupleMark ++ utf8 "([1],)")) := rfl
  have inserted : MapTable.insert {} (.text (Heap.tupleMark ++ utf8 "([1],)")) arrayTuple (.str (utf8 "x")) = .ok tupleMap := rfl
  have entered : MapTable.Grows {} tupleMap := .insert .refl inserted
  have made : Heap.Step {} (arrayAndMap 1 tupleMap) := by
    refine .grow fun r => ?_
    rcases r with _ | _ | r
    · exact .inr ⟨.null, .refl⟩
    · exact .inr ⟨.null, entered⟩
    · exact .inr ⟨.null, .refl⟩
  have agrees : ((arrayAndMap 1 tupleMap).mapTable 1).Agrees (arrayAndMap 1 tupleMap).key := by
    refine ⟨fun v mem => ?_, fun e mem => ?_⟩
    · rw [List.mem_singleton.mp mem]
      exact ⟨_, form⟩
    · rw [List.mem_singleton.mp mem]
      exact ⟨arrayTuple, _, rfl, form, rfl⟩
  have erased : Heap.Step (arrayAndMap 1 tupleMap) (arrayAndMap 1 {}) := .erase agrees arrayTuple
  have again : Heap.Step (arrayAndMap 1 {}) (arrayAndMap 2 tupleMap) := by
    refine .grow fun r => ?_
    rcases r with _ | _ | r
    · exact .inr ⟨.null, .refl⟩
    · exact .inl ⟨1, entered⟩
    · exact .inr ⟨.null, .refl⟩
  have steps : Relation.ReflTransGen Heap.Step {} (arrayAndMap 2 tupleMap) :=
    ((Relation.ReflTransGen.single made).tail erased).tail again
  obtain ⟨inside, none⟩ := map_positions_stay_inside indexed steps
  exact ⟨indexed, steps, inside 1, none⟩

/-- A map that has the tuple twice, under both forms that it has had. -/
def staleMap : MapTable :=
  { keys := #[arrayTuple, arrayTuple]
    vals := #[.str (utf8 "x"), .str (utf8 "y")]
    index := [(.text (Heap.tupleMark ++ utf8 "([1],)"), 0), (.text (Heap.tupleMark ++ utf8 "([2],)"), 1)] }

-- its index does not agree with its keys, and an erasure leaves the second position outside
example : (((arrayAndMap 1 staleMap).mapErase 1 arrayTuple).1.mapTable 1).index.map (·.2) = [1, 0] ∧
    (((arrayAndMap 1 staleMap).mapErase 1 arrayTuple).1.mapTable 1).vals.size = 1 :=
  ⟨rfl, rfl⟩

end LedgerScript
