import Mathlib
import LedgerScript.Proofs.Wire.Data
import LedgerScript.Value.Container

/-!
# Tables of keys that cannot change

The key form of a tuple that holds a container is a text that changes with the container.  A key that is a number, a text or
the like, or a tuple of such, has the same key form on every heap and at all times.

In a table of such keys the index and the keys agree: the table is `Sound`.  Empty tables are, and whatever is added and taken
away, they stay so, and no operation crashes.
-/

namespace LedgerScript

/-! ## Keys without containers -/

/-- What the members of sets and the keys of maps are: a number, a text or the like, or a tuple of them.  Not-a-number is not
one of them, since it is not the same key as itself. -/
inductive Value.KeyLike : Value → Prop where
  | null : KeyLike .null
  | bool (b : Bool) : KeyLike (.bool b)
  | whole (k : WholeKind) (n : Int) : KeyLike (.whole k n)
  | real (k : RealKind) {x : Float} (number : x.isNaN = false) : KeyLike (.real k x)
  | text (k : TextKind) (s : Bytes) : KeyLike (.text k s)
  | tuple {items : List Value} (each : ∀ v ∈ items, KeyLike v) : KeyLike (.tuple items)

section

variable {v : Value} {vs : List Value}

theorem Value.refsOf_eq_nil (each : ∀ v ∈ vs, v.refs = []) : Value.refsOf vs = [] := by
  induction vs with
  | nil => rfl
  | cons v rest ih =>
    rw [Value.refsOf, each v (by simp), ih fun u mem => each u (by simp [mem])]
    rfl

theorem Value.KeyLike.refs_eq_nil (key : v.KeyLike) : v.refs = [] := by
  induction key with
  | null | bool | whole | real | text => rfl
  | tuple _ ih => exact Value.refsOf_eq_nil ih

theorem exists_mapM_ok {ε α β : Type} {f : α → Except ε β} {items : List α} (each : ∀ a ∈ items, ∃ b, f a = .ok b) :
    ∃ bs, items.mapM f = .ok bs := by
  induction items with
  | nil => exact ⟨[], rfl⟩
  | cons a rest ih =>
    obtain ⟨b, first⟩ := each a (by simp)
    obtain ⟨bs, others⟩ := ih fun c mem => each c (by simp [mem])
    exact ⟨b :: bs, by rw [List.mapM_cons, first, others]; rfl⟩

theorem Value.KeyLike.showAt_ok (key : v.KeyLike) (h : Heap) (keyOf : Value → Except Crash Key) :
    ∀ depth quoted, ∃ text, h.showAt keyOf depth quoted v = .ok text := by
  induction key with
  | null | bool | real =>
    intro depth quoted
    cases depth <;> exact ⟨_, rfl⟩
  | whole k | text k =>
    intro depth quoted
    cases depth <;> cases k <;> exact ⟨_, rfl⟩
  | @tuple items _ ih =>
    intro depth quoted
    cases depth with
    | zero => exact ⟨_, rfl⟩
    | succ depth =>
      obtain ⟨texts, made⟩ := exists_mapM_ok fun v mem => ih v mem depth true
      exact ⟨_, by rw [Heap.showAt, made]; rfl⟩

theorem Value.KeyLike.key_eq (key : v.KeyLike) (h : Heap) : h.key v = .ok (Heap.keyOf {} v) := by
  have form : ∃ k, Heap.keyAt {} (999 + 1) v = .ok k := by
    cases key with
    | null | bool | real => exact ⟨_, rfl⟩
    | whole k | text k => cases k <;> exact ⟨_, rfl⟩
    | tuple each =>
      obtain ⟨text, shown⟩ := (Value.KeyLike.tuple each).showAt_ok {} (Heap.keyAt {} 999) Heap.shownDepth true
      exact ⟨_, by rw [Heap.keyAt, shown]; rfl⟩
  obtain ⟨k, form⟩ := form
  have here : Heap.key {} v = .ok k := form
  rw [Heap.keyOf, here]
  exact (Heap.key_of_refs key.refs_eq_nil h).trans here

theorem Value.KeyLike.keyed (key : v.KeyLike) (kept : v.keptKey = v) : v.Keyed :=
  ⟨kept, .inl key.refs_eq_nil, _, key.key_eq {}⟩

theorem Value.KeyLike.keptKey (key : v.KeyLike) : v.keptKey.KeyLike ∧ v.keptKey.keptKey = v.keptKey ∧
    Heap.keyOf {} v.keptKey = Heap.keyOf {} v := by
  have same (kept : v.keptKey = v) : v.keptKey.KeyLike ∧ v.keptKey.keptKey = v.keptKey ∧
      Heap.keyOf {} v.keptKey = Heap.keyOf {} v := by
    rw [kept, kept]
    exact ⟨key, rfl, rfl⟩
  cases key with
  | null | bool | whole | real | tuple => exact same rfl
  | text k s =>
    cases k with
    | string | account => exact same rfl
    | address => exact ⟨.text .string s, rfl, rfl⟩

end

/-! ## The same key -/

theorem Key.same_comm (k l : Key) : k.same l = l.same k := by
  cases k <;> cases l <;> simp [Key.same, BEq.comm]

theorem Key.same_trans {k l m : Key} (first : k.same l = true) (second : l.same m = true) : k.same m = true := by
  cases k <;> cases l <;> simp only [Key.same, Bool.false_eq_true, Bool.and_eq_true] at first <;> cases m <;>
    simp only [Key.same, Bool.false_eq_true, Bool.and_eq_true] at second ⊢
  case bool | whole | char | text | account | task => exact BEq.trans first second
  case real | ref | handle => exact ⟨BEq.trans first.1 second.1, BEq.trans first.2 second.2⟩

theorem Value.KeyLike.same_self {v : Value} (key : v.KeyLike) : (Heap.keyOf {} v).same (Heap.keyOf {} v) = true := by
  have here : Heap.keyAt {} (999 + 1) v = .ok (Heap.keyOf {} v) := key.key_eq {}
  cases key with
  | null => rfl
  | bool b => exact beq_self_eq_true b
  | whole k n => cases k <;> exact beq_self_eq_true n
  | @real k x number =>
    rw [Float.isNaN_eq_decide_eq_nan, decide_eq_false_iff_not] at number
    change (k == k && x == x) = true
    rw [beq_self_eq_true, Float.beq_self_iff.mpr number]
    rfl
  | text k s => cases k <;> exact beq_self_eq_true s
  | tuple each =>
    obtain ⟨text, -, form⟩ := of_bind_ok here
    rw [← Except.ok.inj form]
    exact beq_self_eq_true (Heap.tupleMark ++ text)

structure Value.TableKeys (vs : List Value) : Prop where
  each : ∀ v ∈ vs, v.KeyLike
  kept : ∀ v ∈ vs, v.keptKey = v
  apart : vs.Pairwise fun v u => (Heap.keyOf {} v).same (Heap.keyOf {} u) = false

theorem Value.TableKeys.keys {vs : List Value} (keys : Value.TableKeys vs) : Value.Keys vs :=
  ⟨fun v mem => (keys.each v mem).keyed (keys.kept v mem), keys.apart⟩

namespace Value.TableKeys

variable {v : Value} {vs us : List Value}

theorem nil : TableKeys [] :=
  ⟨nofun, nofun, .nil⟩

theorem sublist (keys : TableKeys vs) (fewer : List.Sublist us vs) : TableKeys us :=
  ⟨fun v mem => keys.each v (fewer.subset mem), fun v mem => keys.kept v (fewer.subset mem), keys.apart.sublist fewer⟩

theorem append (keys : TableKeys vs) (key : v.KeyLike)
    (new : ∀ u ∈ vs, (Heap.keyOf {} u).same (Heap.keyOf {} v) = false) : TableKeys (vs ++ [v.keptKey]) := by
  obtain ⟨like, kept, form⟩ := key.keptKey
  refine ⟨fun u mem => ?_, fun u mem => ?_, List.pairwise_append.mpr ⟨keys.apart, List.pairwise_singleton _ _, ?_⟩⟩
  · rcases List.mem_append.mp mem with mem | mem
    · exact keys.each u mem
    · rwa [List.mem_singleton.mp mem]
  · rcases List.mem_append.mp mem with mem | mem
    · exact keys.kept u mem
    · rwa [List.mem_singleton.mp mem]
  · intro u mem x last
    rw [List.mem_singleton.mp last, form]
    exact new u mem

end Value.TableKeys

/-! ## Sets -/

/-- The members are as they are kept, and the set knows their key forms. -/
structure SetTable.Sound (s : SetTable) : Prop where
  keys : Value.TableKeys s.order
  members : s.members = s.order.map (Heap.keyOf {})

/-- The members that are not the same key: there is only one that is left out. -/
theorem SetTable.dropFirst_eq {vs : List Value} (keys : Value.TableKeys vs) (h : Heap) (k : Key) :
    SetTable.dropFirst h.key k vs = .ok (vs.filter fun v => !(Heap.keyOf {} v).same k) := by
  induction vs with
  | nil => rfl
  | cons v rest ih =>
    obtain ⟨here, later⟩ := List.pairwise_cons.mp keys.apart
    have others := ih (keys.sublist (List.sublist_cons_self v rest))
    rw [SetTable.dropFirst, (keys.each v (by simp)).key_eq h]
    change (if (Heap.keyOf {} v).same k then pure rest else (SetTable.dropFirst h.key k rest).bind fun us => pure (v :: us)) = _
    cases same : (Heap.keyOf {} v).same k with
    | false =>
      rw [others, List.filter_cons, same]
      rfl
    | true =>
      -- what is the same key as this one is the same as no other
      have rest_kept : rest.filter (fun u => !(Heap.keyOf {} u).same k) = rest := by
        refine List.filter_eq_self.mpr fun u mem => ?_
        cases other : (Heap.keyOf {} u).same k with
        | false => rfl
        | true =>
          rw [Key.same_comm] at other
          exact absurd (Key.same_trans same other) (Bool.eq_false_iff.mp (here u mem))
      rw [List.filter_cons, same, rest_kept]
      rfl

def SetTable.addAll (s : SetTable) (vs : List Value) : SetTable :=
  vs.foldl (fun s v => (s.add (Heap.keyOf {} v) v).2) s

theorem SetTable.ofList_eq_addAll {vs : List Value} (keys : ∀ v ∈ vs, v.KeyLike) (h : Heap) (s : SetTable) :
    SetTable.ofList h.key vs s = .ok (s.addAll vs) := by
  rw [SetTable.ofList]
  induction vs generalizing s with
  | nil => rfl
  | cons v rest ih =>
    rw [List.foldlM_cons, (keys v (by simp)).key_eq h]
    exact ih (fun u mem => keys u (by simp [mem])) _

namespace SetTable.Sound

variable {s : SetTable} {v : Value}

theorem empty : Sound {} :=
  ⟨.nil, rfl⟩

theorem add (sound : s.Sound) (key : v.KeyLike) : (s.add (Heap.keyOf {} v) v).2.Sound := by
  unfold SetTable.add
  split
  · exact sound
  · next absent =>
    refine ⟨sound.keys.append key fun u mem => ?_, ?_⟩
    · rw [Bool.not_eq_true, has, sound.members, List.any_map, List.any_eq_false] at absent
      exact Bool.eq_false_iff.mpr (absent u mem)
    · simp [sound.members, key.keptKey.2.2]

/-- Removing a key leaves out its member, if there is one, and does not crash. -/
theorem remove_eq (sound : s.Sound) (h : Heap) (k : Key) :
    s.remove h.key k =
      ({ members := s.members.filter fun m => !m.same k
         order := s.order.filter fun v => !(Heap.keyOf {} v).same k }, .ok (s.has k)) := by
  rw [SetTable.remove]
  split
  · next present =>
    dsimp only
    rw [SetTable.dropFirst_eq sound.keys h k, present]
  · next absent =>
    have others : ∀ m ∈ s.members, m.same k = false := by
      rw [Bool.not_eq_true, SetTable.has, List.any_eq_false] at absent
      exact fun m mem => Bool.eq_false_iff.mpr (absent m mem)
    have members : (s.members.filter fun m => !m.same k) = s.members :=
      List.filter_eq_self.mpr fun m mem => by simp [others m mem]
    have order : (s.order.filter fun v => !(Heap.keyOf {} v).same k) = s.order := by
      refine List.filter_eq_self.mpr fun v mem => ?_
      have member : Heap.keyOf {} v ∈ s.members := by
        rw [sound.members]
        exact List.mem_map_of_mem mem
      simp [others _ member]
    rw [members, order, Bool.eq_false_iff.mpr absent]

theorem remove (sound : s.Sound) (h : Heap) (k : Key) : (s.remove h.key k).1.Sound := by
  rw [sound.remove_eq h k]
  refine ⟨sound.keys.sublist List.filter_sublist, ?_⟩
  simp [sound.members, List.filter_map, Function.comp_def]

theorem addAll {vs : List Value} (keys : ∀ v ∈ vs, v.KeyLike) (sound : s.Sound) : (s.addAll vs).Sound := by
  induction vs generalizing s with
  | nil => exact sound
  | cons v rest ih => exact ih (fun u mem => keys u (by simp [mem])) (sound.add (keys v (by simp)))

end SetTable.Sound

/-! ## Maps -/

/-- The keys are as they are kept, each has a value, and the index leads to each of them. -/
structure MapTable.Sound (m : MapTable) : Prop where
  keys : Value.TableKeys m.keys.toList
  paired : m.keys.size = m.vals.size
  index : m.index = (m.keys.toList.map (Heap.keyOf {})).zipIdx

namespace MapTable

variable {us ws : List Value}
variable {k : Key}

theorem find?_eq_some {m : MapTable} {i : Nat} (found : m.find? k = some i) : ∃ l, (l, i) ∈ m.index ∧ l.same k = true := by
  obtain ⟨e, one, rfl⟩ := Option.map_eq_some_iff.mp found
  have same := List.find?_some one
  exact ⟨e.1, List.mem_of_find?_eq_some one, same⟩

theorem find?_eq_none {m : MapTable} (absent : m.find? k = none) : ∀ e ∈ m.index, e.1.same k = false := by
  intro e mem
  rw [find?, Option.map_eq_none_iff, List.find?_eq_none] at absent
  exact Bool.eq_false_iff.mpr (absent e mem)

/-- The first entry of a key gets a position, all others stay. -/
theorem assign_append {before after : List (Key × Nat)} {l : Key} (i j : Nat) (others : ∀ e ∈ before, e.1.same k = false)
    (same : l.same k = true) : assign (before ++ (l, j) :: after) k i = before ++ (l, i) :: after := by
  induction before with
  | nil => exact if_pos same
  | cons e rest ih =>
    have first : ¬ e.1.same k = true := Bool.eq_false_iff.mp (others e (by simp))
    rw [List.cons_append, assign, if_neg first, ih fun e mem => others e (by simp [mem])]
    rfl

/-- Of the entries one is taken away. -/
theorem filter_zipIdx {u : Value} {key : Key} (keys : Value.TableKeys (us ++ u :: ws))
    (same : (Heap.keyOf {} u).same key = true) :
    ((us ++ u :: ws).map (Heap.keyOf {})).zipIdx.filter (fun e => !e.1.same key) =
      (us.map (Heap.keyOf {})).zipIdx ++ (ws.map (Heap.keyOf {})).zipIdx (us.length + 1) := by
  obtain ⟨-, later, before⟩ := List.pairwise_append.mp keys.apart
  have other {v : Value} (apart : (Heap.keyOf {} v).same (Heap.keyOf {} u) = false) : (Heap.keyOf {} v).same key = false := by
    cases too : (Heap.keyOf {} v).same key with
    | false => rfl
    | true =>
      rw [Key.same_comm] at same
      rw [Key.same_trans too same] at apart
      cases apart
  have kept {vs : List Value} (n : Nat) (each : ∀ v ∈ vs, (Heap.keyOf {} v).same key = false) :
      ((vs.map (Heap.keyOf {})).zipIdx n).filter (fun e => !e.1.same key) = (vs.map (Heap.keyOf {})).zipIdx n := by
    refine List.filter_eq_self.mpr fun e mem => ?_
    obtain ⟨v, hv, form⟩ := List.mem_map.mp (List.fst_mem_of_mem_zipIdx mem)
    rw [← form, each v hv]
    rfl
  rw [List.map_append, List.zipIdx_append, List.filter_append, kept _ fun v mem => other (before v mem u (by simp)),
    List.map_cons, List.zipIdx_cons, List.filter_cons, same, kept _ fun v mem => other ?_]
  · simp
  · rw [Key.same_comm]
    exact (List.pairwise_cons.mp later).1 v mem

/-- The keys that follow one that has been taken away move up. -/
theorem reindex_eq (keys : Value.TableKeys (us ++ ws)) (h : Heap) :
    reindex h.key ((us.map (Heap.keyOf {})).zipIdx ++ (ws.map (Heap.keyOf {})).zipIdx (us.length + 1)) us.length ws =
      .ok ((us ++ ws).map (Heap.keyOf {})).zipIdx := by
  induction ws generalizing us with
  | nil => simp [reindex]
  | cons w rest ih =>
    have key := keys.each w (by simp)
    have others : ∀ e ∈ (us.map (Heap.keyOf {})).zipIdx, e.1.same (Heap.keyOf {} w) = false := by
      intro e mem
      obtain ⟨u, hu, form⟩ := List.mem_map.mp (List.fst_mem_of_mem_zipIdx mem)
      rw [← form]
      exact (List.pairwise_append.mp keys.apart).2.2 u hu w (by simp)
    have step := @ih (us ++ [w]) (by simpa using keys)
    rw [reindex, key.key_eq h]
    change reindex h.key (assign _ (Heap.keyOf {} w) us.length) (us.length + 1) rest = _
    rw [List.map_cons, List.zipIdx_cons, assign_append us.length (us.length + 1) others key.same_self]
    simpa [List.zipIdx_append] using step

end MapTable

namespace MapTable.Sound

variable {m : MapTable} {k v : Value}
variable {key : Key} {i : Nat}

theorem empty (zero : Value) : Sound { zero } :=
  ⟨.nil, rfl, rfl⟩

theorem lt_of_find? (sound : m.Sound) (found : m.find? key = some i) : i < m.keys.size := by
  obtain ⟨l, mem, -⟩ := find?_eq_some found
  rw [sound.index] at mem
  simpa using List.snd_lt_of_mem_zipIdx mem

theorem new_of_find? (sound : m.Sound) (absent : m.find? key = none) :
    ∀ u ∈ m.keys.toList, (Heap.keyOf {} u).same key = false := by
  intro u mem
  obtain ⟨i, inside, rfl⟩ := List.getElem_of_mem mem
  have entry : (Heap.keyOf {} m.keys.toList[i], i) ∈ m.index := by
    rw [sound.index, List.mem_zipIdx_iff_getElem?]
    simp [List.getElem?_eq_getElem inside]
  exact find?_eq_none absent _ entry

theorem insert (sound : m.Sound) (key : k.KeyLike) (v : Value) :
    ∃ m', m.insert (Heap.keyOf {} k) k v = .ok m' ∧ m'.Sound := by
  unfold MapTable.insert
  split
  · next i found =>
    have inside := sound.paired ▸ sound.lt_of_find? found
    exact ⟨_, if_pos inside, sound.keys, by simpa using sound.paired, sound.index⟩
  · next absent =>
    have keys := sound.keys.append key (sound.new_of_find? absent)
    refine ⟨_, rfl, by simpa using keys, by simpa using sound.paired, ?_⟩
    simp [sound.index, List.zipIdx_append, key.keptKey.2.2]

theorem split_of_find? (sound : m.Sound) (found : m.find? key = some i) :
    ∃ us u ws, m.keys.toList = us ++ u :: ws ∧ us.length = i ∧ (Heap.keyOf {} u).same key = true := by
  obtain ⟨l, mem, same⟩ := find?_eq_some found
  rw [sound.index, List.mem_zipIdx_iff_getElem?, List.getElem?_map, Option.map_eq_some_iff] at mem
  obtain ⟨u, there, form⟩ := mem
  obtain ⟨inside, rfl⟩ := List.getElem?_eq_some_iff.mp there
  refine ⟨m.keys.toList.take i, m.keys.toList[i], m.keys.toList.drop (i + 1), ?_, List.length_take_of_le inside.le, ?_⟩
  · rw [List.cons_getElem_drop_succ, List.take_append_drop]
  · rwa [form]

/-- Erasing a key that is there takes away its entry, and does not crash. -/
theorem erase_eq (sound : m.Sound) (h : Heap) (found : m.find? key = some i) :
    m.erase h.key key =
      ({ m with
          keys := (m.keys.toList.eraseIdx i).toArray
          vals := (m.vals.toList.eraseIdx i).toArray
          index := ((m.keys.toList.eraseIdx i).map (Heap.keyOf {})).zipIdx }, .ok true) := by
  have inside := sound.lt_of_find? found
  obtain ⟨us, u, ws, keys, rfl, same⟩ := sound.split_of_find? found
  have all := sound.keys
  rw [keys] at all
  have rest : Value.TableKeys (us ++ ws) :=
    all.sublist ((List.append_sublist_append_left us).mpr (List.sublist_cons_self u ws))
  have index := MapTable.filter_zipIdx all same
  have reindexed := MapTable.reindex_eq rest h
  have erased : m.keys.toList.eraseIdx us.length = us ++ ws := by
    rw [keys, List.eraseIdx_append_of_length_le (Nat.le_refl _), Nat.sub_self]
    rfl
  rw [MapTable.erase, found]
  dsimp only
  rw [if_pos inside, erased, sound.index, keys, index, List.toList_toArray, List.drop_left, reindexed]

theorem erase (sound : m.Sound) (h : Heap) (key : Key) : (m.erase h.key key).1.Sound := by
  cases found : m.find? key with
  | none =>
    rw [MapTable.erase, found]
    exact sound
  | some i =>
    have inside := sound.lt_of_find? found
    have inside' : i < m.vals.toList.length := inside.trans_eq (by simpa using sound.paired)
    rw [sound.erase_eq h found]
    refine ⟨by simpa using sound.keys.sublist (List.eraseIdx_sublist _ i), ?_, by simp⟩
    simp only [List.size_toArray, List.length_eraseIdx_of_lt inside', List.length_eraseIdx_of_lt inside]
    simp [sound.paired]

end MapTable.Sound

end LedgerScript
