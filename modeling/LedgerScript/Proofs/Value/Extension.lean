import LedgerScript.Ledger.Account

/-!
# Heaps that grow

Most operations only add cells to the heap: copies of values go to new cells, and so do values that are read from a
store.  `Heap.Extends` says that all old cells are still there, with their contents.

A value that is not changed any more looks the same on every heap that extends the first one.  What has to stay are
the cells that the value reaches, and a set of cells from which no reference leads out of the set contains them.
`Heap.Holds` says that there is such a set.  It is then shown for the text of a value and for its key form, by induction on
the bound on the depth, that a larger heap gives the same.
-/

namespace LedgerScript

/-! ## Computations that may fail -/

section

variable {ε α β : Type}

theorem of_bind_ok {x : Except ε α} {f : α → Except ε β} {b : β} (h : x >>= f = .ok b) : ∃ a, x = .ok a ∧ f a = .ok b := by
  cases x with
  | error e => cases h
  | ok a => exact ⟨a, rfl, h⟩

/-- What every step keeps holds at the end. -/
theorem foldlM_keeps {f : β → α → Except ε β} (P : β → Prop) (step : ∀ b a b', P b → f b a = .ok b' → P b')
    (items : List α) : ∀ {b b' : β}, P b → items.foldlM f b = .ok b' → P b' := by
  induction items with
  | nil => intro b b' hb h; cases h; exact hb
  | cons a rest ih =>
    intro b b' hb h
    rw [List.foldlM_cons] at h
    obtain ⟨c, hc, h⟩ := of_bind_ok h
    exact ih (step b a c hb hc) h

theorem mapM_congr {f g : α → Except ε β} {items : List α} (same : ∀ a ∈ items, f a = g a) :
    items.mapM f = items.mapM g := by
  induction items with
  | nil => rfl
  | cons a rest ih =>
    rw [List.mapM_cons, List.mapM_cons, same a (by simp), ih fun b hb => same b (by simp [hb])]

end

namespace Heap

/-! ## Extension -/

def Extends (h h' : Heap) : Prop :=
  ∀ (r : Ref) (c : Cell), h.cells[r]? = some c → h'.cells[r]? = some c

theorem Extends.refl (h : Heap) : h.Extends h := by
  intro r c hc
  exact hc

theorem Extends.trans {h h' h'' : Heap} (first : h.Extends h') (second : h'.Extends h'') : h.Extends h'' := by
  intro r c hc
  exact second r c (first r c hc)

theorem extends_alloc (h : Heap) (c : Cell) : h.Extends (h.alloc c).2 := by
  intro r d hd
  obtain ⟨hr, rfl⟩ := Array.getElem?_eq_some_iff.mp hd
  simp [alloc, Array.getElem?_push_lt hr]

/-- A cell that a heap does not have may be filled in a larger one. -/
theorem Extends.put {h h' : Heap} (ext : h.Extends h') {r : Ref} (new : h.cells.size ≤ r) (c : Cell) :
    h.Extends (h'.put r c) := by
  intro q d hd
  obtain ⟨hq, -⟩ := Array.getElem?_eq_some_iff.mp hd
  have hne : r ≠ q := Nat.ne_of_gt (Nat.lt_of_lt_of_le hq new)
  rw [Heap.put, Array.getElem?_setIfInBounds_ne hne]
  exact ext q d hd

end Heap

/-! ## Copies -/

namespace Copying

variable {α β : Type}

/-- Whatever is copied, the old cells stay. -/
def Grows (x : Copying α) : Prop :=
  ∀ s a t, x.run s = .ok (a, t) → s.heap.Extends t.heap

theorem grows_pure (a : α) : Grows (pure a) := by
  intro s b t h
  cases h
  exact .refl _

theorem Grows.bind {x : Copying α} {f : α → Copying β} (hx : Grows x) (hf : ∀ a, Grows (f a)) : Grows (x >>= f) := by
  intro s b t h
  rw [StateT.run_bind] at h
  cases hr : x.run s with
  | error c => rw [hr] at h; cases h
  | ok p =>
    rw [hr] at h
    exact (hx s p.1 p.2 hr).trans (hf p.1 p.2 b t h)

theorem grows_get : Grows (get : Copying CopyState) := by
  intro s a t h
  cases h
  exact .refl _

theorem grows_lift (x : Except Crash α) : Grows (liftM x : Copying α) := by
  intro s a t h
  cases x with
  | error c => cases h
  | ok b => cases h; exact .refl _

section

variable {cell : RefKind → Ref → Copying Value}

mutual

theorem grows_copyWith (grows : ∀ k r, Grows (cell k r)) : ∀ v, Grows (copyWith cell v)
  | .tuple vs => (grows_copyEach grows vs).bind fun _ => grows_pure _
  | .ref k r => grows k r
  | .null | .bool _ | .whole _ _ | .real _ _ | .text _ _ | .task _ _ | .handle _ _ => grows_pure _

theorem grows_copyEach (grows : ∀ k r, Grows (cell k r)) : ∀ vs, Grows (copyEach cell vs)
  | [] => grows_pure _
  | v :: rest => (grows_copyWith grows v).bind fun _ => (grows_copyEach grows rest).bind fun _ => grows_pure _

end

end

/-- A cell is reserved, its contents are made, and it is filled. -/
theorem Grows.fill {x : Copying Cell} (hx : Grows x) (r : Ref) (c : Cell) (v : Ref → α) :
    Grows (reserve r c >>= fun r' => x >>= fun d => fill r' d >>= fun _ => pure (v r')) := by
  intro s a t h
  rw [StateT.run_bind] at h
  change ((x >>= fun d => Copying.fill s.heap.cells.size d >>= fun _ => pure (v s.heap.cells.size)).run
    { heap := (s.heap.alloc c).2, copied := (r, s.heap.cells.size) :: s.copied } : Except Crash _) = _ at h
  rw [StateT.run_bind] at h
  cases hr : x.run { heap := (s.heap.alloc c).2, copied := (r, s.heap.cells.size) :: s.copied } with
  | error c => rw [hr] at h; cases h
  | ok p =>
    rw [hr] at h
    cases h
    exact ((Heap.extends_alloc s.heap c).trans (hx _ _ _ hr)).put (Nat.le_refl _) p.1

theorem grows_copyRef (cells : Nat) : ∀ k r, Grows (copyRef cells k r) := by
  induction cells with
  | zero => exact fun k r => grows_pure _
  | succ cells ih =>
    intro k r
    refine grows_get.bind fun s => ?_
    split
    · exact grows_pure _
    · split
      · exact grows_pure _
      · next c _ =>
        split
        · exact grows_pure _
        · have contents : Grows (copyEach (copyRef cells) c.carried >>= fun vs => get >>= fun s =>
              (liftM (s.heap.refill vs c) : Copying Cell)) :=
            (grows_copyEach ih _).bind fun _ => grows_get.bind fun _ => grows_lift _
          simpa using contents.fill r c (Value.ref k)

end Copying

theorem Heap.extends_deepCopy {h h' : Heap} {v v' : Value} (hc : h.deepCopy v = .ok (v', h')) : h.Extends h' := by
  obtain ⟨p, hr, hp⟩ := of_bind_ok hc
  cases hp
  exact Copying.grows_copyWith (Copying.grows_copyRef _) v _ _ _ hr

/-- A copy of an account differs in its storage alone. -/
theorem Account.clone_spec {h h' : Heap} {a b : Account} (hc : a.clone h = .ok (b, h')) :
    h.Extends h' ∧ ∃ storage, b = { a with storage } := by
  obtain ⟨p, hs, hp⟩ := of_bind_ok hc
  cases hp
  refine ⟨foldlM_keeps (fun q => h.Extends q.2) ?_ _ (.refl h) hs, p.1, rfl⟩
  intro q s q' ext hq
  obtain ⟨c, hv, hc⟩ := of_bind_ok hq
  cases hc
  exact ext.trans (Heap.extends_deepCopy hv)

/-! ## What a value reaches -/

namespace Value

mutual

/-- The cells that a value refers to directly. -/
def refs : Value → List Ref
  | .tuple items => refsOf items
  | .ref _ r => [r]
  | _ => []

/-- The cells that some values refer to directly. -/
def refsOf : List Value → List Ref
  | [] => []
  | v :: rest => refs v ++ refsOf rest

end

theorem refs_subset_refsOf {v : Value} {items : List Value} (hv : v ∈ items) : v.refs ⊆ refsOf items := by
  induction items with
  | nil => cases hv
  | cons w rest ih =>
    intro r hr
    rcases List.mem_cons.mp hv with rfl | hv
    · exact List.mem_append_left _ hr
    · exact List.mem_append_right _ (ih hv hr)

end Value

/-- The cells that the contents of a cell refer to, as far as they show. -/
def Cell.refs : Cell → List Ref
  | .array items => Value.refsOf items.toList
  | .map m => Value.refsOf (m.zero :: m.keys.toList ++ m.vals.toList)
  | .set t => Value.refsOf t.order
  | .object o => o.cls :: Value.refsOf (o.fields.map (·.2))
  | .classCell c => c.ancestors
  | .function _ => []

/-- A value refers only to cells of a set. -/
def Value.Within (S : Ref → Prop) (v : Value) : Prop :=
  ∀ r ∈ v.refs, S r

theorem Value.within_of_refsOf {S : Ref → Prop} {items : List Value} (hi : ∀ r ∈ refsOf items, S r) :
    ∀ v ∈ items, v.Within S :=
  fun _ hv r hr => hi r (refs_subset_refsOf hv hr)

theorem MapTable.mem_vals_of_get? {m : MapTable} {k : Key} {v : Value} (h : m.get? k = .ok (some v)) :
    v ∈ m.vals.toList := by
  unfold MapTable.get? at h
  split at h
  · cases h
  · split at h
    · cases h
      exact Array.mem_toList_iff.mpr (Array.mem_of_getElem? ‹_›)
    · cases h

theorem mem_of_lookupName {α : Type} {name : String} {v : α} {fields : List (String × α)}
    (h : lookupName name fields = some v) : ∃ f ∈ fields, f.2 = v := by
  induction fields with
  | nil => cases h
  | cons f rest ih =>
    unfold lookupName at h
    split at h
    · cases h
      exact ⟨f, by simp, rfl⟩
    · obtain ⟨g, hg, rfl⟩ := ih h
      exact ⟨g, by simp [hg], rfl⟩

namespace Heap

/-- A set of cells that are there and from which no reference leads out of the set. -/
def Closed (h : Heap) (S : Ref → Prop) : Prop :=
  ∀ r, S r → ∃ c, h.cells[r]? = some c ∧ ∀ q ∈ c.refs, S q

def Holds (h : Heap) (v : Value) : Prop :=
  ∃ S, h.Closed S ∧ v.Within S

theorem Closed.mono {h h' : Heap} {S : Ref → Prop} (closed : h.Closed S) (ext : h.Extends h') : h'.Closed S := by
  intro r hr
  obtain ⟨c, hc, hq⟩ := closed r hr
  exact ⟨c, ext r c hc, hq⟩

theorem Holds.mono {h h' : Heap} {v : Value} (holds : h.Holds v) (ext : h.Extends h') : h'.Holds v := by
  obtain ⟨S, closed, hv⟩ := holds
  exact ⟨S, closed.mono ext, hv⟩

/-! ## The same on a larger heap -/

section

variable {h h' : Heap} {S : Ref → Prop} (closed : h.Closed S) (ext : h.Extends h')
variable {r : Ref}
include closed ext

/-- A larger heap has the same cell at a place of a closed set. -/
theorem Closed.cell_eq (hr : S r) : ∃ c, h.cells[r]? = some c ∧ h'.cells[r]? = some c ∧ ∀ q ∈ c.refs, S q := by
  obtain ⟨c, hc, hq⟩ := closed r hr
  exact ⟨c, hc, ext r c hc, hq⟩

theorem Closed.items_eq (hr : S r) : h'.items r = h.items r ∧ ∀ v ∈ (h.items r).toList, v.Within S := by
  obtain ⟨c, hc, hc', hq⟩ := closed.cell_eq ext hr
  cases c <;> simp only [items, hc, hc', true_and]
  case array items => exact Value.within_of_refsOf hq
  all_goals simp

theorem Closed.setTable_eq (hr : S r) : h'.setTable r = h.setTable r ∧ ∀ v ∈ (h.setTable r).order, v.Within S := by
  obtain ⟨c, hc, hc', hq⟩ := closed.cell_eq ext hr
  cases c <;> simp only [setTable, hc, hc', true_and]
  case set t => exact Value.within_of_refsOf hq
  all_goals simp

theorem Closed.mapTable_eq (hr : S r) :
    h'.mapTable r = h.mapTable r ∧
      ∀ v ∈ (h.mapTable r).zero :: (h.mapTable r).keys.toList ++ (h.mapTable r).vals.toList, v.Within S := by
  obtain ⟨c, hc, hc', hq⟩ := closed.cell_eq ext hr
  cases c <;> simp only [mapTable, hc, hc', true_and]
  case map m => exact Value.within_of_refsOf hq
  all_goals simp [Value.Within, Value.refs]

theorem Closed.className_eq (hr : S r) : h'.className r = h.className r := by
  obtain ⟨c, hc, hc', -⟩ := closed.cell_eq ext hr
  simp [className, class?, hc, hc']

theorem Closed.isErrorClass_eq (hr : S r) : h'.isErrorClass r = h.isErrorClass r := by
  obtain ⟨c, hc, hc', hq⟩ := closed.cell_eq ext hr
  have chain_eq : h'.chain r = h.chain r := by simp [chain, class?, hc, hc']
  have inside : ∀ q ∈ h.chain r, S q := by
    intro q hm
    cases c <;> simp [chain, class?, hc] at hm
    case classCell k =>
      rcases hm with rfl | hm
      · exact hr
      · exact hq q hm
    all_goals exact hm ▸ hr
  have each : ∀ q ∈ h.chain r, h'.class? q = h.class? q := by
    intro q hm
    obtain ⟨d, hd, hd', -⟩ := closed.cell_eq ext (inside q hm)
    simp [class?, hd, hd']
  rw [isErrorClass, isErrorClass, chain_eq]
  generalize h.chain r = refs at each
  induction refs with
  | nil => rfl
  | cons q rest ih =>
    rw [List.any_cons, List.any_cons, each q (by simp), ih fun p hp => each p (by simp [hp])]

/-- The text of a value, if keys are made alike. -/
theorem Closed.showAt_eq {keyOf keyOf' : Value → Except Crash Key}
    (keys : ∀ v : Value, v.Within S → keyOf' v = keyOf v) (depth : Nat) :
    ∀ (quoted : Bool) (v : Value), v.Within S → h'.showAt keyOf' depth quoted v = h.showAt keyOf depth quoted v := by
  induction depth with
  | zero => intro quoted v hv; rfl
  | succ depth ih =>
    -- The items of a container are all in the set, so they show alike.
    have each {items : List Value} (hi : ∀ v ∈ items, v.Within S) :
        items.mapM (h'.showAt keyOf' depth true) = items.mapM (h.showAt keyOf depth true) :=
      mapM_congr fun v hv => ih true v (hi v hv)
    intro quoted v hv
    cases v with
    | null | bool | real | task | handle => rfl
    | whole k n => cases k <;> rfl
    | text k s => cases k <;> rfl
    | tuple items => simp only [showAt, each (Value.within_of_refsOf hv)]
    | ref k r =>
      have hr : S r := hv r (by simp [Value.refs])
      cases k with
      | array =>
        obtain ⟨items_eq, inside⟩ := closed.items_eq ext hr
        simp only [showAt, items_eq, each inside]
      | set =>
        obtain ⟨table_eq, inside⟩ := closed.setTable_eq ext hr
        simp only [showAt, table_eq, each inside]
      | map =>
        obtain ⟨table_eq, inside⟩ := closed.mapTable_eq ext hr
        simp only [showAt, table_eq]
        congr 1
        refine mapM_congr fun k hk => ?_
        have hk' := inside k (List.mem_append_left _ (List.mem_cons_of_mem _ hk))
        rw [ih true k hk', keys k hk']
        cases h.showAt keyOf depth true k with
        | error e => rfl
        | ok shownKey =>
          cases keyOf k with
          | error e => rfl
          | ok key =>
            cases hg : (h.mapTable r).get? key with
            | error e => simp [bind, Except.bind, hg]
            | ok found =>
              have hf : (found.getD .null).Within S := by
                cases found with
                | none => simp [Value.Within, Value.refs]
                | some v => exact inside v (List.mem_append_right _ (MapTable.mem_vals_of_get? hg))
              simp [bind, Except.bind, hg, ih true _ hf]
      | object =>
        obtain ⟨c, hc, hc', hq⟩ := closed.cell_eq ext hr
        cases c <;> simp only [showAt, object?, hc, hc']
        case object o =>
          have hcls : S o.cls := hq o.cls (by simp [Cell.refs])
          have hfield : ∀ f ∈ o.fields, f.2.Within S := fun f hf =>
            Value.within_of_refsOf (fun q hm => hq q (List.mem_cons_of_mem _ hm)) f.2 (List.mem_map_of_mem hf)
          have fields_eq : (o.fields.mapM fun f => do
                return utf8 (" " ++ f.1 ++ ": ") ++ (← h'.showAt keyOf' depth true f.2)) =
              o.fields.mapM fun f => do
                return utf8 (" " ++ f.1 ++ ": ") ++ (← h.showAt keyOf depth true f.2) :=
            mapM_congr fun f hf => by rw [ih true f.2 (hfield f hf)]
          rw [closed.className_eq ext hcls, closed.isErrorClass_eq ext hcls, fields_eq]
          cases hm : lookupName "message" o.fields with
          | none => rfl
          | some message =>
            obtain ⟨f, hf, rfl⟩ := mem_of_lookupName hm
            cases h.isErrorClass o.cls with
            | false => rfl
            | true => simp only [ih false f.2 (hfield f hf)]
      | classRef => simp only [showAt, closed.className_eq ext hr]
      | function =>
        obtain ⟨c, hc, hc', -⟩ := closed.cell_eq ext hr
        simp [showAt, function?, hc, hc']

theorem Closed.keyAt_eq (rounds : Nat) : ∀ v : Value, v.Within S → h'.keyAt rounds v = h.keyAt rounds v := by
  induction rounds with
  | zero => intro v hv; rfl
  | succ rounds ih =>
    intro v hv
    cases v with
    | null | bool | real | task | handle | ref => rfl
    | whole k n => cases k <;> rfl
    | text k s => cases k <;> rfl
    | tuple items => simp only [keyAt, closed.showAt_eq ext ih shownDepth true (.tuple items) hv]

theorem Closed.plain_eq {v : Value} (hv : v.Within S) : h'.plain v = h.plain v :=
  closed.showAt_eq ext (closed.keyAt_eq ext keyRounds) shownDepth false v hv

end

end Heap

end LedgerScript
