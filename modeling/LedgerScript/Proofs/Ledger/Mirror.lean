import LedgerScript.Proofs.Ledger.Growth
import LedgerScript.Proofs.Ledger.Records
import LedgerScript.Proofs.Ledger.Clone
import LedgerScript.Proofs.Wire.Data

/-!
# The store as a mirror of the ledger

Accounts and blocks that consist of data *fit* into records: what is written of them can be read back, and copies of accounts
have the same written of them.  A store mirrors some accounts if it has a record of each of them, or a copy if it is a store in
memory, and nothing else.  Writing accounts keeps the mirror, and reading gives accounts of which the same is written, in the
order of their addresses.
-/

namespace LedgerScript

/-! ## Sorting and images -/

section

variable {ε α β : Type} {f : α → Except ε β} {le : α → α → Bool} {le' : β → β → Bool} {xs : List α} {ys : List β}

/-- What is sorted before it is mapped might as well be sorted afterwards. -/
theorem mapM_mergeSort (agree : ∀ a b x y, f a = .ok x → f b = .ok y → le a b = le' x y) (mapped : xs.mapM f = .ok ys) :
    (xs.mergeSort le).mapM f = .ok (ys.mergeSort le') := by
  rw [mapM_eq_ok_iff] at mapped
  obtain ⟨length, each⟩ := List.forall₂_iff_zip.mp mapped
  have first : (xs.zip ys).map (·.1) = xs := List.map_fst_zip length.le
  have second : (xs.zip ys).map (·.2) = ys := List.map_snd_zip length.ge
  -- the pairs in the order of their first parts
  let sorted := (xs.zip ys).mergeSort fun p q => le p.1 q.1
  have firsts : sorted.map (·.1) = xs.mergeSort le := by
    rw [List.map_mergeSort (s := le) fun p _ q _ => rfl, first]
  have seconds : sorted.map (·.2) = ys.mergeSort le' := by
    rw [List.map_mergeSort (s := le') fun p hp q hq => agree p.1 q.1 p.2 q.2 (each hp) (each hq), second]
  rw [← firsts, ← seconds, mapM_eq_ok_iff, List.forall₂_map_left_iff, List.forall₂_map_right_iff, List.forall₂_same]
  intro p mem
  exact each ((List.mergeSort_perm _ _).subset mem)

theorem mergeSort_eq_of_perm {zs : List α} (trans : ∀ a b c, le a b = true → le b c = true → le a c = true)
    (total : ∀ a b, (le a b || le b a) = true)
    (antisymm : ∀ a ∈ xs, ∀ b ∈ xs, le a b = true → le b a = true → a = b) (perm : xs.Perm zs) :
    xs.mergeSort le = zs.mergeSort le := by
  have left := List.mergeSort_perm xs le
  have right := List.mergeSort_perm zs le
  refine List.Perm.eq_of_pairwise (fun a b ha hb => ?_) (List.pairwise_mergeSort trans total xs)
    (List.pairwise_mergeSort trans total zs) ((left.trans perm).trans right.symm)
  exact antisymm a (left.subset ha) b (perm.symm.subset (right.subset hb))

end

/-! ## Accounts that fit -/

namespace Account

/-- The account fits into a record: its storage is data under different keys, and nothing is too long. -/
structure Fit (h : Heap) (a : Account) : Prop where
  address : a.address.length < 0x100000000
  balance : (Text.decimalInt a.balance).length < 0x100000000
  nonce : a.nonce < 0x10000000000000000
  code : a.code.length < 0x100000000
  few : a.storage.length < 0x100000000
  keys : (a.storage.map (·.1)).Nodup
  short : ∀ s ∈ a.storage, s.1.length < 0x100000000
  slots : ∀ s ∈ a.storage, h.Datum packDepth s.2

def imageSlot (h : Heap) (s : Bytes × Value) : Except Crash (Bytes × Written) := do
  return (s.1, ← h.written s.2)

/-- Slots in the order of their keys. -/
def slotLe (s t : Bytes × Written) : Bool :=
  Text.lexLe s.1 t.1

section

variable {h g : Heap} {a b : Account}

theorem imageSlot_fst {s : Bytes × Value} {t : Bytes × Written} (made : imageSlot h s = .ok t) : t.1 = s.1 := by
  obtain ⟨w, -, made⟩ := of_bind_ok made
  cases made
  rfl

theorem image_eq {slots : List (Bytes × Written)} (made : a.storage.mapM (imageSlot h) = .ok slots) :
    a.image h = .ok {
      address := a.address, balance := a.balance, nonce := a.nonce, code := a.code, storage := slots.mergeSort slotLe } := by
  have sorted : a.sortedStorage.mapM (imageSlot h) = .ok (slots.mergeSort slotLe) :=
    mapM_mergeSort (fun s t u v hu hv => by rw [slotLe, imageSlot_fst hu, imageSlot_fst hv]) made
  unfold image
  change (a.sortedStorage.mapM (imageSlot h) >>= _) = _
  rw [sorted]
  rfl

theorem Fit.written (fit : a.Fit h) : ∃ slots, a.storage.mapM (imageSlot h) = .ok slots ∧
    slots.map (·.1) = a.storage.map (·.1) ∧ ∀ s ∈ slots, s.2.Readable packDepth := by
  have slots := fit.slots
  generalize a.storage = storage at slots
  induction storage with
  | nil => exact ⟨[], rfl, rfl, nofun⟩
  | cons s rest ih =>
    obtain ⟨w, tree⟩ := (slots s (by simp)).tree
    obtain ⟨ws, made, keys, readable⟩ := ih fun s mem => slots s (by simp [mem])
    refine ⟨(s.1, w) :: ws, ?_, by simp [keys], fun t mem => ?_⟩
    · have first : imageSlot h s = .ok (s.1, w) := by
        unfold imageSlot Heap.written
        rw [tree.written]
        rfl
      rw [List.mapM_cons, first, made]
      rfl
    · rcases List.mem_cons.mp mem with rfl | mem
      · exact tree.readable
      · exact readable t mem

theorem Fit.image (fit : a.Fit h) : ∃ i, a.image h = .ok i ∧ i.Readable ∧ i.address = a.address := by
  obtain ⟨slots, made, keys, readable⟩ := fit.written
  have perm := List.mergeSort_perm slots slotLe
  have length : slots.length = a.storage.length := by simpa using congrArg List.length keys
  refine ⟨_, image_eq made, ⟨fit.address, fit.balance, fit.nonce, fit.code, ?_, ?_, ?_, ?_⟩, rfl⟩
  · change (slots.mergeSort slotLe).length < _
    rw [List.length_mergeSort, length]
    exact fit.few
  · exact ((perm.map (·.1)).nodup_iff).mpr (keys ▸ fit.keys)
  · exact List.pairwise_mergeSort (fun s t u => lexLe_trans s.1 t.1 u.1) (fun s t => lexLe_total s.1 t.1) slots
  · intro s mem
    have mem := perm.subset mem
    refine ⟨?_, readable s mem⟩
    obtain ⟨t, ht, same⟩ := List.mem_map.mp (keys ▸ List.mem_map_of_mem mem : s.1 ∈ a.storage.map (·.1))
    exact same ▸ fit.short t ht

theorem Fit.mono (fit : a.Fit h) (grows : h.Extends g) : a.Fit g :=
  { fit with slots := fun s mem => (fit.slots s mem).mono grows }

/-- If the storage was there before the heap grew, the account did fit before. -/
theorem Fit.of_extends (fit : a.Fit g) (grows : h.Extends g) (held : ∀ s ∈ a.storage, h.Holds s.2) : a.Fit h :=
  { fit with
    slots := fun s mem => by
      obtain ⟨S, closed, inside⟩ := held s mem
      exact (fit.slots s mem).of_extends grows closed inside }

theorem image_congr (same : ∀ s ∈ a.storage, g.written s.2 = h.written s.2) : a.image g = a.image h := by
  have each : a.sortedStorage.mapM (imageSlot g) = a.sortedStorage.mapM (imageSlot h) := by
    refine mapM_congr fun s mem => ?_
    unfold imageSlot
    rw [same s ((List.mergeSort_perm _ _).subset mem)]
  unfold image
  change (a.sortedStorage.mapM (imageSlot g) >>= _) = (a.sortedStorage.mapM (imageSlot h) >>= _)
  rw [each]

theorem Fit.image_grows (fit : a.Fit h) (grows : h.Extends g) : a.image g = a.image h :=
  image_congr fun s mem => (fit.slots s mem).writtenAt_eq grows

/-! ### Copies -/

theorem map_fst_of_forall₂ {α β γ : Type} {xs : List (α × β)} {ys : List (α × γ)}
    (same : List.Forall₂ (fun x y => y.1 = x.1) xs ys) : ys.map (·.1) = xs.map (·.1) := by
  induction same with
  | nil => rfl
  | cons first _ ih => rw [List.map_cons, List.map_cons, first, ih]

theorem datumLaw : CopyLaw (fun h => h.Datum packDepth) (fun h g => Copied.Faithful h g packDepth) where
  mono := Heap.Datum.mono
  make := Heap.Datum.deepCopy
  front datum grows faithful := ⟨faithful.1, faithful.2.trans (datum.writtenAt_eq grows)⟩
  back faithful grows := ⟨faithful.1.mono grows, (faithful.1.writtenAt_eq grows).trans faithful.2⟩

/-- A copy of an account fits if the account does, and the same is written of it. -/
theorem Fit.clone (fit : a.Fit h) : ∃ b g, a.clone h = .ok (b, g) ∧ h.Extends g ∧ b.Fit g ∧ b.address = a.address ∧
    b.image g = a.image h := by
  obtain ⟨copies, g, made, grows, each⟩ := CopyLaw.clone datumLaw fit.slots
  have keys : copies.map (·.1) = a.storage.map (·.1) := map_fst_of_forall₂ (each.imp fun s t same => same.1)
  have written : copies.mapM (imageSlot g) = a.storage.mapM (imageSlot h) := by
    refine mapM_of_forall₂ (each.imp fun s t same => ?_)
    unfold imageSlot Heap.written
    rw [same.1, same.2.2]
  have length : copies.length = a.storage.length := each.length_eq.symm
  refine ⟨{ a with storage := copies }, g, made, grows,
    ⟨fit.address, fit.balance, fit.nonce, fit.code, length ▸ fit.few, keys ▸ fit.keys, ?_, ?_⟩, rfl, ?_⟩
  · intro t mem
    obtain ⟨s, hs, same⟩ := forall₂_exists each.flip mem
    exact same.1 ▸ fit.short s hs
  · intro t mem
    obtain ⟨s, hs, same⟩ := forall₂_exists each.flip mem
    exact same.2.1
  · obtain ⟨slots, made, -⟩ := fit.written
    rw [image_eq made, image_eq (a := { a with storage := copies }) (written.trans made)]

end

end Account

/-! ## Accounts in a store -/

namespace Store

/-- The store has these accounts, as they are written on a heap, and no others. -/
inductive Mirrors (st : Store) (h : Heap) (accounts : List Account) : Prop where
  | disk (kind : st.kind = .disk) (keys : (st.records.map (·.1)).Nodup)
    (has : ∀ a ∈ accounts, ∃ i, a.image h = .ok i ∧ (a.address, i.pack) ∈ st.records)
    (only : ∀ r ∈ st.records, r.1 ∈ accounts.map (·.address))
  | memory (kind : st.kind = .memory) (distinct : Distinct st.accounts) (fit : ∀ c ∈ st.accounts, c.Fit h)
    (has : ∀ a ∈ accounts, ∃ c ∈ st.accounts, c.address = a.address ∧ c.image h = a.image h)
    (only : ∀ c ∈ st.accounts, c.address ∈ accounts.map (·.address))

variable {st st' : Store} {h h' : Heap} {accounts written merged : List Account}

/-! ### Writing -/

def recordOf (h : Heap) (a : Account) : Except StoreFault (Address × Bytes) :=
  match a.pack h with
  | .error c => .error (.crash c)
  | .ok bytes => .ok (a.address, bytes)

theorem recordOf_eq_ok {a : Account} {r : Address × Bytes} (made : recordOf h a = .ok r) :
    ∃ i, a.image h = .ok i ∧ r = (a.address, i.pack) := by
  unfold recordOf at made
  rw [a.pack_eq_image] at made
  cases image : a.image h with
  | error c => rw [image] at made; cases made
  | ok i =>
    rw [image] at made
    cases made
    exact ⟨i, rfl, rfl⟩

theorem map_fst_recordOf {new : List (Address × Bytes)}
    (made : List.Forall₂ (fun a r => recordOf h a = .ok r) written new) : new.map (·.1) = written.map (·.address) := by
  induction made with
  | nil => rfl
  | cons first _ ih =>
    obtain ⟨i, -, rfl⟩ := recordOf_eq_ok first
    rw [List.map_cons, List.map_cons, ih]

theorem putAccounts_disk (kind : st.kind = .disk) (put : st.putAccounts h written = .ok (st', h')) :
    h' = h ∧ ∃ new, written.mapM (recordOf h) = .ok new ∧
      st' = { st with records := new ++ st.records.filter fun r => !new.any (·.1 == r.1) } := by
  unfold putAccounts at put
  simp only [kind] at put
  split at put
  · cases put
  · obtain ⟨new, made, put⟩ := of_bind_ok put
    split at put
    · cases put
    · cases put
      exact ⟨rfl, new, made, by rw [kind]⟩

def putCopy (p : Store × Heap) (a : Account) : Except StoreFault (Store × Heap) :=
  match a.clone p.2 with
  | .error c => .error (.crash c)
  | .ok (copy, h) => .ok ({ p.1 with accounts := copy :: p.1.accounts.filter (·.address != a.address) }, h)

/-- What a store in memory has after some accounts have been copied into it. -/
structure Put (h h' : Heap) (before written after : List Account) : Prop where
  grows : h.Extends h'
  distinct : Distinct after
  fit : ∀ c ∈ after, c.address ∈ written.map (·.address) → c.Fit h'
  has : ∀ a ∈ written, ∃ c ∈ after, c.address = a.address ∧ c.image h' = a.image h
  kept : ∀ c ∈ before, c.address ∉ written.map (·.address) → c ∈ after
  only : ∀ c ∈ after, c.address ∈ written.map (·.address) ∨ c ∈ before

theorem putCopies : ∀ {st : Store} {h : Heap}, (∀ a ∈ written, a.Fit h) → Distinct written → Distinct st.accounts →
    ∃ after h', written.foldlM putCopy (st, h) = .ok ({ st with accounts := after }, h') ∧
      Put h h' st.accounts written after := by
  induction written with
  | nil =>
    intro st h _ _ distinct
    refine ⟨st.accounts, h, rfl, .refl h, distinct, ?_, nofun, fun c mem _ => mem, fun c mem => .inr mem⟩
    intro c _ among
    cases among
  | cons a rest ih =>
    intro st h fit unique distinct
    obtain ⟨apart, unique⟩ := List.nodup_cons.mp unique
    obtain ⟨b, g, cloned, grows, bFit, address, image⟩ := (fit a (by simp)).clone
    have others : (st.accounts.filter (·.address != a.address)).map (·.address) =
        (st.accounts.map (·.address)).filter (· != a.address) := by
      rw [List.filter_map]
      rfl
    have distinct' : Distinct (b :: st.accounts.filter (·.address != a.address)) := by
      refine List.nodup_cons.mpr ⟨fun mem => ?_, ?_⟩
      · rw [others] at mem
        simpa [address] using (List.mem_filter.mp mem).2
      · rw [others]
        exact distinct.filter _
    let next : Store := { st with accounts := b :: st.accounts.filter (·.address != a.address) }
    obtain ⟨after, h', made, put⟩ := @ih next g (fun x mem => (fit x (by simp [mem])).mono grows) unique distinct'
    have there : b ∈ after := put.kept b List.mem_cons_self (address ▸ apart)
    refine ⟨after, h', ?_, grows.trans put.grows, put.distinct, ?_, ?_, ?_, ?_⟩
    · have first : putCopy (st, h) a = .ok (next, g) := by rw [putCopy, cloned]
      rw [List.foldlM_cons, first]
      exact made
    · intro c mem among
      by_cases here : c.address ∈ rest.map (·.address)
      · exact put.fit c mem here
      · have same : c.address = b.address := address ▸ (List.mem_cons.mp among).resolve_right here
        rw [List.inj_on_of_nodup_map put.distinct mem there same]
        exact bFit.mono put.grows
    · intro x mem
      rcases List.mem_cons.mp mem with rfl | mem
      · exact ⟨b, there, address, (bFit.image_grows put.grows).trans image⟩
      · obtain ⟨c, hc, same, image'⟩ := put.has x mem
        exact ⟨c, hc, same, image'.trans ((fit x (by simp [mem])).image_grows grows)⟩
    · intro c mem absent
      rw [List.map_cons, List.mem_cons, not_or] at absent
      refine put.kept c (List.mem_cons_of_mem _ (List.mem_filter.mpr ⟨mem, ?_⟩)) absent.2
      simpa using absent.1
    · intro c mem
      rcases put.only c mem with among | old
      · exact .inl (List.mem_cons_of_mem _ among)
      · rcases List.mem_cons.mp old with rfl | old
        · exact .inl (address ▸ List.mem_cons_self)
        · exact .inr (List.mem_filter.mp old).1

theorem putAccounts_memory (kind : st.kind = .memory) (fit : ∀ a ∈ written, a.Fit h) (unique : Distinct written)
    (distinct : Distinct st.accounts) (put : st.putAccounts h written = .ok (st', h')) :
    ∃ after, st' = { st with accounts := after } ∧ Put h h' st.accounts written after := by
  obtain ⟨after, g, made, done⟩ := putCopies fit unique distinct
  unfold putAccounts at put
  simp only [kind] at put
  split at put
  · cases put
  · change written.foldlM putCopy (st, h) = _ at put
    cases made.symm.trans put
    exact ⟨after, rfl, done⟩

/-- The accounts that are written replace those of the same addresses. -/
structure Merged (accounts written merged : List Account) : Prop where
  mem : ∀ a ∈ merged, a ∈ written ∨ a ∈ accounts ∧ a.address ∉ written.map (·.address)
  addresses : ∀ address, address ∈ written.map (·.address) ∨ address ∈ accounts.map (·.address) →
    address ∈ merged.map (·.address)

theorem Mirrors.put (mirrors : st.Mirrors h accounts) (put : st.putAccounts h written = .ok (st', h'))
    (fits : ∀ a ∈ accounts, a.Fit h) (fit : ∀ a ∈ written, a.Fit h) (unique : Distinct written)
    (merged' : Merged accounts written merged) : st'.Mirrors h' merged := by
  cases mirrors with
  | disk kind keys has only =>
    obtain ⟨rfl, new, made, rfl⟩ := putAccounts_disk kind put
    rw [mapM_eq_ok_iff] at made
    have newKeys := map_fst_recordOf made
    have address (r) (mem : r ∈ new) : r.1 ∈ written.map (·.address) := newKeys ▸ List.mem_map_of_mem mem
    refine .disk kind ?_ ?_ ?_
    · change ((new ++ st.records.filter _).map (·.1)).Nodup
      rw [List.map_append, List.nodup_append]
      refine ⟨newKeys ▸ unique, List.Nodup.sublist (List.Sublist.map _ List.filter_sublist) keys, ?_⟩
      intro x hx y hy same
      obtain ⟨r, hr, rfl⟩ := List.mem_map.mp hx
      obtain ⟨q, hq, rfl⟩ := List.mem_map.mp hy
      have gone := (List.mem_filter.mp hq).2
      rw [Bool.not_eq_true', List.any_eq_false] at gone
      exact gone r hr (by simpa using same)
    · intro a mem
      rcases merged'.mem a mem with among | ⟨old, absent⟩
      · obtain ⟨r, hr, recorded⟩ := forall₂_exists made among
        obtain ⟨i, image, rfl⟩ := recordOf_eq_ok recorded
        exact ⟨i, image, List.mem_append_left _ hr⟩
      · obtain ⟨i, image, there⟩ := has a old
        refine ⟨i, image, List.mem_append_right _ (List.mem_filter.mpr ⟨there, ?_⟩)⟩
        rw [Bool.not_eq_true', List.any_eq_false]
        intro r hr same
        have same : r.1 = a.address := eq_of_beq same
        exact absent (same ▸ address r hr)
    · intro r mem
      refine merged'.addresses r.1 ?_
      rcases List.mem_append.mp mem with mem | mem
      · exact .inl (address r mem)
      · exact .inr (only r (List.mem_filter.mp mem).1)
  | memory kind distinct fitCopies has only =>
    obtain ⟨after, rfl, done⟩ := putAccounts_memory kind fit unique distinct put
    refine .memory kind done.distinct ?_ ?_ ?_
    · intro c mem
      by_cases among : c.address ∈ written.map (·.address)
      · exact done.fit c mem among
      · exact (fitCopies c ((done.only c mem).resolve_left among)).mono done.grows
    · intro a mem
      rcases merged'.mem a mem with among | ⟨old, absent⟩
      · obtain ⟨c, hc, same, image⟩ := done.has a among
        exact ⟨c, hc, same, image.trans ((fit a among).image_grows done.grows).symm⟩
      · obtain ⟨c, hc, same, image⟩ := has a old
        refine ⟨c, done.kept c hc (same ▸ absent), same, ?_⟩
        rw [(fitCopies c hc).image_grows done.grows, image, (fits a old).image_grows done.grows]
    · intro c mem
      refine merged'.addresses c.address ?_
      rcases done.only c mem with among | old
      · exact .inl among
      · exact .inr (only c old)

end Store

/-! ### Reading -/

namespace Account

def imageLe (i j : Image) : Bool :=
  Text.lexLe i.address j.address

variable {h : Heap} {accounts : List Account}

theorem address_of_image {a : Account} {i : Image} (made : a.image h = .ok i) : i.address = a.address := by
  obtain ⟨storage, -, made⟩ := of_bind_ok made
  cases made
  rfl

theorem images (fits : ∀ a ∈ accounts, a.Fit h) : ∃ is, accounts.mapM (·.image h) = .ok is ∧
    is.map (·.address) = accounts.map (·.address) ∧ ∀ i ∈ is, i.Readable := by
  induction accounts with
  | nil => exact ⟨[], rfl, rfl, nofun⟩
  | cons a rest ih =>
    obtain ⟨i, made, readable, address⟩ := (fits a (by simp)).image
    obtain ⟨is, others, addresses, each⟩ := ih fun a mem => fits a (by simp [mem])
    refine ⟨i :: is, ?_, by simp [address, addresses], fun j mem => ?_⟩
    · rw [List.mapM_cons, made, others]
      rfl
    · rcases List.mem_cons.mp mem with rfl | mem
      · exact readable
      · exact each j mem

theorem imageLe_antisymm {is : List Image} (distinct : (is.map (·.address)).Nodup) :
    ∀ i ∈ is, ∀ j ∈ is, imageLe i j = true → imageLe j i = true → i = j :=
  fun i hi j hj le ge => List.inj_on_of_nodup_map distinct hi hj (lexLe_antisymm i.address j.address le ge)

theorem mergeSort_image_eq {is js : List Image} (distinct : (is.map (·.address)).Nodup) (perm : is.Perm js) :
    is.mergeSort imageLe = js.mergeSort imageLe :=
  mergeSort_eq_of_perm (fun i j k => lexLe_trans i.address j.address k.address)
    (fun i j => lexLe_total i.address j.address) (imageLe_antisymm distinct) perm

end Account

namespace Store

open Account (imageLe)

variable {st : Store} {h : Heap} {accounts : List Account}

/-- The account of a record comes behind those before it. -/
def readAccount (before : List Account × Heap) (r : Address × Bytes) : Except StoreFault (List Account × Heap) :=
  match Account.ofBytes? before.2 r.2 with
  | some (a, h) => .ok (before.1 ++ [a], h)
  | none => .error .unreadable

/-- A copy of an account comes behind those before it. -/
def takeCopy (before : List Account × Heap) (a : Account) : Except StoreFault (List Account × Heap) :=
  match a.clone before.2 with
  | .ok (copy, h) => .ok (before.1 ++ [copy], h)
  | .error c => .error (.crash c)

theorem readAccounts {is : List Account.Image} (readable : ∀ i ∈ is, i.Readable) : ∀ (before : List Account) (g : Heap),
    ∃ as g', (is.map fun i => (i.address, i.pack)).foldlM readAccount (before, g) = .ok (before ++ as, g') ∧
      g.Extends g' ∧ ∀ g'', g'.Extends g'' → as.mapM (·.image g'') = .ok is := by
  induction is with
  | nil => exact fun before g => ⟨[], g, by simp; rfl, .refl g, fun _ _ => rfl⟩
  | cons i rest ih =>
    intro before g
    obtain ⟨a, g₁, read, grows, image⟩ := Account.ofBytes?_image (readable i (by simp)) g
    obtain ⟨as, g₂, others, grows', images⟩ := ih (fun i mem => readable i (by simp [mem])) (before ++ [a]) g₁
    refine ⟨a :: as, g₂, ?_, grows.trans grows', fun g'' later => ?_⟩
    · have first : readAccount (before, g) (i.address, i.pack) = .ok (before ++ [a], g₁) := by rw [readAccount, read]
      rw [List.map_cons, List.foldlM_cons, first]
      change List.foldlM _ (before ++ [a], g₁) _ = _
      rw [others]
      simp
    · rw [List.mapM_cons, image g'' (grows'.trans later), images g'' later]
      rfl

theorem takeCopies {copies : List Account} : ∀ (before : List Account) {g : Heap}, (∀ c ∈ copies, c.Fit g) →
    ∃ as g', copies.foldlM takeCopy (before, g) = .ok (before ++ as, g') ∧ g.Extends g' ∧
      ∀ g'', g'.Extends g'' → as.mapM (·.image g'') = copies.mapM (·.image g) := by
  induction copies with
  | nil =>
    intro before g _
    exact ⟨[], g, by simp; rfl, .refl g, fun _ _ => by rw [List.mapM_nil, List.mapM_nil]⟩
  | cons c rest ih =>
    intro before g fits
    obtain ⟨a, g₁, cloned, grows, fit, -, image⟩ := (fits c (by simp)).clone
    obtain ⟨as, g₂, others, grows', images⟩ := ih (before ++ [a]) fun c mem => (fits c (by simp [mem])).mono grows
    refine ⟨a :: as, g₂, ?_, grows.trans grows', fun g'' later => ?_⟩
    · have first : takeCopy (before, g) c = .ok (before ++ [a], g₁) := by rw [takeCopy, cloned]
      rw [List.foldlM_cons, first]
      change List.foldlM _ (before ++ [a], g₁) _ = _
      rw [others]
      simp
    · have same : rest.mapM (·.image g₁) = rest.mapM (·.image g) :=
        mapM_congr fun c mem => (fits c (by simp [mem])).image_grows grows
      rw [List.mapM_cons, List.mapM_cons, images g'' later, same, fit.image_grows (grows'.trans later), image]

/-- The accounts are read as they are, in the order of their addresses. -/
theorem Mirrors.load (mirrors : st.Mirrors h accounts) (fits : ∀ a ∈ accounts, a.Fit h) (distinct : Distinct accounts)
    (unshut : st.isShut = false) {is : List Account.Image} (made : accounts.mapM (·.image h) = .ok is) {g : Heap}
    (same : st.kind = .memory → h.Extends g) :
    ∃ as g', st.loadAccounts g = .ok (as, g') ∧ g.Extends g' ∧
      ∀ g'', g'.Extends g'' → as.mapM (·.image g'') = .ok (is.mergeSort imageLe) := by
  obtain ⟨js, made', addresses, readable⟩ := Account.images fits
  cases made'.symm.trans made
  have unique : (is.map (·.address)).Nodup := addresses ▸ distinct
  have each := mapM_eq_ok_iff.mp made
  cases mirrors with
  | disk kind keys has only =>
    -- the records are those of the images, in some order
    have perm : (is.map fun i => (i.address, i.pack)).Perm st.records := by
      refine (List.perm_ext_iff_of_nodup (List.Nodup.of_map (·.1) ?_) (List.Nodup.of_map (·.1) keys)).mpr fun r => ⟨?_, ?_⟩
      · simpa [Function.comp_def] using unique
      · intro mem
        obtain ⟨i, hi, rfl⟩ := List.mem_map.mp mem
        obtain ⟨a, ha, image⟩ := forall₂_exists each.flip hi
        obtain ⟨j, image', there⟩ := has a ha
        cases image.symm.trans image'
        exact Account.address_of_image image ▸ there
      · intro mem
        obtain ⟨a, ha, address⟩ := List.mem_map.mp (only r mem)
        obtain ⟨i, image, there⟩ := has a ha
        obtain ⟨j, hj, image'⟩ := forall₂_exists each ha
        cases image.symm.trans image'
        rw [List.inj_on_of_nodup_map keys mem there address.symm]
        exact List.mem_map.mpr ⟨i, hj, by rw [Account.address_of_image image]⟩
    have sorted : st.records.mergeSort (fun x y => Text.lexLe x.1 y.1) =
        (is.mergeSort imageLe).map fun i => (i.address, i.pack) := by
      rw [List.map_mergeSort (r := imageLe) (s := fun x y : Address × Bytes => Text.lexLe x.1 y.1) fun i _ j _ => rfl]
      refine (mergeSort_eq_of_perm (fun x y z => lexLe_trans x.1 y.1 z.1) (fun x y => lexLe_total x.1 y.1) ?_ perm).symm
      intro x hx y hy le ge
      refine List.inj_on_of_nodup_map keys (perm.subset hx) (perm.subset hy) (lexLe_antisymm x.1 y.1 le ge)
    obtain ⟨as, g', read, grows, images⟩ := readAccounts
      (fun i mem => readable i ((List.mergeSort_perm is imageLe).subset mem)) [] g
    refine ⟨as, g', ?_, grows, images⟩
    unfold loadAccounts
    simp only [unshut, kind]
    rw [sorted]
    exact read
  | memory kind copiesDistinct fitCopies has only =>
    obtain ⟨js, madeCopies, copyAddresses, -⟩ := Account.images fitCopies
    have eachCopy := mapM_eq_ok_iff.mp madeCopies
    have uniqueCopies : (js.map (·.address)).Nodup := copyAddresses ▸ copiesDistinct
    have perm : js.Perm is := by
      refine (List.perm_ext_iff_of_nodup (List.Nodup.of_map (·.address) uniqueCopies)
        (List.Nodup.of_map (·.address) unique)).mpr fun i => ⟨?_, ?_⟩
      · intro mem
        obtain ⟨c, hc, image⟩ := forall₂_exists eachCopy.flip mem
        obtain ⟨a, ha, address⟩ := List.mem_map.mp (only c hc)
        obtain ⟨c', hc', address', image'⟩ := has a ha
        cases List.inj_on_of_nodup_map copiesDistinct hc hc' (address.symm.trans address'.symm)
        obtain ⟨j, hj, image''⟩ := forall₂_exists each ha
        cases image.symm.trans (image'.trans image'')
        exact hj
      · intro mem
        obtain ⟨a, ha, image⟩ := forall₂_exists each.flip mem
        obtain ⟨c, hc, -, image'⟩ := has a ha
        obtain ⟨j, hj, image''⟩ := forall₂_exists eachCopy hc
        cases image''.symm.trans (image'.trans image)
        exact hj
    have grows := same kind
    let sorted := st.accounts.mergeSort fun x y => Text.lexLe x.address y.address
    have inside (c) (mem : c ∈ sorted) : c ∈ st.accounts := (List.mergeSort_perm st.accounts _).subset mem
    have sortedImages : sorted.mapM (·.image g) = .ok (is.mergeSort imageLe) := by
      rw [mapM_congr fun c mem => (fitCopies c (inside c mem)).image_grows grows, ← Account.mergeSort_image_eq uniqueCopies perm]
      refine mapM_mergeSort (fun a b x y hx hy => ?_) madeCopies
      rw [imageLe, Account.address_of_image hx, Account.address_of_image hy]
    obtain ⟨as, g', read, grows', images⟩ := takeCopies [] fun c mem => (fitCopies c (inside c mem)).mono grows
    refine ⟨as, g', ?_, grows', fun g'' later => (images g'' later).trans sortedImages⟩
    unfold loadAccounts
    simp only [unshut, kind]
    exact read

end Store

/-! ## Blocks that fit -/

theorem length_lt_of_readId? {t i : Bytes} (read : readId? t = some i) : t.length < 0x100000000 := by
  unfold readId? at read
  simp only at read
  split at read <;> first | omega | cases read

/-- The transaction fits into a record: its arguments are data, and nothing is too long. -/
structure Transaction.Fit (h : Heap) (tx : Transaction) : Prop where
  id : readId? tx.id = some tx.id
  sender : tx.sender.length < 0x100000000
  receiver : tx.receiver.length < 0x100000000
  amount : (Text.decimalInt tx.amount).length < 0x100000000
  method : tx.method.length < 0x100000000
  few : tx.args.length < 0x100000000
  args : ∀ v ∈ tx.args, h.Datum packDepth v
  code : tx.code.length < 0x100000000

theorem Transaction.Fit.wire {h : Heap} {tx : Transaction} (fit : tx.Fit h) : ∃ w, tx.wire h = .ok w ∧ w.Readable := by
  have args : ∃ ws, List.Forall₂ (Written.TreeOf h packDepth) tx.args ws := by
    have data := fit.args
    generalize tx.args = args at data
    induction args with
    | nil => exact ⟨[], .nil⟩
    | cons v rest ih =>
      obtain ⟨w, tree⟩ := (data v (by simp)).tree
      obtain ⟨ws, trees⟩ := ih fun v mem => data v (by simp [mem])
      exact ⟨w :: ws, .cons tree trees⟩
  obtain ⟨ws, trees⟩ := args
  have written : tx.args.mapM h.written = .ok ws := Written.TreeOf.mapM_written trees
  refine ⟨_, by unfold Transaction.wire; rw [written]; rfl, fit.id, length_lt_of_readId? fit.id, fit.sender, fit.receiver,
    ⟨tx.amount, rfl⟩, fit.amount, fit.method, trees.length_eq ▸ fit.few, Written.TreeOf.readable_each trees, fit.code⟩

namespace ChainBlock

/-- The block fits into a record: its transactions do, and nothing is too long. -/
structure Fit (h : Heap) (b : ChainBlock) : Prop where
  number : b.number < 0x10000000000000000
  few : b.txs.length < 0x100000000
  txs : ∀ tx ∈ b.txs, tx.Fit h

structure Sized (b : ChainBlock) : Prop where
  prevHash : b.prevHash.length = 32
  hash : b.hash.length = 32

variable {h g : Heap} {b : ChainBlock}

theorem Fit.image (fit : b.Fit h) (sized : b.Sized) : ∃ i, b.image h = .ok i ∧ i.Readable := by
  have wires : ∃ ws, b.wires h = .ok ws ∧ ws.length = b.txs.length ∧ ∀ w ∈ ws, w.Readable := by
    have fits := fit.txs
    unfold ChainBlock.wires
    generalize b.txs = txs at fits
    induction txs with
    | nil => exact ⟨[], rfl, rfl, nofun⟩
    | cons tx rest ih =>
      obtain ⟨w, made, readable⟩ := (fits tx (by simp)).wire
      obtain ⟨ws, others, length, each⟩ := ih fun tx mem => fits tx (by simp [mem])
      refine ⟨w :: ws, ?_, by simp [length], fun x mem => ?_⟩
      · rw [List.mapM_cons, made, others]
        rfl
      · rcases List.mem_cons.mp mem with rfl | mem
        · exact readable
        · exact each x mem
  obtain ⟨ws, made, length, each⟩ := wires
  refine ⟨_, by unfold ChainBlock.image; rw [made]; rfl, fit.number, sized.prevHash, ?_, each, sized.hash⟩
  change ws.length < _
  rw [length]
  exact fit.few

theorem image_congr (same : ∀ tx ∈ b.txs, ∀ v ∈ tx.args, g.written v = h.written v) : b.image g = b.image h := by
  have wires : b.wires g = b.wires h := mapM_congr fun tx mem => by
    unfold Transaction.wire
    rw [mapM_congr (same tx mem)]
  unfold ChainBlock.image
  rw [wires]

theorem of_image {i : Image} (made : b.image h = .ok i) : i.number = b.number ∧ i.isSealed = b.isSealed := by
  obtain ⟨ws, -, made⟩ := of_bind_ok made
  cases made
  exact ⟨rfl, rfl⟩

/-- The record of a block. -/
theorem image_of_pack {bytes : Bytes} (packed : b.pack h = .ok bytes) : ∃ i, b.image h = .ok i ∧ bytes = i.pack := by
  rw [b.pack_eq_image] at packed
  obtain ⟨i, image, rfl⟩ := of_map_ok packed
  exact ⟨i, image, rfl⟩

/-- The hash only depends on what is written of the block. -/
theorem hashOf_of_image (same : b.image g = b.image h) (prev : Digest) : hashOf g prev b.txs = hashOf h prev b.txs := by
  have packs : b.txs.mapM (·.pack g) = b.txs.mapM (·.pack h) := by
    rw [b.mapM_pack_eq, b.mapM_pack_eq]
    unfold ChainBlock.image at same
    cases first : b.wires g <;> cases second : b.wires h <;> rw [first, second] at same <;> cases same <;> rfl
  unfold hashOf
  rw [packs]

end ChainBlock

/-! ## Blocks in a store -/

namespace Chain

/-- The blocks are numbered, the last one is open, and its hash is right. -/
structure Standing (c : Chain) (h : Heap) : Prop where
  numbered : c.blocks.map (·.number) = List.range c.blocks.length
  isOpen : c.head.isSealed = false
  hash : ChainBlock.hashOf h c.head.prevHash c.head.txs = .ok c.head.hash
  sized : ∀ b ∈ c.blocks, b.Sized

variable {c c' : Chain} {h h' : Heap} {tx : Transaction} {b : ChainBlock} {isSealed : Bool}

theorem Standing.head_number (standing : c.Standing h) : c.head.number = c.earlier.length ∧
    c.earlier.map (·.number) = List.range c.earlier.length := by
  have numbered := standing.numbered
  simpa [blocks, List.range_succ, and_comm] using numbered

/-- Earlier blocks have smaller numbers. -/
theorem Standing.earlier_lt (standing : c.Standing h) (mem : b ∈ c.earlier) : b.number < c.head.number := by
  obtain ⟨head, earlier⟩ := standing.head_number
  have among : b.number ∈ c.earlier.map (·.number) := List.mem_map_of_mem mem
  rw [earlier, List.mem_range] at among
  omega

theorem Standing.mono (standing : c.Standing h) (same : c.head.image h' = c.head.image h) : c.Standing h' :=
  { standing with hash := (ChainBlock.hashOf_of_image same _).trans standing.hash }

theorem Standing.append (standing : c.Standing h) (appended : c.append h tx = .ok (c', b, isSealed)) : c'.Standing h := by
  obtain ⟨number, earlier⟩ := standing.head_number
  have sized := standing.sized
  have digest {prev : Digest} {txs : List Transaction} {hash : Digest} (made : ChainBlock.hashOf h prev txs = .ok hash) :
      hash.length = 32 := by
    obtain ⟨packed, -, made⟩ := of_bind_ok made
    cases made
    exact Digest.length_ofBytes _
  have before (e) (mem : e ∈ c.earlier) : e.Sized := sized e (List.mem_append_left _ mem)
  have head : c.head.prevHash.length = 32 := (sized c.head (by simp [blocks])).prevHash
  obtain ⟨hash, hashed, ⟨-, rfl, rfl⟩ | ⟨-, rfl, rfl⟩⟩ := append_cases appended
  · refine ⟨?_, standing.isOpen, hashed, fun e mem => ?_⟩
    · simpa [blocks] using standing.numbered
    · rcases List.mem_append.mp mem with mem | mem
      · exact before e mem
      · rw [List.mem_singleton.mp mem]
        exact ⟨head, digest hashed⟩
  · refine ⟨?_, rfl, hashOf_nil h _, fun e mem => ?_⟩
    · simp [blocks, ChainBlock.after, List.range_succ, number, earlier]
    · rcases List.mem_append.mp mem with mem | mem
      · rcases List.mem_append.mp mem with mem | mem
        · exact before e mem
        · rw [List.mem_singleton.mp mem]
          exact ⟨head, digest hashed⟩
      · rw [List.mem_singleton.mp mem]
        exact ⟨digest hashed, Digest.length_ofBytes _⟩

end Chain

namespace Store

/-- The block of this number is in the store as it is written on a heap. -/
def HasBlock (records : List (Nat × Bytes)) (h : Heap) (b : ChainBlock) : Prop :=
  ∃ i, b.image h = .ok i ∧ (b.number, i.pack) ∈ records

/-- The store has the blocks of a chain, and no others.  A first block in which there is nothing yet need not be there. -/
structure Chains (records : List (Nat × Bytes)) (h : Heap) (c : Chain) : Prop where
  keys : (records.map (·.1)).Nodup
  earlier : ∀ b ∈ c.earlier, HasBlock records h b
  head : HasBlock records h c.head ∨ records = [] ∧ c.earlier = [] ∧ c.head = .first
  only : ∀ r ∈ records, r.1 ∈ c.blocks.map (·.number)

section

variable {records records' : List (Nat × Bytes)} {h h' : Heap} {c c' : Chain} {tx : Transaction} {b e : ChainBlock}
  {isSealed : Bool} {bytes : Bytes}
variable {is : List ChainBlock.Image}

theorem HasBlock.mono (has : HasBlock records h b) (same : b.image h' = b.image h) : HasBlock records h' b := by
  obtain ⟨i, image, there⟩ := has
  exact ⟨i, same.trans image, there⟩

theorem HasBlock.putRecord (has : HasBlock records h e) {number : Nat} (other : e.number ≠ number) :
    HasBlock (putRecord records number bytes) h e := by
  obtain ⟨i, image, there⟩ := has
  exact ⟨i, image, List.mem_cons_of_mem _ (List.mem_filter.mpr ⟨there, by simpa using other⟩)⟩

theorem hasBlock_putRecord (packed : b.pack h = .ok bytes) : HasBlock (putRecord records b.number bytes) h b := by
  obtain ⟨i, image, rfl⟩ := ChainBlock.image_of_pack packed
  exact ⟨i, image, List.mem_cons_self⟩

theorem only_putRecord {number : Nat} {numbers : List Nat} (only : ∀ r ∈ records, r.1 ∈ numbers) (here : number ∈ numbers) :
    ∀ r ∈ putRecord records number bytes, r.1 ∈ numbers := by
  intro r mem
  rcases List.mem_cons.mp mem with rfl | mem
  · exact here
  · exact only r (List.mem_filter.mp mem).1

theorem Chains.mono (chains : Chains records h c) (same : ∀ b ∈ c.blocks, b.image h' = b.image h) : Chains records h' c where
  keys := chains.keys
  earlier b mem := (chains.earlier b mem).mono (same b (List.mem_append_left _ mem))
  head := chains.head.imp_left fun has => has.mono (same c.head (by simp [Chain.blocks]))
  only := chains.only

/-- The open block is written once more. -/
theorem Chains.again (chains : Chains records h c) (standing : c.Standing h) (packed : c.head.pack h = .ok bytes) :
    Chains (putRecord records c.head.number bytes) h c where
  keys := putRecord_keys chains.keys _ _
  earlier b mem := (chains.earlier b mem).putRecord (Nat.ne_of_lt (standing.earlier_lt mem))
  head := .inl (hasBlock_putRecord packed)
  only := only_putRecord chains.only (by simp [Chain.blocks])

theorem Chains.append (chains : Chains records h c) (standing : c.Standing h)
    (appended : c.append h tx = .ok (c', b, isSealed))
    (all : LedgerM.AllWritten h b (if isSealed then some c'.head else none) records records') : Chains records' h c' := by
  obtain ⟨-, isLast, head⟩ := Chain.append_spec appended
  obtain ⟨bytes, packed, all⟩ := all
  have before (e) (mem : e ∈ c.earlier) := Nat.ne_of_lt (standing.earlier_lt mem)
  have only := chains.only
  obtain ⟨hash, hashed, ⟨room, rfl, rfl⟩ | ⟨full, rfl, rfl⟩⟩ := Chain.append_cases appended
  · have notSealed : isSealed = false := by simpa [Chain.isLastFree, isLast] using room
    subst notSealed
    rw [all]
    refine ⟨putRecord_keys chains.keys _ _, fun e mem => ?_, .inl (hasBlock_putRecord packed), only_putRecord ?_ ?_⟩
    · exact (chains.earlier e mem).putRecord (before e mem)
    · intro r mem
      simpa [Chain.blocks] using only r mem
    · simp [Chain.blocks]
  · have isFull : isSealed = true := by simpa [Chain.isLastFree, isLast] using full
    subst isFull
    obtain ⟨bytes', packed', all⟩ := all
    rw [all]
    refine ⟨putRecord_keys (putRecord_keys chains.keys _ _) _ _, fun e mem => ?_, .inl (hasBlock_putRecord packed'),
      only_putRecord (only_putRecord ?_ ?_) ?_⟩
    · rcases List.mem_append.mp mem with mem | mem
      · refine ((chains.earlier e mem).putRecord (before e mem)).putRecord ?_
        have less := standing.earlier_lt mem
        simp only [ChainBlock.after]
        omega
      · rw [List.mem_singleton.mp mem]
        exact (hasBlock_putRecord packed).putRecord (by simp [ChainBlock.after])
    · intro r mem
      have among := only r mem
      simp only [Chain.blocks, List.map_append, List.map_cons, List.map_nil, List.mem_append, List.mem_singleton] at among ⊢
      exact .inl among
    · simp [Chain.blocks]
    · simp [Chain.blocks]

/-! ### Reading -/

theorem readBlocks_images (readable : ∀ i ∈ is, i.Readable) :
    ∀ (before : List ChainBlock) (g : Heap), ∃ bs g',
      readBlocks (is.map fun i => (i.number, i.pack)) (before, g) = .ok (before ++ bs, g') ∧ g.Extends g' ∧
      ∀ g'', g'.Extends g'' → bs.mapM (·.image g'') = .ok is := by
  induction is with
  | nil => exact fun before g => ⟨[], g, by simp; rfl, .refl g, fun _ _ => rfl⟩
  | cons i rest ih =>
    intro before g
    obtain ⟨b, g₁, read, grows, image⟩ := ChainBlock.ofBytes?_image (readable i (by simp)) g
    obtain ⟨bs, g₂, others, grows', images⟩ := ih (fun i mem => readable i (by simp [mem])) (before ++ [b]) g₁
    refine ⟨b :: bs, g₂, ?_, grows.trans grows', fun g'' later => ?_⟩
    · have first : readBlock (before, g) (i.number, i.pack) = .ok (before ++ [b], g₁) := by rw [readBlock, read]
      unfold readBlocks at others ⊢
      rw [List.map_cons, List.foldlM_cons, first]
      change List.foldlM _ (before ++ [b], g₁) _ = _
      rw [others]
      simp
    · rw [List.mapM_cons, image g'' (grows'.trans later), images g'' later]
      rfl

theorem chainImages (fits : ∀ b ∈ c.blocks, b.Fit h) (standing : c.Standing h) : ∃ is,
    c.blocks.mapM (·.image h) = .ok is ∧ is.map (·.number) = c.blocks.map (·.number) ∧ ∀ i ∈ is, i.Readable := by
  have sized := standing.sized
  generalize c.blocks = blocks at fits sized
  induction blocks with
  | nil => exact ⟨[], rfl, rfl, nofun⟩
  | cons b rest ih =>
    obtain ⟨i, made, readable⟩ := (fits b (by simp)).image (sized b (by simp))
    obtain ⟨is, others, numbers, each⟩ := ih (fun b mem => fits b (by simp [mem])) fun b mem => sized b (by simp [mem])
    refine ⟨i :: is, ?_, by simp [(ChainBlock.of_image made).1, numbers], fun j mem => ?_⟩
    · rw [List.mapM_cons, made, others]
      rfl
    · rcases List.mem_cons.mp mem with rfl | mem
      · exact readable
      · exact each j mem

theorem Chains.inOrder_eq (chains : Chains records h c) (standing : c.Standing h) (stored : HasBlock records h c.head) (made : c.blocks.mapM (·.image h) = .ok is)
    (numbers : is.map (·.number) = c.blocks.map (·.number)) : inOrder records = is.map fun i => (i.number, i.pack) := by
  have each := mapM_eq_ok_iff.mp made
  have keys : (is.map fun i => (i.number, i.pack)).map (·.1) = List.range c.blocks.length := by
    rw [List.map_map]
    exact numbers.trans standing.numbered
  have all (b) (mem : b ∈ c.blocks) : HasBlock records h b := by
    rcases List.mem_append.mp mem with mem | mem
    · exact chains.earlier b mem
    · rw [List.mem_singleton.mp mem]
      exact stored
  refine Store.inOrder_eq chains.keys ?_ ?_
  · refine List.pairwise_map.mp ?_
    rw [keys]
    exact List.pairwise_le_range
  · refine (List.perm_ext_iff_of_nodup (List.Nodup.of_map (·.1) (keys ▸ List.nodup_range))
      (List.Nodup.of_map (·.1) chains.keys)).mpr fun r => ⟨?_, ?_⟩
    · intro mem
      obtain ⟨i, hi, rfl⟩ := List.mem_map.mp mem
      obtain ⟨b, hb, image⟩ := forall₂_exists each.flip hi
      obtain ⟨j, image', there⟩ := all b hb
      cases image.symm.trans image'
      exact (ChainBlock.of_image image).1 ▸ there
    · intro mem
      obtain ⟨b, hb, number⟩ := List.mem_map.mp (chains.only r mem)
      obtain ⟨i, image, there⟩ := all b hb
      obtain ⟨j, hj, image'⟩ := forall₂_exists each hb
      cases image.symm.trans image'
      rw [List.inj_on_of_nodup_map chains.keys mem there number.symm]
      exact List.mem_map.mpr ⟨i, hj, by rw [(ChainBlock.of_image image).1]⟩

theorem Chains.load {st : Store} (chains : Chains st.blocks h c) (standing : c.Standing h) (unshut : st.isShut = false) (fits : ∀ b ∈ c.blocks, b.Fit h) (made : c.blocks.mapM (·.image h) = .ok is) (g : Heap) :
    ∃ bs g', st.loadBlocks g = .ok (bs, g') ∧ g.Extends g' ∧
      ∀ g'', g'.Extends g'' → ∀ size, (Chain.restore size bs).blocks.mapM (·.image g'') = .ok is := by
  rw [loadBlocks_eq, unshut]
  obtain ⟨js, made', numbers, readable⟩ := chainImages fits standing
  cases made'.symm.trans made
  rcases chains.head with stored | ⟨nothing, none, first⟩
  · rw [chains.inOrder_eq standing stored made numbers]
    obtain ⟨bs, g', read, grows, images⟩ := readBlocks_images readable [] g
    refine ⟨bs, g', read, grows, fun g'' later size => ?_⟩
    -- the last block is the open one, so nothing is put behind it
    have isOpen : ∃ last, bs.getLast? = some last ∧ last.isSealed = false := by
      have old := List.forall₂_reverse_iff.mpr (mapM_eq_ok_iff.mp made)
      have new := List.forall₂_reverse_iff.mpr (mapM_eq_ok_iff.mp (images g' (.refl g')))
      rw [Chain.blocks, List.reverse_append, List.reverse_singleton, List.singleton_append] at old
      obtain ⟨i, rest, image, -, backwards⟩ := List.forall₂_cons_left_iff.mp old
      rw [backwards] at new
      obtain ⟨last, before, image', -, backwards'⟩ := List.forall₂_cons_right_iff.mp new
      refine ⟨last, ?_, ?_⟩
      · rw [← List.reverse_reverse bs, backwards', List.reverse_cons, List.getLast?_concat]
      · rw [← (ChainBlock.of_image image').2, (ChainBlock.of_image image).2]
        exact standing.isOpen
    obtain ⟨last, isLast, isOpen⟩ := isOpen
    have same : (Chain.restore size bs).blocks = bs := by
      rw [Chain.restore, isLast]
      simp only [isOpen, Chain.blocks]
      obtain ⟨ne, rfl⟩ := List.getLast?_eq_some_iff.mp isLast
      simp
    rw [same]
    exact images g'' later
  · rw [nothing]
    refine ⟨[], g, by rw [inOrder, List.mergeSort_nil]; rfl, .refl g, fun g'' _ size => ?_⟩
    have alone : c.blocks = [.first] := by rw [Chain.blocks, none, first, List.nil_append]
    rw [alone] at made
    rw [← made]
    exact mapM_congr fun b mem => ChainBlock.image_congr fun tx htx => by
      rw [List.mem_singleton.mp mem] at htx
      cases htx

end

end Store

end LedgerScript
