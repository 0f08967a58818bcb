import LedgerScript.Proofs.Ledger.Accounts
import LedgerScript.Proofs.Ledger.Clone

/-!
# Overlays

To a transaction, its working set looks as if each write and each transfer changed the ledger at once.  An `Overlay` is the
ledger as the transaction sees it: what is read at each address, and beside it what was committed before, which conditions read.
There are no accounts in it and no copies; only the addresses that were touched are kept, since a commit creates their accounts.
`Overlay.answer` says what each operation answers and what it does to the overlay.
-/

/-!
## What is read of accounts

Who reads an account gets its balance and its slots, and of a slot what is seen of the value in it.  On a larger heap, and in a
copy, the same is read of an account whose values are intact.
-/

namespace LedgerScript

/-- What is seen of a value, down to each depth. -/
abbrev Seen := Nat → Tree

def Heap.seen (h : Heap) (v : Value) : Seen :=
  fun d => h.treeAt d v

structure Reading where
  balance : Int
  slot : Bytes → Seen

namespace Account

def reading (h : Heap) (a : Account) : Reading where
  balance := a.balance
  slot key := h.seen (a.slot key)

/-- All values in the storage are intact. -/
def Whole (h : Heap) (a : Account) : Prop :=
  ∀ s ∈ a.storage, h.Whole s.2

variable {h g : Heap} {a : Account} {key : Bytes} {v : Value}

theorem slot_setSlot (a : Account) (key : Bytes) (v : Value) (other : Bytes) :
    (a.setSlot key v).slot other = if key = other then v else a.slot other := by
  let put (s : Bytes × Value) : Bytes × Value := if s.1 == key then (key, v) else s
  have name (s : Bytes × Value) : (put s).1 = s.1 := by
    by_cases same : s.1 = key <;> simp [put, same]
  unfold setSlot slot
  by_cases there : a.storage.any (·.1 == key) = true
  · -- a slot keeps its name, so the same one is found
    have same : ((·.1 == other) ∘ put) = (·.1 == other) := funext fun s => by simp only [Function.comp, name]
    rw [if_pos there]
    dsimp only
    rw [List.find?_map, same]
    cases found : a.storage.find? (·.1 == other) with
    | none =>
      obtain ⟨s, mem, named⟩ := List.any_eq_true.mp there
      have absent : key ≠ other := fun e => List.find?_eq_none.mp found s mem (e ▸ named)
      rw [if_neg absent]
      rfl
    | some s =>
      have here : s.1 = other := by simpa using List.find?_some found
      by_cases same : key = other <;> simp [here, same, Ne.symm]
  · rw [if_neg there, List.find?_append, List.find?_singleton]
    by_cases same : key = other
    · have none : a.storage.find? (·.1 == other) = none := by
        rw [List.find?_eq_none]
        intro s mem here
        exact there (List.any_eq_true.mpr ⟨s, mem, same ▸ here⟩)
      simp [same, none]
    · simp [same]

namespace Whole

theorem slot (whole : a.Whole h) (key : Bytes) : h.Whole (a.slot key) := by
  unfold Account.slot
  split
  · next found => exact whole _ (List.mem_of_find?_eq_some found)
  · exact Heap.whole_of_bare rfl

theorem mono (whole : a.Whole h) (grows : h.Extends g) : a.Whole g :=
  fun s mem => (whole s mem).mono grows

theorem reading_eq (whole : a.Whole h) (grows : h.Extends g) : a.reading g = a.reading h := by
  have same (key : Bytes) : g.seen (a.slot key) = h.seen (a.slot key) :=
    funext fun d => (whole.slot key).holds.treeAt_eq grows d
  unfold reading
  simp only [same]

theorem setSlot (whole : a.Whole h) (intact : h.Whole v) : (a.setSlot key v).Whole h := by
  unfold Account.setSlot
  split
  · intro s mem
    obtain ⟨t, ht, rfl⟩ := List.mem_map.mp mem
    split
    · exact intact
    · exact whole t ht
  · intro s mem
    rcases List.mem_append.mp mem with mem | mem
    · exact whole s mem
    · rw [List.mem_singleton.mp mem]
      exact intact

/-- The same is read of a copy, whose values are intact as well. -/
theorem clone (whole : a.Whole h) : ∃ storage g, a.clone h = .ok ({ a with storage }, g) ∧ h.Extends g ∧
    Whole g { a with storage } ∧ reading g { a with storage } = a.reading h := by
  obtain ⟨storage, g, made, grows, copies⟩ := Heap.copyLaw.clone whole
  refine ⟨storage, g, made, grows, fun t mem => ?_, ?_⟩
  · obtain ⟨s, -, same⟩ := forall₂_exists copies.flip mem
    exact same.2.whole
  · have slots (key : Bytes) : g.seen (Account.slot { a with storage } key) = h.seen (a.slot key) := by
      unfold Account.slot
      dsimp only
      clear made
      generalize a.storage = slots at copies
      induction copies with
      | nil => exact funext fun d => by cases d <;> rfl
      | @cons s t _ _ first _ ih =>
        rw [List.find?_cons, List.find?_cons, first.1]
        cases s.1 == key with
        | true => exact funext first.2.tree
        | false => exact ih
    unfold reading
    simp only [slots]

end Whole

theorem reading_setSlot (h : Heap) (a : Account) (key : Bytes) (v : Value) : (a.setSlot key v).reading h =
    { a.reading h with slot := Function.update (a.reading h).slot key (h.seen v) } := by
  have balance : (a.setSlot key v).balance = a.balance := by
    unfold setSlot
    split <;> rfl
  have slots : (fun other => h.seen ((a.setSlot key v).slot other)) =
      Function.update (fun other => h.seen (a.slot other)) key (h.seen v) := by
    funext other
    rw [slot_setSlot, Function.update_apply]
    by_cases same : key = other
    · rw [if_pos same, if_pos same.symm]
    · rw [if_neg same, if_neg fun e => same e.symm]
  unfold reading
  rw [balance, slots]

end Account

def readings (h : Heap) (accounts : List Account) (address : Address) : Reading :=
  ((accountAt accounts address).getD { address }).reading h

section

variable {h g : Heap} {accounts : List Account}

theorem whole_accountAt (whole : ∀ a ∈ accounts, a.Whole h) (address : Address) :
    ((accountAt accounts address).getD { address }).Whole h := by
  cases found : accountAt accounts address with
  | none => exact nofun
  | some a => exact whole a (mem_of_accountAt found)

theorem readings_mono (whole : ∀ a ∈ accounts, a.Whole h) (grows : h.Extends g) :
    readings g accounts = readings h accounts :=
  funext fun address => (whole_accountAt whole address).reading_eq grows

/-- Putting an account changes what is read at its address alone. -/
theorem readings_putAccount (h : Heap) (accounts : List Account) (x : Account) :
    readings h (Ledger.putAccount accounts x) = Function.update (readings h accounts) x.address (x.reading h) := by
  funext address
  rw [readings, accountAt_putAccount, Function.update_apply]
  by_cases same : x.address = address
  · rw [if_pos same, if_pos same.symm]
    rfl
  · rw [if_neg same, if_neg fun e => same e.symm]
    rfl

end

end LedgerScript

namespace LedgerScript

variable {V E B : Type}

/-! ## Operations and answers -/

/-- An operation of a transaction on the ledger. -/
inductive WorkingOp (α : Type) where
  | load (address : Address) (key : Bytes)
  | store (address : Address) (key : Bytes) (v : α)
  | balance (address : Address)
  | transfer (sender receiver : Address) (amount : Int)
  | setValidating (on : Bool)

/-- What an operation answers if it succeeds. -/
inductive WorkingAnswer where
  | value (v : Seen)
  | amount (n : Int)
  | done
  | setting (on : Bool)

namespace WorkingOp

/-- The operation with another value that is stored. -/
def map {α β : Type} (f : α → β) : WorkingOp α → WorkingOp β
  | load address key => .load address key
  | store address key v => .store address key (f v)
  | balance address => .balance address
  | transfer sender receiver amount => .transfer sender receiver amount
  | setValidating on => .setValidating on

def Whole (h : Heap) : WorkingOp Value → Prop
  | store _ _ v => h.Whole v
  | _ => True

/-- The operation on a working set, and of a value that it answers what is seen of it. -/
def perform (w : WorkingId) : WorkingOp Value → LedgerM V E B WorkingAnswer
  | load address key => do
    let v ← LedgerM.load w address key
    return .value ((← get).heap.seen v)
  | store address key v => do
    LedgerM.store w address key v
    return .done
  | balance address => do return .amount (← LedgerM.balance w address)
  | transfer sender receiver amount => do
    LedgerM.transfer w sender receiver amount
    return .done
  | setValidating on => do return .setting (← LedgerM.setValidating w on)

end WorkingOp

/-! ## Overlays -/

/-- The ledger as a transaction sees it. -/
structure Overlay where
  isView : Bool
  /-- Reads go to committed state. -/
  isValidating : Bool := false
  committed : Address → Reading
  seen : Address → Reading
  touched : List Address := []

namespace Overlay

variable (o : Overlay)

/-- What a transaction sees at its beginning. -/
def start (isView : Bool) (committed : Address → Reading) : Overlay :=
  { isView, committed, seen := committed }

/-- The transaction has come to an address; a view leaves no trace there. -/
def touch (o : Overlay) (address : Address) : Overlay :=
  if o.isView then o else { o with touched := address :: o.touched }

def put (o : Overlay) (address : Address) (r : Reading) : Overlay :=
  { o with seen := Function.update o.seen address r }

def write (o : Overlay) (address : Address) (key : Bytes) (v : Seen) : Overlay :=
  o.put address { o.seen address with slot := Function.update (o.seen address).slot key v }

def pay (o : Overlay) (address : Address) (amount : Int) : Overlay :=
  o.put address { o.seen address with balance := (o.seen address).balance + amount }

/-- What an operation answers, and what is seen afterwards. -/
def answer (o : Overlay) : WorkingOp Seen → Except LedgerFault WorkingAnswer × Overlay
  | .load address key =>
    if o.isValidating then (.ok (.value ((o.committed address).slot key)), o)
    else (.ok (.value ((o.seen address).slot key)), o.touch address)
  | .store address key v =>
    if o.isView then (.error .readOnly, o) else (.ok .done, (o.touch address).write address key v)
  | .balance address =>
    if o.isValidating then (.ok (.amount (o.committed address).balance), o)
    else (.ok (.amount (o.seen address).balance), o.touch address)
  | .transfer sender receiver amount =>
    if o.isView then (.error .readOnly, o)
    else if amount < 0 then (.error (.validation (utf8 "Negative amount")), o)
    else
      let o := (o.touch sender).touch receiver
      if (o.seen sender).balance < amount then (.error (.validation (utf8 "Insufficient balance")), o)
      else (.ok .done, (o.pay sender (-amount)).pay receiver amount)
  | .setValidating on => (.ok (.setting o.isValidating), { o with isValidating := on })

/-- The answers to several operations, and what is seen afterwards. -/
def answers (o : Overlay) : List (WorkingOp Seen) → List (Except LedgerFault WorkingAnswer) × Overlay
  | [] => ([], o)
  | op :: rest =>
    let (r, o) := o.answer op
    let (rs, o) := o.answers rest
    (r :: rs, o)

theorem answers_append (ops ops' : List (WorkingOp Seen)) : o.answers (ops ++ ops') =
    ((o.answers ops).1 ++ ((o.answers ops).2.answers ops').1, ((o.answers ops).2.answers ops').2) := by
  induction ops generalizing o with
  | nil => rfl
  | cons op rest ih => simp only [List.cons_append, answers, ih]

@[simp] theorem seen_touch (address : Address) : (o.touch address).seen = o.seen := by
  unfold touch
  split <;> rfl

@[simp] theorem committed_touch (address : Address) : (o.touch address).committed = o.committed := by
  unfold touch
  split <;> rfl

@[simp] theorem isView_touch (address : Address) : (o.touch address).isView = o.isView := by
  unfold touch
  split <;> rfl

/-- No operation shows in what was committed. -/
theorem committed_answer (op : WorkingOp Seen) : (o.answer op).2.committed = o.committed := by
  cases op <;> simp only [answer] <;> split_ifs <;> simp [write, pay, put]

theorem committed_answers (ops : List (WorkingOp Seen)) : (o.answers ops).2.committed = o.committed := by
  induction ops generalizing o with
  | nil => rfl
  | cons op rest ih => rw [answers, ih, committed_answer]

theorem length_answers (ops : List (WorkingOp Seen)) : (o.answers ops).1.length = ops.length := by
  induction ops generalizing o with
  | nil => rfl
  | cons op rest ih => rw [answers, List.length_cons, List.length_cons, ih]

/-- What fails changes nothing that is seen. -/
theorem seen_of_error {o : Overlay} {op : WorkingOp Seen} {f : LedgerFault} (failed : (o.answer op).1 = .error f) :
    (o.answer op).2.seen = o.seen := by
  cases op with
  | load | balance =>
    simp only [answer] at failed
    split at failed <;> cases failed
  | setValidating => cases failed
  | store address key v =>
    simp only [answer] at failed ⊢
    split at failed
    · next view => rw [if_pos view]
    · cases failed
  | transfer sender receiver amount =>
    simp only [answer] at failed ⊢
    split at failed
    · next view => rw [if_pos view]
    · next writer =>
      rw [if_neg writer]
      split at failed
      · next negative => rw [if_pos negative]
      · next natural =>
        rw [if_neg natural]
        split at failed
        · next short => rw [if_pos short, seen_touch, seen_touch]
        · cases failed

end Overlay

end LedgerScript
