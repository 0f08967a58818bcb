import LedgerScript.Proofs.Text.Quoted
import LedgerScript.Proofs.Value.Tables

/-!
# Which values share a slot

Values that are equal and of kinds that keys do not tell apart have the same key form, and no others do.

For a tuple the key form is the text that it is shown with, so what has to be seen is that items are read off that text.  An
item is a word, a quoted text, a quoted character or a tuple; its first byte tells which of them, and what it is ends before
the next comma or parenthesis that is not part of it.

Addresses are shown as they are.  Inside a tuple they are told from other items only if they look like none of them.
-/

namespace LedgerScript

open Text (quoted quotedSingle decimalInt)

/-! ## Kinds that keys do not tell apart -/

/-- Whole numbers have one kind as keys; characters are none. -/
def Kind.slot : Kind → Kind
  | .whole .char => .whole .char
  | .whole _ => .whole .long
  | k => k

def Kind.isWord : Kind → Bool
  | .null | .bool | .whole .short | .whole .int | .whole .long | .text .address => true
  | _ => false

namespace Value

mutual

/-- Two values have the same kind as keys, and so do the items of tuples. -/
def alike : Value → Value → Bool
  | tuple xs, tuple ys => alikeItems xs ys
  | a, b => a.kind.slot == b.kind.slot

/-- Two lists of the same length with items of the same kinds. -/
def alikeItems : List Value → List Value → Bool
  | [], [] => true
  | x :: xs, y :: ys => alike x y && alikeItems xs ys
  | _, _ => false

end

/-! ## Words -/

/-- A byte that does not end a word. -/
def inWord (b : UInt8) : Bool :=
  b != ascii ',' && b != ascii '(' && b != ascii ')'

/-- A word among the items of a tuple. -/
structure IsWord (w : Bytes) : Prop where
  bytes : ∀ b ∈ w, inWord b = true
  start : ∃ b rest, w = b :: rest ∧ b ≠ ascii '"' ∧ b ≠ ascii '\''

/-- What a word among the items of a tuple stands for. -/
def readWord (w : Bytes) : Value :=
  if w = utf8 "null" then .null
  else if w = utf8 "true" then .bool true
  else if w = utf8 "false" then .bool false
  else
    match readWhole? w with
    | some n => if decimalInt n = w then .whole .long n else .text .address w
    | none => .text .address w

/-- The items that are shown as words: null, the truth values, numbers, and addresses that look like none of them. -/
inductive WordOf : Value → Bytes → Prop
  | null : WordOf .null (utf8 "null")
  | bool (b : Bool) : WordOf (.bool b) (utf8 (if b then "true" else "false"))
  | whole {k : WholeKind} (number : k ≠ .char) (n : Int) : WordOf (.whole k n) (decimalInt n)
  | address {s : Bytes} (word : IsWord s) (other : readWord s = .text .address s) : WordOf (.text .address s) s

/-- An item whose text is clear in a tuple that is shown so many levels deep. -/
inductive Clear : Nat → Value → Prop
  | word {depth : Nat} {v : Value} {w : Bytes} (word : WordOf v w) : Clear (depth + 1) v
  | char {depth : Nat} (c : Char) : Clear (depth + 1) (.whole .char c.toNat)
  | string {depth : Nat} (s : Bytes) : Clear (depth + 1) (.text .string s)
  | account {depth : Nat} {s : Bytes} (bytes : ∀ b ∈ s, inWord b = true) : Clear (depth + 1) (.text .account s)
  | tuple {depth : Nat} {items : List Value} (each : ∀ v ∈ items, Clear depth v) : Clear (depth + 1) (.tuple items)

/-- A value whose key form is clear. -/
inductive Slot : Value → Prop
  | null : Slot .null
  | bool (b : Bool) : Slot (.bool b)
  | whole (k : WholeKind) (n : Int) : Slot (.whole k n)
  | string {s : Bytes} (unmarked : ¬ Heap.tupleMark <+: s) : Slot (.text .string s)
  | address {s : Bytes} (unmarked : ¬ Heap.tupleMark <+: s) : Slot (.text .address s)
  | account (s : Bytes) : Slot (.text .account s)
  | tuple {items : List Value} (clear : Clear Heap.shownDepth (.tuple items)) : Slot (.tuple items)

section

variable {v a b : Value} {depth : Nat} {w w' x y : Bytes}
variable (n : Int)

theorem WordOf.keyLike (word : WordOf v w) : v.KeyLike := by
  cases word with
  | null => exact .null
  | bool b => exact .bool b
  | whole => exact .whole _ _
  | address => exact .text _ _

theorem Clear.keyLike (clear : v.Clear depth) : v.KeyLike := by
  induction clear with
  | word word => exact word.keyLike
  | char => exact .whole _ _
  | string | account => exact .text _ _
  | tuple _ ih => exact .tuple ih

theorem Slot.keyLike (slot : v.Slot) : v.KeyLike := by
  cases slot with
  | null => exact .null
  | bool b => exact .bool b
  | whole => exact .whole _ _
  | string | address | account => exact .text _ _
  | tuple clear => exact clear.keyLike

/-- What follows a word: the end, a comma or a parenthesis. -/
def Ends (text : Bytes) : Prop :=
  ∀ b ∈ text.head?, inWord b = false

/-- What follows an item: the end, a comma or a closing parenthesis. -/
def Follows (text : Bytes) : Prop :=
  ∀ b ∈ text.head?, b = ascii ',' ∨ b = ascii ')'

theorem follows_nil : Follows [] := by
  simp [Follows]

theorem Follows.ends (follows : Follows x) : Ends x := by
  intro b mem
  rcases follows b mem with rfl | rfl <;> rfl

/-- Words are told apart if they end. -/
theorem word_append_inj (word : ∀ b ∈ w, inWord b = true) (word' : ∀ b ∈ w', inWord b = true) (ends : Ends x) (ends' : Ends y)
    (same : w ++ x = w' ++ y) : w = w' ∧ x = y := by
  induction w generalizing w' with
  | nil =>
    cases w' with
    | nil => exact ⟨rfl, same⟩
    | cons b rest =>
      have inside := word' b (by simp)
      rw [ends b (by simp [show x = _ from same])] at inside
      cases inside
  | cons b rest ih =>
    cases w' with
    | nil =>
      have inside := word b (by simp)
      rw [ends' b (by simp [← show _ = y from same])] at inside
      cases inside
    | cons b' rest' =>
      obtain ⟨rfl, later⟩ := List.cons.inj same
      obtain ⟨rfl, rest⟩ := ih (fun c mem => word c (by simp [mem])) (fun c mem => word' c (by simp [mem])) later
      exact ⟨rfl, rest⟩

/-- A number is written with digits and a minus sign. -/
theorem ne_of_mem_decimalInt {n : Int} {b d : UInt8} (mem : b ∈ decimalInt n) (digit : isDigitByte d = false)
    (minus : d ≠ ascii '-') : b ≠ d := by
  have ne_digit {m : Nat} (mem : b ∈ Text.decimal m) : b ≠ d := by
    rintro rfl
    rw [List.all_eq_true.mp (decimal_digits m) b mem] at digit
    cases digit
  cases n with
  | ofNat m => exact ne_digit mem
  | negSucc m =>
    rcases List.mem_cons.mp mem with rfl | mem
    · exact minus.symm
    · exact ne_digit mem

theorem decimalInt_ne_nil : decimalInt n ≠ [] := by
  cases n with
  | ofNat m => exact decimal_ne_nil m
  | negSucc m => exact List.cons_ne_nil _ _

theorem isWord_decimalInt : IsWord (decimalInt n) := by
  refine ⟨fun b mem => ?_, ?_⟩
  · have comma := ne_of_mem_decimalInt mem (d := ascii ',') (by decide) (by decide)
    have opened := ne_of_mem_decimalInt mem (d := ascii '(') (by decide) (by decide)
    have closed := ne_of_mem_decimalInt mem (d := ascii ')') (by decide) (by decide)
    simp [inWord, comma, opened, closed]
  · obtain ⟨b, rest, form⟩ := List.exists_cons_of_ne_nil (decimalInt_ne_nil n)
    have mem : b ∈ decimalInt n := by simp [form]
    exact ⟨b, rest, form, ne_of_mem_decimalInt mem (by decide) (by decide), ne_of_mem_decimalInt mem (by decide) (by decide)⟩

theorem readWord_decimalInt : readWord (decimalInt n) = .whole .long n := by
  have other {w : Bytes} (b : UInt8) (head : b ∈ w) (digit : isDigitByte b = false) (minus : b ≠ ascii '-') : decimalInt n ≠ w := by
    rintro rfl
    exact ne_of_mem_decimalInt head digit minus rfl
  rw [readWord, if_neg (other (ascii 'n') (by decide) (by decide) (by decide)),
    if_neg (other (ascii 't') (by decide) (by decide) (by decide)),
    if_neg (other (ascii 'f') (by decide) (by decide) (by decide)), readWhole?_decimalInt]
  exact if_pos rfl

/-- An item with the width of numbers left out. -/
def widest : Value → Value
  | whole _ n => .whole .long n
  | v => v

theorem isWord_of_bytes {b : UInt8} {rest : Bytes} (bytes : (b :: rest).all inWord = true) (start : b ≠ ascii '"' ∧ b ≠ ascii '\'') :
    IsWord (b :: rest) :=
  ⟨List.all_eq_true.mp bytes, b, rest, rfl, start⟩

/-- What is read off a word is the item, up to the width of numbers. -/
theorem WordOf.read (word : WordOf v w) : IsWord w ∧ readWord w = v.widest := by
  have null : utf8 "null" = [110, 117, 108, 108] := rfl
  have yes : utf8 "true" = [116, 114, 117, 101] := rfl
  have no : utf8 "false" = [102, 97, 108, 115, 101] := rfl
  cases word with
  | null => exact ⟨null ▸ isWord_of_bytes (by decide) (by decide), if_pos rfl⟩
  | bool b =>
    rw [readWord, null, yes, no]
    cases b <;> exact ⟨isWord_of_bytes (by decide) (by decide), rfl⟩
  | whole number n => exact ⟨isWord_decimalInt n, readWord_decimalInt n⟩
  | address word other => exact ⟨word, other⟩

/-- Items that are shown as one word are equal and of one kind as keys. -/
theorem WordOf.equal (word : WordOf a w) (word' : WordOf b w) : a.equal b = true ∧ a.alike b = true := by
  have same : a.widest = b.widest := word.read.2.symm.trans word'.read.2
  generalize w = w' at word'
  cases word with
  | null =>
    cases word' with
    | null => exact ⟨rfl, rfl⟩
    | bool | whole | address => cases same
  | bool c =>
    cases word' with
    | bool d =>
      cases same
      exact ⟨beq_self_eq_true c, rfl⟩
    | null | whole | address => cases same
  | @whole k number n =>
    cases word' with
    | @whole l number' m =>
      cases same
      refine ⟨beq_self_eq_true n, ?_⟩
      cases k <;> cases l <;> first | rfl | exact absurd rfl number | exact absurd rfl number'
    | null | bool | address => cases same
  | address =>
    cases word' with
    | address =>
      cases same
      exact ⟨beq_self_eq_true w, rfl⟩
    | null | bool | whole => cases same

end

end Value

/-! ## Items of tuples -/

/-- The text of an item; one that cannot be shown has none. -/
def Heap.itemText (h : Heap) (keyOf : Value → Except Crash Key) (depth : Nat) (v : Value) : Bytes :=
  (h.showAt keyOf depth true v).toOption.getD []

/-- What stands behind the first item of a tuple that has others. -/
def closing : List Bytes → Bytes
  | [] => [ascii ')']
  | t :: rest => ascii ',' :: ascii ' ' :: t ++ closing rest

/-- What stands behind the first item of a tuple. -/
def behind : List Bytes → Bytes
  | [] => [ascii ',', ascii ')']
  | t :: rest => closing (t :: rest)

/-- What stands behind the opening parenthesis of a tuple. -/
def inside : List Bytes → Bytes
  | [] => [ascii ')']
  | t :: rest => t ++ behind rest

namespace Value

section

variable {h : Heap} {keyOf : Value → Except Crash Key} {v a b : Value} {depth : Nat} {w x y : Bytes} {items : List Value}

theorem KeyLike.showAt_eq (key : v.KeyLike) (h : Heap) (keyOf : Value → Except Crash Key) (depth : Nat) :
    h.showAt keyOf depth true v = .ok (h.itemText keyOf depth v) := by
  obtain ⟨text, shown⟩ := key.showAt_ok h keyOf depth true
  rw [Heap.itemText, shown]
  rfl

theorem commas_append (t : Bytes) (rest : List Bytes) : commas (t :: rest) ++ [ascii ')'] = t ++ closing rest := by
  induction rest generalizing t with
  | nil => rfl
  | cons u rest ih =>
    have two : commas (t :: u :: rest) = t ++ utf8 ", " ++ commas (u :: rest) := rfl
    have comma : utf8 ", " = [ascii ',', ascii ' '] := rfl
    rw [two, List.append_assoc, ih, comma, List.append_assoc, closing]
    rfl

/-- The text of a tuple is made of those of its items. -/
theorem itemText_tuple (keys : ∀ v ∈ items, v.KeyLike) :
    h.itemText keyOf (depth + 1) (.tuple items) = ascii '(' :: inside (items.map (h.itemText keyOf depth)) := by
  have parts : items.mapM (h.showAt keyOf depth true) = .ok (items.map (h.itemText keyOf depth)) := by
    rw [mapM_congr fun v mem => (keys v mem).showAt_eq h keyOf depth]
    exact List.mapM_pure
  rw [Heap.itemText, Heap.showAt, parts]
  change utf8 "(" ++ commas (items.map _) ++ utf8 (if items.length = 1 then "," else "") ++ utf8 ")" = _
  have opened : utf8 "(" = [ascii '('] := rfl
  have closed : utf8 ")" = [ascii ')'] := rfl
  rw [opened, closed]
  rcases items with _ | ⟨v, _ | ⟨u, rest⟩⟩
  · rfl
  · have comma : utf8 "," = [ascii ','] := rfl
    simp [commas, Text.join, inside, behind, comma]
  · have more := commas_append (h.itemText keyOf depth v) ((u :: rest).map (h.itemText keyOf depth))
    have none : utf8 "" = [] := rfl
    rw [List.map_cons, if_neg (by simp), none, List.append_nil, List.append_assoc, more]
    rfl

theorem itemText_word (word : WordOf v w) : h.itemText keyOf (depth + 1) v = w := by
  cases word with
  | null | bool | address => rfl
  | @whole k number n => cases k <;> first | rfl | exact absurd rfl number

theorem itemText_char (c : Char) : h.itemText keyOf (depth + 1) (.whole .char c.toNat) = quotedSingle c := by
  change quotedSingle ((Text.charOfCode? c.toNat).getD _) = _
  rw [Text.charOfCode?_toNat, Option.getD_some]

theorem itemText_account (s : Bytes) :
    h.itemText keyOf (depth + 1) (.text .account s) = utf8 "account" ++ ascii '(' :: (s ++ [ascii ')']) := by
  have opened : utf8 "account(" = utf8 "account" ++ [ascii '('] := rfl
  have closed : utf8 ")" = [ascii ')'] := rfl
  change utf8 "account(" ++ s ++ utf8 ")" = _
  rw [opened, closed]
  simp

/-! ## Reading items off -/

/-- The byte that the text of an item starts with, unless it starts with a word. -/
def lead : Value → Option UInt8
  | .text .string _ => some (ascii '"')
  | .whole .char _ => some (ascii '\'')
  | .tuple _ => some (ascii '(')
  | _ => none

/-- The text of an item starts with its lead, or with a byte that is none and does not end a word. -/
theorem Clear.itemText_cons (clear : v.Clear (depth + 1)) : ∃ b rest, h.itemText keyOf (depth + 1) v = b :: rest ∧
    v.lead = (if b = ascii '"' ∨ b = ascii '\'' ∨ b = ascii '(' then some b else none) ∧ b ≠ ascii ')' ∧ b ≠ ascii ',' := by
  cases clear with
  | word word =>
    obtain ⟨⟨bytes, b, rest, form, quote, single⟩, -⟩ := word.read
    have inside := bytes b (by simp [form])
    simp only [inWord, Bool.and_eq_true, bne_iff_ne] at inside
    refine ⟨b, rest, (itemText_word word).trans form, ?_, inside.2, inside.1.1⟩
    rw [if_neg (by simp [quote, single, inside])]
    cases word with
    | null | bool | address => rfl
    | @whole k number n => cases k <;> first | rfl | exact absurd rfl number
  | char c => exact ⟨_, _, itemText_char c, rfl, by decide, by decide⟩
  | string s => exact ⟨_, _, rfl, rfl, by decide, by decide⟩
  | account => exact ⟨_, _, itemText_account _, rfl, by decide, by decide⟩
  | tuple each => exact ⟨_, _, itemText_tuple fun v mem => (each v mem).keyLike, rfl, by decide, by decide⟩

theorem follows_closing (ts : List Bytes) (x : Bytes) : Follows (closing ts ++ x) := by
  cases ts <;> simp [closing, Follows]

theorem follows_behind (ts : List Bytes) (x : Bytes) : Follows (behind ts ++ x) := by
  cases ts <;> simp [behind, closing, Follows]

theorem WordOf.lead (word : WordOf v w) : v.lead = none := by
  cases word with
  | null | bool | address => rfl
  | @whole k number n => cases k <;> first | rfl | exact absurd rfl number

/-- Items of some depth are told apart by how their texts start. -/
def Told (h : Heap) (keyOf : Value → Except Crash Key) (depth : Nat) : Prop :=
  ∀ {a b : Value} {x y : Bytes}, a.Clear depth → b.Clear depth → Follows x → Follows y →
    h.itemText keyOf depth a ++ x = h.itemText keyOf depth b ++ y → a.equal b = true ∧ a.alike b = true ∧ x = y

section

variable {xs ys : List Value}

theorem Told.closing (told : Told h keyOf depth) (clear : ∀ v ∈ xs, v.Clear depth) (clear' : ∀ v ∈ ys, v.Clear depth)
    (same : closing (xs.map (h.itemText keyOf depth)) ++ x = closing (ys.map (h.itemText keyOf depth)) ++ y) :
    equalItems xs ys = true ∧ alikeItems xs ys = true ∧ x = y := by
  induction xs generalizing ys with
  | nil =>
    cases ys with
    | nil => exact ⟨rfl, rfl, List.tail_eq_of_cons_eq same⟩
    | cons v rest' => cases List.head_eq_of_cons_eq same
  | cons u rest ih =>
    cases ys with
    | nil => cases List.head_eq_of_cons_eq same
    | cons v rest' =>
      simp only [List.map_cons, LedgerScript.closing, List.cons_append, List.append_assoc, List.cons.injEq, true_and] at same
      obtain ⟨equal, alike, same⟩ := told (clear u (by simp)) (clear' v (by simp)) (follows_closing _ x) (follows_closing _ y) same
      obtain ⟨equals, alikes, rest⟩ := ih (fun w mem => clear w (by simp [mem])) (fun w mem => clear' w (by simp [mem])) same
      exact ⟨by rw [equalItems, equal, equals]; rfl, by rw [alikeItems, alike, alikes]; rfl, rest⟩

/-- The text of an item does not start like the end of a tuple. -/
theorem Clear.ne_closed (clear : v.Clear depth) : h.itemText keyOf depth v ++ x ≠ ascii ')' :: y := by
  cases depth with
  | zero => cases clear
  | succ depth =>
    obtain ⟨b, rest, form, -, closed, -⟩ := @Clear.itemText_cons h keyOf v depth clear
    rw [form]
    exact fun same => closed (List.head_eq_of_cons_eq same)

theorem Told.behind (told : Told h keyOf depth) (clear : ∀ v ∈ xs, v.Clear depth) (clear' : ∀ v ∈ ys, v.Clear depth)
    (same : behind (xs.map (h.itemText keyOf depth)) ++ x = behind (ys.map (h.itemText keyOf depth)) ++ y) :
    equalItems xs ys = true ∧ alikeItems xs ys = true ∧ x = y := by
  cases xs with
  | nil =>
    cases ys with
    | nil => exact ⟨rfl, rfl, by simpa [LedgerScript.behind] using same⟩
    | cons v rest' => simp [LedgerScript.behind, LedgerScript.closing, ascii] at same
  | cons u rest =>
    cases ys with
    | nil => simp [LedgerScript.behind, LedgerScript.closing, ascii] at same
    | cons v rest' => exact told.closing clear clear' same

theorem Told.inside (told : Told h keyOf depth) (clear : ∀ v ∈ xs, v.Clear depth) (clear' : ∀ v ∈ ys, v.Clear depth)
    (same : inside (xs.map (h.itemText keyOf depth)) ++ x = inside (ys.map (h.itemText keyOf depth)) ++ y) :
    equalItems xs ys = true ∧ alikeItems xs ys = true ∧ x = y := by
  cases xs with
  | nil =>
    cases ys with
    | nil => exact ⟨rfl, rfl, List.tail_eq_of_cons_eq same⟩
    | cons v rest' =>
      rw [List.map_cons, LedgerScript.inside, List.append_assoc] at same
      exact absurd same.symm (clear' v (by simp)).ne_closed
  | cons u rest =>
    rw [List.map_cons, LedgerScript.inside, List.append_assoc] at same
    cases ys with
    | nil => exact absurd same (clear u (by simp)).ne_closed
    | cons v rest' =>
      rw [List.map_cons, LedgerScript.inside, List.append_assoc] at same
      obtain ⟨equal, alike, same⟩ := told (clear u (by simp)) (clear' v (by simp)) (follows_behind _ x) (follows_behind _ y) same
      obtain ⟨equals, alikes, rest⟩ := told.behind (fun w mem => clear w (by simp [mem])) (fun w mem => clear' w (by simp [mem])) same
      exact ⟨by rw [equalItems, equal, equals]; rfl, by rw [alikeItems, alike, alikes]; rfl, rest⟩

end

theorem inWord_account : ∀ b ∈ utf8 "account", inWord b = true := by
  have bytes : utf8 "account" = [97, 99, 99, 111, 117, 110, 116] := rfl
  exact List.all_eq_true.mp (by rw [bytes]; decide)

/-- A word that is an item is not the beginning of an account. -/
theorem WordOf.ne_account (word : WordOf v w) (follows : Follows x) : w ++ x ≠ utf8 "account" ++ ascii '(' :: y := by
  intro same
  obtain ⟨-, rfl⟩ := word_append_inj word.read.1.bytes inWord_account follows.ends (by simp [Ends, inWord]) same
  simp [Follows, ascii] at follows

/-- Items are told apart by how their texts start. -/
theorem told (h : Heap) (keyOf : Value → Except Crash Key) (depth : Nat) : Told h keyOf depth := by
  induction depth with
  | zero =>
    intro a b x y clear
    cases clear
  | succ depth ih =>
    intro a b x y clear clear' follows follows' same
    have leads : a.lead = b.lead := by
      obtain ⟨c, rest, form, lead, -⟩ := @Clear.itemText_cons h keyOf a depth clear
      obtain ⟨c', rest', form', lead', -⟩ := @Clear.itemText_cons h keyOf b depth clear'
      rw [form, form'] at same
      rw [lead, lead', List.head_eq_of_cons_eq same]
    cases clear with
    | word word =>
      rw [word.lead] at leads
      rw [itemText_word word] at same
      cases clear' with
      | word word' =>
        rw [itemText_word word'] at same
        obtain ⟨rfl, rest⟩ := word_append_inj word.read.1.bytes word'.read.1.bytes follows.ends follows'.ends same
        exact ⟨(word.equal word').1, (word.equal word').2, rest⟩
      | account =>
        rw [itemText_account, List.append_assoc] at same
        exact absurd same (word.ne_account follows)
      | char | string | tuple => cases leads
    | char c =>
      cases clear' with
      | char d =>
        rw [itemText_char, itemText_char] at same
        obtain ⟨rfl, rest⟩ := Text.quotedSingle_append_inj same
        exact ⟨beq_self_eq_true _, rfl, rest⟩
      | word word' => cases leads.trans word'.lead
      | account | string | tuple => cases leads
    | string s =>
      cases clear' with
      | string t =>
        obtain ⟨rfl, rest⟩ := Text.quoted_append_inj same
        exact ⟨beq_self_eq_true _, rfl, rest⟩
      | word word' => cases leads.trans word'.lead
      | char | account | tuple => cases leads
    | account bytes =>
      rw [itemText_account, List.append_assoc] at same
      cases clear' with
      | account bytes' =>
        rw [itemText_account, List.append_assoc, List.append_cancel_left_eq, List.cons_append, List.cons_append, List.append_assoc,
          List.append_assoc] at same
        obtain ⟨rfl, rest⟩ := word_append_inj bytes bytes' (by simp [Ends, inWord]) (by simp [Ends, inWord])
          (List.tail_eq_of_cons_eq same)
        exact ⟨beq_self_eq_true _, rfl, List.tail_eq_of_cons_eq rest⟩
      | word word' =>
        rw [itemText_word word'] at same
        exact absurd same.symm (word'.ne_account follows')
      | char | string | tuple => cases leads
    | tuple each =>
      cases clear' with
      | tuple each' =>
        rw [itemText_tuple fun v mem => (each v mem).keyLike, itemText_tuple fun v mem => (each' v mem).keyLike] at same
        exact ih.inside each each' (List.tail_eq_of_cons_eq same)
      | word word' => cases leads.trans word'.lead
      | char | string | account => cases leads

/-! ## Equal items are shown alike -/

theorem isWord_eq_of_alike (alike : a.alike b = true) : a.kind.slot.isWord = b.kind.slot.isWord := by
  have same : a.kind.slot = b.kind.slot := by
    cases a <;> cases b <;> first | rfl | exact eq_of_beq alike
  rw [same]

theorem WordOf.isWord_kind (word : WordOf v w) : v.kind.slot.isWord = true := by
  cases word with
  | null | bool | address => rfl
  | @whole k number n => cases k <;> first | rfl | exact absurd rfl number

theorem WordOf.eq_of_equal {w' : Bytes} (word : WordOf a w) (word' : WordOf b w') (equal : a.equal b = true) (alike : a.alike b = true) :
    w = w' := by
  cases word with
  | null =>
    cases word' with
    | null => rfl
    | bool | whole | address => simp [Value.alike, kind, Kind.slot] at alike
  | bool c =>
    cases word' with
    | bool d => rw [show c = d from eq_of_beq equal]
    | null | whole | address => simp [Value.alike, kind, Kind.slot] at alike
  | whole number n =>
    cases word' with
    | whole number' m => rw [show n = m from eq_of_beq equal]
    | null | bool | address => simp [Value.alike, kind, Kind.slot] at alike
  | address =>
    cases word' with
    | address => exact eq_of_beq equal
    | null | bool | whole => simp [Value.alike, kind, Kind.slot] at alike

theorem map_itemText_eq {xs ys : List Value}
    (each : ∀ a ∈ xs, ∀ b ∈ ys, a.equal b = true → a.alike b = true → h.itemText keyOf depth a = h.itemText keyOf depth b)
    (equal : equalItems xs ys = true) (alike : alikeItems xs ys = true) :
    xs.map (h.itemText keyOf depth) = ys.map (h.itemText keyOf depth) := by
  induction xs generalizing ys with
  | nil =>
    cases ys with
    | nil => rfl
    | cons => cases equal
  | cons a rest ih =>
    cases ys with
    | nil => cases equal
    | cons b rest' =>
      rw [equalItems, Bool.and_eq_true] at equal
      rw [alikeItems, Bool.and_eq_true] at alike
      rw [List.map_cons, List.map_cons, each a (by simp) b (by simp) equal.1 alike.1,
        ih (fun u mem v mem' => each u (by simp [mem]) v (by simp [mem'])) equal.2 alike.2]

theorem Clear.itemText_eq (clear : a.Clear depth) (clear' : b.Clear depth) (equal : a.equal b = true) (alike : a.alike b = true) :
    h.itemText keyOf depth a = h.itemText keyOf depth b := by
  induction clear generalizing b with
  | word word =>
    cases clear' with
    | word word' => rw [itemText_word word, itemText_word word', word.eq_of_equal word' equal alike]
    | char | string | account | tuple => cases word.isWord_kind.symm.trans (isWord_eq_of_alike alike)
  | char c =>
    cases clear' with
    | char d => rw [show (c.toNat : Int) = d.toNat from eq_of_beq equal]
    | word word' => cases (isWord_eq_of_alike alike).trans word'.isWord_kind
    | string | account | tuple => cases alike
  | string s =>
    cases clear' with
    | string t => rw [show s = t from eq_of_beq equal]
    | word word' => cases (isWord_eq_of_alike alike).trans word'.isWord_kind
    | char | account | tuple => cases alike
  | account =>
    cases clear' with
    | account => rw [eq_of_beq equal]
    | word word' => cases (isWord_eq_of_alike alike).trans word'.isWord_kind
    | char | string | tuple => cases alike
  | tuple each ih =>
    cases clear' with
    | tuple each' =>
      rw [itemText_tuple fun v mem => (each v mem).keyLike, itemText_tuple fun v mem => (each' v mem).keyLike,
        map_itemText_eq (fun a mem b mem' => ih a mem (each' b mem')) equal alike]
    | word word' => cases (isWord_eq_of_alike alike).trans word'.isWord_kind
    | char | string | account => cases alike

/-! ## Keys -/

theorem keyOf_tuple (keys : (Value.tuple items).KeyLike) :
    Heap.keyOf {} (.tuple items) = .text (Heap.tupleMark ++ Heap.itemText {} (Heap.keyAt {} 999) Heap.shownDepth (.tuple items)) := by
  have form : Heap.keyAt {} (999 + 1) (.tuple items) =
      .ok (.text (Heap.tupleMark ++ Heap.itemText {} (Heap.keyAt {} 999) Heap.shownDepth (.tuple items))) := by
    rw [Heap.keyAt, keys.showAt_eq]
    rfl
  have here : Heap.keyAt {} (999 + 1) (.tuple items) = .ok (Heap.keyOf {} (.tuple items)) := keys.key_eq {}
  exact Except.ok.inj (here.symm.trans form)

def singleKey : Value → Key
  | bool b => .bool b
  | whole .char n => .char n
  | whole _ n => .whole n
  | text .account s => .account s
  | text _ s => .text s
  | _ => .null

def IsSingle : Value → Prop
  | null | bool _ | whole .. | text .. => True
  | _ => False

theorem keyOf_single (single : v.IsSingle) : Heap.keyOf {} v = v.singleKey := by
  cases v with
  | null | bool => rfl
  | whole k | text k => cases k <;> rfl
  | real | tuple | ref | task | handle => cases single

theorem single_same_iff (single : a.IsSingle) (single' : b.IsSingle) :
    a.singleKey.same b.singleKey = true ↔ a.equal b = true ∧ a.keptKey.alike b.keptKey = true := by
  cases a with
  | null =>
    cases b with
    | null => simp [singleKey, Key.same, Value.equal, keptKey, Value.alike]
    | bool => simp [singleKey, Key.same, Value.equal]
    | whole l | text l => cases l <;> simp [singleKey, Key.same, Value.equal]
    | real | tuple | ref | task | handle => cases single'
  | bool =>
    cases b with
    | bool => simp [singleKey, Key.same, Value.equal, keptKey, Value.alike, kind]
    | null => simp [singleKey, Key.same, Value.equal]
    | whole l | text l => cases l <;> simp [singleKey, Key.same, Value.equal]
    | real | tuple | ref | task | handle => cases single'
  | whole k =>
    cases b with
    | whole l => cases k <;> cases l <;> simp [singleKey, Key.same, Value.equal, keptKey, Value.alike, kind, Kind.slot]
    | null | bool => cases k <;> simp [singleKey, Key.same, Value.equal]
    | text l => cases k <;> cases l <;> simp [singleKey, Key.same, Value.equal]
    | real | tuple | ref | task | handle => cases single'
  | text k =>
    cases b with
    | text l => cases k <;> cases l <;> simp [singleKey, Key.same, Value.equal, keptKey, Value.alike, kind, Kind.slot]
    | null | bool => cases k <;> simp [singleKey, Key.same, Value.equal]
    | whole l => cases k <;> cases l <;> simp [singleKey, Key.same, Value.equal]
    | real | tuple | ref | task | handle => cases single'
  | real | tuple | ref | task | handle => cases single

theorem Slot.single_or_tuple (slot : v.Slot) :
    (v.IsSingle ∧ ∀ s, v.singleKey = .text s → ¬ Heap.tupleMark <+: s) ∨ ∃ items, v = .tuple items ∧ Clear Heap.shownDepth v := by
  cases slot with
  | null | bool | account => exact .inl ⟨trivial, nofun⟩
  | whole k => exact .inl ⟨trivial, by cases k <;> exact nofun⟩
  | string unmarked | address unmarked =>
    refine .inl ⟨trivial, ?_⟩
    rintro s ⟨⟩
    exact unmarked
  | tuple clear => exact .inr ⟨_, rfl, clear⟩

/-- The key form of a tuple is that of no other value. -/
theorem single_not_same_tuple (unmarked : ∀ s, a.singleKey = .text s → ¬ Heap.tupleMark <+: s) (t : Bytes) :
    a.singleKey.same (.text (Heap.tupleMark ++ t)) = false := by
  cases form : a.singleKey with
  | text s =>
    refine Bool.eq_false_iff.mpr fun same => unmarked s form ?_
    rw [eq_of_beq same]
    exact List.prefix_append _ _
  | _ => rfl

theorem equal_tuple_of_single (single : a.IsSingle) (items : List Value) : a.equal (.tuple items) = false ∧ Value.equal (.tuple items) a = false := by
  cases a with
  | null | bool | whole | text => exact ⟨rfl, rfl⟩
  | real | tuple | ref | task | handle => cases single

/-- Slots are shared by equal values of kinds that keys do not tell apart, and by no others. -/
theorem Slot.same_iff (slot : a.Slot) (slot' : b.Slot) :
    (Heap.keyOf {} a).same (Heap.keyOf {} b) = true ↔ a.equal b = true ∧ a.keptKey.alike b.keptKey = true := by
  rcases slot.single_or_tuple with ⟨single, unmarked⟩ | ⟨xs, rfl, clear⟩ <;>
    rcases slot'.single_or_tuple with ⟨single', unmarked'⟩ | ⟨ys, rfl, clear'⟩
  · rw [keyOf_single single, keyOf_single single']
    exact single_same_iff single single'
  · rw [keyOf_single single, keyOf_tuple clear'.keyLike, single_not_same_tuple unmarked, (equal_tuple_of_single single ys).1]
    simp
  · rw [keyOf_single single', keyOf_tuple clear.keyLike, Key.same_comm, single_not_same_tuple unmarked',
      (equal_tuple_of_single single' xs).2]
    simp
  · rw [keyOf_tuple clear.keyLike, keyOf_tuple clear'.keyLike]
    simp only [Key.same, beq_iff_eq, List.append_cancel_left_eq]
    constructor
    · intro same
      obtain ⟨equal, alike, -⟩ := @told {} (Heap.keyAt {} 999) Heap.shownDepth _ _ [] [] clear clear' follows_nil follows_nil (by rw [same])
      exact ⟨equal, alike⟩
    · rintro ⟨equal, alike⟩
      exact clear.itemText_eq clear' equal alike

end

end Value

/-! ## Reading what was written -/

theorem Key.same_congr {k l : Key} (same : k.same l = true) (e : Key) : e.same k = e.same l := by
  cases first : e.same k with
  | true => exact (Key.same_trans first same).symm
  | false =>
    cases second : e.same l with
    | false => rfl
    | true =>
      rw [Key.same_comm] at same
      rw [Key.same_trans second same] at first
      cases first

namespace MapTable

variable {m m' : MapTable} {k v : Value} {f l : Key} {i : Nat}

theorem find?_congr (same : f.same l = true) : m.find? f = m.find? l := by
  have tests : (fun e : Key × Nat => e.1.same f) = fun e => e.1.same l := funext fun e => Key.same_congr same e.1
  rw [find?, find?, tests]

/-- One position belongs to one key. -/
theorem Sound.same_of_find? (sound : m.Sound) (first : m.find? f = some i) (second : m.find? l = some i) : f.same l = true := by
  obtain ⟨g, there, same⟩ := find?_eq_some first
  obtain ⟨g', there', same'⟩ := find?_eq_some second
  rw [sound.index, List.mem_zipIdx_iff_getElem?] at there there'
  obtain rfl : g = g' := Option.some.inj (there.symm.trans there')
  rw [Key.same_comm] at same
  exact Key.same_trans same same'

/-- What is read from a map after an insertion: the new value under the same key, and under any other what was there. -/
theorem Sound.get?_insert (sound : m.Sound) (inserted : m.insert f k v = .ok m') (l : Key) :
    m'.get? l = if f.same l then .ok (some v) else m.get? l := by
  rw [MapTable.insert] at inserted
  cases found : m.find? f with
  | some i =>
    have inside : i < m.vals.size := sound.paired ▸ sound.lt_of_find? found
    rw [found] at inserted
    dsimp only at inserted
    rw [if_pos inside] at inserted
    cases inserted
    have index (l : Key) : find? { m with vals := m.vals.setIfInBounds i v } l = m.find? l := rfl
    rw [MapTable.get?, index]
    cases same : f.same l with
    | true =>
      rw [← find?_congr same, found]
      simp [inside]
    | false =>
      rw [MapTable.get?]
      cases there : m.find? l with
      | none => rfl
      | some j =>
        have apart : i ≠ j := by
          rintro rfl
          rw [sound.same_of_find? found there] at same
          cases same
        simp [apart]
  | none =>
    rw [found] at inserted
    cases inserted
    have index : find? { m with
          index := m.index ++ [(f, m.keys.size)], keys := m.keys.push k.keptKey, vals := m.vals.push v } l =
        (m.find? l).or (if f.same l then some m.keys.size else none) := by
      rw [find?, List.find?_append, Option.map_or, List.find?_singleton, find?]
      split <;> simp_all
    rw [MapTable.get?, index]
    cases same : f.same l with
    | true =>
      rw [← find?_congr same, found]
      simp [sound.paired]
    | false =>
      rw [if_neg Bool.false_ne_true, if_neg Bool.false_ne_true, Option.or_none, MapTable.get?]
      cases there : m.find? l with
      | none => rfl
      | some j =>
        have inside : j < m.vals.size := sound.paired ▸ sound.lt_of_find? there
        simp [Array.getElem?_push, inside, Nat.ne_of_lt inside]

end MapTable

/-- What is in a set after an addition: the new member, and those before. -/
theorem SetTable.has_add (s : SetTable) (k l : Key) (v : Value) : (s.add k v).2.has l = (k.same l || s.has l) := by
  rw [SetTable.add]
  split
  · next present =>
    cases same : k.same l with
    | false => rfl
    | true =>
      have tests : (fun e : Key => e.same k) = fun e => e.same l := funext (Key.same_congr same)
      rw [SetTable.has, tests] at present
      exact present
  · simp [SetTable.has, Bool.or_comm]

/-! ## Maps and sets -/

/-- Two values count as one key: they are equal, and of kinds that keys do not tell apart. -/
def Value.sharesSlot (a b : Value) : Bool :=
  a.equal b && a.keptKey.alike b.keptKey

/-- Values share a slot if they are equal and of kinds that keys do not tell apart, and otherwise not.  What is read from a map
after an insertion is what was inserted if the keys share a slot, and else what was there before; and a value counts as a member
of a set after an addition if it shares a slot with the new member, or was one before. -/
theorem slots_agree_with_equality (h : Heap) {a b : Value} (first : a.Slot) (second : b.Slot) :
    (∃ k l, h.key a = .ok k ∧ h.key b = .ok l ∧ k.same l = a.sharesSlot b) ∧
      (∀ r m v h', h.cells[r]? = some (.map m) → m.Sound → h.mapInsert r a v = .ok h' →
        h'.mapGet? r b = if a.sharesSlot b then .ok (some v) else h.mapGet? r b) ∧
      ∀ r t isNew h', h.cells[r]? = some (.set t) → h.setAdd r a = .ok (isNew, h') →
        h'.setHas r b = (h.setHas r b).map (a.sharesSlot b || ·) := by
  have same : (Heap.keyOf {} a).same (Heap.keyOf {} b) = a.sharesSlot b := by
    rw [Bool.eq_iff_iff, first.same_iff second, Value.sharesSlot, Bool.and_eq_true]
  have key := first.keyLike.key_eq
  have key' := second.keyLike.key_eq
  refine ⟨⟨_, _, key h, key' h, same⟩, fun r m v h' cell sound done => ?_, fun r t isNew h' cell done => ?_⟩
  · have table : h.mapTable r = m := by rw [Heap.mapTable, cell]
    rw [Heap.mapInsert, key, table] at done
    obtain ⟨m', inserted, done⟩ := of_bind_ok (x := m.insert _ a v) done
    cases done
    have table' : (h.put r (.map m')).mapTable r = m' := by
      have inside := (Array.getElem?_eq_some_iff.mp cell).1
      simp [Heap.mapTable, Heap.put, inside]
    rw [Heap.mapGet?, Heap.mapGet?, key', key', table, table']
    change m'.get? _ = if _ then _ else m.get? _
    rw [sound.get?_insert inserted, same]
  · have table : h.setTable r = t := by rw [Heap.setTable, cell]
    rw [Heap.setAdd, key, table] at done
    obtain rfl : h.put r (.set (t.add (Heap.keyOf {} a) a).2) = h' := congrArg Prod.snd (Except.ok.inj done)
    have table' : (h.put r (.set (t.add (Heap.keyOf {} a) a).2)).setTable r = (t.add (Heap.keyOf {} a) a).2 := by
      have inside := (Array.getElem?_eq_some_iff.mp cell).1
      simp [Heap.setTable, Heap.put, inside]
    rw [Heap.setHas, Heap.setHas, key', key', table, table']
    change Except.ok ((t.add _ a).2.has _) = Except.ok (_ || t.has _)
    rw [SetTable.has_add, same]

def numbered (k : WholeKind) : Value :=
  .tuple [.whole k 1, .str (utf8 "bob")]

/-- What is stored under an `int` and a name is read under a `long` and the name, and not under a character and the name. -/
theorem slots_agree_with_equality_numbered :
    (numbered .int).Slot ∧ (numbered .long).Slot ∧ (numbered .char).Slot ∧ MapTable.Sound {} ∧
      ∃ h', Heap.mapInsert { cells := #[.map {}] } 0 (numbered .int) .null = .ok h' ∧
        h'.mapGet? 0 (numbered .long) = .ok (some .null) ∧ h'.mapGet? 0 (numbered .char) = .ok none := by
  have slot (k : WholeKind) (one : Value.Clear 16 (.whole k 1)) : (numbered k).Slot := by
    refine .tuple (.tuple fun v mem => ?_)
    simp only [List.mem_cons, List.not_mem_nil, or_false] at mem
    rcases mem with rfl | rfl
    · exact one
    · exact .string _
  have int := slot .int (.word (@Value.WordOf.whole .int (by decide) 1))
  have long := slot .long (.word (@Value.WordOf.whole .long (by decide) 1))
  have char := slot .char (.char (Char.ofNat 1))
  have empty : MapTable.Sound {} := .empty .null
  refine ⟨int, long, char, empty, _, rfl, ?_, ?_⟩
  · exact (slots_agree_with_equality { cells := #[.map {}] } int long).2.1 0 {} .null _ rfl empty rfl
  · exact (slots_agree_with_equality { cells := #[.map {}] } int char).2.1 0 {} .null _ rfl empty rfl

-- inside a tuple an address is not the string of its text, though it is equal to it
example : Value.equal (.tuple [.text .address (utf8 "bob")]) (.tuple [.str (utf8 "bob")]) = true ∧
    Value.sharesSlot (.tuple [.text .address (utf8 "bob")]) (.tuple [.str (utf8 "bob")]) = false :=
  ⟨rfl, rfl⟩

end LedgerScript
