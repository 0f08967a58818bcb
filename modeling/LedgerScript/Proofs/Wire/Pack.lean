import LedgerScript.Ledger.Block

/-!
# Reading packed records back

What was packed is read back, whatever comes behind it.  A record is read field by field, and `Reads` says what the
fields make of its contents.
-/

namespace LedgerScript

namespace Unpack

theorem take_append (s rest : Bytes) : take s.length (s ++ rest) = some (s, rest) := by
  simp [take]

/-- The byte that a short text starts with. -/
theorem textCode : ∀ n < 32, ((0xa0 + n.toUInt8) == 0xc0) = false ∧
    (0xa0 ≤ 0xa0 + n.toUInt8 && 0xa0 + n.toUInt8 < 0xc0) = true ∧ (0xa0 + n.toUInt8).toNat - 0xa0 = n := by
  decide

/-- The byte that a record of few fields starts with. -/
theorem recordCode : ∀ n < 16, ((0x80 + n.toUInt8) == 0xc0) = false ∧
    ((0x90 ≤ 0x80 + n.toUInt8 && 0x80 + n.toUInt8 < 0xa0) || (0x80 + n.toUInt8) == 0xdc || (0x80 + n.toUInt8) == 0xdd) =
      false ∧
    (0x80 ≤ 0x80 + n.toUInt8 && 0x80 + n.toUInt8 < 0x90) = true ∧ (0x80 + n.toUInt8).toNat - 0x80 = n := by
  decide

theorem text_text {s : Bytes} (short : s.length < 32) (rest : Bytes) : text (Pack.text s ++ rest) = some (s, rest) := by
  have form : Pack.text s ++ rest = (0xa0 + s.length.toUInt8) :: (s ++ rest) := by
    simp [Pack.text, Pack.textHead, short]
  have size : textLength (0xa0 + s.length.toUInt8) (s ++ rest) = some (some s.length, s ++ rest) := by
    obtain ⟨present, inline, code⟩ := textCode s.length short
    unfold textLength
    rw [present, inline, code]
    rfl
  rw [form]
  change (textLength _ (s ++ rest) >>= fun p => take (p.1.getD 0) p.2) = _
  rw [size]
  exact take_append s rest

theorem text_raw {s : Bytes} (short : s.length < 0x100) (rest : Bytes) : text (Pack.raw s ++ rest) = some (s, rest) := by
  have form : Pack.raw s ++ rest = 0xc4 :: s.length.toUInt8 :: (s ++ rest) := by
    simp [Pack.raw, Pack.rawHead, short, Pack.bigEndian, Nat.mod_eq_of_lt short]
  have size : Pack.ofBigEndian [s.length.toUInt8] = s.length := by
    simp [Pack.ofBigEndian, Nat.mod_eq_of_lt short]
  rw [form]
  change take (Pack.ofBigEndian [s.length.toUInt8]) (s ++ rest) = _
  rw [size]
  exact take_append s rest

theorem natMod_word_zero (rest : Bytes) : natMod 64 (Pack.word 0 ++ rest) = some (0, rest) := by
  have front : intOf 0xcf (List.replicate 8 0 ++ rest) = some (0, rest) := rfl
  change (intOf 0xcf (List.replicate 8 0 ++ rest) >>= fun p => some ((p.1 % (2 ^ 64 : Nat)).toNat, p.2)) = _
  rw [front]
  change some ((0 % ((2 ^ 64 : Nat) : Int)).toNat, rest) = _
  rw [Int.zero_emod]
  rfl

/-- What the fields of a record make of some contents. -/
inductive Reads {α : Type} (fields : List (String × (α → Unpack α))) : α → List (String × Bytes) → α → Prop where
  | nil (a : α) : Reads fields a [] a
  | cons {a b c : α} {name : String} {bytes : Bytes} {items : List (String × Bytes)} {field : String × (α → Unpack α)}
    (short : (utf8 name).length < 32) (known : fields.find? (fun f => utf8 f.1 == utf8 name) = some field)
    (item : ∀ rest, field.2 a (bytes ++ rest) = some (b, rest)) (later : Reads fields b items c) :
    Reads fields a ((name, bytes) :: items) c

section

variable {α : Type} {fields : List (String × (α → Unpack α))} {a b : α} {items : List (String × Bytes)}

theorem Reads.foldlM_eq (reads : Reads fields a items b) (rest : Bytes) : ∀ rounds : List Nat,
    rounds.length = items.length → rounds.foldlM (fun a _ => nextField fields a) a
      ((items.flatMap fun f => Pack.text (utf8 f.1) ++ f.2) ++ rest) = some (b, rest) := by
  induction reads with
  | nil a =>
    intro rounds same
    rw [List.eq_nil_of_length_eq_zero same]
    rfl
  | @cons a b c name bytes items field short known item later ih =>
    intro rounds same
    obtain ⟨i, rounds, rfl⟩ := List.exists_cons_of_length_eq_add_one same
    have next : nextField fields a (Pack.text (utf8 name) ++ (bytes ++ ((items.flatMap fun f =>
        Pack.text (utf8 f.1) ++ f.2) ++ rest))) =
        some (b, (items.flatMap fun f => Pack.text (utf8 f.1) ++ f.2) ++ rest) := by
      change (text _ >>= fun p => _) = _
      rw [text_text short]
      simp only [Option.bind_eq_bind, Option.bind_some, known]
      exact item _
    rw [List.flatMap_cons, List.append_assoc, List.append_assoc]
    change (nextField fields a _ >>= fun p => rounds.foldlM (fun a _ => nextField fields a) p.1 p.2) = _
    rw [next]
    exact ih rounds (Nat.succ.inj same)

theorem Reads.record_eq (reads : Reads fields a items b) (few : items.length < 16) (rest : Bytes) :
    record a fields (Pack.record items ++ rest) = some (b, rest) := by
  obtain ⟨present, noList, inline, code⟩ := recordCode items.length few
  have form : Pack.record items ++ rest = (0x80 + items.length.toUInt8) ::
      ((items.flatMap fun f => Pack.text (utf8 f.1) ++ f.2) ++ rest) := by
    simp [Pack.record, Pack.recordHead, few]
  have size (bytes : Bytes) :
      recordLengthOf (0x80 + items.length.toUInt8) bytes = some (some items.length, bytes) := by
    unfold recordLengthOf
    rw [present, inline, code]
    rfl
  have length : (List.range items.length).length = items.length := List.length_range
  rw [form]
  unfold record
  change (if (0x80 + items.length.toUInt8 == 0xc0) = true then _ else _ : Unpack α) _ = _
  rw [present, noList]
  change (recordLengthOf _ _ >>= fun p => _) = _
  rw [size]
  exact reads.foldlM_eq rest _ length

end

end Unpack

/-- Something that needs no heap is read first. -/
theorem liftUnpack_bind {α β : Type} {x : Unpack α} {f : α → UnpackHeap β} {a : α} {h : Heap} {bytes rest : Bytes}
    (read : x bytes = some (a, rest)) {r : Option ((β × Heap) × Bytes)} (later : f a h rest = r) :
    (liftUnpack x >>= f) h bytes = r := by
  change ((x bytes >>= fun p => some ((p.1, h), p.2)) >>= fun p => f p.1.1 p.1.2 p.2) = r
  rw [read]
  exact later

end LedgerScript
