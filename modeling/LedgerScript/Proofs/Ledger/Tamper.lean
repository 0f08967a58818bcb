import LedgerScript.Proofs.Ledger.Digests
import LedgerScript.Proofs.Ledger.Growth
import Mathlib.Data.List.Induction

/-!
# Tampering with a chain

The hash of a block is a digest of the hash before it and of what is written of its transactions.  If different inputs have
different digests, and no digest is zero, then the last hash of a verified sequence of blocks fixes all of it: two verified
sequences with the same last hash are compared from their ends, where equal hashes mean equal contents and equal parents,
and a sequence ends at its first block exactly if the other one does, because only a first block has the parent zero.

Nothing is said about the numbers of the blocks and about which of them are sealed; these are not hashed.
-/

namespace LedgerScript

namespace ChainBlock

def hashed (h : Heap) (b : ChainBlock) : Except Crash Bytes :=
  (b.wires h).map fun ws => b.prevHash ++ Transaction.Wire.packAll ws

theorem hashOf_eq_hashed (h : Heap) (b : ChainBlock) : hashOf h b.prevHash b.txs = (b.hashed h).map Digest.ofBytes := by
  unfold hashOf hashed
  rw [b.mapM_pack_eq]
  cases b.wires h <;> rfl

/-- Two blocks, each on a heap of its own, have the same parent, hash and transactions. -/
structure Agrees (h h' : Heap) (b c : ChainBlock) : Prop where
  prevHash : b.prevHash = c.prevHash
  hash : b.hash = c.hash
  wires : b.wires h = c.wires h'

end ChainBlock

def hashInputs (h : Heap) (blocks : List ChainBlock) : Set Bytes :=
  { input | ∃ b ∈ blocks, b.hashed h = .ok input }

/-- What is written of the transactions of the blocks of a sequence. -/
def wireLists (h : Heap) (blocks : List ChainBlock) : Set (List Transaction.Wire) :=
  { ws | ∃ b ∈ blocks, b.wires h = .ok ws }

/-- What may be done to a sequence of blocks: one of them is altered, some are taken out or put in, or they are brought
into another order. -/
inductive Tampered (h h' : Heap) : List ChainBlock → List ChainBlock → Prop where
  | altered {blocks blocks' : List ChainBlock} {i : Nat} {b c : ChainBlock} (before : blocks[i]? = some b)
    (after : blocks'[i]? = some c) (differ : ¬ b.Agrees h h' c) : Tampered h h' blocks blocks'
  | removed (front gone back : List ChainBlock) (some : gone ≠ []) : Tampered h h' (front ++ gone ++ back) (front ++ back)
  | inserted (front new back : List ChainBlock) (some : new ≠ []) : Tampered h h' (front ++ back) (front ++ new ++ back)
  | reordered {blocks blocks' : List ChainBlock} (moved : blocks.Perm blocks') (differ : blocks ≠ blocks') :
    Tampered h h' blocks blocks'

/-! ## Sequences from their ends -/

section

variable {h h' : Heap} {inputs : Set Bytes} {contents : Set (List Transaction.Wire)}
variable {b : ChainBlock} {blocks : List ChainBlock}

/-- Different inputs of some set have different digests, and none of these is zero; different contents of another set have
different stored forms. -/
structure HashesApart (inputs : Set Bytes) (contents : Set (List Transaction.Wire)) : Prop where
  injective : Set.InjOn Digest.ofBytes inputs
  nonzero : ∀ input ∈ inputs, Digest.isZero (Digest.ofBytes input) = false
  packed : Set.InjOn Transaction.Wire.packAll contents

/-- Parents are digests, and what is hashed and written is among some sets. -/
structure ChainBlock.Among (h : Heap) (inputs : Set Bytes) (contents : Set (List Transaction.Wire)) (b : ChainBlock) :
    Prop where
  wide : b.prevHash.length = 32
  hashed : ∀ input, b.hashed h = .ok input → input ∈ inputs
  written : ∀ ws, b.wires h = .ok ws → ws ∈ contents

/-- Equal hashes mean equal parents and equal transactions. -/
theorem HashesApart.agrees (apart : HashesApart inputs contents) {c : ChainBlock} (inB : b.Among h inputs contents)
    (inC : c.Among h' inputs contents) (hashB : ChainBlock.hashOf h b.prevHash b.txs = .ok b.hash)
    (hashC : ChainBlock.hashOf h' c.prevHash c.txs = .ok c.hash) (same : b.hash = c.hash) : b.Agrees h h' c := by
  rw [ChainBlock.hashOf_eq_hashed] at hashB hashC
  obtain ⟨input, hashedB, digestB⟩ := of_map_ok hashB
  obtain ⟨input', hashedC, digestC⟩ := of_map_ok hashC
  have inputs_eq : input = input' := by
    refine apart.injective (inB.hashed input hashedB) (inC.hashed input' hashedC) ?_
    rw [digestB, digestC, same]
  obtain ⟨ws, writtenB, rfl⟩ := of_map_ok hashedB
  obtain ⟨ws', writtenC, rfl⟩ := of_map_ok hashedC
  obtain ⟨prev, packed⟩ := List.append_inj inputs_eq (inB.wide.trans inC.wide.symm)
  have contents_eq : ws = ws' := apart.packed (inB.written ws writtenB) (inC.written ws' writtenC) packed
  exact ⟨prev, same, by rw [writtenB, writtenC, contents_eq]⟩

theorem HashesApart.hash_nonzero (apart : HashesApart inputs contents) (inB : b.Among h inputs contents)
    (hashB : ChainBlock.hashOf h b.prevHash b.txs = .ok b.hash) : Digest.isZero b.hash = false := by
  rw [ChainBlock.hashOf_eq_hashed] at hashB
  obtain ⟨input, hashedB, digestB⟩ := of_map_ok hashB
  rw [← digestB]
  exact apart.nonzero input (inB.hashed input hashedB)

/-- Blocks with the same parent either both follow a block with that hash, or are both first. -/
theorem parents_eq {c : ChainBlock} {p q : Option ChainBlock} (followsB : b.Follows p) (followsC : c.Follows q)
    (same : b.prevHash = c.prevHash) (nonzeroP : ∀ x ∈ p, Digest.isZero x.hash = false)
    (nonzeroQ : ∀ x ∈ q, Digest.isZero x.hash = false) : p.map (·.hash) = q.map (·.hash) := by
  cases p with
  | none =>
    cases q with
    | none => rfl
    | some y =>
      have zero : Digest.isZero y.hash = true := by
        rw [← followsC.2, ← same]
        exact followsB
      rw [nonzeroQ y rfl] at zero
      cases zero
  | some x =>
    cases q with
    | none =>
      have zero : Digest.isZero x.hash = true := by
        rw [← followsB.2, same]
        exact followsC
      rw [nonzeroP x rfl] at zero
      cases zero
    | some y =>
      have hash : x.hash = y.hash := by rw [← followsB.2, same, followsC.2]
      exact congrArg some hash

theorem HashesApart.last_nonzero (apart : HashesApart inputs contents)
    (among : ∀ b ∈ blocks, b.Among h inputs contents) (verified : verifyBlocks h blocks = none) :
    ∀ b ∈ blocks.getLast?, Digest.isZero b.hash = false := by
  intro b last
  obtain ⟨front, rfl⟩ := List.getLast?_eq_some_iff.mp last
  exact apart.hash_nonzero (among b (by simp)) ((verifyAfter_append front).mp verified).2.1

/-- Two verified sequences with the same last hash agree block by block. -/
theorem HashesApart.agree (apart : HashesApart inputs contents)
    (among : ∀ b ∈ blocks, b.Among h inputs contents) (verified : verifyBlocks h blocks = none) :
    ∀ {blocks' : List ChainBlock}, (∀ b ∈ blocks', b.Among h' inputs contents) → verifyBlocks h' blocks' = none →
      blocks.getLast?.map (·.hash) = blocks'.getLast?.map (·.hash) →
      List.Forall₂ (ChainBlock.Agrees h h') blocks blocks' := by
  induction blocks using List.reverseRecOn with
  | nil =>
    intro blocks' _ _ last
    have none : blocks'.getLast? = none := by simpa using last.symm
    rw [List.getLast?_eq_none_iff.mp none]
    exact .nil
  | append_singleton front b ih =>
    intro blocks' among' verified' last
    obtain rfl | ⟨front', c, rfl⟩ := List.eq_nil_or_concat' blocks'
    · simp at last
    have same : b.hash = c.hash := by simpa using last
    have amongFront : ∀ x ∈ front, x.Among h inputs contents := fun x mem => among x (by simp [mem])
    have amongFront' : ∀ x ∈ front', x.Among h' inputs contents := fun x mem => among' x (by simp [mem])
    obtain ⟨verifiedFront, hashB, followsB⟩ := (verifyAfter_append front).mp verified
    obtain ⟨verifiedFront', hashC, followsC⟩ := (verifyAfter_append front').mp verified'
    rw [Option.or_none] at followsB followsC
    have agrees : b.Agrees h h' c := apart.agrees (among b (by simp)) (among' c (by simp)) hashB hashC same
    have ends : front.getLast?.map (·.hash) = front'.getLast?.map (·.hash) :=
      parents_eq followsB followsC agrees.prevHash (apart.last_nonzero amongFront verifiedFront)
        (apart.last_nonzero amongFront' verifiedFront')
    exact List.rel_append (ih amongFront verifiedFront amongFront' verifiedFront' ends) (.cons agrees .nil)

theorem verifyBlocks_front (front back : List ChainBlock) (verified : verifyBlocks h (front ++ back) = none) :
    verifyBlocks h front = none := by
  induction back using List.reverseRecOn with
  | nil => rwa [List.append_nil] at verified
  | append_singleton back b ih =>
    rw [← List.append_assoc] at verified
    exact ih ((verifyAfter_append _).mp verified).1

/-- The hashes of a verified sequence are all different: up to two blocks with the same hash the sequence would agree with
itself, and so be equally long. -/
theorem HashesApart.hashes_nodup (apart : HashesApart inputs contents)
    (among : ∀ b ∈ blocks, b.Among h inputs contents) (verified : verifyBlocks h blocks = none) :
    (blocks.map (·.hash)).Nodup := by
  induction blocks using List.reverseRecOn with
  | nil => exact List.nodup_nil
  | append_singleton front b ih =>
    have amongFront : ∀ x ∈ front, x.Among h inputs contents := fun x mem => among x (by simp [mem])
    have verifiedFront := ((verifyAfter_append front).mp verified).1
    rw [List.map_append, List.nodup_append_comm]
    refine List.nodup_cons.mpr ⟨?_, ih amongFront verifiedFront⟩
    intro mem
    obtain ⟨c, memFront, same⟩ := List.mem_map.mp mem
    obtain ⟨early, late, rfl⟩ := List.append_of_mem memFront
    have amongEarly : ∀ x ∈ early ++ [c], x.Among h inputs contents := by
      intro x mem
      refine amongFront x ?_
      rcases List.mem_append.mp mem with mem | mem
      · simp [mem]
      · simp [List.mem_singleton.mp mem]
    have verifiedEarly : verifyBlocks h (early ++ [c]) = none := by
      refine verifyBlocks_front (early ++ [c]) late ?_
      rwa [List.append_assoc]
    have ends : (early ++ [c]).getLast?.map (·.hash) = (early ++ c :: late ++ [b]).getLast?.map (·.hash) := by
      rw [List.getLast?_concat, List.getLast?_concat]
      exact congrArg some same
    have length := (apart.agree amongEarly verifiedEarly among verified ends).length_eq
    simp at length

/-- A sequence that is brought into another order does not agree with a verified one. -/
theorem HashesApart.eq_of_perm (apart : HashesApart inputs contents) {blocks' : List ChainBlock}
    (among : ∀ b ∈ blocks, b.Among h inputs contents) (verified : verifyBlocks h blocks = none)
    (agree : List.Forall₂ (ChainBlock.Agrees h h') blocks blocks') (moved : blocks.Perm blocks') : blocks = blocks' := by
  have distinct := List.inj_on_of_nodup_map (apart.hashes_nodup among verified)
  have equal : List.Forall₂ (· = ·) blocks blocks' := by
    rw [List.forall₂_iff_get] at agree ⊢
    refine ⟨agree.1, fun i hi hi' => ?_⟩
    exact distinct (List.get_mem _ _) (moved.mem_iff.mpr (List.get_mem _ _)) (agree.2 i hi hi').hash
  exact List.forall₂_eq_eq_eq ▸ equal

end

/-! ## Evidence -/

section

variable {h h' : Heap} {blocks blocks' : List ChainBlock}

theorem among_of_mem {b : ChainBlock} (mem : b ∈ blocks) (wide : b.prevHash.length = 32) {inputs : Set Bytes}
    {contents : Set (List Transaction.Wire)} (inputs_sub : hashInputs h blocks ⊆ inputs)
    (contents_sub : wireLists h blocks ⊆ contents) : b.Among h inputs contents where
  wide := wide
  hashed _ hashed := inputs_sub ⟨b, mem, hashed⟩
  written _ written := contents_sub ⟨b, mem, written⟩

/-- Suppose that the inputs which are hashed have different digests, none of them zero, and that the lists of transactions
which are written have different stored forms.  Then a sequence of blocks that is verified, and ends with the same hash as
another verified sequence, agrees with it block by block.  So whatever is done to a verified sequence, if it keeps the last
hash it is found out. -/
theorem tampering_found
    (injective : Set.InjOn Digest.ofBytes (hashInputs h blocks ∪ hashInputs h' blocks'))
    (nonzero : ∀ input ∈ hashInputs h blocks ∪ hashInputs h' blocks', Digest.isZero (Digest.ofBytes input) = false)
    (packed : Set.InjOn Transaction.Wire.packAll (wireLists h blocks ∪ wireLists h' blocks'))
    (wide : ∀ b ∈ blocks ++ blocks', b.prevHash.length = 32) (verified : verifyBlocks h blocks = none)
    (last : blocks.getLast?.map (·.hash) = blocks'.getLast?.map (·.hash)) :
    (verifyBlocks h' blocks' = none →
      blocks.length = blocks'.length ∧ List.Forall₂ (ChainBlock.Agrees h h') blocks blocks') ∧
    (Tampered h h' blocks blocks' → verifyBlocks h' blocks' ≠ none) := by
  have apart : HashesApart (hashInputs h blocks ∪ hashInputs h' blocks') (wireLists h blocks ∪ wireLists h' blocks') :=
    ⟨injective, nonzero, packed⟩
  have among : ∀ b ∈ blocks, b.Among h (hashInputs h blocks ∪ hashInputs h' blocks')
      (wireLists h blocks ∪ wireLists h' blocks') := fun b mem =>
    among_of_mem mem (wide b (List.mem_append_left _ mem)) Set.subset_union_left Set.subset_union_left
  have among' : ∀ b ∈ blocks', b.Among h' (hashInputs h blocks ∪ hashInputs h' blocks')
      (wireLists h blocks ∪ wireLists h' blocks') := fun b mem =>
    among_of_mem mem (wide b (List.mem_append_right _ mem)) Set.subset_union_right Set.subset_union_right
  have agree (verified' : verifyBlocks h' blocks' = none) := apart.agree among verified among' verified' last
  refine ⟨fun verified' => ⟨(agree verified').length_eq, agree verified'⟩, fun tampered verified' => ?_⟩
  cases tampered with
  | altered before after differ =>
    obtain ⟨inside, rfl⟩ := List.getElem?_eq_some_iff.mp before
    obtain ⟨inside', rfl⟩ := List.getElem?_eq_some_iff.mp after
    exact differ ((agree verified').get inside inside')
  | removed front gone back some =>
    have length := (agree verified').length_eq
    simp at length
    exact some length
  | inserted front new back some =>
    have length := (agree verified').length_eq
    simp at length
    exact some length
  | reordered moved differ => exact differ (apart.eq_of_perm among verified (agree verified') moved)

end

theorem first_hash_nonzero : Digest.isZero (Digest.ofBytes (Digest.zero ++ Pack.list [])) = false := by
  refine Digest.isZero_ofBytes ?_
  have short : (Digest.zero ++ Pack.list []).length / Digest.rate = 0 := by decide
  rw [short, Digest.absorbAll, Digest.absorb, Digest.numbers_permute]
  decide +kernel

/-- A second first block in front of the first one is found. -/
theorem tampering_found_doubled : verifyBlocks {} [.first, .first] ≠ none := by
  have written : ∀ ws ∈ wireLists {} [ChainBlock.first] ∪ wireLists {} [.first, .first], ws = [] := by
    rintro ws (⟨b, mem, made⟩ | ⟨b, mem, made⟩) <;> · simp at mem; subst mem; cases made; rfl
  have input : ∀ x ∈ hashInputs {} [ChainBlock.first] ∪ hashInputs {} [.first, .first],
      x = Digest.zero ++ Pack.list [] := by
    rintro x (⟨b, mem, made⟩ | ⟨b, mem, made⟩) <;> · simp at mem; subst mem; cases made; rfl
  refine (tampering_found (fun x hx y hy _ => (input x hx).trans (input y hy).symm) (fun x hx => ?_)
    (fun x hx y hy _ => (written x hx).trans (written y hy).symm) (fun b mem => ?_) ?_ rfl).2
    (.inserted [] [.first] [.first] (List.cons_ne_nil _ _))
  · rw [input x hx]
    exact first_hash_nonzero
  · have first : b = .first := by simpa using mem
    rw [first]
    rfl
  · refine (verifyAfter_cons []).mpr ⟨hashOf_nil {} _, ?_, rfl⟩
    rfl

end LedgerScript
