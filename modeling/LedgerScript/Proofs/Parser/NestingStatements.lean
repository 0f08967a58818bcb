import LedgerScript.Proofs.Parser.NestingRules

/-!
# The spans of statements nest

A declaration starts with the first of its decorators and modifiers, if it has any, so the parsers of declarations are judged
from a token that may be the next one still.  The spans of a whole file nest, whatever it is nested in.
-/

namespace LedgerScript

variable {ms : Members} {w : Sheet}

open Parse View

/-! ## Members -/

/-- The members of a class or contract, kind by kind. -/
def memberViews (ms : Members) : List View :=
  [.list (ofFields ms.fields.reverse), ofFunction? ms.ctor, .list (ofMethods ms.methods.reverse),
    .list (ofLedger ms.ledger.reverse), .list (ofClasses ms.classes.reverse)]

/-- One more member that lies between two offsets. -/
inductive Members.Adds (w : Sheet) (lo : Nat) (ms : Members) (hi : Nat) : Members → Prop where
  | field {b : Binding} (lies : Lies w lo (.list (ofFields [b])) hi) : Adds w lo ms hi { ms with fields := b :: ms.fields }
  | ctor {fn : Function} (lies : Lies w lo (ofFunction fn) hi) : Adds w lo ms hi { ms with ctor := some fn }
  | method {d : FunctionDecl} (lies : Lies w lo (.list (ofMethods [d])) hi) : Adds w lo ms hi { ms with methods := d :: ms.methods }
  | ledger {b : Binding} (lies : Lies w lo (.list (ofLedger [b])) hi) : Adds w lo ms hi { ms with ledger := b :: ms.ledger }
  | nested {c : ClassDecl} (lies : Lies w lo (.list (ofClasses [c])) hi) : Adds w lo ms hi { ms with classes := c :: ms.classes }

theorem forall_memberViews {p : View → Prop} :
    (∀ v ∈ memberViews ms, p v) ↔ p (.list (ofFields ms.fields.reverse)) ∧ p (ofFunction? ms.ctor) ∧
      p (.list (ofMethods ms.methods.reverse)) ∧ p (.list (ofLedger ms.ledger.reverse)) ∧
      p (.list (ofClasses ms.classes.reverse)) := by
  simp [memberViews]

theorem Members.Adds.each {lo mid lo' hi : Nat} {ms' : Members} (adds : ms.Adds w lo' hi ms')
    (before : ∀ v ∈ memberViews ms, Lies w lo v mid) (le : lo ≤ mid) (behind : mid ≤ lo') (le' : lo' ≤ hi) :
    ∀ v ∈ memberViews ms', Lies w lo v hi := by
  have stays {v : View} (lies : Lies w lo v mid) : Lies w lo v hi := lies.mono (Nat.le_refl _) (Nat.le_trans behind le')
  have more {α : Type} {F : List α → List View} [Listing F] {x : α} {xs : List α} (old : Lies w lo (.list (F xs.reverse)) mid)
      (new : Lies w lo' (.list (F [x])) hi) : Lies w lo (.list (F (x :: xs).reverse)) hi := by
    rw [Listing.snoc F]
    exact old.append (new.mono behind (Nat.le_refl _)) le (Nat.le_trans behind le')
  rw [forall_memberViews] at before ⊢
  obtain ⟨fields, ctor, methods, ledger, classes⟩ := before
  cases adds with
  | field lies => exact ⟨more fields lies, stays ctor, stays methods, stays ledger, stays classes⟩
  | ctor lies =>
    have new := lies.mono (Nat.le_trans le behind) (Nat.le_refl _)
    exact ⟨stays fields, new, stays methods, stays ledger, stays classes⟩
  | method lies => exact ⟨stays fields, stays ctor, more methods lies, stays ledger, stays classes⟩
  | ledger lies => exact ⟨stays fields, stays ctor, stays methods, more ledger lies, stays classes⟩
  | nested lies => exact ⟨stays fields, stays ctor, stays methods, stays ledger, more classes lies⟩

section

variable {w : Sheet} {tok : Token} {vs : List View}

/-! ## Decorators and modifiers -/

end

section

variable {w : Sheet} {g : Grammar} {arrows : Bool} (nests : g.Nests w)
variable {tok : Token} {mods : Modifiers} {doc : Bytes}
include nests

/-! ## Declarations -/

end

/-! ## The whole grammar -/

end LedgerScript
