import LedgerScript.Proofs.Parser.Laying

/-!
# The spans of expressions nest

Every rule is judged as it is written, by what the parsers of nested things give: `Grammar.Nests` says that they give nodes whose
spans nest, and then the rules do.  What a rule makes a node of was read since its first token, so that the node is around it.
-/

namespace LedgerScript

open Parse View

/-! ## What the rules may rely on -/

/-- The parsers of nested things give trees whose spans nest, in a file and in the holes of its templates. -/
structure Grammar.Nests (w : Sheet) (g : Grammar) : Prop where
  laid : w.Laid
  expr : ∀ arrows, Node w (g.expr arrows) ofExpr
  ternary : ∀ arrows, Node w (g.ternary arrows) ofExpr
  binary : ∀ arrows least, Node w (g.binary arrows least) ofExpr
  unary : ∀ arrows, Node w (g.unary arrows) ofExpr
  type : Node w g.type ofType
  stmt : ∀ arrows, Node w (g.stmt arrows) ofStmt
  block : ∀ arrows, Node w (g.block arrows) ofBlock

section

variable {w : Sheet} {g : Grammar} {arrows : Bool} (nests : g.Nests w)
variable {tok : Token}
include nests

/-! ## Types -/

omit nests in
theorem Parse.Lays.check {β : Type} {Γ : ParserState → Prop} {x : Expr} {op : Token} {f : Unit → Parse β}
    {post : β → ParserState → Prop} (rest : Lays w Γ (f ()) post) : Lays w Γ (checkPlace x op >>= f) post := by
  unfold checkPlace
  split
  · exact rest
  · exact lays_stops

end

end LedgerScript
