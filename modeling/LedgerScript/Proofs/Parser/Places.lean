import LedgerScript.Proofs.Parser.Integers
import LedgerScript.Proofs.Parser.Operands

/-!
# Where parsing goes

The tokens of a list, and those in the holes of its templates, are the places of parsing.  A parser `Goes` through a list if
from every place it takes tokens off the front or stops at a fault, and the fault has its place: what it is about is written
from one token of the list to another.  It never looks behind the last token, and never goes round without taking one.

`Goes` bounds the number of tokens that are left.  Every rule first takes a token or calls only what does, so a rule with one
token more may rely on parsers that are nested in it; the combinators below keep account of what has been taken.
-/

namespace LedgerScript

variable {ts us : List Token} {t : Token}

/-! ## Places -/

/-- The list itself, the tokens of a hole of one of its templates, or of a hole in there. -/
inductive Nested (ts : List Token) : List Token → Prop where
  | self : Nested ts ts
  | hole {us : List Token} {t : Token} {part : TemplatePart} {hole : TemplateHole} (outer : Nested ts us) (mem : t ∈ us)
    (part_mem : part ∈ t.parts) (same : part.hole = some hole) : Nested ts hole.tokens

theorem Nested.trans {vs : List Token} (outer : Nested ts us) (inner : Nested us vs) : Nested ts vs := by
  induction inner with
  | self => exact outer
  | hole _ mem part_mem same ih => exact .hole ih mem part_mem same

def SpanOf (ts : List Token) (s : Span) : Prop :=
  ∃ a ∈ ts, ∃ b ∈ ts, s = a.span.cover b.span

/-- From one token of a list to another, or within a hole of the list. -/
def SpanWithin (ts : List Token) (s : Span) : Prop :=
  ∃ us, Nested ts us ∧ SpanOf us s

theorem Span.cover_self (s : Span) : s.cover s = s := by
  rw [cover, if_pos rfl, Nat.min_self, Nat.max_self]

theorem spanOf_token (mem : t ∈ ts) : SpanOf ts t.span :=
  ⟨t, mem, t, mem, t.span.cover_self.symm⟩

theorem SpanOf.within {s : Span} (written : SpanOf ts s) : SpanWithin ts s :=
  ⟨ts, .self, written⟩

theorem SpanWithin.outer {ts us : List Token} {s : Span} (outer : Nested ts us) (written : SpanWithin us s) : SpanWithin ts s := by
  obtain ⟨vs, inner, written⟩ := written
  exact ⟨vs, outer.trans inner, written⟩

/-- A number of a list that is out of range: the fault is what reading it gives.  It is read with a minus sign only if it stands
behind one. -/
structure OutOfRange (ts : List Token) (t : Token) (negative : Bool) (fault : SyntaxFault) : Prop where
  mem : t ∈ ts
  number : t.kind = .literal .int ∨ t.kind = .literal .float
  minus : negative = true → ∃ u, u.kind = .symbol .minus ∧ [u, t] <:+: ts
  fails : ∃ span, ∀ s, numberLiteral t negative span s = .error fault

structure SyntaxFault.Placed (ts : List Token) (fault : SyntaxFault) : Prop where
  real : fault ≠ .exhausted
  span : SpanWithin ts fault.span
  overflow : fault.code = .literalOverflow → ∃ us t negative, Nested ts us ∧ OutOfRange us t negative fault

theorem SyntaxFault.Placed.outer {ts us : List Token} {fault : SyntaxFault} (outer : Nested ts us) (placed : fault.Placed us) :
    fault.Placed ts where
  real := placed.real
  span := placed.span.outer outer
  overflow code := by
    obtain ⟨vs, t, negative, inner, number⟩ := placed.overflow code
    exact ⟨vs, t, negative, outer.trans inner, number⟩

/-- The tokens that lexing gives: they end with the end, and numbers have digits. -/
structure WellLexed (ts : List Token) : Prop where
  ended : ∃ t ∈ ts.getLast?, t.kind = .eof
  ints : ∀ t ∈ ts, t.kind = .literal .int → ∃ kind v, SpellsInteger t.text kind v
  floats : ∀ t ∈ ts, t.kind = .literal .float → t.text.filter (· ≠ 95) ≠ []

/-- A token of this kind is not the end, so another one stands behind it. -/
class TokenKind.Inner (k : TokenKind) : Prop where
  more : k ≠ .eof

instance : TokenKind.ident.Inner :=
  ⟨by simp⟩

instance (s : Symbol) : (TokenKind.symbol s).Inner :=
  ⟨by simp⟩

instance (w : Keyword) : (TokenKind.keyword w).Inner :=
  ⟨by simp⟩

instance (l : LiteralKind) : (TokenKind.literal l).Inner :=
  ⟨by simp⟩

/-! ## What tokens weigh -/

theorem tokenWeight_eq (t : Token) : tokenWeight t = 1 + partsWeight t.parts := by
  cases t
  rfl

theorem tokenWeight_pos (t : Token) : 0 < tokenWeight t := by
  rw [tokenWeight_eq]
  omega

theorem tokensWeight_append (ts us : List Token) : tokensWeight (ts ++ us) = tokensWeight ts + tokensWeight us := by
  induction ts with
  | nil => rw [List.nil_append, tokensWeight, Nat.zero_add]
  | cons t ts ih => rw [List.cons_append, tokensWeight, tokensWeight, ih, Nat.add_assoc]

theorem length_le_tokensWeight (ts : List Token) : ts.length ≤ tokensWeight ts := by
  induction ts with
  | nil => exact Nat.zero_le _
  | cons t ts ih =>
    have := tokenWeight_pos t
    rw [List.length_cons, tokensWeight]
    omega

theorem tokensWeight_le_of_suffix (suffix : ts <:+ us) : tokensWeight ts ≤ tokensWeight us := by
  obtain ⟨front, rfl⟩ := suffix
  rw [tokensWeight_append]
  exact Nat.le_add_left _ _

theorem tokensWeight_lt_of_hole {part : TemplatePart} {hole : TemplateHole} (mem : part ∈ t.parts)
    (same : part.hole = some hole) : tokensWeight hole.tokens < tokenWeight t := by
  obtain ⟨tokens, span⟩ := hole
  have among : ∀ parts : List TemplatePart, part ∈ parts → tokensWeight tokens ≤ partsWeight parts := by
    intro parts
    induction parts with
    | nil => exact nofun
    | cons p rest ih =>
      obtain ⟨text, inside⟩ := p
      rw [partsWeight, List.mem_cons]
      rintro (rfl | later)
      · cases same
        exact Nat.le_add_right _ _
      · exact Nat.le_trans (ih later) (Nat.le_add_left _ _)
  rw [tokenWeight_eq]
  exact Nat.lt_of_le_of_lt (among t.parts mem) (by omega)

/-- Of two ends of a list, the one that weighs less is shorter. -/
theorem length_lt_of_tokensWeight_lt {vs : List Token} (first : us <:+ ts) (second : vs <:+ ts)
    (lighter : tokensWeight us < tokensWeight vs) : us.length < vs.length := by
  by_contra longer
  have inside : vs <:+ us := List.suffix_of_suffix_length_le second first (Nat.le_of_not_lt longer)
  exact absurd (tokensWeight_le_of_suffix inside) (Nat.not_le.mpr lighter)

/-! ## Parsers that go through a list -/

/-- A place in a list: its last tokens, after a token of the list or at its start. -/
structure Spot (ts : List Token) (s : ParserState) : Prop where
  suffix : s.rest <:+ ts
  more : s.rest ≠ []
  prev : s.rest = ts ∨ ∃ t ∈ ts, s.prev = t.span

theorem Spot.next {s : ParserState} (spot : Spot ts s) :
    ∃ t rest, s.rest = t :: rest ∧ t ∈ ts ∧ s.next = t.kind ∧ Parse.peek s = .ok (t, s) := by
  obtain ⟨rest, prev⟩ := s
  cases rest with
  | nil => exact absurd rfl spot.more
  | cons t rest => exact ⟨t, rest, rfl, spot.suffix.mem List.mem_cons_self, rfl, rfl⟩

/-- Behind a token that is not the end stands another one. -/
theorem Spot.taken (lexed : WellLexed ts) {rest : List Token} {prev : Span}
    (spot : Spot ts ⟨t :: rest, prev⟩) (more : t.kind ≠ .eof) : Spot ts ⟨rest, t.span⟩ where
  suffix := (List.suffix_cons t rest).trans spot.suffix
  more := by
    rintro rfl
    obtain ⟨last, found, ended⟩ := lexed.ended
    obtain ⟨front, whole⟩ := spot.suffix
    rw [← whole, List.getLast?_concat] at found
    cases found
    exact more ended
  prev := .inr ⟨t, spot.suffix.mem List.mem_cons_self, rfl⟩

namespace Parse

/-- From every place of a list where no more than `n` tokens are left and the next one is of a kind in `K`: what the parser gives is
as it should be, and it has taken no less than `d` tokens for it; or else it stops at a fault with a place in the list. -/
def Goes {α : Type} (ts : List Token) (n : Nat) (K : TokenKind → Prop) (p : Parse α) (d : α → Nat) (post : α → Prop) : Prop :=
  ∀ s, Spot ts s → tokensWeight s.rest ≤ n → K s.next →
    match p s with
    | .ok (a, s') => Spot ts s' ∧ tokensWeight s'.rest + d a ≤ tokensWeight s.rest ∧ post a
    | .error fault => fault.Placed ts

def anyKind (_ : TokenKind) : Prop :=
  True

section

variable {α β σ : Type} {ts : List Token} {n : Nat} {K : TokenKind → Prop} {p : Parse α} {f : α → Parse β} {d d₁ : α → Nat}
  {d₂ : β → Nat} {post post' : α → Prop} {after : β → Prop}
variable {m : Nat} {a : α} {k : TokenKind}

/-- Where less is left, or the next token is better known. -/
theorem Goes.at {K' : TokenKind → Prop} (goes : Goes ts n K p d post) (fewer : m ≤ n) (kinds : ∀ k, K' k → K k) :
    Goes ts m K' p d post :=
  fun s spot left kind => goes s spot (Nat.le_trans left fewer) (kinds _ kind)

theorem Goes.le (goes : Goes ts n K p d post) (fewer : m ≤ n) : Goes ts m K p d post :=
  goes.at fewer fun _ => id

theorem Goes.when {K' : TokenKind → Prop} (goes : Goes ts n anyKind p d post) : Goes ts n K' p d post :=
  goes.at (Nat.le_refl n) fun _ _ => trivial

theorem Goes.weaken {d' : α → Nat} (goes : Goes ts n K p d post) (fewer : ∀ a, d' a ≤ d a) (weaker : ∀ a, post a → post' a) :
    Goes ts n K p d' post' := by
  intro s spot left kind
  have done := goes s spot left kind
  split at done
  · next a s' run =>
    obtain ⟨spot', taken, holds⟩ := done
    have := fewer a
    exact ⟨spot', by omega, weaker a holds⟩
  · exact done

/-- A place has a token left. -/
theorem goes_zero : Goes ts 0 K p d post := by
  intro s spot left kind
  have := List.length_pos_of_ne_nil spot.more
  have := length_le_tokensWeight s.rest
  omega

theorem Goes.doneAt (holds : post a) (nothing : d a = 0) : Goes ts n K (pure a) d post :=
  fun _ spot _ _ => ⟨spot, by rw [nothing]; exact Nat.le_refl _, holds⟩

theorem Goes.done (holds : post a) : Goes ts n K (pure a) (fun _ => 0) post :=
  .doneAt holds rfl

theorem goes_throw {fault : SyntaxFault} (placed : fault.Placed ts) : Goes ts n K (throw fault) d post :=
  fun _ _ _ _ => placed

/-- One parser and then another, which finds less left and has to take less. -/
theorem Goes.andThen (first : Goes ts n K p d₁ post) (left : ∀ a (s s' : Nat), s ≤ n → s' + d₁ a ≤ s → s' ≤ m)
    (rest : ∀ a, post a → Goes ts m anyKind (f a) (fun b => d₂ b - d₁ a) after) : Goes ts n K (p >>= f) d₂ after := by
  intro s spot enough kind
  have one := first s spot enough kind
  split at one
  · next a s' run =>
    obtain ⟨spot', taken, holds⟩ := one
    have two := rest a holds s' spot' (left a _ _ enough taken) trivial
    rw [bind_of_ok run]
    split at two
    · next b s'' run' =>
      obtain ⟨spot'', taken', holds'⟩ := two
      dsimp only at taken'
      exact ⟨spot'', by omega, holds'⟩
    · exact two
  · next fault run =>
    rw [bind_of_error run]
    exact one

/-- One parser and then another. -/
theorem Goes.and (first : Goes ts n K p d₁ post) (rest : ∀ a, post a → Goes ts n anyKind (f a) (fun b => d₂ b - d₁ a) after) :
    Goes ts n K (p >>= f) d₂ after :=
  first.andThen (fun _ _ _ enough taken => by omega) rest

/-- One parser that takes a token, and then another. -/
theorem Goes.take (first : Goes ts (n + 1) K p (fun _ => 1) post)
    (rest : ∀ a, post a → Goes ts n anyKind (f a) (fun b => d₂ b - 1) after) : Goes ts (n + 1) K (p >>= f) d₂ after :=
  first.andThen (fun _ _ _ enough taken => by omega) rest

/-- One parser that may take nothing, and then another. -/
theorem Goes.pass (first : Goes ts n K p (fun _ => 0) post) (rest : ∀ a, post a → Goes ts n anyKind (f a) d₂ after) :
    Goes ts n K (p >>= f) d₂ after :=
  first.and rest

/-- One parser that takes all that has to be taken, and then another. -/
theorem Goes.on (first : Goes ts n K p d₁ post) (rest : ∀ a, post a → Goes ts n anyKind (f a) (fun _ => 0) after)
    (enough : ∀ a b, d₂ b ≤ d₁ a) : Goes ts n K (p >>= f) d₂ after :=
  first.and fun a holds => (rest a holds).weaken (fun b => by rw [Nat.sub_eq_zero_of_le (enough a b)]) fun _ => id

/-- One parser that takes a token where no more has to be taken, and then another. -/
theorem Goes.takeOn (first : Goes ts (n + 1) K p (fun _ => 1) post)
    (rest : ∀ a, post a → Goes ts n anyKind (f a) (fun _ => 0) after) (enough : ∀ b, d₂ b ≤ 1) :
    Goes ts (n + 1) K (p >>= f) d₂ after :=
  first.take fun a holds => (rest a holds).weaken (fun b => by rw [Nat.sub_eq_zero_of_le (enough b)]) fun _ => id

/-- Something that is there already, when nothing has to be taken any more. -/
theorem Goes.thusAt (post : α → Prop) (holds : post a) (rest : ∀ a, post a → Goes ts n anyKind (f a) (fun _ => 0) after)
    (nothing : ∀ b, d₂ b = 0) : Goes ts n K (pure a >>= f) d₂ after :=
  (rest a holds).when.weaken (fun b => by rw [nothing b]) fun _ => id

/-- Something that is there already, when nothing has to be taken at all. -/
theorem Goes.thus (post : α → Prop) (holds : post a) (rest : ∀ a, post a → Goes ts n anyKind (f a) (fun _ => 0) after) :
    Goes ts n K (pure a >>= f) (fun _ => 0) after :=
  (rest a holds).when

theorem Goes.map {m : α → β} (goes : Goes ts n K p d post) (fewer : ∀ a, d₂ (m a) ≤ d a) (holds : ∀ a, post a → after (m a)) :
    Goes ts n K (m <$> p) d₂ after := by
  have shape : m <$> p = p >>= fun a => pure (m a) := rfl
  rw [shape]
  refine goes.and fun a one => .doneAt (holds a one) ?_
  exact Nat.sub_eq_zero_of_le (fewer a)

theorem Goes.some {d₂ : Option α → Nat} (goes : Goes ts n K p d post) (fewer : ∀ a, d₂ (some a) ≤ d a) :
    Goes ts n K (some <$> p) d₂ fun o => ∀ a ∈ o, post a := by
  refine goes.map fewer fun a holds b same => ?_
  cases same
  exact holds

/-- One of two. -/
theorem Goes.dite {c : Prop} [Decidable c] {q : Parse α} (yes : c → Goes ts n K p d post) (no : ¬c → Goes ts n K q d post) :
    Goes ts n K (if c then p else q) d post := by
  split
  · next holds => exact yes holds
  · next fails => exact no fails

/-- One of two, whichever it is. -/
theorem Goes.ite {c : Prop} [Decidable c] {q : Parse α} (yes : Goes ts n K p d post) (no : Goes ts n K q d post) :
    Goes ts n K (if c then p else q) d post :=
  .dite (fun _ => yes) fun _ => no

/-- Nothing comes after a fault. -/
theorem goes_stops {fault : SyntaxFault} (placed : fault.Placed ts) : Goes ts n K ((throw fault : Parse α) >>= f) d₂ after :=
  fun _ _ _ _ => placed

/-! ### Looking -/

/-- A parser that only looks, and then another. -/
theorem Goes.look (K' : α → TokenKind → Prop)
    (looks : ∀ s, Spot ts s → tokensWeight s.rest ≤ n → K s.next →
      ∃ a, p s = .ok (a, s) ∧ K' a s.next ∧ Goes ts n (K' a) (f a) d₂ after) :
    Goes ts n K (p >>= f) d₂ after := by
  intro s spot enough kind
  obtain ⟨a, run, kind', rest⟩ := looks s spot enough kind
  rw [bind_of_ok run]
  exact rest s spot enough kind'

theorem Goes.peek {f : Token → Parse β} (rest : ∀ t ∈ ts, tokenWeight t ≤ n → K t.kind → Goes ts n (· = t.kind) (f t) d₂ after) :
    Goes ts n K (Parse.peek >>= f) d₂ after := by
  refine .look (fun t => (· = t.kind)) fun s spot enough kind => ?_
  obtain ⟨t, others, front, mem, next, run⟩ := spot.next
  have light : tokenWeight t ≤ n := by
    rw [front, tokensWeight] at enough
    omega
  exact ⟨t, run, next, rest t mem light (next ▸ kind)⟩

theorem Goes.nextKind {f : TokenKind → Parse β} (rest : ∀ k, K k → Goes ts n (· = k) (f k) d₂ after) :
    Goes ts n K (Parse.nextKind >>= f) d₂ after := by
  refine .look (fun k => (· = k)) fun s spot _ kind => ?_
  obtain ⟨t, others, front, mem, next, run⟩ := spot.next
  exact ⟨t.kind, bind_of_ok run, next, rest t.kind (next ▸ kind)⟩

theorem Goes.here {f : Span → Parse β} (rest : ∀ t ∈ ts, Goes ts n K (f t.span) d₂ after) :
    Goes ts n K (Parse.here >>= f) d₂ after := by
  refine .look (fun _ => K) fun s spot _ kind => ?_
  obtain ⟨t, others, front, mem, next, run⟩ := spot.next
  exact ⟨t.span, bind_of_ok run, kind, rest t mem⟩

theorem Goes.at? {f : Bool → Parse β} (yes : K k → Goes ts n (· = k) (f true) d₂ after)
    (no : Goes ts n (fun k' => K k' ∧ k' ≠ k) (f false) d₂ after) : Goes ts n K (Parse.at? k >>= f) d₂ after := by
  refine .look (fun b k' => if b then k' = k else K k' ∧ k' ≠ k) fun s spot _ kind => ?_
  obtain ⟨t, others, front, mem, next, run⟩ := spot.next
  have here : Parse.at? k s = .ok (decide (t.kind = k), s) := by
    have asks : Parse.nextKind s = .ok (t.kind, s) := bind_of_ok run
    exact bind_of_ok asks
  rw [next] at kind ⊢
  by_cases same : t.kind = k
  · rw [decide_eq_true same] at here
    exact ⟨true, here, same, yes (same ▸ kind)⟩
  · rw [decide_eq_false same] at here
    exact ⟨false, here, ⟨kind, same⟩, no⟩

/-- Whatever the next token is. -/
theorem Goes.whether {f : Bool → Parse β} (rest : ∀ b, Goes ts n K (f b) d₂ after) :
    Goes ts n K (Parse.at? k >>= f) d₂ after :=
  .at? (fun holds => (rest true).at (Nat.le_refl n) fun _ same => same ▸ holds)
    ((rest false).at (Nat.le_refl n) fun _ => And.left)

theorem Goes.ifAt {q r : Parse β} (yes : Goes ts n (· = k) q d₂ after)
    (no : Goes ts n (fun k' => K k' ∧ k' ≠ k) r d₂ after) :
    Goes ts n K (Parse.at? k >>= fun b => if b = true then q else r) d₂ after :=
  .at? (fun _ => yes) no

theorem Goes.unlessAt {q r : Parse β} (yes : Goes ts n (· = k) q d₂ after)
    (no : Goes ts n (fun k' => K k' ∧ k' ≠ k) r d₂ after) :
    Goes ts n K (Parse.at? k >>= fun b => if (!b) = true then r else q) d₂ after :=
  .at? (fun _ => yes) no

theorem Goes.kindAt {i : Nat} {f : TokenKind → Parse β} (rest : ∀ k, Goes ts n K (f k) d₂ after) :
    Goes ts n K (Parse.kindAt i >>= f) d₂ after :=
  .look (fun _ => K) fun _ _ _ kind => ⟨_, rfl, kind, rest _⟩

theorem Goes.get {f : ParserState → Parse β} (rest : ∀ s, Goes ts n K (f s) d₂ after) :
    Goes ts n K (MonadState.get >>= f) d₂ after :=
  .look (fun _ => K) fun s _ _ kind => ⟨s, rfl, kind, rest s⟩

theorem Goes.spanFrom {start : Token} {f : Span → Parse β} (mem : start ∈ ts) (taken : n < tokensWeight ts)
    (rest : ∀ s, SpanOf ts s → Goes ts n K (f s) d₂ after) : Goes ts n K (Parse.spanFrom start.span >>= f) d₂ after := by
  refine .look (fun _ => K) fun s spot enough kind => ⟨_, rfl, kind, rest _ ?_⟩
  rcases spot.prev with whole | ⟨t, mem', same⟩
  · rw [whole] at enough
    omega
  · rw [same]
    exact ⟨start, mem, t, mem', rfl⟩

/-- The span of something whose span does not matter. -/
theorem Goes.anySpan {start : Span} {f : Span → Parse β} (rest : ∀ s, Goes ts n K (f s) d₂ after) :
    Goes ts n K (Parse.spanFrom start >>= f) d₂ after :=
  .look (fun _ => K) fun _ _ _ kind => ⟨_, rfl, kind, rest _⟩

end

/-! ### Taking -/

section

variable {α β σ : Type} {ts : List Token} {n : Nat} {K : TokenKind → Prop} {p : Parse α} {d : α → Nat} {post : α → Prop}
  (lexed : WellLexed ts)
variable {k : TokenKind} {d₂ : β → Nat} {after : β → Prop}

theorem placed_expected {t : Token} (mem : t ∈ ts) (wanted : List String) : (SyntaxFault.expected wanted t).Placed ts where
  real := nofun
  span := (spanOf_token mem).within
  overflow := nofun

theorem goes_failExpected {wanted : List String} : Goes ts n K (failExpected wanted : Parse α) d post :=
  .peek fun _ mem _ _ => goes_throw (placed_expected mem wanted)

theorem goes_misses {wanted : List String} {f : α → Parse β} {d : β → Nat} {post : β → Prop} :
    Goes ts n K ((failExpected wanted : Parse α) >>= f) d post :=
  have nothing : Goes ts n K (failExpected wanted : Parse α) (fun _ => 0) fun _ => False := goes_failExpected
  nothing.and fun _ => False.elim

include lexed

/-- The end stays where it is, and everything else is taken. -/
theorem goes_advance (more : ∀ k, K k → k ≠ .eof) : Goes ts n K advance (fun _ => 1) fun t => t ∈ ts ∧ K t.kind := by
  rintro ⟨rest, prev⟩ spot enough kind
  obtain ⟨t, others, front, mem, next, -⟩ := spot.next
  cases front
  rw [next] at kind
  rw [advance_cons (more _ kind)]
  refine ⟨spot.taken lexed (more _ kind), ?_, mem, kind⟩
  have := tokenWeight_pos t
  dsimp only
  rw [tokensWeight]
  omega

/-- A token is taken that was looked at. -/
theorem goes_advance_kind {t : Token} (same : t.kind = k) [k.Inner] :
    Goes ts n (· = t.kind) advance (fun _ => 1) fun u => u ∈ ts ∧ u.kind = k := by
  refine (goes_advance lexed fun _ eq => (eq.trans same).trans_ne TokenKind.Inner.more).weaken (fun _ => Nat.le_refl _) fun u => ?_
  exact fun ⟨mem, eq⟩ => ⟨mem, eq.trans same⟩

theorem goes_advance_any : Goes ts n K advance (fun _ => 0) fun t => t ∈ ts := by
  intro s spot enough kind
  obtain ⟨t, rest, front, mem, next, run⟩ := spot.next
  by_cases ended : t.kind = .eof
  · have stays : advance s = .ok (t, s) := by
      rw [advance, bind_of_ok run, if_neg (not_not.mpr ended)]
      rfl
    rw [stays]
    exact ⟨spot, Nat.le_refl _, mem⟩
  · have goes := goes_advance lexed (n := n) (K := (· ≠ .eof)) (fun _ => id) s spot enough (next ▸ ended)
    split at goes
    · next a s' run =>
      obtain ⟨spot', taken, mem', -⟩ := goes
      exact ⟨spot', Nat.le_of_succ_le taken, mem'⟩
    · exact goes

theorem Goes.accept {f : Bool → Parse β}
    (yes : Goes ts n anyKind (f true) (fun b => d₂ b - 1) after) (no : Goes ts n (fun k' => K k' ∧ k' ≠ k) (f false) d₂ after) [k.Inner] :
    Goes ts n K (Parse.accept k >>= f) d₂ after := by
  have shape : Parse.accept k >>= f = Parse.at? k >>= fun b => if b = true then advance >>= fun _ => f true else f false := by
    rw [Parse.accept, bind_assoc]
    refine congrArg _ (funext fun b => ?_)
    cases b <;> simp
  rw [shape]
  exact .ifAt ((goes_advance lexed fun _ same => same.trans_ne TokenKind.Inner.more).and fun _ _ => yes) no

theorem Goes.ifAccept {q r : Parse β}
    (yes : Goes ts n anyKind q (fun b => d₂ b - 1) after) (no : Goes ts n (fun k' => K k' ∧ k' ≠ k) r d₂ after) [k.Inner] :
    Goes ts n K (Parse.accept k >>= fun b => if b = true then q else r) d₂ after :=
  .accept lexed yes no

theorem Goes.unlessAccept {q r : Parse β}
    (yes : Goes ts n anyKind q (fun b => d₂ b - 1) after) (no : Goes ts n (fun k' => K k' ∧ k' ≠ k) r d₂ after) [k.Inner] :
    Goes ts n K (Parse.accept k >>= fun b => if (!b) = true then r else q) d₂ after :=
  .accept lexed yes no

theorem goes_accept : Goes ts n K (accept k) (fun _ => 0) fun _ => True :=
  .ifAt ((goes_advance_any lexed).and fun _ _ => .done trivial) (.done trivial)

theorem goes_expect [k.Inner] : Goes ts n K (expect k) (fun _ => 1) fun t => t ∈ ts ∧ t.kind = k := by
  refine .ifAt ?_ goes_failExpected
  refine (goes_advance lexed fun _ same => same.trans_ne TokenKind.Inner.more).weaken (fun _ => Nat.le_refl _) fun _ => id

theorem goes_expect_any : Goes ts n K (expect k) (fun _ => 0) fun t => t ∈ ts :=
  .ifAt (goes_advance_any lexed) goes_failExpected

theorem goes_expectSymbol {s : Symbol} : Goes ts n K (expectSymbol s) (fun _ => 1) fun _ => True :=
  (goes_expect (k := .symbol s) lexed).and fun _ _ => .done trivial

theorem goes_expectIdent {what : String} : Goes ts n K (expectIdent what) (fun _ => 1) fun t => t ∈ ts := by
  refine .ifAt ?_ goes_failExpected
  exact (goes_advance lexed fun _ same => same.trans_ne nofun).weaken (fun _ => Nat.le_refl _) fun _ => And.left

theorem goes_expectWord {what : String} : Goes ts n K (expectWord what) (fun _ => 1) fun t => t ∈ ts := by
  refine .nextKind fun k _ => .dite (fun word => ?_) fun _ => goes_failExpected
  have more : k ≠ .eof := by
    rintro rfl
    cases word
  exact (goes_advance lexed fun _ same => same.trans_ne more).weaken (fun _ => Nat.le_refl _) fun _ => And.left

/-! ### Repetition -/

omit lexed in
/-- A round that does not end a repetition takes a token. -/
def roundTakes : σ ⊕ α → Nat :=
  Sum.elim (fun _ => 1) fun _ => 0

omit lexed in
theorem roundTakes_le (r : σ ⊕ α) : roundTakes r ≤ 1 := by
  cases r
  · exact Nat.le_refl 1
  · exact Nat.zero_le 1

omit lexed in
theorem goes_repeatStep {step : σ → Parse (σ ⊕ α)} (kept : σ → Prop)
    (turn : ∀ c, kept c → Goes ts n anyKind (step c) roundTakes (Round kept post)) {c : σ} (start : kept c) :
    Goes ts n K (repeatStep step c) (fun _ => 0) post := by
  have rounds : ∀ count c s, kept c → Spot ts s → tokensWeight s.rest ≤ n → s.rest.length < count →
      match iterate step count c s with
      | .ok (a, s') => Spot ts s' ∧ tokensWeight s'.rest ≤ tokensWeight s.rest ∧ post a
      | .error fault => fault.Placed ts := by
    intro count
    induction count with
    | zero => exact fun _ _ _ _ _ short => absurd short (Nat.not_lt_zero _)
    | succ count ih =>
      intro c s start spot enough short
      have one := turn c start s spot enough trivial
      have looks : (MonadState.get : Parse ParserState) s = .ok (s, s) := rfl
      rw [iterate, bind_of_ok looks]
      split at one
      · next r s' run =>
        obtain ⟨spot', taken, holds⟩ := one
        rw [bind_of_ok run]
        cases r with
        | inl c' =>
          have fewer : s'.rest.length < s.rest.length := length_lt_of_tokensWeight_lt spot'.suffix spot.suffix taken
          have looks' : (MonadState.get : Parse ParserState) s' = .ok (s', s') := rfl
          have others := ih c' s' holds spot' (by omega) (by omega)
          dsimp only
          rw [bind_of_ok looks', if_pos fewer]
          split at others
          · exact ⟨others.1, by have := others.2.1; omega, others.2.2⟩
          · exact others
        | inr a => exact ⟨spot', taken, holds⟩
      · next fault run =>
        rw [bind_of_error run]
        exact one
  intro s spot enough _
  have looks : (MonadState.get : Parse ParserState) s = .ok (s, s) := rfl
  rw [repeatStep, bind_of_ok looks]
  exact rounds _ c s start spot enough (Nat.lt_succ_self _)

theorem goes_commaList {close : Symbol} (item : Goes ts n anyKind p (fun _ => 1) post) :
    Goes ts n K (commaList close p) (fun _ => 0) fun xs => ∀ x ∈ xs, post x := by
  refine goes_repeatStep (fun xs => ∀ x ∈ xs, post x) (fun xs each => ?_) nofun
  refine .ifAccept lexed (.done fun x mem => each x (List.mem_reverse.mp mem)) ?_
  refine item.when.and fun x holds => ?_
  have more : ∀ y ∈ x :: xs, post y := List.forall_mem_cons.mpr ⟨holds, each⟩
  exact .ifAccept lexed (.done more) ((goes_expectSymbol lexed).and fun _ _ => .done fun y mem => more y (List.mem_reverse.mp mem))

theorem goes_commaSeparated (item : Goes ts n anyKind p (fun _ => 1) post) :
    Goes ts n K (commaSeparated p) (fun _ => 0) fun xs => ∀ x ∈ xs, post x := by
  refine goes_repeatStep (fun xs => ∀ x ∈ xs, post x) (fun xs each => ?_) nofun
  refine item.and fun x holds => ?_
  have more : ∀ y ∈ x :: xs, post y := List.forall_mem_cons.mpr ⟨holds, each⟩
  exact .ifAccept lexed (.done more) (.doneAt (fun y mem => more y (List.mem_reverse.mp mem)) rfl)

/-! ### Holes -/

omit lexed in
theorem spot_start {us : List Token} (lexed : WellLexed us) : Spot us ⟨us, {}⟩ where
  suffix := List.suffix_rfl
  more := by
    rintro rfl
    obtain ⟨_, none, _⟩ := lexed.ended
    cases none
  prev := .inl rfl

omit lexed in
/-- A parser that goes through the tokens of a hole leaves its own place as it is. -/
theorem goes_within {us : List Token} (inner : Nested ts us) (lexed : WellLexed us)
    (goes : Goes us (tokensWeight us) anyKind p d post) : Goes ts n K (within us p) (fun _ => 0) post := by
  intro s spot enough _
  have one := goes ⟨us, {}⟩ (spot_start lexed) (Nat.le_refl _) trivial
  have first : (MonadState.get : Parse ParserState) s = .ok (s, s) := rfl
  have second : (set (ParserState.mk us {}) : Parse PUnit) s = .ok (⟨⟩, ⟨us, {}⟩) := rfl
  rw [within, bind_of_ok first, bind_of_ok second]
  split at one
  · next a s' run =>
    rw [bind_of_ok run]
    exact ⟨spot, Nat.le_refl _, one.2.2⟩
  · next fault run =>
    rw [bind_of_error run]
    exact one.outer inner

omit lexed in
theorem goes_filterMapM {item : β → Parse (Option α)} {bs : List β}
    (each : ∀ b ∈ bs, Goes ts n anyKind (item b) (fun _ => 0) fun o => ∀ a ∈ o, post a) :
    Goes ts n anyKind (bs.filterMapM item) (fun _ => 0) fun as => ∀ a ∈ as, post a := by
  have loop : ∀ (bs : List β) (as : List α), (∀ b ∈ bs, Goes ts n anyKind (item b) (fun _ => 0) fun o => ∀ a ∈ o, post a) →
      (∀ a ∈ as, post a) → Goes ts n anyKind (List.filterMapM.loop item bs as) (fun _ => 0) fun as => ∀ a ∈ as, post a := by
    intro bs
    induction bs with
    | nil => exact fun as _ all => .done fun a mem => all a (List.mem_reverse.mp mem)
    | cons b rest ih =>
      intro as each all
      rw [List.forall_mem_cons] at each
      refine each.1.and fun o holds => ?_
      cases o with
      | none => exact ih as each.2 all
      | some a => exact ih (a :: as) each.2 (List.forall_mem_cons.mpr ⟨holds a rfl, all⟩)
  exact loop bs [] each nofun

end

end Parse

end LedgerScript
