import LedgerScript.Proofs.Parser.Nesting

/-!
# Where parsers lay their trees

A parser is judged by where the view of what it gives lies: between what was taken before and what has been taken afterwards, and
not before the token that it starts with.  The judgement `Lays` follows the steps of a rule; `Read` keeps account of what has been
read since some place, and a node is made of what was read since its first token.
-/

namespace LedgerScript

/-! ## Where parsers get to -/

/-- The last token taken before and the last one taken now. -/
structure Upto (w : Sheet) (q q' : Span) : Prop where
  file : q.file = w.file → q'.file = w.file
  start : q.start ≤ q'.start
  stop : q.stop ≤ q'.stop

theorem Upto.refl (w : Sheet) (q : Span) : Upto w q q :=
  ⟨id, Nat.le_refl _, Nat.le_refl _⟩

theorem Upto.trans {w : Sheet} {q q' q'' : Span} (first : Upto w q q') (second : Upto w q' q'') : Upto w q q'' :=
  ⟨second.file ∘ first.file, Nat.le_trans first.start second.start, Nat.le_trans first.stop second.stop⟩

/-- A place of parsing: the tokens that are left stand behind the last one taken, one behind the other, and belong to a file. -/
structure At (w : Sheet) (hi : Nat) (s : ParserState) : Prop where
  ordered : s.prev.start ≤ s.prev.stop
  laid : TokensLaid w.file s.prev.stop s.rest hi
  known : ∀ t ∈ s.rest, w.Has t
  ended : ∃ t ∈ s.rest.getLast?, t.kind = .eof

def Next (tok : Token) (s : ParserState) : Prop :=
  s.rest.head? = some tok

/-- From a token or a node on, at least one token was taken. -/
structure Settled (w : Sheet) (u : Span) (s : ParserState) : Prop where
  here : u.file = w.file
  there : s.prev.file = w.file
  ordered : u.start ≤ u.stop
  start : u.start ≤ s.prev.start
  stop : u.stop ≤ s.prev.stop

/-- What stays true when more is taken. -/
class Lasting (w : Sheet) (Δ : ParserState → Prop) : Prop where
  lasts : ∀ {s s'}, Δ s → Upto w s.prev s'.prev → Δ s'

/-- Some views lie between an offset and the last token taken; and something that lasts. -/
structure Read (w : Sheet) (Δ : ParserState → Prop) (lo : Nat) (vs : List View) (s : ParserState) : Prop where
  since : Δ s
  le : lo ≤ s.prev.stop
  each : ∀ v ∈ vs, View.Lies w lo v s.prev.stop

/-- Some views lie behind an offset. -/
abbrev From (w : Sheet) (lo : Nat) (vs : List View) : ParserState → Prop :=
  Read w (fun _ => True) lo vs

abbrev Since (w : Sheet) (u : Span) (vs : List View) : ParserState → Prop :=
  Read w (Settled w u) u.start vs

instance {w : Sheet} {c : Prop} : Lasting w fun _ => c :=
  ⟨fun holds _ => holds⟩

instance {w : Sheet} {Δ Δ' : ParserState → Prop} [Lasting w Δ] [Lasting w Δ'] : Lasting w fun s => Δ s ∧ Δ' s :=
  ⟨fun both upto => ⟨Lasting.lasts both.1 upto, Lasting.lasts both.2 upto⟩⟩

instance {w : Sheet} {u : Span} : Lasting w (Settled w u) :=
  ⟨fun settled upto => ⟨settled.here, upto.file settled.there, settled.ordered, Nat.le_trans settled.start upto.start,
    Nat.le_trans settled.stop upto.stop⟩⟩

instance {w : Sheet} {Δ : ParserState → Prop} {lo : Nat} {vs : List View} [Lasting w Δ] : Lasting w (Read w Δ lo vs) :=
  ⟨fun read upto => ⟨Lasting.lasts read.since upto, Nat.le_trans read.le upto.stop,
    fun v mem => (read.each v mem).mono (Nat.le_refl lo) upto.stop⟩⟩

namespace Read

variable {w : Sheet} {Δ : ParserState → Prop} {lo : Nat} {vs vs' : List View} {s : ParserState} {v : View} {name : String}
  {span : Option Span} {fields : List (String × View)}

theorem leaf (read : Read w Δ lo vs s) (nothing : v.isLeaf = true) : Read w Δ lo (v :: vs) s :=
  ⟨read.since, read.le, List.forall_mem_cons.mpr ⟨View.lies_leaf nothing, read.each⟩⟩

theorem sub (read : Read w Δ lo vs s) (fewer : ∀ v ∈ vs', v ∈ vs) : Read w Δ lo vs' s :=
  ⟨read.since, read.le, fun v mem => read.each v (fewer v mem)⟩

theorem inner (read : Read w Δ lo (.node name span fields :: vs) s) : Read w Δ lo (fields.map (·.2) ++ vs) s := by
  obtain ⟨node, others⟩ := List.forall_mem_cons.mp read.each
  refine ⟨read.since, read.le, List.forall_mem_append.mpr ⟨fun v mem => ?_, others⟩⟩
  obtain ⟨field, field_mem, rfl⟩ := List.mem_map.mp mem
  exact node.inner field field_mem

theorem single (read : Read w Δ lo (v :: vs) s) : Read w Δ lo [.list [v]] s :=
  ⟨read.since, read.le, List.forall_mem_singleton.mpr (read.each _ List.mem_cons_self).singleton⟩

theorem part (read : Read w Δ lo vs s) (covered : View.Covered vs fields) : Read w Δ lo [.node name none fields] s :=
  ⟨read.since, read.le, List.forall_mem_singleton.mpr (.part (covered.each read.each))⟩

end Read

/-- A span reaches from where a token or a node started to the last token taken. -/
structure Spanned (w : Sheet) (u span : Span) (vs : List View) (s : ParserState) : Prop where
  read : Since w u vs s
  same : span = ⟨w.file, u.start, s.prev.stop⟩

section

variable {w : Sheet} {u span : Span} {vs : List View} {s : ParserState} {name name' : String}
  {fields fields' : List (String × View)}

theorem Settled.cover (settled : Settled w u s) : u.cover s.prev = ⟨w.file, u.start, s.prev.stop⟩ := by
  rw [Span.cover, if_pos (settled.here.trans settled.there.symm), settled.here, Nat.min_eq_left settled.start,
    Nat.max_eq_right settled.stop]

theorem Spanned.node (spanned : Spanned w u span vs s) (fits : name ≠ "TemplateLit" ∧ View.Covered vs fields) :
    Since w u [View.at' name span fields] s := by
  obtain ⟨read, rfl⟩ := spanned
  obtain ⟨plain, covered⟩ := fits
  refine ⟨read.since, read.le, List.forall_mem_singleton.mpr ?_⟩
  exact .node rfl (Nat.le_refl _) read.le (Nat.le_refl _) (covered.each read.each) fun same => absurd same plain

/-- A node of all that was read, as an item. -/
theorem Spanned.item (spanned : Spanned w u span vs s) (fits : name ≠ "TemplateLit" ∧ View.Covered vs fields) :
    Since w u [.list [View.at' name span fields]] s :=
  (spanned.node fits).single

/-- A node that has only its first token. -/
theorem Read.token (read : Since w u vs s) (fits : name ≠ "TemplateLit" ∧ View.Covered [] fields) :
    Since w u [View.at' name u fields] s := by
  obtain ⟨plain, covered⟩ := fits
  refine ⟨read.since, read.le, List.forall_mem_singleton.mpr ?_⟩
  exact .node read.since.here (Nat.le_refl _) read.since.ordered read.since.stop (covered.each nofun)
    fun same => absurd same plain

/-- A node of the same span around another one. -/
theorem Read.wrap {Δ : ParserState → Prop} {lo : Nat} {v : View} (read : Read w Δ lo (v :: vs) s)
    (same : v = View.at' name span fields) (fits : name' ≠ "TemplateLit" ∧ View.Covered [v] fields') :
    Read w Δ lo [View.at' name' span fields'] s :=
  ⟨read.since, read.le, List.forall_mem_singleton.mpr ((read.each _ List.mem_cons_self).wrap same fits.2 fits.1)⟩

/-- The span of a node that was started with reaches to the last token taken. -/
theorem Read.respan (read : Since w u (View.at' name span fields :: vs) s) (start : span.start = u.start) :
    Spanned w u (span.cover s.prev) (fields.map (·.2) ++ vs) s := by
  obtain ⟨here, _, ordered, stop, _⟩ := (read.each _ List.mem_cons_self).exact
  have settled : Settled w span s := ⟨here, read.since.there, ordered, start ▸ read.since.start, stop⟩
  exact ⟨read.inner, by rw [settled.cover, start]⟩

end

theorem At.next {w : Sheet} {hi : Nat} {s : ParserState} (place : At w hi s) : ∃ tok rest, s.rest = tok :: rest := by
  obtain ⟨last, found, -⟩ := place.ended
  cases left : s.rest with
  | nil =>
    rw [left] at found
    cases found
  | cons tok rest => exact ⟨tok, rest, rfl⟩

/-- The next token stands behind the last one taken. -/
theorem At.behind {w : Sheet} {hi : Nat} {s : ParserState} {tok : Token} (place : At w hi s) (next : Next tok s) :
    tok.span.file = w.file ∧ s.prev.stop ≤ tok.span.start ∧ tok.span.start ≤ tok.span.stop ∧ w.Has tok := by
  obtain ⟨tok', rest, left⟩ := place.next
  have laid := place.laid
  have known := place.known
  rw [Next, left] at next
  cases next
  rw [left] at laid known
  cases laid with
  | cons here behind ordered => exact ⟨here, behind, ordered, known tok List.mem_cons_self⟩

/-- Behind a token that is not the end stands another one. -/
theorem At.taken {w : Sheet} {hi : Nat} {tok : Token} {rest : List Token} {prev : Span} (place : At w hi ⟨tok :: rest, prev⟩)
    (more : tok.kind ≠ .eof) : At w hi ⟨rest, tok.span⟩ := by
  obtain ⟨_, laid, known, last, found, ended⟩ := place
  cases laid with
  | cons _ _ ordered laid =>
    refine ⟨ordered, laid, fun t mem => known t (List.mem_cons_of_mem _ mem), last, ?_, ended⟩
    cases rest with
    | nil =>
      cases found
      exact absurd ended more
    | cons => exact found

namespace Parse

/-! ## Judging parsers -/

/-- From every place where something holds, a parser gets to a place behind it, and what it gives and this place are as they
should be. -/
def Lays {α : Type} (w : Sheet) (Γ : ParserState → Prop) (p : Parse α) (post : α → ParserState → Prop) : Prop :=
  ∀ hi s, At w hi s → Γ s → Ends p s fun a s' => At w hi s' ∧ Upto w s.prev s'.prev ∧ post a s'

/-- Nothing is known of what a parser gives. -/
abbrev Silent {α : Type} (w : Sheet) (p : Parse α) : Prop :=
  Lays w (fun _ => True) p fun _ _ => True

def Takes (w : Sheet) (p : Parse Token) : Prop :=
  ∀ tok, Lays w (Next tok) p fun t s => t = tok ∧ Since w tok.span [] s

/-- What a parser gives starts with the next token. -/
def Node {α : Type} (w : Sheet) (p : Parse α) (view : α → View) : Prop :=
  ∀ tok, Lays w (Next tok) p fun a => Since w tok.span [view a]

/-- What a parser gives lies behind everything before it. -/
def Part {α : Type} (w : Sheet) (p : Parse α) (view : α → View) : Prop :=
  ∀ lo, Lays w (From w lo []) p fun a => From w lo [view a]

class Ahead (tok : outParam Token) (Γ : ParserState → Prop) : Prop where
  next : ∀ s, Γ s → Next tok s

instance {tok : Token} : Ahead tok (Next tok) :=
  ⟨fun _ => id⟩

instance {tok : Token} {Γ : ParserState → Prop} : Ahead tok fun s => Γ s ∧ Next tok s :=
  ⟨fun _ => And.right⟩

section

variable {α β σ : Type} {w : Sheet} {Γ Γ' Δ : ParserState → Prop} {p : Parse α} {f : α → Parse β}
  {mid mid' : α → ParserState → Prop} {post : β → ParserState → Prop}

theorem Lays.done {a : α} (holds : ∀ s, Γ s → mid a s) : Lays w Γ (pure a) mid :=
  fun _ s place start => ends_pure ⟨place, .refl w _, holds s start⟩

theorem lays_throw {e : SyntaxFault} : Lays w Γ (throw e) mid :=
  fun _ _ _ _ => ends_throw e

theorem lays_failExpected {wanted : List String} : Lays w Γ (failExpected wanted) mid :=
  fun _ _ _ _ => ends_any fun _ _ => ends_throw _

theorem Lays.and (first : Lays w Γ p mid) (rest : ∀ a, Lays w (mid a) (f a) post) : Lays w Γ (p >>= f) post := by
  intro hi s place start
  refine (first hi s place start).and fun a s' ⟨place', upto, holds⟩ => ?_
  intro b s'' run
  obtain ⟨place'', upto', holds'⟩ := rest a hi s' place' holds b s'' run
  exact ⟨place'', upto.trans upto', holds'⟩

theorem lays_stops {e : SyntaxFault} : Lays w Γ ((throw e : Parse α) >>= f) post :=
  have nothing : Lays w Γ (throw e : Parse α) fun _ _ => False := lays_throw
  nothing.and fun _ _ _ _ => False.elim

theorem Lays.weaken (lays : Lays w Γ p mid) (weaker : ∀ a s, mid a s → mid' a s) : Lays w Γ p mid' := by
  intro hi s place start a s' run
  obtain ⟨place', upto, holds⟩ := lays hi s place start a s' run
  exact ⟨place', upto, weaker a s' holds⟩

/-- Where more is known. -/
theorem Lays.given (given : ∀ s, Γ' s → Γ s) (lays : Lays w Γ p mid) : Lays w Γ' p mid :=
  fun hi s place start => lays hi s place (given s start)

theorem Lays.keep [Lasting w Δ] (lays : Lays w Γ p mid) : Lays w (fun s => Γ s ∧ Δ s) p fun a s => mid a s ∧ Δ s := by
  intro hi s place start a s' run
  obtain ⟨place', upto, holds⟩ := lays hi s place start.1 a s' run
  exact ⟨place', upto, holds, Lasting.lasts start.2 upto⟩

theorem Lays.map {m : α → β} (lays : Lays w Γ p mid) (made : ∀ a s, mid a s → post (m a) s) : Lays w Γ (m <$> p) post :=
  lays.and fun a => .done (made a)

theorem Lays.ite {c : Prop} [Decidable c] {q : Parse α} (yes : Lays w Γ p mid) (no : Lays w Γ q mid) :
    Lays w Γ (if c then p else q) mid :=
  fun hi s place start => ends_ite (yes hi s place start) (no hi s place start)

theorem Lays.dite {c : Prop} [Decidable c] {q : Parse α} (yes : c → Lays w Γ p mid) (no : ¬c → Lays w Γ q mid) :
    Lays w Γ (if c then p else q) mid := by
  split
  · next holds => exact yes holds
  · next fails => exact no fails

/-- Something that is there already. -/
theorem Lays.thus {a : α} (rest : Lays w Γ (f a) post) : Lays w Γ (pure a >>= f) post :=
  rest

/-- What is not looked at. -/
theorem Lays.pass [Lasting w Γ] (first : Silent w p) (rest : ∀ a, Lays w Γ (f a) post) : Lays w Γ (p >>= f) post := by
  have kept : Lays w (fun s => True ∧ Γ s) p fun _ s => True ∧ Γ s := first.keep
  exact (kept.given fun _ holds => ⟨trivial, holds⟩).and fun a => (rest a).given fun _ => And.right

/-! ### Looking -/

/-- A parser that stays where it is. -/
theorem Lays.look (looks : ∀ s, Ends p s fun _ s' => s' = s) (rest : ∀ a, Lays w Γ (f a) post) : Lays w Γ (p >>= f) post := by
  intro hi s place start
  refine (looks s).and fun a s' same => ?_
  subst same
  exact rest a hi s' place start

theorem looks_next {s : ParserState} : Ends peek s fun t s' => Next t s ∧ s' = s := by
  obtain ⟨rest, prev⟩ := s
  cases rest with
  | nil => nofun
  | cons t rest =>
    intro t' s' run
    cases run
    exact ⟨rfl, rfl⟩

/-- There is always a next token. -/
theorem Lays.head (rest : ∀ tok, Lays w (fun s => Γ s ∧ Next tok s) p mid) : Lays w Γ p mid := by
  intro hi s place start
  obtain ⟨tok, others, left⟩ := place.next
  exact rest tok hi s place ⟨start, by rw [Next, left]; rfl⟩

section

variable {tok : Token} [Ahead tok Γ]

theorem Lays.peek {f : Token → Parse β} (rest : Lays w Γ (f tok) post) : Lays w Γ (Parse.peek >>= f) post := by
  intro hi s place start
  refine looks_next.and fun t s' ⟨next, same⟩ => ?_
  subst same
  obtain rfl : t = tok := Option.some.inj (next.symm.trans (Ahead.next s' start))
  exact rest hi s' place start

theorem Lays.here {f : Span → Parse β} (rest : Lays w Γ (f tok.span) post) : Lays w Γ (Parse.here >>= f) post := by
  rw [Parse.here, bind_assoc]
  exact .peek (.thus rest)

theorem Lays.nextKind {f : TokenKind → Parse β} (rest : Lays w Γ (f tok.kind) post) : Lays w Γ (Parse.nextKind >>= f) post := by
  rw [Parse.nextKind, bind_assoc]
  exact .peek (.thus rest)

theorem Lays.ifAt {k : TokenKind} {q r : Parse β} (yes : tok.kind = k → Lays w Γ q post) (no : tok.kind ≠ k → Lays w Γ r post) :
    Lays w Γ (at? k >>= fun b => if b = true then q else r) post := by
  rw [at?, bind_assoc]
  refine .nextKind (.thus ?_)
  split
  · next same => exact yes (of_decide_eq_true same)
  · next other => exact no fun same => other (decide_eq_true same)

/-- The next token belongs to the file. -/
theorem Lays.unlessAt {k : TokenKind} {q r : Parse β} (no : tok.kind ≠ k → Lays w Γ q post)
    (yes : tok.kind = k → Lays w Γ r post) : Lays w Γ (at? k >>= fun b => if (!b) = true then q else r) post := by
  rw [at?, bind_assoc]
  refine .nextKind (.thus ?_)
  by_cases same : tok.kind = k
  · rw [decide_eq_true same]
    exact yes same
  · rw [decide_eq_false same]
    exact no same

theorem Lays.known (rest : w.Has tok → Lays w Γ p mid) : Lays w Γ p mid :=
  fun hi s place start => rest (place.behind (Ahead.next s start)).2.2.2 hi s place start

end

/-! ### Taking -/

section

variable {tok : Token} {view : α → View} {vs : List View} {lo : Nat}

theorem lays_advance (more : tok.kind ≠ .eof) :
    Lays w (Next tok) advance fun t s => (t = tok ∧ s.prev = tok.span) ∧ Since w tok.span [] s := by
  rintro hi ⟨rest, prev⟩ place next t s' run
  obtain ⟨here, behind, ordered, -⟩ := place.behind next
  obtain ⟨tok', others, rfl⟩ : ∃ tok' others, rest = tok' :: others := place.next
  cases next
  rw [advance_cons more] at run
  cases run
  have upto : Upto w prev tok.span := ⟨fun _ => here, Nat.le_trans place.ordered (Nat.le_trans behind (Nat.le_refl _)),
    Nat.le_trans behind ordered⟩
  exact ⟨place.taken more, upto, ⟨rfl, rfl⟩, ⟨here, here, ordered, Nat.le_refl _, Nat.le_refl _⟩, ordered, by simp⟩

theorem Lays.advance {f : Token → Parse β} (more : tok.kind ≠ .eof) (rest : Lays w (Since w tok.span []) (f tok) post) :
    Lays w (Next tok) (Parse.advance >>= f) post := by
  refine (lays_advance more).and fun t => ?_
  intro hi s place ⟨⟨same, _⟩, since⟩
  subst same
  exact rest hi s place since

theorem Lays.taken {p : Parse Token} {f : Token → Parse β} (takes : Takes w p)
    (rest : Lays w (Since w tok.span []) (f tok) post) : Lays w (Next tok) (p >>= f) post := by
  refine (takes tok).and fun t => ?_
  intro hi s place ⟨same, since⟩
  subst same
  exact rest hi s place since

theorem takes_expect {k : TokenKind} [k.Inner] : Takes w (expect k) := by
  refine fun tok => .ifAt (fun same => ?_) fun _ => lays_failExpected
  exact (lays_advance (same.trans_ne TokenKind.Inner.more)).weaken fun _ _ both => ⟨both.1.1, both.2⟩

/-- A symbol that stands here. -/
theorem Lays.symbol {k : Symbol} {f : Unit → Parse β} (rest : Lays w (Since w tok.span []) (f ()) post) :
    Lays w (Next tok) (Parse.expectSymbol k >>= f) post := by
  rw [Parse.expectSymbol, bind_assoc]
  exact .taken takes_expect (.thus rest)

theorem Lays.ifAccept {k : TokenKind} [k.Inner] {q r : Parse β} (yes : Lays w (Since w tok.span []) q post)
    (no : Lays w (Next tok) r post) : Lays w (Next tok) (accept k >>= fun b => if b = true then q else r) post := by
  have looks : Lays w (Next tok) (accept k) fun b s => if b = true then Since w tok.span [] s else Next tok s :=
    .ifAt (fun same => .advance (same.trans_ne TokenKind.Inner.more) (.done fun _ => id)) fun _ => .done fun _ => id
  refine looks.and fun b => ?_
  cases b with
  | true => exact yes
  | false => exact no

theorem Takes.silent {p : Parse Token} (takes : Takes w p) : Silent w p :=
  .head fun tok => ((takes tok).given fun _ => And.right).weaken fun _ _ _ => trivial

theorem Silent.map {m : α → β} (silent : Silent w p) : Silent w (m <$> p) :=
  Lays.map silent fun _ _ => id

/-- Two tokens, of which the second one is of some kinds. -/
theorem Lays.pair {c : TokenKind → Bool} {f : Token → Parse β} {q : Parse β} (more : tok.kind ≠ .eof) (end_not : c .eof = false)
    (both : ∀ b, Lays w (Spanned w tok.span (tok.span.cover b.span) []) (f b) post) (other : Lays w (Next tok) q post) :
    Lays w (Next tok) (kindAt 1 >>= fun k => if c k = true then Parse.advance >>= fun _ => Parse.advance >>= f else q) post := by
  rintro hi ⟨left, prev⟩ place next
  obtain ⟨tok', rest, rfl⟩ : ∃ tok' rest, left = tok' :: rest := place.next
  cases next
  obtain ⟨place', upto, -, since⟩ := lays_advance more hi _ place rfl _ _ (advance_cons more)
  obtain ⟨b, rest', rfl⟩ : ∃ b rest', rest = b :: rest' := place'.next
  have looks : kindAt 1 ⟨tok :: b :: rest', prev⟩ = .ok (b.kind, ⟨tok :: b :: rest', prev⟩) := rfl
  intro a s' run
  rw [bind_of_ok looks] at run
  split at run
  · next holds =>
    have second : b.kind ≠ .eof := by
      intro ended
      rw [ended, end_not] at holds
      cases holds
    obtain ⟨place'', upto', -, -⟩ := lays_advance second hi _ place' rfl _ _ (advance_cons second)
    have since' : Since w tok.span [] ⟨rest', b.span⟩ := Lasting.lasts since upto'
    rw [bind_of_ok (advance_cons more), bind_of_ok (advance_cons second)] at run
    obtain ⟨there, upto'', done⟩ := both b hi _ place'' ⟨since', since'.since.cover⟩ a s' run
    exact ⟨there, (upto.trans upto').trans upto'', done⟩
  · exact other hi _ place rfl a s' run

/-! ### Reading -/

/-- What starts with the next token is one more thing that was read. -/
theorem lays_inner [Lasting w Δ] (lays : Lays w (Next tok) p fun a => Since w tok.span [view a]) :
    Lays w (fun s => Read w Δ lo vs s ∧ Next tok s) p fun a => Read w Δ lo (view a :: vs) := by
  intro hi s place ⟨read, next⟩ a s' run
  obtain ⟨place', upto, since⟩ := lays hi s place next a s' run
  have behind : lo ≤ tok.span.start := Nat.le_trans read.le (place.behind next).2.1
  have stays : Read w Δ lo vs s' := Lasting.lasts read upto
  have view_lies := (since.each _ List.mem_cons_self).mono behind (Nat.le_refl _)
  exact ⟨place', upto, stays.since, stays.le, List.forall_mem_cons.mpr ⟨view_lies, stays.each⟩⟩

theorem Node.part (node : Node w p view) : Part w p view :=
  fun _ => .head fun tok => lays_inner (node tok)

theorem Lays.part [Lasting w Δ] (first : Part w p view) (rest : ∀ a, Lays w (Read w Δ lo (view a :: vs)) (f a) post) :
    Lays w (Read w Δ lo vs) (p >>= f) post := by
  have kept : Lays w (fun s => From w lo [] s ∧ Read w Δ lo vs s) p fun a s => From w lo [view a] s ∧ Read w Δ lo vs s :=
    (first lo).keep
  refine (kept.given fun s read => ⟨⟨trivial, read.le, by simp⟩, read⟩).and fun a => (rest a).given fun s ⟨one, others⟩ => ?_
  exact ⟨others.since, others.le, List.forall_mem_cons.mpr ⟨one.each _ List.mem_cons_self, others.each⟩⟩

theorem lays_item {F : List α → List View} [View.Listing F] [Lasting w Δ] {xs : List α} (item : Part w p fun a => .list (F [a])) :
    Lays w (Read w Δ lo (.list (F xs.reverse) :: vs)) p fun a => Read w Δ lo (.list (F (a :: xs).reverse) :: vs) := by
  intro hi s place read a s' run
  obtain ⟨place', upto, one⟩ := item s.prev.stop hi s place ⟨trivial, Nat.le_refl _, by simp⟩ a s' run
  have stays : Read w Δ lo (.list (F xs.reverse) :: vs) s' := Lasting.lasts read upto
  refine ⟨place', upto, stays.since, stays.le, List.forall_mem_cons.mpr ⟨?_, (List.forall_mem_cons.mp stays.each).2⟩⟩
  rw [View.Listing.snoc F]
  exact (read.each _ List.mem_cons_self).append (one.each _ List.mem_cons_self) read.le upto.stop

theorem Lays.item {F : List α → List View} [View.Listing F] [Lasting w Δ] {xs : List α} (first : Part w p fun a => .list (F [a]))
    (rest : ∀ a, Lays w (Read w Δ lo (.list (F (a :: xs).reverse) :: vs)) (f a) post) :
    Lays w (Read w Δ lo (.list (F xs.reverse) :: vs)) (p >>= f) post :=
  (lays_item first).and rest

/-- What is there already has nothing in it. -/
theorem part_pure {a : α} (leaf : (view a).isLeaf = true) : Part w (pure a) view :=
  fun _ => .done fun _ read => ⟨trivial, read.le, List.forall_mem_singleton.mpr (View.lies_leaf leaf)⟩

/-- What is missing has nothing in it. -/
theorem Lays.absent [Lasting w Δ] {a : α} (view : α → View) (leaf : (view a).isLeaf = true)
    (rest : ∀ a, Lays w (Read w Δ lo (view a :: vs)) (f a) post) : Lays w (Read w Δ lo vs) (pure a >>= f) post :=
  .part (part_pure leaf) rest

theorem Node.map {m : α → β} {view' : β → View} (node : Node w p view) (same : ∀ a, view' (m a) = view a) :
    Node w (m <$> p) view' :=
  fun tok => (node tok).map fun _ _ read => by rwa [same]

theorem Part.single {F : List α → List View} (part : Part w p view) (same : ∀ a, F [a] = [view a]) :
    Part w p fun a => .list (F [a]) := by
  refine fun lo => (part lo).weaken fun a s read => ⟨trivial, read.le, List.forall_mem_singleton.mpr ?_⟩
  dsimp only
  rw [same]
  exact (read.each _ List.mem_cons_self).singleton

end

/-! ### Nodes -/

section

variable {u : Span} {vs : List View} {name : String} {fields : List (String × View)}

theorem Lays.respan {v : Span} {f : Span → Parse β} (spans : ∀ s, Γ s → Spanned w u (v.cover s.prev) vs s)
    (rest : ∀ span, Lays w (Spanned w u span vs) (f span) post) : Lays w Γ (Parse.spanFrom v >>= f) post := by
  intro hi s place start
  have run : Parse.spanFrom v s = .ok (v.cover s.prev, s) := rfl
  intro b s' done
  rw [bind_of_ok run] at done
  exact rest _ hi s place (spans s start) b s' done

/-- The span since a token or a node started. -/
theorem Lays.spanFrom {f : Span → Parse β} (rest : ∀ span, Lays w (Spanned w u span vs) (f span) post) :
    Lays w (Since w u vs) (Parse.spanFrom u >>= f) post :=
  .respan (fun _ since => ⟨since, since.since.cover⟩) rest

theorem Lays.node {mk : Span → β} {fields : Span → List (String × View)}
    (made : ∀ span s, Since w u [View.at' name span (fields span)] s → post (mk span) s)
    (fits : ∀ span, name ≠ "TemplateLit" ∧ View.Covered vs (fields span)) :
    Lays w (Since w u vs) (Parse.spanFrom u >>= fun span => pure (mk span)) post :=
  .spanFrom fun span => .done fun s spanned => made span s (spanned.node (fits span))

theorem Lays.number {tok : Token} {negative : Bool} {span : Span} {mid : Expr → ParserState → Prop}
    (holds : ∀ raw value s, Γ s → mid (.literal span raw value) s) : Lays w Γ (numberLiteral tok negative span) mid := by
  unfold numberLiteral
  generalize splitBase _ = parts
  refine .ite ?_ ?_
  · split
    · exact lays_throw
    · dsimp only
      split
      · exact lays_throw
      · exact .done fun s start => holds _ _ s start
  · dsimp only
    split
    · exact lays_throw
    · split
      · exact lays_throw
      · exact .ite (.done fun s start => holds _ _ s start) lays_throw

end

/-! ### Starting before or with the next token -/

/-- Some views were read since a token, which may be the next one still; then there is nothing in them. -/
def Opened (w : Sheet) (tok : Token) (vs : List View) (s : ParserState) : Prop :=
  (Next tok s ∧ ∀ v ∈ vs, v.isLeaf = true) ∨ Since w tok.span vs s

section

variable {tok first : Token} {vs : List View} {view : α → View}

/-- What starts with the next token is one more thing that was read since the token. -/
theorem lays_opened (lays : Lays w (Next first) p fun a => Since w first.span [view a]) :
    Lays w (fun s => Opened w tok vs s ∧ Next first s) p fun a => Since w tok.span (view a :: vs) := by
  intro hi s place ⟨opened, next⟩
  obtain ⟨next', leaves⟩ | since := opened
  · obtain rfl : first = tok := Option.some.inj (next.symm.trans next')
    intro a s' run
    obtain ⟨place', upto, since⟩ := lays hi s place next a s' run
    refine ⟨place', upto, since.since, since.le, List.forall_mem_cons.mpr ⟨since.each _ List.mem_cons_self, fun v mem => ?_⟩⟩
    exact View.lies_leaf (leaves v mem)
  · exact lays_inner lays hi s place ⟨since, next⟩

theorem Node.opened (node : Node w p view) : Lays w (Opened w tok vs) p fun a => Since w tok.span (view a :: vs) :=
  .head fun first => lays_opened (node first)

theorem Takes.opened {p : Parse Token} (takes : Takes w p) : Lays w (Opened w tok vs) p fun _ => Since w tok.span vs := by
  have lays (first : Token) : Lays w (Next first) p fun _ => Since w first.span [.nothing] :=
    (takes first).weaken fun _ _ both => both.2.leaf rfl
  have opened (first : Token) : Lays w (fun s => Opened w tok vs s ∧ Next first s) p fun _ => Since w tok.span (.nothing :: vs) :=
    lays_opened (lays first)
  refine .head fun first => (opened first).weaken fun _ _ since => ?_
  exact since.sub fun v mem => List.mem_cons_of_mem _ mem

/-- No token stands before the one that was started with. -/
theorem Lays.behind {p : Parse β} (rest : tok.span.start ≤ first.span.start → Lays w (Next first) p post) :
    Lays w (fun s => Opened w tok vs s ∧ Next first s) p post := by
  intro hi s place ⟨opened, next⟩
  refine rest ?_ hi s place next
  obtain ⟨next', -⟩ | since := opened
  · exact Nat.le_of_eq (congrArg (·.span.start) (Option.some.inj (next'.symm.trans next)))
  · exact Nat.le_trans since.le (place.behind next).2.1

end

/-! ### Repetition -/

section

variable (F : List α → List View) {lo : Nat} {vs : List View}

variable {F} [View.Listing F]

end

end

end Parse

end LedgerScript
