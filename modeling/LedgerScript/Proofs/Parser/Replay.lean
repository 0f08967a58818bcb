import LedgerScript.Proofs.Parser.FlatSequence
import LedgerScript.Proofs.Printer.Relexing

/-!
# Running a parser again

Lexemes stand for a part of a token list if tokens can be cut from them and they start as the part does: `Passage`.  A parser is
run again on the tokens of lexemes that stand for what has been read: `Reread`.  What stands behind these tokens need not be
what stood behind the part, but it has to end the part in the same way: it starts with a token of the kind that was next, or
with a closing bracket or the end, which end all that is open.

That an operand has ended is seen from the next token, whatever it is.  That a type has ended is seen only from the next two,
if the next one is an opening bracket.  So where something may end in a type, `loose`, no bracket may follow.
-/

namespace LedgerScript

namespace Parse

/-! ## What a parser takes -/

section

variable {α β σ : Type} {p : Parse α} {f : α → Parse β} {post post' : α → Prop} {after : β → Prop} {t : Token}
  {ts us c : List Token}
variable {step : σ → Parse (σ ⊕ α)} {k : σ} {s : ParserState}

/-- The parser takes just these tokens in front of others, and this is true of what it makes of them. -/
def Reads (p : Parse α) (ts c : List Token) (post : α → Prop) : Prop :=
  ∀ prev, ∃ a prev', Consumes p ⟨ts ++ c, prev⟩ a ⟨c, prev'⟩ ∧ post a

theorem Reads.and (first : Reads p ts (us ++ c) post) (rest : ∀ a, post a → Reads (f a) us c after) :
    Reads (p >>= f) (ts ++ us) c after := by
  intro prev
  obtain ⟨a, prev', one, holds⟩ := first prev
  obtain ⟨b, prev'', two, done⟩ := rest a holds prev'
  rw [List.append_assoc]
  exact ⟨b, prev'', one.and two, done⟩

theorem Reads.weaken (reads : Reads p ts c post) (weaker : ∀ a, post a → post' a) : Reads p ts c post' :=
  fun prev =>
    have ⟨a, prev', run, holds⟩ := reads prev
    ⟨a, prev', run, weaker a holds⟩

/-- A look at the tokens that are left, before they are taken. -/
theorem Reads.look (sees : ∀ prev, ∃ a, Consumes p ⟨ts ++ c, prev⟩ a ⟨ts ++ c, prev⟩ ∧ post a)
    (rest : ∀ a, post a → Reads (f a) ts c after) : Reads (p >>= f) ts c after := by
  intro prev
  obtain ⟨a, one, holds⟩ := sees prev
  obtain ⟨b, prev', two, done⟩ := rest a holds prev
  exact ⟨b, prev', one.and two, done⟩

/-! ## Repetitions -/

/-- What is true of the end of a repetition, and of every round before it if it is true of those that follow. -/
theorem ends_repeatStep_back (kept : σ → ParserState → α → ParserState → Prop)
    (turn : ∀ k s, Ends (step k) s fun r s' => match r with
      | .inl k' => ∀ a s'', kept k' s' a s'' → kept k s a s''
      | .inr a => kept k s a s') : Ends (repeatStep step k) s (kept k s) := by
  have rounds : ∀ n k s, Ends (iterate step n k) s (kept k s) := by
    intro n
    induction n with
    | zero =>
      intro k s a s' run
      cases run
    | succ n ih =>
      intro k s
      refine Ends.and ends_get fun _ s same => ?_
      subst same
      refine (turn k s).and fun r s' holds => ?_
      cases r with
      | inl k' =>
        refine Ends.and ends_get fun _ s same => ?_
        subst same
        exact ends_ite (fun a s' rest => holds a s' (ih k' _ a s' rest)) (ends_throw _)
      | inr a => exact ends_pure holds
  exact rounds _ k s

theorem ends_get_same : Ends (get : Parse ParserState) s fun v s' => v = s ∧ s' = s := by
  intro _ s' run
  cases run
  exact ⟨rfl, rfl⟩

/-- What ends in some number of rounds does so in more. -/
theorem consumes_iterate_mono {n m : Nat} (most : n ≤ m) {s' : ParserState} {a : α}
    (run : Consumes (iterate step n k) s a s') : Consumes (iterate step m k) s a s' := by
  suffices rounds : ∀ n k s, Ends (iterate step n k) s fun a s' => ∀ m, n ≤ m → Consumes (iterate step m k) s a s' from
    rounds n k s a s' run m most
  intro n
  induction n with
  | zero =>
    intro k s a s' run
    cases run
  | succ n ih =>
    intro k s
    refine Ends.and ends_get_same ?_
    rintro _ _ ⟨rfl, rfl⟩
    have turn (s : ParserState) : Ends (step k) s fun r s' => Consumes (step k) s r s' := fun _ _ run => run
    refine (turn _).and fun r s' run => ?_
    cases r with
    | inl k' =>
      refine Ends.and ends_get_same ?_
      rintro _ _ ⟨rfl, rfl⟩
      split
      · next takes =>
        intro a s' rest m most
        obtain ⟨m, rfl⟩ : ∃ m', m = m' + 1 := ⟨m - 1, by omega⟩
        exact consumes_iterate_more run takes (ih k' _ a s' rest m (by omega))
      · exact ends_throw _
    | inr a =>
      refine ends_pure fun m most => ?_
      obtain ⟨m, rfl⟩ : ∃ m', m = m' + 1 := ⟨m - 1, by omega⟩
      exact consumes_iterate_end run

theorem reads_repeatStep_done (ends : Reads (step k) ts c fun r => ∃ a, r = .inr a ∧ post a) :
    Reads (repeatStep step k) ts c post := by
  intro prev
  obtain ⟨_, prev', run, a, rfl, holds⟩ := ends prev
  exact ⟨a, prev', consumes_get.and (consumes_iterate_end run), holds⟩

theorem reads_repeatStep_more {good : σ → Prop} (some : ts ≠ [])
    (turn : Reads (step k) ts (us ++ c) fun r => ∃ k', r = .inl k' ∧ good k')
    (rest : ∀ k', good k' → Reads (repeatStep step k') us c post) : Reads (repeatStep step k) (ts ++ us) c post := by
  intro prev
  obtain ⟨_, prev', run, k', rfl, holds⟩ := turn prev
  obtain ⟨a, prev'', more, done⟩ := rest k' holds prev'
  have takes : (us ++ c).length < (ts ++ (us ++ c)).length := by
    have := List.length_pos_of_ne_nil some
    simp only [List.length_append]
    omega
  refine ⟨a, prev'', ?_, done⟩
  rw [List.append_assoc]
  exact consumes_get.and (consumes_iterate_more run takes (consumes_iterate_mono takes more))

end

/-! ## What was run -/

section

variable {s : ParserState}

theorem Ends.weaken {α : Type} {p : Parse α} {post post' : α → ParserState → Prop} (ends : Ends p s post)
    (weaker : ∀ a s', post a s' → post' a s') : Ends p s post' :=
  fun a s' run => weaker a s' (ends a s' run)

theorem ends_peek : Ends peek s fun t s' => s' = s ∧ ∃ r, s.rest = t :: r := by
  obtain ⟨rest, prev⟩ := s
  cases rest with
  | nil => nofun
  | cons t rest =>
    intro u s' run
    cases run
    exact ⟨rfl, rest, rfl⟩

theorem ends_failExpected {α : Type} {wanted : List String} {post : α → ParserState → Prop} : Ends (failExpected wanted) s post :=
  ends_any fun _ _ => ends_throw _

theorem ends_here : Ends here s fun _ s' => s' = s := by
  refine Ends.and ends_peek fun t s' ⟨same, _⟩ => ?_
  exact ends_pure same

theorem ends_kindAt {n : Nat} : Ends (kindAt n) s fun k s' => s' = s ∧ k = ((s.rest[n]?).map Token.kind).getD .eof := by
  intro k s' run
  cases run
  exact ⟨rfl, rfl⟩

theorem ends_at {k : TokenKind} : Ends (at? k) s fun b s' => s' = s ∧ b = decide (s.next = k) := by
  refine Ends.and ends_nextKind fun kind s' ⟨same, same'⟩ => ends_pure ⟨same', ?_⟩
  rw [same]

theorem ends_advance : Ends advance s fun t s' => s.next = t.kind ∧ (s.next ≠ .eof → s.rest = t :: s'.rest) := by
  intro t s' run
  obtain ⟨rest, prev⟩ := s
  cases rest with
  | nil => cases run
  | cons u rest =>
    by_cases ended : u.kind = .eof
    · have looks : peek ⟨u :: rest, prev⟩ = .ok (u, ⟨u :: rest, prev⟩) := rfl
      rw [advance, bind_of_ok looks, if_neg (not_not.mpr ended)] at run
      cases run
      exact ⟨rfl, fun more => absurd ended more⟩
    · rw [advance_cons ended] at run
      cases run
      exact ⟨rfl, fun _ => rfl⟩

/-- A token that has been looked at is taken. -/
theorem ends_advance_of {t : Token} {r : List Token} (here : s.rest = t :: r) (more : t.kind ≠ .eof) :
    Ends advance s fun u s' => u = t ∧ s.rest = t :: s'.rest := by
  intro u s' run
  have next : s.next = t.kind := by rw [ParserState.next, here]; rfl
  have took := (ends_advance u s' run).2 (by rwa [next])
  have same : u = t := by
    rw [here] at took
    exact (List.cons.inj took).1.symm
  exact ⟨same, by rw [← same]; exact took⟩

theorem ends_acceptSymbol {sym : Symbol} : Ends (acceptSymbol sym) s fun b s' =>
    (b = true ∧ ∃ t, t.kind = .symbol sym ∧ s.rest = t :: s'.rest) ∨ (b = false ∧ s' = s ∧ s.next ≠ .symbol sym) := by
  refine Ends.and ends_at ?_
  rintro _ s' ⟨rfl, rfl⟩
  split
  · next yes =>
    have kind := of_decide_eq_true yes
    refine Ends.and ends_advance fun t s'' ⟨next, took⟩ => ends_pure (.inl ⟨rfl, t, next.symm.trans kind, took ?_⟩)
    rw [kind]
    nofun
  · next no => exact ends_pure (.inr ⟨rfl, rfl, fun kind => no (decide_eq_true kind)⟩)

theorem ends_expect {k : TokenKind} (more : k ≠ .eof) : Ends (expect k) s fun t s' => t.kind = k ∧ s.rest = t :: s'.rest := by
  refine Ends.and ends_at ?_
  rintro _ s' ⟨rfl, rfl⟩
  split
  · next yes =>
    have kind := of_decide_eq_true yes
    exact Ends.weaken ends_advance fun t s'' ⟨next, took⟩ => ⟨next.symm.trans kind, took (kind ▸ more)⟩
  · exact ends_failExpected

theorem ends_expectSymbol {sym : Symbol} :
    Ends (expectSymbol sym) s fun _ s' => ∃ t, t.kind = .symbol sym ∧ s.rest = t :: s'.rest :=
  (ends_expect (k := .symbol sym) nofun).and fun t _ took => ends_pure ⟨t, took⟩

theorem ends_expectIdent {what : String} : Ends (expectIdent what) s fun t s' => t.kind = .ident ∧ s.rest = t :: s'.rest := by
  refine Ends.and ends_at ?_
  rintro _ s' ⟨rfl, rfl⟩
  split
  · next yes =>
    have kind := of_decide_eq_true yes
    exact Ends.weaken ends_advance fun t s'' ⟨next, took⟩ => ⟨next.symm.trans kind, took (by rw [kind]; nofun)⟩
  · exact ends_failExpected

theorem ends_expectWord {what : String} :
    Ends (expectWord what) s fun t s' => t.kind.isWord = true ∧ s.rest = t :: s'.rest := by
  refine Ends.and ends_nextKind ?_
  rintro _ s' ⟨rfl, rfl⟩
  split
  · next word =>
    refine Ends.weaken ends_advance fun t s'' ⟨next, took⟩ => ⟨next ▸ word, took fun kind => ?_⟩
    rw [kind] at word
    cases word
  · exact ends_failExpected

end

end Parse

open Parse

/-! ## Lexemes for what was read -/

/-- All tokens that are left but the end were cut from a text. -/
def ParserState.Cut (s : ParserState) : Prop :=
  ∀ t ∈ s.rest, t.kind ≠ .eof → t.Cut

/-- The lexemes stand for what is between the two states. -/
structure Passage (s : ParserState) (ws : List Lexeme) (s' : ParserState) : Prop where
  cut : s'.Cut
  sound : AllSound ws
  leads : (ws.head?.map Lexeme.kind).getD s'.next = s.next

section

variable {s s' s'' : ParserState} {ws vs : List Lexeme} {w : Lexeme} {t : Token} {sym : Symbol}

theorem ParserState.next_of_rest {r : List Token} (here : s.rest = t :: r) : s.next = t.kind := by
  rw [next, here]
  rfl

theorem ParserState.Cut.rest (cut : s.Cut) (took : s.rest = t :: s'.rest) : s'.Cut :=
  fun u mem => cut u (by rw [took]; exact List.mem_cons_of_mem t mem)

theorem Passage.none (cut : s.Cut) : Passage s [] s :=
  ⟨cut, allSound_nil, rfl⟩

theorem Passage.and (first : Passage s ws s') (rest : Passage s' vs s'') : Passage s (ws ++ vs) s'' where
  cut := rest.cut
  sound := allSound_append.mpr ⟨first.sound, rest.sound⟩
  leads := by
    cases ws with
    | nil => exact rest.leads.trans first.leads
    | cons w ws => exact first.leads

theorem Passage.spaced (passage : Passage s ws s') : Passage s (spaced ws) s' where
  cut := passage.cut
  sound := allSound_spaced.mpr passage.sound
  leads := by
    have leads := passage.leads
    cases ws with
    | nil => exact leads
    | cons => exact leads

theorem Passage.symbol (cut : s.Cut) (took : s.rest = t :: s'.rest) (kind : t.kind = .symbol sym)
    (plain : sym ≠ .underscore ∧ sym ≠ .fatArrow) : Passage s [.symbol sym] s' where
  cut := cut.rest took
  sound := allSound_cons.mpr ⟨sound_symbol plain.1 plain.2, allSound_nil⟩
  leads := kind.symm.trans (ParserState.next_of_rest took).symm

theorem Passage.terminal (cut : s.Cut) (took : s.rest = t :: s'.rest) (terminal : t.kind.isTerminal = true)
    (face : w.face = t.face) : Passage s [w] s' where
  cut := cut.rest took
  sound := by
    have sound : SoundFace t.face := by
      refine (cut t (by rw [took]; exact List.mem_cons_self) fun kind => ?_).sound terminal
      rw [kind] at terminal
      cases terminal
    exact allSound_cons.mpr ⟨face ▸ sound, allSound_nil⟩
  leads := (congrArg Prod.fst face).trans (ParserState.next_of_rest took).symm

theorem Passage.keyword {k : Keyword} (cut : s.Cut) (took : s.rest = t :: s'.rest) (kind : t.kind = .keyword k) :
    Passage s [.keyword k] s' := by
  have cut' : t.Cut := cut t (by rw [took]; exact List.mem_cons_self) (by rw [kind]; nofun)
  refine .terminal cut took (by rw [kind]; rfl) ?_
  rw [Token.face, kind, cut'.keyword kind]
  rfl

theorem Token.Cut.face_word (cut : t.Cut) (word : t.kind.isWord = true) : (Lexeme.word t.nameText).face = t.face := by
  obtain ⟨text, kind⟩ := cut.word word
  rw [Token.face, kind, ← text]
  rfl

theorem Passage.word (cut : s.Cut) (took : s.rest = t :: s'.rest) (word : t.kind.isWord = true) :
    Passage s [.word t.nameText] s' := by
  have more : t.kind ≠ .eof := fun kind => by
    rw [kind] at word
    cases word
  have face := (cut t (by rw [took]; exact List.mem_cons_self) more).face_word word
  refine .terminal cut took ?_ face
  rw [show t.kind = wordKind (utf8 t.nameText) from (congrArg Prod.fst face).symm]
  exact (wordKind_isTerminal _).1

end

/-! ## What may stand behind -/

/-- A token of this kind ends all that is open before it. -/
def TokenKind.isCloser : TokenKind → Bool
  | .symbol .rparen | .symbol .rbracket | .symbol .rbrace | .eof => true
  | _ => false

/-- The tokens may stand behind what was read up to the state. -/
structure Follows (loose : Bool) (s : ParserState) (c : List Token) : Prop where
  starts : ∃ t r, c = t :: r ∧ (t.kind = s.next ∨ t.kind.isCloser = true) ∧ (loose = true → t.kind ≠ .symbol .lbracket)
  plain : ∀ t ∈ c, t.kind ≠ .symbol .fatArrow

/-- Where something may end in a type, these lexemes may stand behind it. -/
def StandBehind (loose loose' : Bool) : List Lexeme → Prop
  | [] => loose = true → loose' = true
  | w :: _ => loose = true → w.kind ≠ .symbol .lbracket

theorem standBehind_tight {loose' : Bool} {ws : List Lexeme} : StandBehind false loose' ws := by
  cases ws with
  | nil => nofun
  | cons => nofun

theorem standBehind_other {loose loose' : Bool} {w : Lexeme} {ws : List Lexeme} (other : w.kind ≠ .symbol .lbracket) :
    StandBehind loose loose' (w :: ws) :=
  fun _ => other

section

variable {loose loose' : Bool} {s s' : ParserState} {ws : List Lexeme} {ts c : List Token}

theorem Follows.tight (follows : Follows loose s c) : Follows false s c :=
  have ⟨t, r, same, kind, _⟩ := follows.starts
  ⟨⟨t, r, same, kind, nofun⟩, follows.plain⟩

/-- The end may stand behind everything. -/
theorem follows_eof {t : Token} (ended : t.kind = .eof) : Follows loose s [t] where
  starts := ⟨t, [], rfl, .inr (by rw [ended]; rfl), fun _ => by rw [ended]; nofun⟩
  plain u mem := by
    rw [List.mem_singleton.mp mem, ended]
    nofun

/-- What is not true of the next token, and never of one that ends all, is not true of the one that follows. -/
theorem Follows.not {P : TokenKind → Prop} (follows : Follows loose s c) (never : ∀ k, k.isCloser = true → ¬P k) (here : ¬P s.next) :
    ∃ t r, c = t :: r ∧ ¬P t.kind := by
  obtain ⟨t, r, same, kind | closer, -⟩ := follows.starts
  · exact ⟨t, r, same, kind ▸ here⟩
  · exact ⟨t, r, same, never _ closer⟩

theorem Follows.ne {k : TokenKind} (follows : Follows loose s c) (more : k.isCloser = false) (other : s.next ≠ k) :
    ∃ t r, c = t :: r ∧ t.kind ≠ k := by
  refine follows.not (fun k' closer (same : k' = k) => ?_) other
  rw [same, more] at closer
  cases closer

theorem SoundFace.kind_ne {f : TokenKind × Bytes} (sound : SoundFace f) : f.1 ≠ .symbol .fatArrow := by
  rcases sound with ⟨s, -, other, rfl⟩ | ⟨t, -, terminal, rfl⟩
  · exact fun same => other (TokenKind.symbol.inj same)
  · intro same
    have same : t.kind = .symbol .fatArrow := same
    rw [same] at terminal
    cases terminal

theorem AllSound.plain (sound : AllSound ws) (faces : ts.map Token.face = ws.map Lexeme.face) :
    ∀ t ∈ ts, t.kind ≠ .symbol .fatArrow := by
  intro t mem
  have mem : t.face ∈ ws.map Lexeme.face := by
    rw [← faces]
    exact List.mem_map_of_mem mem
  exact (sound _ mem).kind_ne

theorem Passage.follows (passage : Passage s ws s') (faces : ts.map Token.face = ws.map Lexeme.face)
    (follows : Follows loose' s' c) (apart : StandBehind loose loose' ws) : Follows loose s (ts ++ c) := by
  refine ⟨?_, fun t mem => ?_⟩
  · cases ws with
    | nil =>
      rw [List.map_nil, List.map_eq_nil_iff] at faces
      subst faces
      obtain ⟨t, r, rfl, kind, bracket⟩ := follows.starts
      exact ⟨t, r, rfl, kind.imp_left fun same => same.trans passage.leads, fun is => bracket (apart is)⟩
    | cons w ws =>
      obtain ⟨t, r, rfl, face, -⟩ := List.map_eq_cons_iff.mp faces
      have kind : t.kind = w.kind := congrArg Prod.fst face
      exact ⟨t, r ++ c, rfl, .inl (kind.trans passage.leads), fun is => by rw [kind]; exact apart is⟩
  · rcases List.mem_append.mp mem with mem | mem
    · exact passage.sound.plain faces t mem
    · exact follows.plain t mem

end

/-! ## Running again -/

/-- The parser takes the tokens of the lexemes, whatever may stand behind what they stand for, and this is true of what it makes of
them. -/
structure Reread {α : Type} (loose : Bool) (p : Parse α) (s : ParserState) (ws : List Lexeme) (s' : ParserState)
    (post : α → Prop) : Prop where
  passage : Passage s ws s'
  again : ∀ ts c, ts.map Token.face = ws.map Lexeme.face → Follows loose s' c → Reads p ts c post

section

variable {α β σ : Type} {loose loose' : Bool} {p : Parse α} {f : α → Parse β} {post post' : α → Prop} {after : β → Prop} {a : α}
  {s s' s'' : ParserState} {ws vs : List Lexeme} {w : Lexeme}
variable {k : TokenKind} {sym : Symbol} {name : String}

theorem exists_tokens (ws : List Lexeme) : ∃ ts : List Token, ts.map Token.face = ws.map Lexeme.face :=
  ⟨ws.map fun w => { kind := w.kind, span := {}, text := w.text }, List.map_map⟩

/-- There is something that the parser makes. -/
theorem Reread.exists (reread : Reread loose p s ws s' post) : ∃ a, post a := by
  obtain ⟨ts, faces⟩ := exists_tokens ws
  have ended : Follows loose s' [{ kind := .eof, span := {} }] := follows_eof rfl
  obtain ⟨a, -, -, holds⟩ := reread.again ts _ faces ended {}
  exact ⟨a, holds⟩

theorem Reread.weaken (reread : Reread loose p s ws s' post) (weaker : ∀ a, post a → post' a) : Reread loose p s ws s' post' :=
  ⟨reread.passage, fun ts c faces follows => (reread.again ts c faces follows).weaken weaker⟩

theorem Reread.spaced (reread : Reread loose p s ws s' post) : Reread loose p s (spaced ws) s' post :=
  ⟨reread.passage.spaced, fun ts c faces => reread.again ts c (faces.trans (map_face_spaced ws))⟩

theorem Reread.loosen (reread : Reread false p s ws s' post) : Reread loose p s ws s' post :=
  ⟨reread.passage, fun ts c faces follows => reread.again ts c faces follows.tight⟩

/-- One parser after another. -/
theorem Reread.and_apart (first : Reread loose p s ws s' post) (rest : ∀ a, post a → Reread loose' (f a) s' vs s'' after)
    (apart : StandBehind loose loose' vs) : Reread loose' (p >>= f) s (ws ++ vs) s'' after := by
  obtain ⟨a, holds⟩ := first.exists
  have passage := (rest a holds).passage
  refine ⟨first.passage.and passage, fun ts c faces follows => ?_⟩
  rw [List.map_append] at faces
  obtain ⟨ts, us, rfl, faces, faces'⟩ := List.map_eq_append_iff.mp faces
  exact (first.again ts _ faces (passage.follows faces' follows apart)).and fun a holds => (rest a holds).again us c faces' follows

/-- One parser after another, where the first does not end in a type. -/
theorem Reread.and (first : Reread false p s ws s' post) (rest : ∀ a, post a → Reread loose (f a) s' vs s'' after) :
    Reread loose (p >>= f) s (ws ++ vs) s'' after :=
  first.and_apart rest standBehind_tight

/-- Nothing more is taken. -/
theorem Reread.and_done (first : Reread loose p s ws s' post) (rest : ∀ a, post a → Reread loose (f a) s' [] s' after) :
    Reread loose (p >>= f) s ws s' after := by
  have whole := first.and_apart rest id
  rwa [List.append_nil] at whole

theorem Reread.look (sees : ∀ ts c prev, ts.map Token.face = ws.map Lexeme.face → Follows loose s' c →
    ∃ a, Consumes p ⟨ts ++ c, prev⟩ a ⟨ts ++ c, prev⟩ ∧ post a) (rest : ∀ a, post a → Reread loose (f a) s ws s' after) :
    Reread loose (p >>= f) s ws s' after := by
  obtain ⟨ts, faces⟩ := exists_tokens ws
  have ended : Follows loose s' [{ kind := .eof, span := {} }] := follows_eof rfl
  obtain ⟨a, -, holds⟩ := sees ts _ {} faces ended
  refine ⟨(rest a holds).passage, fun ts c faces follows => ?_⟩
  exact .look (fun prev => sees ts c prev faces follows) fun a holds => (rest a holds).again ts c faces follows

/-- What is looked at first, where it is known what is seen. -/
theorem Reread.see (rest : Reread loose (f a) s ws s' after) (sees : ∀ ts c prev, ts.map Token.face = ws.map Lexeme.face →
    Follows loose s' c → Consumes p ⟨ts ++ c, prev⟩ a ⟨ts ++ c, prev⟩) : Reread loose (p >>= f) s ws s' after :=
  .look (fun ts c prev faces follows => ⟨a, sees ts c prev faces follows, rfl⟩) fun _ same => same ▸ rest

/-- Where a comma is not written again, what stands behind closes the list. -/
theorem Reread.shut {s₂ : ParserState} (reread : Reread loose p s ws s' post) (some : ws ≠ []) (cut : s₂.Cut)
    (closer : s₂.next.isCloser = true) : Reread loose' p s ws s₂ post := by
  refine ⟨⟨cut, reread.passage.sound, ?_⟩, fun ts c faces follows => reread.again ts c faces ⟨?_, follows.plain⟩⟩
  · obtain ⟨w, ws, rfl⟩ := List.exists_cons_of_ne_nil some
    exact reread.passage.leads
  · obtain ⟨t, r, rfl, kind, -⟩ := follows.starts
    have closer : t.kind.isCloser = true := kind.elim (fun same => same ▸ closer) id
    refine ⟨t, r, rfl, .inr closer, fun _ bracket => ?_⟩
    rw [bracket] at closer
    cases closer

/-- What takes nothing. -/
theorem reread_still (cut : s.Cut) (sees : ∀ c prev, Follows loose s c → ∃ a, Consumes p ⟨c, prev⟩ a ⟨c, prev⟩ ∧ post a) :
    Reread loose p s [] s post := by
  refine ⟨.none cut, fun ts c faces follows prev => ?_⟩
  rw [List.map_nil, List.map_eq_nil_iff] at faces
  subst faces
  obtain ⟨a, run, holds⟩ := sees c prev follows
  exact ⟨a, prev, run, holds⟩

theorem reread_pure (cut : s.Cut) (holds : post a) : Reread loose (pure a) s [] s post :=
  reread_still cut fun _ _ _ => ⟨a, consumes_pure, holds⟩

theorem reread_spanFrom {start : Span} (cut : s.Cut) : Reread loose (spanFrom start) s [] s fun _ => True :=
  reread_still cut fun _ _ _ => ⟨_, consumes_spanFrom, trivial⟩

theorem reread_here (cut : s.Cut) : Reread loose here s [] s fun _ => True := by
  refine reread_still cut fun c prev follows => ?_
  obtain ⟨t, r, rfl, -⟩ := follows.starts
  exact ⟨_, consumes_here, trivial⟩

/-- The span of something that has been made. -/
theorem Reread.spanned {start : Span} {g : Span → α → β} (reread : Reread loose p s ws s' post)
    (holds : ∀ span a, post a → after (g span a)) :
    Reread loose (do let a ← p; return g (← spanFrom start) a) s ws s' after :=
  reread.and_done fun _ made => (reread_spanFrom reread.passage.cut).and_done fun span _ => reread_pure reread.passage.cut (holds span _ made)

theorem reread_at_no (cut : s.Cut) (more : k.isCloser = false) (other : s.next ≠ k) :
    Reread loose (at? k) s [] s (· = false) := by
  refine reread_still cut fun c prev follows => ?_
  obtain ⟨t, r, rfl, other⟩ := follows.ne more other
  exact ⟨_, consumes_at (List.cons_ne_nil t r), decide_eq_false other⟩

theorem reread_acceptSymbol_no (cut : s.Cut) (more : (TokenKind.symbol sym).isCloser = false)
    (other : s.next ≠ .symbol sym) : Reread loose (acceptSymbol sym) s [] s (· = false) := by
  refine reread_still cut fun c prev follows => ?_
  obtain ⟨t, r, rfl, other⟩ := follows.ne more other
  exact ⟨_, consumes_acceptSymbol_no (List.cons_ne_nil t r) other, rfl⟩

theorem reread_token (passage : Passage s [w] s')
    (takes : ∀ t c prev, t.face = w.face → ∃ a prev', Consumes p ⟨t :: c, prev⟩ a ⟨c, prev'⟩ ∧ post a) :
    Reread loose p s [w] s' post := by
  refine ⟨passage, fun ts c faces _ prev => ?_⟩
  obtain ⟨t, r, rfl, face, nothing⟩ := List.map_eq_cons_iff.mp faces
  rw [List.map_nil, List.map_eq_nil_iff] at nothing
  subst nothing
  exact takes t c prev face

theorem reread_advance (passage : Passage s [w] s') (more : w.kind ≠ .eof) :
    Reread loose advance s [w] s' (·.face = w.face) := by
  refine reread_token passage fun t _ _ face => ⟨t, t.span, consumes_advance ?_, face⟩
  rw [show t.kind = w.kind from congrArg Prod.fst face]
  exact more

theorem reread_acceptSymbol (passage : Passage s [.symbol sym] s') :
    Reread loose (acceptSymbol sym) s [.symbol sym] s' (· = true) :=
  reread_token passage fun t _ _ face => ⟨true, t.span, consumes_acceptSymbol_yes (congrArg Prod.fst face), rfl⟩

theorem reread_expect (passage : Passage s [w] s') (kind : w.kind = k) (more : k ≠ .eof) :
    Reread loose (expect k) s [w] s' (·.face = w.face) := by
  refine reread_token passage fun t c prev face => ⟨t, t.span, ?_, face⟩
  have kind : t.kind = k := (congrArg Prod.fst face).trans kind
  refine (consumes_at (List.cons_ne_nil t c)).and ?_
  rw [show (ParserState.mk (t :: c) prev).next = k from kind, decide_eq_true rfl]
  exact consumes_advance (by rwa [kind])

theorem reread_expectSymbol (passage : Passage s [.symbol sym] s') :
    Reread loose (expectSymbol sym) s [.symbol sym] s' fun _ => True :=
  (reread_expect passage rfl nofun).and_done fun _ _ => reread_pure passage.cut trivial

theorem reread_expectWord {what : String} (passage : Passage s [.word name] s') :
    Reread loose (expectWord what) s [.word name] s' (·.face = (Lexeme.word name).face) := by
  refine reread_token passage fun t c prev face => ⟨t, t.span, ?_, face⟩
  have word : t.kind.isWord = true := by
    rw [show t.kind = wordKind (utf8 name) from congrArg Prod.fst face]
    exact (wordKind_isTerminal _).2
  refine (consumes_nextKind (List.cons_ne_nil t c)).and ?_
  rw [show (ParserState.mk (t :: c) prev).next = t.kind from rfl, if_pos word]
  refine consumes_advance fun kind => ?_
  rw [kind] at word
  cases word

theorem reread_expectIdent {what : String} (passage : Passage s [.word name] s') (kind : (Lexeme.word name).kind = .ident) :
    Reread loose (expectIdent what) s [.word name] s' (·.face = (Lexeme.word name).face) := by
  refine reread_token passage fun t c prev face => ⟨t, t.span, ?_, face⟩
  have kind : t.kind = .ident := (congrArg Prod.fst face).trans kind
  refine (consumes_at (List.cons_ne_nil t c)).and ?_
  rw [show (ParserState.mk (t :: c) prev).next = .ident from kind, decide_eq_true rfl]
  exact consumes_advance (by rw [kind]; nofun)

theorem nameText_of_face {t : Token} (face : t.face = (Lexeme.word name).face) : t.nameText = name := by
  have text : t.text = utf8 name := congrArg Prod.snd face
  rw [Token.nameText, text, Text.shown, Text.shownChars_utf8, String.ofList_toList]

/-! ### What is seen first -/

/-- The next token is the first of the lexemes. -/
theorem Reread.peek {f : Token → Parse β} (rest : ∀ t, t.face = w.face → Reread loose (f t) s (w :: ws) s' after) :
    Reread loose (peek >>= f) s (w :: ws) s' after := by
  refine .look (fun ts c prev faces _ => ?_) rest
  obtain ⟨t, r, rfl, face, -⟩ := List.map_eq_cons_iff.mp faces
  exact ⟨t, consumes_peek, face⟩

theorem Reread.nextKind {f : TokenKind → Parse β} (rest : Reread loose (f w.kind) s (w :: ws) s' after) :
    Reread loose (nextKind >>= f) s (w :: ws) s' after := by
  refine rest.see fun ts c prev faces _ => ?_
  obtain ⟨t, r, rfl, face, -⟩ := List.map_eq_cons_iff.mp faces
  rw [show w.kind = t.kind from (congrArg Prod.fst face).symm]
  exact consumes_nextKind (List.cons_ne_nil _ _)

theorem Reread.at {k : TokenKind} {f : Bool → Parse β} (kind : w.kind = k) (rest : Reread loose (f true) s (w :: ws) s' after) :
    Reread loose (at? k >>= f) s (w :: ws) s' after := by
  refine rest.see fun ts c prev faces _ => ?_
  obtain ⟨t, r, rfl, face, -⟩ := List.map_eq_cons_iff.mp faces
  have next : (ParserState.mk (t :: r ++ c) prev).next = k := (congrArg Prod.fst face).trans kind
  have seen := consumes_at (k := k) (List.cons_ne_nil t (r ++ c)) (s := ⟨t :: r ++ c, prev⟩)
  rwa [decide_eq_true next] at seen

theorem next_of_faces {ts : List Token} (passage : Passage s ws s') (some : ws ≠ [])
    (faces : ts.map Token.face = ws.map Lexeme.face) (c : List Token) (prev : Span) : ts ++ c ≠ [] ∧ (ParserState.mk (ts ++ c) prev).next = s.next := by
  obtain ⟨w, ws, rfl⟩ := List.exists_cons_of_ne_nil some
  obtain ⟨t, r, rfl, face, -⟩ := List.map_eq_cons_iff.mp faces
  exact ⟨List.cons_ne_nil _ _, (congrArg Prod.fst face).trans passage.leads⟩

theorem Reread.at_no {f : Bool → Parse β} (some : ws ≠ []) (other : s.next ≠ k)
    (rest : Reread loose (f false) s ws s' after) : Reread loose (at? k >>= f) s ws s' after := by
  refine rest.see fun ts c prev faces _ => ?_
  obtain ⟨more, next⟩ := next_of_faces rest.passage some faces c prev
  rw [← decide_eq_false (next ▸ other)]
  exact consumes_at more

theorem Reread.acceptSymbol_no {f : Bool → Parse β} (some : ws ≠ []) (other : s.next ≠ .symbol sym)
    (rest : Reread loose (f false) s ws s' after) : Reread loose (acceptSymbol sym >>= f) s ws s' after := by
  refine rest.see fun ts c prev faces _ => ?_
  obtain ⟨more, next⟩ := next_of_faces rest.passage some faces c prev
  exact consumes_acceptSymbol_no more (next ▸ other)

/-- No arrow of a function is next but one, or anywhere. -/
theorem Reread.get {f : ParserState → Parse β}
    (rest : ∀ u : ParserState, (∀ t ∈ u.rest, t.kind ≠ .symbol .fatArrow) → Reread loose (f u) s ws s' after) (sound : AllSound ws) :
    Reread loose (get >>= f) s ws s' after := by
  refine .look (fun ts c prev faces follows => ⟨_, consumes_get, fun t mem => ?_⟩) rest
  rcases List.mem_append.mp mem with mem | mem
  · exact sound.plain faces t mem
  · exact follows.plain t mem

theorem Reread.kindAt {n : Nat} {f : TokenKind → Parse β} (rest : ∀ k, k ≠ .symbol .fatArrow → Reread loose (f k) s ws s' after)
    (sound : AllSound ws) : Reread loose (kindAt n >>= f) s ws s' after := by
  refine .look (fun ts c prev faces follows => ⟨_, rfl, ?_⟩) rest
  cases there : (ts ++ c)[n]? with
  | none => nofun
  | some t =>
    rcases List.mem_append.mp (List.mem_of_getElem? there) with mem | mem
    · exact sound.plain faces t mem
    · exact follows.plain t mem

theorem Reread.kindAt_one {v : Lexeme} {f : TokenKind → Parse β} (rest : Reread loose (f v.kind) s (w :: v :: ws) s' after) :
    Reread loose (Parse.kindAt 1 >>= f) s (w :: v :: ws) s' after := by
  refine rest.see fun ts c prev faces _ => ?_
  obtain ⟨t, r, rfl, -, faces⟩ := List.map_eq_cons_iff.mp faces
  obtain ⟨u, r, rfl, face, -⟩ := List.map_eq_cons_iff.mp faces
  rw [show v.kind = u.kind from (congrArg Prod.fst face).symm]
  rfl

/-! ### Repetitions -/

theorem reread_repeatStep_done {step : σ → Parse (σ ⊕ α)} {k : σ} (ends : Reread loose (step k) s ws s' fun r => ∃ a, r = .inr a ∧ post a) :
    Reread loose (repeatStep step k) s ws s' post :=
  ⟨ends.passage, fun ts c faces follows => reads_repeatStep_done (ends.again ts c faces follows)⟩

theorem reread_repeatStep_more {step : σ → Parse (σ ⊕ α)} {k : σ} {good : σ → Prop} (some : ws ≠ [])
    (turn : Reread loose (step k) s ws s' fun r => ∃ k', r = .inl k' ∧ good k')
    (rest : ∀ k', good k' → Reread loose' (repeatStep step k') s' vs s'' post) (apart : StandBehind loose loose' vs) :
    Reread loose' (repeatStep step k) s (ws ++ vs) s'' post := by
  obtain ⟨_, k', -, holds⟩ := turn.exists
  have passage := (rest k' holds).passage
  refine ⟨turn.passage.and passage, fun ts c faces follows => ?_⟩
  rw [List.map_append] at faces
  obtain ⟨ts, us, rfl, faces, faces'⟩ := List.map_eq_append_iff.mp faces
  have some : ts ≠ [] := by
    rintro rfl
    exact some (List.map_eq_nil_iff.mp faces.symm)
  exact reads_repeatStep_more some (turn.again ts _ faces (passage.follows faces' follows apart)) fun k' holds =>
    (rest k' holds).again us c faces' follows

end

end LedgerScript
