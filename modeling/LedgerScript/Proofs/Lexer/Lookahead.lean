import LedgerScript.Proofs.Lexer.Tiling

/-!
# Looking ahead changes nothing

The stream of the tokens of a file may be asked for the next token, for a look at it, and for its fault, in any order.
A look leaves the stream where it is, but for the token that it keeps: so after any calls the stream stands where the
calls for a next token alone would have brought it, or there and with the next token looked at.  What the calls for a
next token bring are the tokens of the file, and from then on the end or the fault, again and again.
-/

namespace LedgerScript

/-- A call to the stream of tokens. -/
inductive LexerCall where
  | next
  | peek
  | fault
  deriving DecidableEq

namespace Lexer

/-- The stream after a call; to ask for the fault is no change. -/
def after (lx : Lexer) : LexerCall → Lexer
  | .next => lx.next.2
  | .peek => lx.peek.2
  | .fault => lx

/-- The stream after several calls. -/
def afterAll (lx : Lexer) (calls : List LexerCall) : Lexer :=
  calls.foldl after lx

def taken (lx : Lexer) : List LexerCall → List Token
  | [] => []
  | .next :: rest => lx.next.1 :: lx.next.2.taken rest
  | call :: rest => (lx.after call).taken rest

/-- The stream after so many tokens, when no token is looked at. -/
def skip (lx : Lexer) : Nat → Lexer
  | 0 => lx
  | n + 1 => lx.next.2.skip n

/-- The end of a file once the trivia before it are taken. -/
def finish (f : SourceFile) : Token :=
  { kind := .eof, span := ⟨f.id, f.content.length, f.content.length⟩ }

/-- What a run of the lexer leaves to be taken at an index: one of its tokens, and behind the last of them the fault if
there is one, and the end otherwise. -/
def answer (run : List Token × Option LexFault) (finish : Token) (i : Nat) : Token :=
  match run.1[i]?, run.2 with
  | some token, _ => token
  | none, some fault => invalid fault
  | none, none => finish

/-- What stands at an index among the tokens of a file. -/
def tokenAt (f : SourceFile) (i : Nat) : Token :=
  answer (tokenize f) (finish f) i

/-! ## One call -/

section
variable (lx : Lexer)

theorem look_next : lx.next.2.look = none := by
  rw [next]
  split
  · rfl
  · next none =>
    rw [advance]
    split
    · exact none
    · split <;> exact none

theorem next_peek : lx.peek.2.next = lx.next := by
  have clear := lx.look_next
  rw [peek]
  generalize lx.next = taken at clear ⊢
  obtain ⟨token, file, cursor, look, fault⟩ := taken
  cases clear
  rfl

theorem peek_peek : lx.peek.2.peek = lx.peek := by
  rw [peek, lx.next_peek]
  rfl

theorem skip_succ (n : Nat) : lx.skip (n + 1) = (lx.skip n).next.2 := by
  induction n generalizing lx with
  | zero => rfl
  | succ n ih => exact ih lx.next.2

/-- The fault that was found first stays. -/
theorem fault_after {fault : LexFault} (found : lx.fault = some fault) (call : LexerCall) :
    (lx.after call).fault = some fault := by
  have taking : lx.next.2.fault = some fault := by
    rw [next]
    split
    · exact found
    · rw [advance, found]
      exact found
  cases call with
  | next => exact taking
  | peek => exact taking
  | fault => exact found

theorem fault_afterAll {fault : LexFault} (found : lx.fault = some fault) (calls : List LexerCall) :
    (lx.afterAll calls).fault = some fault := by
  induction calls generalizing lx with
  | nil => exact found
  | cons call rest ih => exact ih (lx.after call) (lx.fault_after found call)

end

/-! ## Several calls -/

/-- A stream stands behind so many tokens of another one, and perhaps the next one is looked at. -/
def Stands (lx : Lexer) (n : Nat) (now : Lexer) : Prop :=
  now = lx.skip n ∨ now = (lx.skip n).peek.2

namespace Stands

variable {lx now : Lexer} {n : Nat}

theorem next_eq (stands : lx.Stands n now) : now.next = (lx.skip n).next := by
  obtain rfl | rfl := stands
  · rfl
  · exact next_peek _

/-- **One call**: only the call for the next token gets further. -/
theorem after (stands : lx.Stands n now) (call : LexerCall) : lx.Stands (n + [call].count .next) (now.after call) := by
  cases call with
  | next =>
    left
    rw [List.count_singleton_self, skip_succ, ← stands.next_eq]
    rfl
  | peek =>
    right
    obtain rfl | rfl := stands
    · rfl
    · exact congrArg Prod.snd (peek_peek _)
  | fault => exact stands

/-- **One run**: the stream stands where the calls for a next token bring it, and these took what stands there. -/
theorem afterAll (stands : lx.Stands n now) (calls : List LexerCall) :
    lx.Stands (n + calls.count .next) (now.afterAll calls) ∧
      now.taken calls = (List.range' n (calls.count .next)).map fun i => (lx.skip i).next.1 := by
  induction calls generalizing n now with
  | nil => exact ⟨stands, rfl⟩
  | cons call rest ih =>
    obtain ⟨stands', taken⟩ := ih (stands.after call)
    rw [Nat.add_assoc, ← List.count_append, List.singleton_append] at stands'
    refine ⟨stands', ?_⟩
    cases call with
    | next =>
      rw [List.count_cons_self, List.range'_succ, List.map_cons, ← stands.next_eq]
      exact congrArg _ taken
    | peek => exact taken
    | fault => exact taken

end Stands

/-! ## The tokens of the file -/

/-- A stream that found a fault stays there. -/
theorem skip_fault (lx : Lexer) {fault : LexFault} (clear : lx.look = none) (found : lx.fault = some fault) (n : Nat) :
    lx.skip n = lx ∧ lx.next.1 = invalid fault := by
  have taking : lx.next = (invalid fault, lx) := by rw [next, clear, advance, found]
  refine ⟨?_, congrArg Prod.fst taking⟩
  induction n with
  | zero => rfl
  | succ n ih => rw [skip_succ, ih, taking]

/-- A stream with nothing left stays there. -/
theorem skip_end (file off n : Nat) :
    ({ file, cursor := ⟨off, []⟩ } : Lexer).skip n = { file, cursor := ⟨off, []⟩ } ∧
      ({ file, cursor := ⟨off, []⟩ } : Lexer).next.1 = { kind := .eof, span := ⟨file, off, off⟩ } := by
  refine ⟨?_, rfl⟩
  induction n with
  | zero => rfl
  | succ n ih =>
    rw [skip_succ, ih]
    rfl

/-- From a cursor on a file the stream brings what the lexer cuts off there, and finds no other fault. -/
theorem skip_lexAll (file : Nat) {content : Bytes} {fuel : Nat} {c : Cursor} (on : c.On content)
    (enough : c.rest.length < fuel) (i : Nat) :
    (({ file, cursor := c } : Lexer).skip i).next.1 =
        answer (lexAll file fuel c) { kind := .eof, span := ⟨file, content.length, content.length⟩ } i ∧
      ∀ fault, (({ file, cursor := c } : Lexer).skip i).fault = some fault → (lexAll file fuel c).2 = some fault := by
  induction fuel generalizing c i with
  | zero => cases enough
  | succ fuel ih =>
    rw [lexAll]
    cases lexed : lexToken file (lexFuel c.rest) c with
    | error fault =>
      have taking : ({ file, cursor := c } : Lexer).next =
          (invalid fault, { file, cursor := c, fault := some fault }) := by
        simp only [next, advance, lexed]
      cases i with
      | zero => exact ⟨congrArg Prod.fst taking, fun _ found => by cases found⟩
      | succ i =>
        obtain ⟨stays, here⟩ := skip_fault { file, cursor := c, fault := some fault } rfl rfl i
        rw [skip, taking, stays]
        exact ⟨here, fun _ found => found⟩
    | ok cut =>
      obtain ⟨token, c'⟩ := cut
      have taking : ({ file, cursor := c } : Lexer).next = (token, { file, cursor := c' }) := by
        simp only [next, advance, lexed]
      have cut : CutOff file content c token c' := (lexersTile _).token on lexed
      cases i with
      | zero =>
        refine ⟨?_, fun _ found => by cases found⟩
        rw [skip, taking]
        dsimp only
        split <;> rfl
      | succ i =>
        rw [skip, taking]
        dsimp only
        split
        · next ended =>
          have left := lexToken_eof lexed ended
          have all := cut.on.length_rest
          obtain ⟨off, rest⟩ := c'
          cases left
          cases all
          obtain ⟨stays, here⟩ := skip_end file content.length i
          rw [stays]
          exact ⟨here, fun _ found => by cases found⟩
        · next more =>
          have past := cut.taken more
          have total := on.length_rest
          have rest := cut.on.length_rest
          exact ih cut.on (by omega) i

/-- **Looking ahead changes nothing**, whatever the calls are: the calls for a next token take the tokens of the file in
order, a look shows what is taken next, and to look again shows the same and leaves the stream as it is.  A fault that
was found is the one of the file and stays. -/
theorem looking_changes_nothing (f : SourceFile) (calls : List LexerCall) :
    let lx := (ofFile f).afterAll calls
    let n := calls.count .next
    (ofFile f).taken calls = (List.range n).map (tokenAt f) ∧ lx.next.1 = tokenAt f n ∧ lx.peek.1 = tokenAt f n ∧
      lx.peek.2.next = lx.next ∧ lx.peek.2.peek = lx.peek ∧
      ∀ fault, lx.fault = some fault → (tokenize f).2 = some fault ∧ ∀ more, (lx.afterAll more).fault = some fault := by
  intro lx n
  have on : Cursor.On f.content ⟨0, f.content⟩ := ⟨Nat.zero_le _, rfl⟩
  have brings (i : Nat) := skip_lexAll f.id on (Nat.lt_succ_self f.content.length) i
  have stands : (ofFile f).Stands 0 (ofFile f) := .inl rfl
  obtain ⟨here, taken⟩ := stands.afterAll calls
  rw [Nat.zero_add] at here
  have shown : lx.next.1 = tokenAt f n := (congrArg Prod.fst here.next_eq).trans (brings n).1
  refine ⟨?_, shown, shown, next_peek lx, peek_peek lx, fun fault found => ⟨?_, lx.fault_afterAll found⟩⟩
  · rw [taken, List.range_eq_range']
    exact List.map_congr_left fun i _ => (brings i).1
  · obtain same | same := here
    · exact (brings n).2 fault (same ▸ found)
    · refine (brings (n + 1)).2 fault ?_
      rw [skip_succ]
      exact (congrArg Lexer.fault same).symm.trans found

end Lexer

end LedgerScript
