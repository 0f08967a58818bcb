import LedgerScript.Lexer.Scan
import LedgerScript.Printer.Basic
import LedgerScript.Proofs.Text.Utf8
import Mathlib.Tactic.Common

/-!
# Operator expressions as lists of words

An operator expression is built from names, literals and parentheses by operators, calls, members, indexes, arrays, tuples and
sets.  Its printed form is a list of lexemes, each the text of a token, with a blank before some of them: around operators
between operands, after a comma and after a word in front of an operand, and between two minus signs.
-/

namespace LedgerScript

variable {ws : List Lexeme}

/-! ## Lexemes -/

/-- A token as it is written: its kind, its text, and whether a blank stands before it. -/
structure Lexeme where
  blank : Bool
  kind : TokenKind
  text : Bytes
  deriving DecidableEq, Repr

/-- What a token is to the parser of operator expressions. -/
def Token.face (t : Token) : TokenKind × Bytes :=
  (t.kind, t.text)

namespace Lexeme

/-- A symbol right behind what is before it. -/
def symbol (s : Symbol) : Lexeme :=
  ⟨false, .symbol s, utf8 s.spelling⟩

/-- A reserved word. -/
def keyword (k : Keyword) : Lexeme :=
  ⟨false, .keyword k, utf8 k.spelling⟩

/-- A name, which may be a reserved word where a member or a type is named. -/
def word (name : String) : Lexeme :=
  ⟨false, wordKind (utf8 name), utf8 name⟩

def face (w : Lexeme) : TokenKind × Bytes :=
  (w.kind, w.text)

def bytes (w : Lexeme) : Bytes :=
  if w.blank then 32 :: w.text else w.text

end Lexeme

/-- Lexemes with a blank in front. -/
def spaced : List Lexeme → List Lexeme
  | [] => []
  | w :: ws => { w with blank := true } :: ws

def written (ws : List Lexeme) : Bytes :=
  ws.flatMap Lexeme.bytes

/-- The written text starts with a minus sign. -/
def startsMinus (ws : List Lexeme) : Bool :=
  (written ws).head? == some 45

def parenthesizedLexemes (ws : List Lexeme) : List Lexeme :=
  .symbol .lparen :: (ws ++ [.symbol .rparen])

section

variable (w : Lexeme) (ws vs : List Lexeme)

@[simp] theorem map_face_spaced : (spaced ws).map Lexeme.face = ws.map Lexeme.face := by
  cases ws <;> rfl

@[simp] theorem written_nil : written [] = [] :=
  rfl

@[simp] theorem written_cons : written (w :: ws) = w.bytes ++ written ws :=
  List.flatMap_cons

@[simp] theorem written_append : written (ws ++ vs) = written ws ++ written vs :=
  List.flatMap_append

@[simp] theorem bytes_symbol (s : Symbol) : (Lexeme.symbol s).bytes = utf8 s.spelling :=
  rfl

@[simp] theorem bytes_keyword (k : Keyword) : (Lexeme.keyword k).bytes = utf8 k.spelling :=
  rfl

@[simp] theorem utf8_blank : utf8 " " = [32] :=
  rfl

@[simp] theorem written_spaced_single : written (spaced [w]) = 32 :: w.text :=
  List.append_nil _

@[simp] theorem bytes_word (name : String) : (Lexeme.word name).bytes = utf8 name :=
  rfl

variable {ws}

theorem written_spaced (some : ws ≠ []) (tight : ∀ w ∈ ws.head?, w.blank = false) : written (spaced ws) = 32 :: written ws := by
  obtain ⟨w, ws, rfl⟩ := List.exists_cons_of_ne_nil some
  have plain : w.blank = false := tight w rfl
  simp [spaced, plain, Lexeme.bytes]

end

/-! ## Types -/

def bracketPairs (n : Nat) : List Lexeme :=
  (List.replicate n [Lexeme.symbol .lbracket, .symbol .rbracket]).flatten

namespace TypeRef

mutual

def lexemes : TypeRef → List Lexeme
  | mk _ name args arrays => .word name :: (argLexemes args ++ bracketPairs arrays)

/-- The type arguments in their brackets; nothing if there are none. -/
def argLexemes : List TypeRef → List Lexeme
  | [] => []
  | t :: rest => .symbol .lt :: (lexemes t ++ moreLexemes rest)

/-- The type arguments after the first, and the closing bracket. -/
def moreLexemes : List TypeRef → List Lexeme
  | [] => [.symbol .gt]
  | t :: rest => .symbol .comma :: (spaced (lexemes t) ++ moreLexemes rest)

end

mutual

def bare : TypeRef → TypeRef
  | mk _ name args arrays => mk {} name (bareEach args) arrays

def bareEach : List TypeRef → List TypeRef
  | [] => []
  | t :: rest => bare t :: bareEach rest

end

end TypeRef

/-! ## Expressions -/

def LiteralValue.tokenKind : LiteralValue → TokenKind
  | null => .keyword .null_
  | bool true => .keyword .true_
  | bool false => .keyword .false_
  | int _ | long _ | short _ => .literal .int
  | float _ | double _ => .literal .float
  | string _ => .literal .string
  | char _ => .literal .char

/-- A literal as lexemes: a minus sign that belongs to a number is a token of its own. -/
def literalLexemes (raw : Bytes) (kind : TokenKind) : List Lexeme :=
  match raw with
  | 45 :: digits => [.symbol .minus, ⟨false, kind, digits⟩]
  | raw => [⟨false, kind, raw⟩]

/-- The operand of a prefix operator, kept apart from it if two minus signs would meet. -/
def operandLexemes (op : UnaryOp) (x : List Lexeme) : List Lexeme :=
  if (op = .negate || op = .step .decrement) && startsMinus x then spaced x else x

namespace Expr

/-- The expression is made of names, literals, `this`, parentheses, operators, types that are tested for, objects, calls,
members, indexes, arrays, tuples, sets and spread elements alone. -/
inductive Operational : Expr → Prop where
  | literal {s raw v} : Operational (.literal s raw v)
  | ident {s name} : Operational (.ident s name)
  | this {s} : Operational (.this s)
  | paren {s x} (inner : Operational x) : Operational (.paren s x)
  | unary {s op x} (operand : Operational x) : Operational (.unary s op x)
  | stepAfter {s op x} (operand : Operational x) : Operational (.stepAfter s op x)
  | binary {s op x y} (left : Operational x) (right : Operational y) : Operational (.binary s op x y)
  | is {s x type} (operand : Operational x) : Operational (.is s x type)
  | typeof {s x} (operand : Operational x) : Operational (.typeof s x)
  | await {s x} (operand : Operational x) : Operational (.await s x)
  | spawn {s x} (operand : Operational x) : Operational (.spawn s x)
  | new {s cls hasArgs args} (name : Operational cls) (each : ∀ x ∈ args, Operational x) : Operational (.new s cls hasArgs args)
  | assign {s op x y} (target : Operational x) (value : Operational y) : Operational (.assign s op x y)
  | ternary {s x y z} (cond : Operational x) (yes : Operational y) (no : Operational z) : Operational (.ternary s x y z)
  | call {s fn args optional} (callee : Operational fn) (each : ∀ x ∈ args, Operational x) : Operational (.call s fn args optional)
  | member {s x name optional} (owner : Operational x) : Operational (.member s x name optional)
  | index {s x i} (owner : Operational x) (place : Operational i) : Operational (.index s x i)
  | array {s xs} (each : ∀ x ∈ xs, Operational x) : Operational (.array s xs)
  | tuple {s xs} (each : ∀ x ∈ xs, Operational x) : Operational (.tuple s xs)
  | set {s xs} (each : ∀ x ∈ xs, Operational x) : Operational (.set s xs)
  | spread {s x} (elements : Operational x) : Operational (.spread s x)

mutual

def lexemes : Expr → List Lexeme
  | literal _ raw v => literalLexemes raw v.tokenKind
  | ident _ n => [.word n]
  | this _ => [.keyword .this_]
  | paren _ x => parenthesizedLexemes (lexemes x)
  | unary _ op x => .symbol op.symbol :: operandLexemes op (lexemes x)
  | stepAfter _ op x => lexemes x ++ [.symbol op.symbol]
  | binary _ op x y => lexemes x ++ (spaced [.symbol op.symbol] ++ spaced (lexemes y))
  | is _ x t => lexemes x ++ (spaced [.keyword .is_] ++ spaced t.lexemes)
  | typeof _ x => .keyword .typeof_ :: spaced (lexemes x)
  | await _ x => .keyword .await_ :: spaced (lexemes x)
  | spawn _ x => .keyword .spawn_ :: spaced (lexemes x)
  | new _ c hasArgs args =>
    .keyword .new_ :: (spaced (lexemes c) ++ if hasArgs then parenthesizedLexemes (listLexemes args) else [])
  | assign _ op t v => lexemes t ++ (spaced [.symbol op.symbol] ++ spaced (lexemes v))
  | ternary _ c y n =>
    lexemes c ++ (spaced [.symbol .question] ++ (spaced (lexemes y) ++ (spaced [.symbol .colon] ++ spaced (lexemes n))))
  | call _ f args _ => lexemes f ++ parenthesizedLexemes (listLexemes args)
  | member _ x n opt => lexemes x ++ [.symbol (if opt then .questionDot else .dot), .word n]
  | index _ x i => lexemes x ++ .symbol .lbracket :: (lexemes i ++ [.symbol .rbracket])
  | array _ xs => .symbol .lbracket :: (listLexemes xs ++ [.symbol .rbracket])
  | tuple _ xs => parenthesizedLexemes (listLexemes xs ++ if xs.length = 1 then [.symbol .comma] else [])
  | set _ xs => .symbol .hash :: .symbol .lbrace :: (listLexemes xs ++ [.symbol .rbrace])
  | spread _ x => .symbol .dotDotDot :: lexemes x
  | _ => []

def listLexemes : List Expr → List Lexeme
  | [] => []
  | x :: xs => lexemes x ++ moreLexemes xs

def moreLexemes : List Expr → List Lexeme
  | [] => []
  | x :: xs => .symbol .comma :: (spaced (lexemes x) ++ moreLexemes xs)

end

mutual

/-- An operator expression without its spans. -/
def bare : Expr → Expr
  | literal _ raw v => literal {} raw v
  | ident _ n => ident {} n
  | this _ => this {}
  | paren _ x => paren {} (bare x)
  | unary _ op x => unary {} op (bare x)
  | stepAfter _ op x => stepAfter {} op (bare x)
  | binary _ op x y => binary {} op (bare x) (bare y)
  | is _ x t => is {} (bare x) t.bare
  | typeof _ x => typeof {} (bare x)
  | await _ x => await {} (bare x)
  | spawn _ x => spawn {} (bare x)
  | new _ c hasArgs args => new {} (bare c) hasArgs (bareEach args)
  | assign _ op t v => assign {} op (bare t) (bare v)
  | ternary _ c y n => ternary {} (bare c) (bare y) (bare n)
  | call _ f args opt => call {} (bare f) (bareEach args) opt
  | member _ x n opt => member {} (bare x) n opt
  | index _ x i => index {} (bare x) (bare i)
  | array _ xs => array {} (bareEach xs)
  | tuple _ xs => tuple {} (bareEach xs)
  | set _ xs => set {} (bareEach xs)
  | spread _ x => spread {} (bare x)
  | x => x

def bareEach : List Expr → List Expr
  | [] => []
  | x :: xs => bare x :: bareEach xs

end

end Expr

/-! ## Shapes -/

namespace Expr

theorem literalLexemes_cases (raw : Bytes) (kind : TokenKind) :
    (∃ digits, raw = 45 :: digits ∧ literalLexemes raw kind = [.symbol .minus, ⟨false, kind, digits⟩]) ∨
      literalLexemes raw kind = [⟨false, kind, raw⟩] := by
  unfold literalLexemes
  split
  · exact .inl ⟨_, rfl, rfl⟩
  · exact .inr rfl

theorem written_literalLexemes (raw : Bytes) (kind : TokenKind) : written (literalLexemes raw kind) = raw := by
  unfold literalLexemes
  split
  · exact congrArg (45 :: ·) (List.append_nil _)
  · exact List.append_nil raw

theorem Operational.tight {x : Expr} (operational : x.Operational) : ∃ w ws, x.lexemes = w :: ws ∧ w.blank = false := by
  induction operational with
  | @literal s raw v =>
    rw [lexemes]
    rcases literalLexemes_cases raw v.tokenKind with ⟨digits, -, same⟩ | same <;> exact ⟨_, _, same, rfl⟩
  | ident | this | paren | unary | typeof | await | spawn | new | array | tuple | set | spread =>
    rw [lexemes]
    exact ⟨_, _, rfl, rfl⟩
  | stepAfter _ ih | binary _ _ ih | is _ ih | assign _ _ ih | ternary _ _ _ ih | call _ _ ih | member _ ih | index _ _ ih =>
    obtain ⟨w, ws, same, tight⟩ := ih
    rw [lexemes, same]
    exact ⟨_, _, rfl, tight⟩

theorem Operational.written_spaced {x : Expr} (operational : x.Operational) :
    written (spaced x.lexemes) = 32 :: written x.lexemes := by
  obtain ⟨w, ws, same, tight⟩ := operational.tight
  rw [same]
  exact LedgerScript.written_spaced (List.cons_ne_nil w ws) (by simpa using tight)

end Expr

/-! ## Printing -/

namespace Layout

def IsFlat (l : Layout) : Prop :=
  ∀ p ∈ l, ∃ t, p = .text t

def flat (l : Layout) : Bytes :=
  l.flatMap fun p => match p with
    | .text t => t
    | _ => []

variable {l m : Layout} {t : Bytes}

@[simp] theorem isFlat_nil : IsFlat [] :=
  nofun

@[simp] theorem isFlat_text : IsFlat (.text t :: l) ↔ l.IsFlat := by
  simp [IsFlat]

@[simp] theorem isFlat_fixed (s : String) : (fixed s).IsFlat :=
  isFlat_text.2 isFlat_nil

@[simp] theorem isFlat_append : (l ++ m).IsFlat ↔ l.IsFlat ∧ m.IsFlat :=
  List.forall_mem_append

@[simp] theorem flat_nil : flat [] = [] :=
  rfl

@[simp] theorem flat_text : flat (.text t :: l) = t ++ l.flat :=
  List.flatMap_cons

@[simp] theorem flat_fixed (s : String) : (fixed s).flat = utf8 s :=
  List.append_nil _

@[simp] theorem flat_append : (l ++ m).flat = l.flat ++ m.flat :=
  List.flatMap_append

theorem startsWith_eq (isFlat : l.IsFlat) (b : UInt8) : l.startsWith b = (l.flat.head? == some b) := by
  induction l with
  | nil => rfl
  | cons p l ih =>
    obtain ⟨⟨t, rfl⟩, rest⟩ := List.forall_mem_cons.mp isFlat
    cases t with
    | nil => exact ih rest
    | cons c t => rfl

theorem foldl_write (unit : Bytes) (isFlat : l.IsFlat) {s : RenderState} (level : s.depth = 0) :
    (l.foldl (RenderState.write unit) s).out.reverse = s.out.reverse ++ l.flat := by
  induction l generalizing s with
  | nil => simp
  | cons p l ih =>
    obtain ⟨⟨t, rfl⟩, rest⟩ := List.forall_mem_cons.mp isFlat
    cases t with
    | nil => exact ih rest level
    | cons c t =>
      rw [List.foldl_cons, ih rest (by exact level)]
      simp [RenderState.write, level]

/-- Texts alone are written one behind the other. -/
theorem render_eq (style : IndentStyle) (isFlat : l.IsFlat) : l.render style = l.flat :=
  foldl_write _ isFlat rfl

end Layout

structure Layout.Puts (l : Layout) (ws : List Lexeme) : Prop where
  isFlat : l.IsFlat
  flat : l.flat = written ws

@[simp] theorem utf8_append (s t : String) : utf8 (s ++ t) = utf8 s ++ utf8 t := by
  simp [Text.utf8_eq_encode, Text.encode]

def Filled (ws : List Lexeme) : Prop :=
  ∀ f ∈ ws.map Lexeme.face, f.2 ≠ []

theorem filled_append {vs : List Lexeme} : Filled (ws ++ vs) ↔ Filled ws ∧ Filled vs := by
  simp only [Filled, List.map_append, List.forall_mem_append]

theorem filled_cons {w : Lexeme} : Filled (w :: ws) ↔ w.text ≠ [] ∧ Filled ws :=
  List.forall_mem_cons

theorem filled_spaced : Filled (spaced ws) ↔ Filled ws := by
  rw [Filled, map_face_spaced, Filled]

theorem filled_operand {op : UnaryOp} : Filled (operandLexemes op ws) ↔ Filled ws := by
  unfold operandLexemes
  split
  · exact filled_spaced
  · rfl

theorem utf8_join (n : Nat) : utf8 (String.join (List.replicate n "[]")) = written (bracketPairs n) := by
  induction n with
  | zero => rfl
  | succ n ih =>
    rw [List.replicate_succ, String.join_cons, utf8_append, ih]
    rfl

theorem TypeRef.tight (t : TypeRef) : ∃ w ws, t.lexemes = w :: ws ∧ w.blank = false := by
  cases t
  rw [lexemes]
  exact ⟨_, _, rfl, rfl⟩

theorem TypeRef.written_spaced (t : TypeRef) : written (spaced t.lexemes) = 32 :: written t.lexemes := by
  obtain ⟨w, ws, same, tight⟩ := t.tight
  rw [same]
  exact LedgerScript.written_spaced (List.cons_ne_nil w ws) (by simpa using tight)

mutual

theorem TypeRef.utf8_text : (t : TypeRef) → utf8 t.text = written t.lexemes
  | .mk _ name [] arrays => by
    simp [text, lexemes, argLexemes, utf8_join]
  | .mk _ name (first :: rest) arrays => by
    have one := TypeRef.utf8_text first
    have more := TypeRef.utf8_textMore rest
    simp [text, lexemes, argLexemes, utf8_join, one, more, Symbol.spelling]

theorem TypeRef.utf8_textMore : (ts : List TypeRef) → utf8 (TypeRef.textMore ts) = written (TypeRef.moreLexemes ts)
  | [] => rfl
  | t :: rest => by
    have one := TypeRef.utf8_text t
    have more := TypeRef.utf8_textMore rest
    simp [textMore, moreLexemes, one, more, t.written_spaced, Symbol.spelling]
    rfl

end

namespace Expr

theorem puts_list {xs : List Expr} (operational : ∀ x ∈ xs, x.Operational) (filled : Filled (listLexemes xs))
    (each : ∀ x ∈ xs, Filled x.lexemes → (printExpr x).Puts x.lexemes) : (printList xs).Puts (listLexemes xs) := by
  have more : ∀ xs : List Expr, (∀ x ∈ xs, x.Operational) → Filled (moreLexemes xs) →
      (∀ x ∈ xs, Filled x.lexemes → (printExpr x).Puts x.lexemes) → (printMore xs).Puts (moreLexemes xs) := by
    intro xs
    induction xs with
    | nil =>
      intros
      exact ⟨by simp [printMore], by simp [printMore, moreLexemes]⟩
    | cons x xs ih =>
      intro operational filled each
      rw [moreLexemes, filled_cons, filled_append, filled_spaced] at filled
      obtain ⟨first, others⟩ := List.forall_mem_cons.mp operational
      obtain ⟨one, rest⟩ := List.forall_mem_cons.mp each
      obtain ⟨isFlat, flat⟩ := one filled.2.1
      obtain ⟨isFlat', flat'⟩ := ih others filled.2.2 rest
      refine ⟨by simp [printMore, isFlat, isFlat'], ?_⟩
      simp [printMore, moreLexemes, flat, flat', first.written_spaced]
      rfl
  cases xs with
  | nil => exact ⟨by simp [printList], by simp [printList, listLexemes]⟩
  | cons x xs =>
    rw [listLexemes, filled_append] at filled
    obtain ⟨first, others⟩ := List.forall_mem_cons.mp operational
    obtain ⟨one, rest⟩ := List.forall_mem_cons.mp each
    obtain ⟨isFlat, flat⟩ := one filled.1
    obtain ⟨isFlat', flat'⟩ := more xs others filled.2 rest
    exact ⟨by simp [printList, isFlat, isFlat'], by simp [printList, listLexemes, flat, flat']⟩

theorem Operational.puts {x : Expr} (operational : x.Operational) (filled : Filled x.lexemes) :
    (printExpr x).Puts x.lexemes := by
  induction operational with
  | @literal s raw v =>
    cases raw with
    | nil => exact absurd rfl (filled _ List.mem_cons_self)
    | cons b rest =>
      exact ⟨by simp [printExpr], by simp [printExpr, lexemes, written_literalLexemes]⟩
  | ident | this => exact ⟨by simp [printExpr, word], by simp [printExpr, lexemes, word, Keyword.spelling]⟩
  | paren _ ih =>
    rw [lexemes, parenthesizedLexemes, filled_cons, filled_append] at filled
    obtain ⟨isFlat, flat⟩ := ih filled.2.1
    exact ⟨by simp [printExpr, isFlat], by simp [printExpr, lexemes, parenthesizedLexemes, flat, Symbol.spelling]⟩
  | @unary s op x operand ih =>
    rw [lexemes, filled_cons, filled_operand] at filled
    obtain ⟨isFlat, flat⟩ := ih filled.2
    have minus : (printExpr x).startsWith 45 = startsMinus x.lexemes := by rw [Layout.startsWith_eq isFlat, flat, startsMinus]
    rw [printExpr, printUnary, lexemes, operandLexemes, minus]
    split
    · exact ⟨by simp [word, isFlat], by simp [word, flat, operand.written_spaced]⟩
    · exact ⟨by simp [word, isFlat], by simp [word, flat]⟩
  | stepAfter _ ih =>
    rw [lexemes, filled_append] at filled
    obtain ⟨isFlat, flat⟩ := ih filled.1
    exact ⟨by simp [printExpr, word, isFlat], by simp [printExpr, lexemes, word, flat]⟩
  | binary _ right ih ih' | assign _ right ih ih' =>
    rw [lexemes, filled_append, filled_append, filled_spaced, filled_spaced] at filled
    obtain ⟨isFlat, flat⟩ := ih filled.1
    obtain ⟨isFlat', flat'⟩ := ih' filled.2.2
    exact ⟨by simp [printExpr, word, isFlat, isFlat'],
      by simp [printExpr, lexemes, word, flat, flat', right.written_spaced, Lexeme.symbol]⟩
  | @is s x type _ ih =>
    rw [lexemes, filled_append] at filled
    obtain ⟨isFlat, flat⟩ := ih filled.1
    refine ⟨by simp [printExpr, word, isFlat], ?_⟩
    simp [printExpr, lexemes, word, flat, type.written_spaced, type.utf8_text, Lexeme.keyword, Keyword.spelling]
    rfl
  | typeof operand ih | await operand ih | spawn operand ih =>
    rw [lexemes, filled_cons, filled_spaced] at filled
    obtain ⟨isFlat, flat⟩ := ih filled.2
    refine ⟨by simp [printExpr, isFlat], ?_⟩
    simp [printExpr, lexemes, flat, operand.written_spaced, Keyword.spelling]
    rfl
  | @new s cls hasArgs args name each ih ih' =>
    rw [lexemes, filled_cons, filled_append, filled_spaced] at filled
    obtain ⟨isFlat, flat⟩ := ih filled.2.1
    cases hasArgs with
    | false =>
      refine ⟨by simp [printExpr, isFlat], ?_⟩
      simp [printExpr, lexemes, flat, name.written_spaced, Keyword.spelling]
      rfl
    | true =>
      rw [if_pos rfl, parenthesizedLexemes, filled_cons, filled_append] at filled
      obtain ⟨isFlat', flat'⟩ := puts_list each filled.2.2.2.1 ih'
      refine ⟨by simp [printExpr, parens, isFlat, isFlat'], ?_⟩
      simp [printExpr, lexemes, parens, parenthesizedLexemes, flat, flat', name.written_spaced, Keyword.spelling, Symbol.spelling]
      rfl
  | ternary _ yes no ih ih' ih'' =>
    rw [lexemes, filled_append, filled_append, filled_append, filled_append, filled_spaced, filled_spaced, filled_spaced,
      filled_spaced] at filled
    obtain ⟨isFlat, flat⟩ := ih filled.1
    obtain ⟨isFlat', flat'⟩ := ih' filled.2.2.1
    obtain ⟨isFlat'', flat''⟩ := ih'' filled.2.2.2.2
    refine ⟨by simp [printExpr, isFlat, isFlat', isFlat''], ?_⟩
    simp [printExpr, lexemes, flat, flat', flat'', yes.written_spaced, no.written_spaced, Lexeme.symbol, Symbol.spelling]
    rfl
  | call _ each ih ih' =>
    rw [lexemes, filled_append, parenthesizedLexemes, filled_cons, filled_append] at filled
    obtain ⟨isFlat, flat⟩ := ih filled.1
    obtain ⟨isFlat', flat'⟩ := puts_list each filled.2.2.1 ih'
    exact ⟨by simp [printExpr, parens, isFlat, isFlat'],
      by simp [printExpr, lexemes, parens, parenthesizedLexemes, flat, flat', Symbol.spelling]⟩
  | @member s x name optional _ ih =>
    rw [lexemes, filled_append] at filled
    obtain ⟨isFlat, flat⟩ := ih filled.1
    refine ⟨by simp [printExpr, word, isFlat], ?_⟩
    cases optional <;> simp [printExpr, lexemes, word, flat, Symbol.spelling]
  | index _ _ ih ih' =>
    rw [lexemes, filled_append, filled_cons, filled_append] at filled
    obtain ⟨isFlat, flat⟩ := ih filled.1
    obtain ⟨isFlat', flat'⟩ := ih' filled.2.2.1
    exact ⟨by simp [printExpr, isFlat, isFlat'], by simp [printExpr, lexemes, flat, flat', Symbol.spelling]⟩
  | array each ih =>
    rw [lexemes, filled_cons, filled_append] at filled
    obtain ⟨isFlat, flat⟩ := puts_list each filled.2.1 ih
    exact ⟨by simp [printExpr, isFlat], by simp [printExpr, lexemes, flat, Symbol.spelling]⟩
  | @tuple s xs each ih =>
    rw [lexemes, parenthesizedLexemes, filled_cons, filled_append, filled_append] at filled
    obtain ⟨isFlat, flat⟩ := puts_list each filled.2.1.1 ih
    rw [printExpr, lexemes, parenthesizedLexemes]
    split
    · exact ⟨by simp [isFlat], by simp [flat, Symbol.spelling]⟩
    · exact ⟨by simp [isFlat], by simp [flat, Symbol.spelling]⟩
  | set each ih =>
    rw [lexemes, filled_cons, filled_cons, filled_append] at filled
    obtain ⟨isFlat, flat⟩ := puts_list each filled.2.2.1 ih
    refine ⟨by simp [printExpr, openBrace, closeBrace, isFlat], ?_⟩
    simp [printExpr, lexemes, openBrace, closeBrace, flat, Symbol.spelling]
    rfl
  | spread _ ih =>
    rw [lexemes, filled_cons] at filled
    obtain ⟨isFlat, flat⟩ := ih filled.2
    exact ⟨by simp [printExpr, isFlat], by simp [printExpr, lexemes, flat, Symbol.spelling]⟩

theorem Operational.print_eq {x : Expr} (operational : x.Operational) (filled : Filled x.lexemes) :
    x.print = written x.lexemes := by
  obtain ⟨isFlat, flat⟩ := operational.puts filled
  rw [print, Layout.render_eq _ isFlat, flat]

end Expr

end LedgerScript
