import LedgerScript.Lexer.Scan

/-!
# Cutting a file into tokens

`lexToken` cuts one token, with the trivia before it, from the front of a text.  Every scanner only says how many
bytes belong to its token; the token is then `take`n and the rest `drop`ped, so no byte is lost or used twice.

A template string is the one token with an inner structure.  A hole is lexed by the same function until the brace
that closes it, and may hold templates again.  The three functions share one fuel; every second call at least
takes a byte, so `lexFuel` is enough for any text.

`Lexer` is the stream of tokens with one token of look-ahead, and `tokenize` drains it.
-/

namespace LedgerScript

/-- The next stretch of a file: the text from an offset on. -/
structure Cursor where
  /-- Offset of the first byte of `rest`. -/
  off : Nat
  rest : Bytes
  deriving DecidableEq, Repr, Inhabited

namespace Cursor

/-- The place after the next `n` bytes. -/
def advance (c : Cursor) (n : Nat) : Cursor :=
  ⟨c.off + n, c.rest.drop n⟩

def span (file : Nat) (c : Cursor) (n : Nat) : Span :=
  ⟨file, c.off, c.off + n⟩

end Cursor

/-- The trivia before the next token, and the place after them. -/
def lexLeading (file : Nat) : Nat → Cursor → Except LexFault (List Trivia × Cursor)
  | 0, c => .ok ([], c)
  | fuel + 1, c =>
    match scanTrivia c.rest with
    | .error stop => .error (.ofStop file c.off stop)
    | .ok none => .ok ([], c)
    | .ok (some (kind, n)) =>
      match lexLeading file fuel (c.advance n) with
      | .error fault => .error fault
      | .ok (more, finish) => .ok (⟨kind, c.span file n, c.rest.take n⟩ :: more, finish)

/-- A token of `n` bytes at a place, and the place after it. -/
def cutToken (file : Nat) (kind : TokenKind) (n : Nat) (leading : List Trivia) (c : Cursor) : Token × Cursor :=
  ({ kind, span := c.span file n, text := c.rest.take n, leading }, c.advance n)

/-- A token without inner structure, at a place that is not the end. -/
def lexPlain (file : Nat) (leading : List Trivia) (c : Cursor) : Except LexFault (Token × Cursor) :=
  let at' := LexFault.ofStop file c.off
  match c.rest with
  | [] => .ok (cutToken file .eof 0 leading c)
  | b :: rest =>
    if b == 95 && !rest.head?.any isWordByte then .ok (cutToken file (.symbol .underscore) 1 leading c)
    else if isWordStartByte b || 0x80 ≤ b then
      match scanWord c.rest with
      | .ok n => .ok (cutToken file (wordKind (c.rest.take n)) n leading c)
      | .error stop => .error (at' stop)
    else if isDecimalByte b || (b == 46 && startsWithDigit rest) then
      match scanNumber c.rest with
      | .ok (kind, n) => .ok (cutToken file (.literal kind) n leading c)
      | .error stop => .error (at' stop)
    else if b == ascii '"' then
      match scanString c.rest with
      | .ok n => .ok (cutToken file (.literal .string) n leading c)
      | .error stop => .error (at' stop)
    else if b == ascii '\'' then
      match scanChar c.rest with
      | .ok n => .ok (cutToken file (.literal .char) n leading c)
      | .error stop => .error (at' stop)
    else
      match scanSymbol c.rest with
      | .ok (s, n) => .ok (cutToken file (.symbol s) n leading c)
      | .error stop => .error (at' stop)

/-- The byte that opens and closes a template string. -/
def isTemplateQuote (b : UInt8) : Bool :=
  b == 96

mutual

/-- The next token with the trivia before it, and the place after it. -/
def lexToken (file : Nat) : Nat → Cursor → Except LexFault (Token × Cursor)
  | 0, c => .ok (cutToken file .eof 0 [] c)
  | fuel + 1, c =>
    match lexLeading file c.rest.length c with
    | .error fault => .error fault
    | .ok (leading, start) =>
      if start.rest.head?.any isTemplateQuote then
        match lexTemplate file fuel start (start.advance 1) [] [] with
        | .error fault => .error fault
        | .ok (parts, finish) =>
          let (token, next) := cutToken file (.literal .template) (finish.off - start.off) leading start
          .ok ({ token with parts }, next)
      else lexPlain file leading start

/-- The rest of a template string that starts at `start`: `text` holds the bytes, last first, since the last hole
and `parts` the parts, last first. -/
def lexTemplate (file : Nat) : Nat → Cursor → Cursor → Bytes → List TemplatePart →
    Except LexFault (List TemplatePart × Cursor)
  | 0, start, c, _, _ => .error ⟨.openTemplate, ⟨file, start.off, c.off⟩⟩
  | fuel + 1, start, c, text, parts =>
    match c.rest with
    | [] => .error ⟨.openTemplate, ⟨file, start.off, c.off⟩⟩
    | b :: rest =>
      if isTemplateQuote b then .ok ((⟨text.reverse, none⟩ :: parts).reverse, c.advance 1)
      else if b == ascii '\\' then
        match readEscape c.rest with
        | .ok (char, n) =>
          lexTemplate file fuel start (c.advance n) ((Text.encodeChar char).reverse ++ text) parts
        | .error (cause, n) => .error ⟨cause, c.span file n⟩
      else if b == ascii '$' && rest.head? == some 123 then
        match lexHole file fuel start (c.advance 2) 0 [] with
        | .error fault => .error fault
        | .ok (tokens, close, next) =>
          let hole := { tokens, span := ⟨file, c.off + 2, close⟩ }
          lexTemplate file fuel start next [] (⟨text.reverse, some hole⟩ :: parts)
      else
        match Text.decode? c.rest with
        | some (_, n) => lexTemplate file fuel start (c.advance n) ((c.rest.take n).reverse ++ text) parts
        | none => .error ⟨.invalidUtf8, c.span file 0⟩

/-- The tokens of a hole up to the brace that closes it, the offset of that brace, and the place after it; `depth`
counts the braces that are open inside and `tokens` holds the tokens so far, last first. -/
def lexHole (file : Nat) : Nat → Cursor → Cursor → Nat → List Token →
    Except LexFault (List Token × Nat × Cursor)
  | 0, start, c, _, _ => .error ⟨.openHole, ⟨file, start.off, c.off⟩⟩
  | fuel + 1, start, c, depth, tokens =>
    match lexToken file fuel c with
    | .error fault => .error fault
    | .ok (token, next) =>
      match token.kind, depth with
      | .eof, _ => .error ⟨.openHole, ⟨file, start.off, next.off⟩⟩
      | .symbol .rbrace, 0 =>
        let finish : Token :=
          { kind := .eof, span := { token.span with stop := token.span.start }, leading := token.leading }
        .ok ((finish :: tokens).reverse, token.span.start, next)
      | .symbol .rbrace, depth + 1 => lexHole file fuel start next depth (token :: tokens)
      | .symbol .lbrace, depth => lexHole file fuel start next (depth + 1) (token :: tokens)
      | _, depth => lexHole file fuel start next depth (token :: tokens)

end

def lexFuel (text : Bytes) : Nat :=
  3 * text.length + 4

/-- The stream of the tokens of a file. -/
structure Lexer where
  /-- Index of the file. -/
  file : Nat
  cursor : Cursor
  look : Option Token := none
  /-- The first fault. -/
  fault : Option LexFault := none

namespace Lexer

/-- The stream at the start of a file. -/
def ofFile (f : SourceFile) : Lexer :=
  { file := f.id, cursor := ⟨0, f.content⟩ }

def invalid (fault : LexFault) : Token :=
  { kind := .invalid, span := fault.span }

/-- Takes a token that was not looked at before. -/
def advance (lx : Lexer) : Token × Lexer :=
  match lx.fault with
  | some fault => (invalid fault, lx)
  | none =>
    match lexToken lx.file (lexFuel lx.cursor.rest) lx.cursor with
    | .ok (token, cursor) => (token, { lx with cursor })
    | .error fault => (invalid fault, { lx with fault := some fault })

/-- Takes the next token.  At the end it is the end again and again, after a fault the invalid token. -/
def next (lx : Lexer) : Token × Lexer :=
  match lx.look with
  | some token => (token, { lx with look := none })
  | none => lx.advance

def peek (lx : Lexer) : Token × Lexer :=
  let (token, lx) := lx.next
  (token, { lx with look := some token })

end Lexer

/-- The tokens of a text, the end included, or those before the first fault. -/
def lexAll (file : Nat) : Nat → Cursor → List Token × Option LexFault
  | 0, _ => ([], none)
  | fuel + 1, c =>
    match lexToken file (lexFuel c.rest) c with
    | .error fault => ([], some fault)
    | .ok (token, next) =>
      if token.kind = .eof then ([token], none)
      else
        let (more, fault) := lexAll file fuel next
        (token :: more, fault)

/-- The tokens of a file, the end included, or those before the first fault and the fault. -/
def tokenize (f : SourceFile) : List Token × Option LexFault :=
  lexAll f.id (f.content.length + 1) ⟨0, f.content⟩

end LedgerScript
