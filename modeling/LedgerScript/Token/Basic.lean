import LedgerScript.Source.File
import LedgerScript.Text.Quoted

/-!
# Tokens

A file is cut into tokens.  Each has a kind and what it was cut from.
-/

namespace LedgerScript

/-!
## Kinds of tokens

A token is a reserved word, a symbol, a name, a literal, or the end of the text; the kind `invalid` stands for the
place where lexing stopped.  Each reserved word and each symbol has one spelling.
-/

/-- The reserved words. -/
inductive Keyword where
  | let_ | var_ | const_ | readonly_ | function_ | class_ | extends_ | implements_
  | interface_ | abstract_ | static_ | public_ | private_ | protected_ | async_ | await_
  | spawn_ | return_ | if_ | else_ | while_ | for_ | foreach_ | in_
  | do_ | break_ | continue_ | match_ | switch_ | case_ | default_ | try_
  | catch_ | finally_ | throw_ | new_ | this_ | super_ | null_ | true_
  | false_ | import_ | export_ | blockchain_ | contract_ | ledger_ | transaction_ | validate_
  | emit_ | constructor_ | lock_ | unlock_ | is_ | typeof_ | payable_ | view_
  | pure_
  deriving DecidableEq, Repr, Inhabited

namespace Keyword

/-- How a reserved word is written. -/
def spelling : Keyword → String
  | .let_ => "let"
  | .var_ => "var"
  | .const_ => "const"
  | .readonly_ => "readonly"
  | .function_ => "function"
  | .class_ => "class"
  | .extends_ => "extends"
  | .implements_ => "implements"
  | .interface_ => "interface"
  | .abstract_ => "abstract"
  | .static_ => "static"
  | .public_ => "public"
  | .private_ => "private"
  | .protected_ => "protected"
  | .async_ => "async"
  | .await_ => "await"
  | .spawn_ => "spawn"
  | .return_ => "return"
  | .if_ => "if"
  | .else_ => "else"
  | .while_ => "while"
  | .for_ => "for"
  | .foreach_ => "foreach"
  | .in_ => "in"
  | .do_ => "do"
  | .break_ => "break"
  | .continue_ => "continue"
  | .match_ => "match"
  | .switch_ => "switch"
  | .case_ => "case"
  | .default_ => "default"
  | .try_ => "try"
  | .catch_ => "catch"
  | .finally_ => "finally"
  | .throw_ => "throw"
  | .new_ => "new"
  | .this_ => "this"
  | .super_ => "super"
  | .null_ => "null"
  | .true_ => "true"
  | .false_ => "false"
  | .import_ => "import"
  | .export_ => "export"
  | .blockchain_ => "blockchain"
  | .contract_ => "contract"
  | .ledger_ => "ledger"
  | .transaction_ => "transaction"
  | .validate_ => "validate"
  | .emit_ => "emit"
  | .constructor_ => "constructor"
  | .lock_ => "lock"
  | .unlock_ => "unlock"
  | .is_ => "is"
  | .typeof_ => "typeof"
  | .payable_ => "payable"
  | .view_ => "view"
  | .pure_ => "pure"

/-- All reserved words. -/
def all : List Keyword :=
  [.let_, .var_, .const_, .readonly_, .function_, .class_, .extends_, .implements_, .interface_, .abstract_,
   .static_, .public_, .private_, .protected_, .async_, .await_, .spawn_, .return_, .if_, .else_, .while_,
   .for_, .foreach_, .in_, .do_, .break_, .continue_, .match_, .switch_, .case_, .default_, .try_, .catch_,
   .finally_, .throw_, .new_, .this_, .super_, .null_, .true_, .false_, .import_, .export_, .blockchain_,
   .contract_, .ledger_, .transaction_, .validate_, .emit_, .constructor_, .lock_, .unlock_, .is_, .typeof_,
   .payable_, .view_, .pure_]

theorem mem_all (k : Keyword) : k ∈ all := by
  cases k <;> decide

end Keyword

/-- Operators and punctuation. -/
inductive Symbol where
  | plus | minus | star | slash | percent | assign | plusAssign | minusAssign
  | starAssign | slashAssign | percentAssign | plusPlus | minusMinus | eqEq | bangEq | lt
  | ltEq | gt | gtEq | andAnd | orOr | bang | question | questionQuestion
  | questionDot | colon | semicolon | comma | dot | dotDotDot | arrow | fatArrow
  | lparen | rparen | lbrace | rbrace | lbracket | rbracket | at | hash
  | underscore
  deriving DecidableEq, Repr, Inhabited

namespace Symbol

def spelling : Symbol → String
  | .plus => "+"
  | .minus => "-"
  | .star => "*"
  | .slash => "/"
  | .percent => "%"
  | .assign => "="
  | .plusAssign => "+="
  | .minusAssign => "-="
  | .starAssign => "*="
  | .slashAssign => "/="
  | .percentAssign => "%="
  | .plusPlus => "++"
  | .minusMinus => "--"
  | .eqEq => "=="
  | .bangEq => "!="
  | .lt => "<"
  | .ltEq => "<="
  | .gt => ">"
  | .gtEq => ">="
  | .andAnd => "&&"
  | .orOr => "||"
  | .bang => "!"
  | .question => "?"
  | .questionQuestion => "??"
  | .questionDot => "?."
  | .colon => ":"
  | .semicolon => ";"
  | .comma => ","
  | .dot => "."
  | .dotDotDot => "..."
  | .arrow => "->"
  | .fatArrow => "=>"
  | .lparen => "("
  | .rparen => ")"
  | .lbrace => "\x7b"
  | .rbrace => "\x7d"
  | .lbracket => "["
  | .rbracket => "]"
  | .at => "@"
  | .hash => "#"
  | .underscore => "_"

end Symbol

inductive LiteralKind where
  | int
  | float
  | string
  | char
  | template
  deriving DecidableEq, Repr, Inhabited

inductive TokenKind where
  | invalid
  | eof
  | ident
  | keyword (k : Keyword)
  | literal (k : LiteralKind)
  | symbol (s : Symbol)
  deriving DecidableEq, Repr, Inhabited

namespace TokenKind

/-- How a kind of token is called in messages: a fixed spelling stands between apostrophes. -/
def name : TokenKind → String
  | invalid => "invalid"
  | eof => "end of file"
  | ident => "identifier"
  | keyword k => "'" ++ k.spelling ++ "'"
  | literal .int => "integer literal"
  | literal .float => "float literal"
  | literal .string => "string literal"
  | literal .char => "char literal"
  | literal .template => "template string"
  | symbol s => "'" ++ s.spelling ++ "'"

/-- A name or a reserved word: both may stand where a member is named. -/
def isWord : TokenKind → Bool
  | ident => true
  | keyword _ => true
  | _ => false

end TokenKind

/-!
## Tokens

A token carries its text, its span and the blanks and comments before it.  A template string carries its parts
too: a piece of text, and after it perhaps a hole that was itself cut into tokens.  The tokens of a hole end with
an end-of-text token at the closing brace.
-/

/-- The kinds of what stands between tokens. -/
inductive TriviaKind where
  | space
  | newline
  | lineComment
  | blockComment
  | docLine
  | docBlock
  deriving DecidableEq, Repr, Inhabited

def TriviaKind.name : TriviaKind → String
  | space => "space"
  | newline => "newline"
  | lineComment => "line_comment"
  | blockComment => "block_comment"
  | docLine => "doc_line"
  | docBlock => "doc_block"

/-- A run of blanks or a comment. -/
structure Trivia where
  kind : TriviaKind
  span : Span
  text : Bytes
  deriving DecidableEq, Repr, Inhabited

/-- One line of a documentation block, without the star that leads it. -/
def docBlockLine (line : Bytes) : Bytes :=
  Text.trimStart (Text.trimStart (Text.trim line) (utf8 "* ")) (utf8 "*")

/-- What a documentation comment says, without its marks; other trivia say nothing. -/
def Trivia.doc? (t : Trivia) : Option Bytes :=
  match t.kind with
  | .docLine => some (Text.trim (Text.trimStart t.text (utf8 "///")))
  | .docBlock =>
    let body := Text.trimEnd (Text.trimStart t.text (utf8 "/**")) (utf8 "*/")
    some (Text.trim (Text.join (utf8 "\n") ((Text.splitOn 10 body).map docBlockLine)))
  | _ => none

mutual

structure Token where
  kind : TokenKind
  span : Span
  /-- The bytes of the source at the span. -/
  text : Bytes := []
  /-- What stands before the token, in order. -/
  leading : List Trivia := []
  /-- The parts of a template string; empty for all other kinds. -/
  parts : List TemplatePart := []

/-- A part of a template string: text, with escapes decoded, and perhaps a hole after it. -/
structure TemplatePart where
  text : Bytes
  hole : Option TemplateHole := none

structure TemplateHole where
  /-- The tokens of the hole; the last one is the end. -/
  tokens : List Token
  /-- From just after the opening brace up to the closing one. -/
  span : Span

end

instance : Inhabited Token := ⟨{ kind := .eof, span := {} }⟩

/-- The documentation comments before a token, one below the other.  An empty one adds no line of its own at the
start. -/
def Token.doc (t : Token) : Bytes :=
  (t.leading.filterMap Trivia.doc?).foldl
    (fun out d => if out = [] then d else out ++ utf8 "\n" ++ d) []

/-!
## Listings of tokens

Tokens are listed one on a line for readers, or as a JSON list for tools.  Both tell where a token starts, its
kind and text, the documentation comments before it, and the number of parts of a template.
-/

/-- A line of a listing. -/
structure TokenRow where
  kind : String
  text : Bytes
  place : LineCol
  span : Span
  docs : List Bytes
  /-- Number of comments that are not documentation. -/
  comments : Nat
  parts : Nat

namespace TokenRow

def ofToken (f : SourceFile) (t : Token) : TokenRow where
  kind := t.kind.name
  text := t.text
  place := f.lineCol t.span.start
  span := t.span
  docs := t.leading.filterMap Trivia.doc?
  comments := (t.leading.filter fun v => v.kind = .lineComment || v.kind = .blockComment).length
  parts := t.parts.length

/-- Text filled up with blanks on the right. -/
def leftAligned (columns : Nat) (text : Bytes) : Bytes :=
  text ++ List.replicate (columns - text.length) 32

def line (kindColumns : Nat) (r : TokenRow) : Bytes :=
  let place := Text.decimal r.place.line ++ utf8 ":" ++ Text.decimal r.place.col
  leftAligned 8 place ++ utf8 " " ++ leftAligned kindColumns (utf8 r.kind) ++
    (if r.text = [] then [] else utf8 " " ++ Text.quoted r.text) ++
    (if r.parts = 0 then [] else utf8 " [" ++ Text.decimal r.parts ++ utf8 " parts]") ++
    (r.docs.flatMap fun d => utf8 " /// " ++ Text.quoted d) ++ utf8 "\n"

/-- A row for tools; empty parts are left out. -/
def json (r : TokenRow) : Text.Json :=
  .object ([("kind", .text (utf8 r.kind))] ++
    (if r.text = [] then [] else [("text", .text r.text)]) ++
    [("line", .number r.place.line), ("col", .number r.place.col), ("start", .number r.span.start),
      ("end", .number r.span.stop)] ++
    (if r.docs = [] then [] else [("docs", .list (r.docs.map .text))]) ++
    (if r.comments = 0 then [] else [("comments", .number r.comments)]) ++
    (if r.parts = 0 then [] else [("template_parts", .number r.parts)]))

end TokenRow

def tokenListing (f : SourceFile) (ts : List Token) : Bytes :=
  let rows := ts.map (TokenRow.ofToken f)
  let columns := (rows.map fun r => (utf8 r.kind).length).foldl max 0
  rows.flatMap (TokenRow.line columns)

def tokenListingJson (f : SourceFile) (ts : List Token) : Bytes :=
  (Text.Json.list (ts.map fun t => (TokenRow.ofToken f t).json)).indented 0 ++ utf8 "\n"

end LedgerScript
