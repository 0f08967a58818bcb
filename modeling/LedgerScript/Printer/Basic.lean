import LedgerScript.Syntax.Tree

/-!
# Printing trees

Every tree is printed in one way: blanks around binary operators, one statement on a line, four blanks for each
level.  Literals are printed as they were written, parentheses are kept, and nothing is put into parentheses that
was not, so that a parsed text and its printed form have the same tree.  There are two exceptions: a key in brackets
loses one pair of parentheses, and documentation in the head of a loop is left out.
-/

namespace LedgerScript

/-!
## Layout

A printed tree is first a list of pieces: texts, ends of lines, and changes of the indentation.  `render` turns
them into text.  Indentation is written before the first text of a line, so an empty line stays empty, and blanks
at the end of a line are dropped.  A text may hold line ends of its own, which are copied as they are.
-/

inductive Piece where
  | text (t : Bytes)
  | newline
  | indent
  | dedent
  deriving DecidableEq, Repr, Inhabited

abbrev Layout := List Piece

def fixed (s : String) : Layout := [.text (utf8 s)]

structure IndentStyle where
  /-- Blanks of a level; 0 is 4. -/
  width : Nat := 0
  tabs : Bool := false
  deriving DecidableEq, Repr, Inhabited

def IndentStyle.unit (s : IndentStyle) : Bytes :=
  if s.tabs then [9] else List.replicate (if s.width = 0 then 4 else s.width) 32

/-- Text written so far, last byte first. -/
structure RenderState where
  out : Bytes := []
  depth : Nat := 0
  /-- Nothing was written on this line. -/
  fresh : Bool := true

namespace RenderState

def write (unit : Bytes) (s : RenderState) : Piece → RenderState
  | .text [] => s
  | .text t =>
    let start := if s.fresh then (List.replicate s.depth unit).flatten else []
    { s with out := t.reverse ++ start.reverse ++ s.out, fresh := false }
  | .newline =>
    let kept := if s.fresh then s.out else s.out.dropWhile (· == 32)
    { s with out := 10 :: kept, fresh := true }
  | .indent => { s with depth := s.depth + 1 }
  | .dedent => { s with depth := s.depth - 1 }

end RenderState

def Layout.render (style : IndentStyle) (l : Layout) : Bytes :=
  (l.foldl (RenderState.write style.unit) {}).out.reverse

/-- The layout starts with a text that starts with a byte. -/
def Layout.startsWith (b : UInt8) : Layout → Bool
  | [] => false
  | .text [] :: rest => Layout.startsWith b rest
  | .text (c :: _) :: _ => c == b
  | .newline :: _ => false
  | _ :: rest => Layout.startsWith b rest

/-! ## Quoted texts -/

/-- Hexadecimal digits of a number in capitals. -/
def upperHex (n : Nat) : Bytes :=
  (Nat.toDigits 16 n).map fun c => ascii c.toUpper

def literalChar (c : Char) : Bytes :=
  if c = '"' then utf8 "\\\""
  else if c = '\\' then utf8 "\\\\"
  else if c = '\n' then utf8 "\\n"
  else if c = '\t' then utf8 "\\t"
  else if c = '\r' then utf8 "\\r"
  else if c.toNat = 0 then utf8 "\\0"
  else if c.toNat < 0x20 || c.toNat = 0x7F then utf8 "\\u\x7b" ++ upperHex c.toNat ++ utf8 "\x7d"
  else Text.encodeChar c

def stringLiteral (text : Bytes) : Bytes :=
  utf8 "\"" ++ (Text.shownChars text).flatMap literalChar ++ utf8 "\""

def templateChar (c : Char) : Bytes :=
  if c.toNat = 96 then [92, 96]
  else if c = '\\' then utf8 "\\\\"
  else if c = '$' then utf8 "\\$"
  else if c.toNat = 0 then utf8 "\\0"
  else Text.encodeChar c

def templateText (text : Bytes) : Bytes :=
  (Text.shownChars text).flatMap templateChar

/-! ## Small parts -/

/-- A name. -/
def word (s : String) : Layout := fixed s

def printType? (t : Option TypeRef) : Layout :=
  match t with
  | none => []
  | some t => fixed ": " ++ word t.text

/-- A documentation comment, one line for each line of it. -/
def printDoc (doc : Bytes) : Layout :=
  if doc = [] then []
  else (Text.splitOn 10 doc).flatMap fun line =>
    [.text (if line = [] then utf8 "///" else utf8 "/// " ++ line), .newline]

def printMods (ms : Modifiers) : Layout :=
  if ms.toList = [] then [] else word (ms.text ++ " ")

def printDecorators (ds : List String) : Layout :=
  ds.flatMap fun d => [.text (utf8 ("@" ++ d)), .newline]

/-- Names after a word, with commas between them; nothing if there are none. -/
def printNames (lead : String) (names : List String) : Layout :=
  if names = [] then [] else word (lead ++ ", ".intercalate names)

def openBrace : Layout := [.text [123]]

def closeBrace : Layout := [.text [125]]

/-- Braces with nothing inside. -/
def emptyBraces : Layout := [.text [123, 125]]

def braced (lines : Layout) : Layout :=
  openBrace ++ [.newline, .indent] ++ lines ++ [.dedent] ++ closeBrace

def parens (inside : Layout) : Layout :=
  fixed "(" ++ inside ++ fixed ")"

def printImport (names : List ImportSpec) (path : Bytes) : Layout :=
  let one (s : ImportSpec) : String := match s.alias? with
    | some a => s.name ++ " as " ++ a
    | none => s.name
  [.text (utf8 "import \x7b " ++ utf8 (", ".intercalate (names.map one)) ++ utf8 " \x7d from " ++ stringLiteral path ++
    utf8 ";")]

def printTemplate : List Bytes → List Layout → Layout
  | [], _ => []
  | t :: ts, [] => .text (templateText t) :: printTemplate ts []
  | t :: ts, x :: xs =>
    [.text (templateText t), .text (utf8 "$\x7b")] ++ x ++ closeBrace ++ printTemplate ts xs

/-- An operator and its operand; two minus signs are kept apart. -/
def printUnary (op : UnaryOp) (x : Layout) : Layout :=
  let minus := op = .negate || op = .step .decrement
  word op.symbol.spelling ++ (if minus && x.startsWith 45 then fixed " " else []) ++ x

/-! ## Trees -/

mutual

def printExpr : Expr → Layout
  | .literal _ raw v =>
    match raw, v with
    | [], .string s => [.text (stringLiteral s)]
    | raw, _ => [.text raw]
  | .ident _ n => word n
  | .this _ => fixed "this"
  | .super _ => fixed "super"
  | .template _ texts holes => [.text [96]] ++ printTemplate texts (printEach holes) ++ [.text [96]]
  | .paren _ x => fixed "(" ++ printExpr x ++ fixed ")"
  | .unary _ op x => printUnary op (printExpr x)
  | .stepAfter _ op x => printExpr x ++ word op.symbol.spelling
  | .binary _ op x y => printExpr x ++ word (" " ++ op.symbol.spelling ++ " ") ++ printExpr y
  | .is _ x t => printExpr x ++ word (" is " ++ t.text)
  | .typeof _ x => fixed "typeof " ++ printExpr x
  | .await _ x => fixed "await " ++ printExpr x
  | .spawn _ x => fixed "spawn " ++ printExpr x
  | .new _ c hasArgs args => fixed "new " ++ printExpr c ++ (if hasArgs then parens (printList args) else [])
  | .assign _ op t v => printExpr t ++ word (" " ++ op.symbol.spelling ++ " ") ++ printExpr v
  | .ternary _ c y n => printExpr c ++ fixed " ? " ++ printExpr y ++ fixed " : " ++ printExpr n
  | .call _ f args _ => printExpr f ++ parens (printList args)
  | .member _ x n opt => printExpr x ++ fixed (if opt then "?." else ".") ++ word n
  | .index _ x i => printExpr x ++ fixed "[" ++ printExpr i ++ fixed "]"
  | .array _ xs => fixed "[" ++ printList xs ++ fixed "]"
  | .tuple _ xs => fixed "(" ++ printList xs ++ (if xs.length = 1 then fixed "," else []) ++ fixed ")"
  | .set _ xs => fixed "#" ++ openBrace ++ printList xs ++ closeBrace
  | .map _ entries => openBrace ++ printEntries entries ++ closeBrace
  | .spread _ x => fixed "..." ++ printExpr x
  | .function _ fn => printFunctionLiteral fn
  | .validate _ c m => fixed "validate(" ++ printExpr c ++ printMessage m ++ fixed ")"
  | .emit _ n args => word ("emit " ++ n) ++ parens (printList args)
  | .match _ x arms => fixed "match (" ++ printExpr x ++ fixed ") " ++ braced (printArms arms)

def printEach : List Expr → List Layout
  | [] => []
  | x :: xs => printExpr x :: printEach xs

def printList : List Expr → Layout
  | [] => []
  | x :: xs => printExpr x ++ printMore xs

def printMore : List Expr → Layout
  | [] => []
  | x :: xs => fixed ", " ++ printExpr x ++ printMore xs

def printMessage : Option Expr → Layout
  | none => []
  | some m => fixed ", " ++ printExpr m

/-- A value after an equals sign, if there is one. -/
def printInit : Option Expr → Layout
  | none => []
  | some x => fixed " = " ++ printExpr x

/-- A key and its value: names and literals are written as they are, all other keys in brackets. -/
def printEntry : MapEntry → Layout
  | ⟨.ident _ n, v⟩ => word n ++ fixed ": " ++ printExpr v
  | ⟨.literal _ r l, v⟩ =>
    (match r, l with
      | [], .string s => [.text (stringLiteral s)]
      | r, _ => [.text r]) ++ fixed ": " ++ printExpr v
  | ⟨.paren _ x, v⟩ => fixed "[" ++ printExpr x ++ fixed "]: " ++ printExpr v
  | ⟨k, v⟩ => fixed "[" ++ printExpr k ++ fixed "]: " ++ printExpr v

def printEntries : List MapEntry → Layout
  | [] => []
  | e :: rest => printEntry e ++ printMoreEntries rest

def printMoreEntries : List MapEntry → Layout
  | [] => []
  | e :: rest => fixed ", " ++ printEntry e ++ printMoreEntries rest

/-- What a function or an arm does. -/
def printBody : Body → Layout
  | .block b => printBlock b
  | .expr x => printExpr x
  | .missing => []

def printArms : List MatchArm → Layout
  | [] => []
  | ⟨_, p, arrow, b⟩ :: rest =>
    printPattern p ++ word (" " ++ arrow.symbol.spelling ++ " ") ++ printBody b ++ fixed "," ++ [.newline] ++
      printArms rest

def printPattern : Option Expr → Layout
  | none => fixed "_"
  | some x => printExpr x

def printParam : Param → Layout
  | ⟨_, n, t, d, isRest, takesApart, fields⟩ =>
    (if isRest then word ("..." ++ n)
     else if takesApart then openBrace ++ printParamList fields ++ closeBrace
     else word n) ++ printType? t ++ printInit d

def printParamList : List Param → Layout
  | [] => []
  | p :: ps => printParam p ++ printMoreParams ps

def printMoreParams : List Param → Layout
  | [] => []
  | p :: ps => fixed ", " ++ printParam p ++ printMoreParams ps

/-- A function with its word, its name and its parameters. -/
def printFunction : Function → Layout
  | ⟨_, n, ps, r, b, _, _⟩ =>
    word ("function " ++ n) ++ parens (printParamList ps) ++ printType? r ++
      match b with
      | .missing => fixed ";"
      | b => fixed " " ++ printBody b

def printFunctionLiteral : Function → Layout
  | ⟨_, n, ps, r, b, isAsync, isArrow⟩ =>
    (if isAsync then fixed "async " else []) ++
      if isArrow then fixed "(" ++ printParamList ps ++ fixed ") => " ++ printBody b
      else word ("function " ++ n) ++ parens (printParamList ps) ++ printType? r ++
        match b with
        | .missing => fixed ";"
        | b => fixed " " ++ printBody b

def printBlock : Block → Layout
  | ⟨_, []⟩ => emptyBraces
  | ⟨_, s :: rest⟩ => braced (printStmt true s ++ [.newline] ++ printStmts rest)

def printFinal : Option Block → Layout
  | none => []
  | some b => fixed " finally " ++ printBlock b

def printStmts : List Stmt → Layout
  | [] => []
  | s :: rest => printStmt true s ++ [.newline] ++ printStmts rest

/-- A variable or a field without the semicolon. -/
def printBinding (lead : Layout) : Binding → Layout
  | ⟨_, n, t, x, _, _⟩ => lead ++ word n ++ printType? t ++ printInit x

/-- The first part of a for loop. -/
def printForInit : Option Stmt → Layout
  | some (.declare k b) => printBinding (word (k.word ++ " ")) b
  | some (.expr _ x) => printExpr x
  | _ => []

/-- A part of a for loop with a blank in front. -/
def printForPart : Option Expr → Layout
  | none => []
  | some x => fixed " " ++ printExpr x

/-- What follows the first branch of a conditional; it stays on the line of a closing brace. -/
def printElse (afterBlock : Bool) : Option Stmt → Layout
  | none => []
  | some s => (if afterBlock then fixed " else " else [.newline] ++ fixed "else ") ++ printStmt true s

/-- A statement; its documentation is left out if it was printed before. -/
def printStmt (withDoc : Bool) : Stmt → Layout
  | .declare k b => (if withDoc then printDoc b.doc else []) ++ printBinding (word (k.word ++ " ")) b ++ fixed ";"
  | .block b => printBlock b
  | .expr _ x =>
    printExpr x ++ match x with
      | .match .. => []
      | _ => fixed ";"
  | .if _ c y n =>
    let afterBlock := match y with
      | .block _ => true
      | _ => false
    fixed "if (" ++ printExpr c ++ fixed ") " ++ printStmt true y ++ printElse afterBlock n
  | .while _ c b => fixed "while (" ++ printExpr c ++ fixed ") " ++ printStmt true b
  | .doWhile _ b c => fixed "do " ++ printStmt true b ++ fixed " while (" ++ printExpr c ++ fixed ");"
  | .for _ i c p b =>
    fixed "for (" ++ printForInit i ++ fixed ";" ++ printForPart c ++ fixed ";" ++ printForPart p ++ fixed ") " ++
      printStmt true b
  | .forEach _ k n x b =>
    fixed "foreach (" ++ (if k = .letDecl then [] else word (k.word ++ " ")) ++ word (n ++ " in ") ++ printExpr x ++
      fixed ") " ++ printStmt true b
  | .switch _ t cs => fixed "switch (" ++ printExpr t ++ fixed ") " ++ braced (printCases cs)
  | .try _ b cs f => fixed "try " ++ printBlock b ++ printCatches cs ++ printFinal f
  | .throw _ x => fixed "throw " ++ printExpr x ++ fixed ";"
  | .return _ x => fixed "return" ++ printForPart x ++ fixed ";"
  | .break _ => fixed "break;"
  | .continue _ => fixed "continue;"
  | .lock _ t b => fixed "lock (" ++ printExpr t ++ fixed ") " ++ printBlock b
  | .unlock _ t => fixed "unlock(" ++ printExpr t ++ fixed ");"
  | .transfer _ a b c =>
    fixed "transaction \x7b " ++ printExpr a ++ fixed " -> " ++ printExpr b ++ fixed " : " ++ printExpr c ++
      fixed " \x7d"
  | .function ⟨_, fn, mods, decorators, doc⟩ =>
    (if withDoc then printDoc doc else []) ++ printDecorators decorators ++ printMods mods ++ printFunction fn
  | .classDecl d => printClass withDoc d
  | .interface ⟨_, n, bases, ms, doc⟩ =>
    (if withDoc then printDoc doc else []) ++ word ("interface " ++ n) ++ printNames " extends " bases ++ fixed " " ++
      if ms.isEmpty then emptyBraces else braced (printInterfaceMembers ms)
  | .contract ⟨_, n, onChain, ledger, fields, ctor, methods, classes, doc⟩ =>
    (if withDoc then printDoc doc else []) ++ (if onChain then fixed "blockchain " else []) ++
      word ("contract " ++ n ++ " ") ++
      if ledger.isEmpty && fields.isEmpty && methods.isEmpty && classes.isEmpty && ctor.isNone then emptyBraces
      else braced (printLedger ledger ++ printFields fields ++ printClasses classes ++ printCtor ctor ++
        printMethods methods)
  | .import _ names path => printImport names path
  | .export _ d => printDoc d.doc ++ fixed "export " ++ printStmt false d

def printCases : List CaseClause → Layout
  | [] => []
  | ⟨_, v, b⟩ :: rest =>
    printCaseHead v ++ [.newline, .indent] ++ printStmts b ++ [.dedent] ++ printCases rest

def printCaseHead : Option Expr → Layout
  | none => fixed "default:"
  | some v => fixed "case " ++ printExpr v ++ fixed ":"

/-- Handlers. -/
def printCatches : List CatchClause → Layout
  | [] => []
  | ⟨_, n, t, b⟩ :: rest =>
    fixed " catch " ++ (match n with
      | some n => word ("(" ++ n) ++ printType? t ++ fixed ") "
      | none => []) ++ printBlock b ++ printCatches rest

/-- Ledger fields, each on a line. -/
def printLedger : List Binding → Layout
  | [] => []
  | b :: rest => printDoc b.doc ++ printBinding (fixed "ledger ") b ++ fixed ";" ++ [.newline] ++ printLedger rest

def printFields : List Binding → Layout
  | [] => []
  | b :: rest =>
    printDoc b.doc ++ printBinding (printMods b.mods) b ++ fixed ";" ++ [.newline] ++ printFields rest

/-- A constructor with a blank line in front. -/
def printCtor : Option Function → Layout
  | none => []
  | some ⟨_, _, ps, _, b, _, _⟩ =>
    [.newline] ++ fixed "constructor(" ++ printParamList ps ++ fixed ") " ++ printBody b ++ [.newline]

/-- Methods, each with a blank line in front. -/
def printMethods : List FunctionDecl → Layout
  | [] => []
  | ⟨_, fn, mods, _, doc⟩ :: rest =>
    [.newline] ++ printDoc doc ++ printMods mods ++ printFunction fn ++ [.newline] ++ printMethods rest

def printClass (withDoc : Bool) : ClassDecl → Layout
  | ⟨_, n, sup, ifs, mods, decorators, fields, ctor, methods, doc⟩ =>
    (if withDoc then printDoc doc else []) ++ printDecorators decorators ++ printMods mods ++ word ("class " ++ n) ++
      (match sup with
        | some s => word (" extends " ++ s)
        | none => []) ++
      printNames " implements " ifs ++ fixed " " ++
      if fields.isEmpty && methods.isEmpty && ctor.isNone then emptyBraces
      else braced (printFields fields ++ printCtor ctor ++ printMethods methods)

/-- Classes of a contract, each with a blank line in front. -/
def printClasses : List ClassDecl → Layout
  | [] => []
  | c :: rest => [.newline] ++ printClass true c ++ [.newline] ++ printClasses rest

def printInterfaceMembers : List InterfaceMember → Layout
  | [] => []
  | ⟨_, n, isMethod, ps, t⟩ :: rest =>
    (if isMethod then word ("function " ++ n) ++ parens (printParamList ps) else word n) ++
      printType? t ++ fixed ";" ++ [.newline] ++ printInterfaceMembers rest

end

/-- Items that have blank lines around them. -/
def isSetApart : Stmt → Bool
  | .function _ | .classDecl _ | .interface _ | .contract _ | .export .. | .import .. => true
  | _ => false

/-- The items after one that was or was not set apart. -/
def printItems (prev : Option Bool) : List Stmt → Layout
  | [] => []
  | s :: rest =>
    let blank := match prev with
      | none => false
      | some apart => apart || isSetApart s
    (if blank then [.newline] else []) ++ printStmt true s ++ [.newline] ++ printItems (some (isSetApart s)) rest

def SyntaxFile.print (style : IndentStyle) (f : SyntaxFile) : Bytes :=
  (printItems none f.items).render style

def Expr.print (x : Expr) : Bytes :=
  (printExpr x).render {}

end LedgerScript
