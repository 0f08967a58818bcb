import LedgerScript.Parser.Expression

/-!
# Declarations

Functions, classes, interfaces and contracts, with the decorators and modifiers in front of them.  A class and a
contract share the grammar of their members; ledger fields and nested classes belong to contracts alone.
-/

namespace LedgerScript

open Parse

/-- Decorators: words after an at sign. -/
def decoratorsRule : Parse (List String) :=
  repeatStep (fun (ds : List String) => do
    if ← acceptSymbol .at then return .inl ((← expectWord "decorator name").nameText :: ds)
    else return .inr ds.reverse) []

/-- Modifiers, each at most once.  `readonly` is a modifier of members only. -/
def modifiersRule (member : Bool) : Parse Modifiers :=
  repeatStep (fun (ms : Modifiers) => do
    let tok ← peek
    let modifier := match tok.kind with
      | .keyword .readonly_ => if member then some Modifier.readonlyMod else none
      | .keyword k => Modifier.ofKeyword? k
      | _ => none
    match modifier with
    | none => return .inr ms
    | some m =>
      if ms.has m then throw (.duplicateModifier tok)
      let _ ← advance
      return .inl (ms.insert m)) {}

/-- The members of a class or contract, each list last first. -/
structure Members where
  fields : List Binding := []
  ctor : Option Function := none
  methods : List FunctionDecl := []
  ledger : List Binding := []
  classes : List ClassDecl := []

/-- A method; the word `function` in front of its name may be left out, and an abstract one has no body. -/
def methodRule (g : Grammar) (arrows : Bool) (start : Span) (mods : Modifiers) (doc : Bytes) : Parse FunctionDecl := do
  let _ ← accept (.keyword .function_)
  let name ← expectWord "method name"
  let ps ← params g
  let result ← typeAfterColon g
  let body ← if mods.isAbstract then
      expectSymbol .semicolon
      pure Body.missing
    else Body.block <$> g.block arrows
  let span ← spanFrom start
  return ⟨span, ⟨span, name.nameText, ps, result, body, mods.isAsync, false⟩, mods, [], doc⟩

/-- One member, after its decorators and modifiers; nested classes are handled before. -/
def memberRule (g : Grammar) (arrows inContract : Bool) (start : Span) (mods : Modifiers) (doc : Bytes) (ms : Members) :
    Parse Members := do
  let tok ← peek
  let next ← kindAt 1
  if tok.kind = .keyword .constructor_ then
    if ms.ctor.isSome then throw (.duplicateConstructor tok)
    let _ ← advance
    let ps ← params g
    let body ← g.block arrows
    return { ms with ctor := some ⟨← spanFrom tok.span, "constructor", ps, none, .block body, false, false⟩ }
  else if tok.kind = .keyword .function_ ||
      (tok.kind.isWord && next = .symbol .lparen && tok.kind ≠ .keyword .ledger_) then
    let m ← methodRule g arrows start mods doc
    return { ms with methods := m :: ms.methods }
  else if tok.kind = .keyword .ledger_ && inContract then
    let _ ← advance
    let name ← expectIdent "ledger field name"
    expectSymbol .colon
    let type ← typeRule g
    let init ← initialValue g arrows
    expectSymbol .semicolon
    return { ms with ledger := ⟨← spanFrom start, name.nameText, some type, init, {}, doc⟩ :: ms.ledger }
  else if tok.kind = .ident then
    let _ ← advance
    let type ← typeAfterColon g
    let init ← initialValue g arrows
    expectSymbol .semicolon
    return { ms with fields := ⟨← spanFrom start, tok.nameText, type, init, mods, doc⟩ :: ms.fields }
  else failExpected ["member"]

/-- The header of a class: its name, its superclass and its interfaces. -/
def classHeader : Parse (String × Option String × List String) := do
  let _ ← expect (.keyword .class_)
  let name ← expectIdent "class name"
  let superName ← if ← accept (.keyword .extends_) then
      (some ·.nameText) <$> expectIdent "superclass name"
    else pure none
  let interfaces ← if ← accept (.keyword .implements_) then
      commaSeparated ((·.nameText) <$> expectIdent "interface name")
    else pure []
  return (name.nameText, superName, interfaces)

def classOf (span : Span) (header : String × Option String × List String) (mods : Modifiers)
    (decorators : List String) (ms : Members) (doc : Bytes) : ClassDecl :=
  ⟨span, header.1, header.2.1, header.2.2, mods, decorators, ms.fields.reverse, ms.ctor, ms.methods.reverse, doc⟩

/-- Members in braces.  `nested` parses a class inside a contract; without it no class may be nested. -/
def membersRule (g : Grammar) (arrows : Bool)
    (nested : Option (Span → Modifiers → List String → Bytes → Parse ClassDecl)) : Parse Members := do
  expectSymbol .lbrace
  repeatStep (fun (ms : Members) => do
    if ← acceptSymbol .rbrace then return .inr ms
    if ← at? .eof then failExpected [(TokenKind.symbol .rbrace).name]
    if ← acceptSymbol .semicolon then return .inl ms
    let first ← peek
    let decorators ← decoratorsRule
    let mods ← modifiersRule true
    let isClass ← at? (.keyword .class_)
    match if isClass then nested else none with
    | some nested =>
      let c ← nested first.span mods decorators first.doc
      return .inl { ms with classes := c :: ms.classes }
    | none =>
      if decorators ≠ [] then failExpected ["'class'"]
      return .inl (← memberRule g arrows nested.isSome first.span mods first.doc ms)) {}

def classRule (g : Grammar) (arrows : Bool) (start : Span) (mods : Modifiers) (decorators : List String)
    (doc : Bytes) : Parse ClassDecl := do
  let header ← classHeader
  let ms ← membersRule g arrows none
  return classOf (← spanFrom start) header mods decorators ms doc

def contractRule (g : Grammar) (arrows : Bool) (start : Span) (doc : Bytes) : Parse ContractDecl := do
  let onChain ← accept (.keyword .blockchain_)
  let _ ← expect (.keyword .contract_)
  let name ← expectIdent "contract name"
  let ms ← membersRule g arrows (some (classRule g arrows))
  return ⟨← spanFrom start, name.nameText, onChain, ms.ledger.reverse, ms.fields.reverse, ms.ctor,
    ms.methods.reverse, ms.classes.reverse, doc⟩

def interfaceMember (g : Grammar) : Parse InterfaceMember := do
  let start ← here
  let _ ← modifiersRule true
  let marked ← accept (.keyword .function_)
  let name ← expectWord "member name"
  let isCall ← at? (.symbol .lparen)
  let ps ← if isCall then params g
    else if marked then failExpected [(TokenKind.symbol .lparen).name]
    else pure []
  let type ← typeAfterColon g
  expectSymbol .semicolon
  return ⟨← spanFrom start, name.nameText, marked || isCall, ps, type⟩

def interfaceRule (g : Grammar) (start : Span) (doc : Bytes) : Parse InterfaceDecl := do
  let _ ← expect (.keyword .interface_)
  let name ← expectIdent "interface name"
  let bases ← if ← accept (.keyword .extends_) then
      commaSeparated ((·.nameText) <$> expectIdent "interface name")
    else pure []
  expectSymbol .lbrace
  let members ← repeatStep (fun (ms : List InterfaceMember) => do
    if ← acceptSymbol .rbrace then return .inr ms.reverse
    if ← acceptSymbol .semicolon then return .inl ms
    return .inl ((← interfaceMember g) :: ms)) []
  return ⟨← spanFrom start, name.nameText, bases, members, doc⟩

def declRule (g : Grammar) (arrows : Bool) : Parse Stmt := do
  let first ← peek
  let decorators ← decoratorsRule
  let mods ← modifiersRule false
  match ← nextKind with
  | .keyword .function_ =>
    let fn ← functionRule g arrows mods.isAsync true
    return .function ⟨← spanFrom first.span, fn, mods, decorators, first.doc⟩
  | .keyword .class_ => return .classDecl (← classRule g arrows first.span mods decorators first.doc)
  | .keyword .interface_ => return .interface (← interfaceRule g first.span first.doc)
  | .keyword .blockchain_ | .keyword .contract_ => return .contract (← contractRule g arrows first.span first.doc)
  | _ => failExpected ["'function'", "'class'", "'interface'", "'contract'"]

end LedgerScript
