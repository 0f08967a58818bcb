import LedgerScript.Eval.Call

/-!
# The evaluator

Expressions give values and statements end in some way.  Both are evaluated by recursion on the syntax; calls, passes
of loops, blocks under a lock, fields of new objects and modules are activations, which the machine runs one at a time.

A control transfer out of the block of a match arm is a fault until it reaches the statement around the match, where
`settle` turns it back into the way the statement ends.
-/

namespace LedgerScript.Eval

/-! ## Parts that need no recursion -/

def literalValue : LiteralValue → Value
  | .null => .null
  | .bool b => .bool b
  | .int n => .int n
  | .long n => .long n
  | .short n => .ofInt .short n
  | .float x => .ofReal .float x
  | .double x => .real .double x
  | .string s => .str (Text.compose s)
  | .char c => charValue c

/-- How far a step goes. -/
def stepSize : StepOp → Int
  | .increment => 1
  | .decrement => -1

def applyBinary (op : BinaryOp) (l r : Value) (span : Span) : Eval Value := do
  let ordered (test : Ordering → Bool) : Eval Value := do return .bool (test (← operand span (l.compare r)))
  match op with
  | .eq => return .bool (l.equal r)
  | .ne => return .bool !(l.equal r)
  | .lt => ordered (· == .lt)
  | .le => ordered (· != .gt)
  | .gt => ordered (· == .gt)
  | .ge => ordered (· != .lt)
  | op =>
    let r ← onHeap fun h => match h.arith op l r with
      | .ok (v, h) => (.ok v, h)
      | .error f => (.error f, h)
    operand span r

/-- A place moves by a step; the results are the values before and after. -/
def stepPlace (p : Place) (op : StepOp) (span : Span) : Eval (Value × Value) := do
  let old ← p.read
  let new ← operand span (old.step (stepSize op))
  p.write new
  return (old, new)

/-- A function literal without a name is called after the variable that it is assigned to. -/
def nameFunction (x : Expr) (name : String) (v : Value) : Eval Unit := do
  match x, v with
  | .function _ fn, .ref .function r =>
    if fn.name = "" then
      modifyHeap (·.modify r fun c => match c with
        | .function (.closure c) => .function (.closure { c with name })
        | c => c)
  | _, _ => return ()

def targetName? : Expr → Option String
  | .ident _ name => some name
  | _ => none

/-- The kind that a pattern names, unless the name is bound to something. -/
def kindPattern? (p : Expr) (frame : HoldId) : Eval (Option Kind) := do
  match p with
  | .ident _ name =>
    match ← boundSlot? name frame with
    | some _ => return none
    | none => return Kind.ofName? name
  | _ => return none

/-- A value matches the value of a pattern: an object its class, anything else an equal value. -/
def matchesValue (subject pattern : Value) : Eval Bool := do
  match pattern with
  | .ref .classRef cls => isInstance subject cls
  | v => return subject.equal v

/-- A name is bound in a frame, or refused with a message if it is bound there already. -/
def declareName (frame : HoldId) (name : String) (kind : DeclKind) (v : Value) (span : Span) (refusal : String)
    (out : Nat := 0) : Eval Unit := do
  if !(← bind frame name kind v out) then raiseText span .malformed (name ++ refusal)

def declareVariable (kind : DeclKind) (name : String) (v : Value) (frame : HoldId) (span : Span) : Eval Unit := do
  let refusal := " is already declared in this scope"
  if kind = .varDecl then declareName frame name kind v span refusal (← functionFrame frame)
  else declareName frame name kind v span refusal

/-- A new closure, which gets a hold on its frame. -/
def newClosure (c : Closure) : Eval Value := do
  let env ← share c.env
  onHeap (·.newFunction (.closure { c with env }))

def declareFunction (d : FunctionDecl) (frame : HoldId) : Eval Unit := do
  let v ← newClosure { fn := d.fn, env := frame, name := d.fn.name, mods := d.mods }
  declareName frame d.fn.name .letDecl v d.span " is already declared in this scope"

/-- A class gets a method, in place of one of the same name. -/
def addMethod (cls : Ref) (className : String) (d : FunctionDecl) (frame : HoldId) : Eval Unit := do
  let hasBody := match d.fn.body with
    | .missing => false
    | _ => true
  let fn? ← if d.mods.isAbstract || !hasBody then pure none
    else do
      let v ← newClosure {
        fn := d.fn, env := frame, name := className ++ "." ++ d.fn.name, mods := d.mods, home? := some cls }
      pure (match v with
        | .ref _ r => some r
        | _ => none)
  let m : Method := {
    name := d.fn.name, fn?, isStatic := d.mods.isStatic, isReadOnly := d.mods.isReadOnly, owner := cls }
  modifyHeap (·.modifyClass cls fun c => { c with methods := c.methods.filter (·.name != m.name) ++ [m] })

def ctorClosure (cls : Ref) (className : String) (frame : HoldId) (fn : Function) : Closure :=
  { fn, env := frame, name := className ++ ".constructor", home? := some cls, isCtor := true }

/-- A class with its constructor and methods, but without static fields.  It gets a hold on its frame. -/
def newClass (c : Class) (ctor : Option Function) (methods : List FunctionDecl) : Eval Ref := do
  let env ← share c.env
  let cls ← onHeap (·.newClass { c with env })
  modifyHeap (·.modifyClass cls fun k => { k with ctor? := ctor.map (ctorClosure cls c.name env) })
  methods.forM fun m => addMethod cls c.name m c.env
  return cls

def superclass (name : String) (superName : Option String) (frame : HoldId) (span : Span) : Eval (Option Ref) := do
  match superName with
  | none => return none
  | some s =>
    let refuse : Eval (Option Ref) := typeError span (name ++ " extends " ++ s ++ ", which is not a class")
    let v ← lookup s frame span
    match v, ← interface? v with
    | .ref .classRef r, none => return some r
    | _, _ => refuse

def declareInterface (d : InterfaceDecl) (frame : HoldId) : Eval Unit := do
  let cls ← newClass { name := d.name, form := .interface d, isAbstract := true, env := frame } none []
  declareName frame d.name .constDecl (.ref .classRef cls) d.span " is already declared"

/-- The slots of a contract: its ledger and its fields that are not static.  Of several slots of one name the last
type and first value count. -/
def contractSlots (ledger fields : List Binding) : List ContractSlot :=
  let slots := (ledger ++ fields.filter (!·.mods.isStatic)).map fun b =>
    ({ name := b.name, type := b.type, init := b.init } : ContractSlot)
  slots.map fun s => (slots.reverse.find? (·.name == s.name)).getD s

def emitEvent (name : String) (args : List Value) (names : List String) (span : Span) : Eval Unit := do
  let fields ← (args.zipIdx).mapM fun (v, i) => do
    let copy ← stepHeap (·.deepCopy v)
    return (utf8 ((names[i]?).getD ("arg" ++ toString i)), copy)
  let contract := (← context).self
  inTransaction span (.emit · { contract, name := utf8 name, fields }) (fun _ _ runs => .emit runs _) (return ())

/-- A condition of a transaction does not hold. -/
def failValidation (message : Bytes) (span : Span) : Eval Value := do
  inTransaction span (.fail · (.validation message)) (fun _ _ runs => .fail runs _) (return ())
  throwAs (.ledger (.validation message)) span

/-- Reads go to committed state while a condition is evaluated. -/
def whileValidating (x : Eval Value) : Eval Value := do
  let set (on : Bool) : Eval Bool :=
    inTransaction {} (.setValidating · on) (fun _ _ runs => .setValidating runs _) (return false)
  let before ← set true
  andFinally x (do
    let _ ← set before)

/-- A statement whose control transfer arrives as a fault. -/
def settle (x : Eval Control) : Eval Control := do
  match ← outcome x with
  | .ok c => return c
  | .error (.fault f) =>
    match f.escape? with
    | some (c, _) => return c
    | none => fail f
  | .error e => throw e

/-- A branch: a block makes a frame of its own, any other statement gets a new one. -/
def inBranch {α : Type} (s : Stmt) (frame : HoldId) (x : HoldId → Eval α) : Eval α :=
  match s with
  | .block _ => x frame
  | _ => inside frame {} x

/-- A lock or a permit of a semaphore is held during a block. -/
def holding (v : Value) (body : Block) (frame : HoldId) (targetSpan span : Span) : Eval Control := do
  match v with
  | .handle .lock id => askUnder id (.block body frame) span
  | .handle .semaphore id =>
    waitUntil span (.permit id)
    andFinally (ask (.block body frame)) (release id)
  | v => typeError targetSpan ("lock expects a Mutex, got " ++ (← typeName v))

/-- A lock or a permit of a semaphore is given back. -/
def giveBack (v : Value) (targetSpan : Span) : Eval Unit := do
  match v with
  | .handle .lock id => unlock id
  | .handle .semaphore id => release id
  | v => typeError targetSpan ("unlock expects a Mutex, got " ++ (← typeName v))

/-- What a switch does with the way its clause ended. -/
def leaveSwitch : Control → Control
  | .leaveLoop => .next
  | c => c

/-! ## Recursion on the syntax -/

mutual

def evalExpr : Expr → HoldId → Eval Value
  | .literal _ _ v, _ => return literalValue v
  | .ident span name, f => lookup name f span
  | .this span, f => do
    match ← receiver? f with
    | some r => return r.this
    | none => typeError span "this outside a method"
  | .super span, _ => raiseText span .malformed "super must be called or followed by a member"
  | .template _ texts holes, f => do return .str (← evalHoles texts holes f)
  | .paren _ x, f => evalExpr x f
  | .unary span op x, f =>
    match op with
    | .step op => do
      let p ← evalPlace x f
      return (← stepPlace p op span).2
    | .not => do
      let v ← evalExpr x f
      return .bool !v.truthy
    | .negate => do
      let v ← evalExpr x f
      operand span v.negate
  | .stepAfter span op x, f => do
    let p ← evalPlace x f
    return (← stepPlace p op span).1
  | .binary span op x y, f => do
    let l ← evalExpr x f
    match op with
    | .and => if l.truthy then return .bool (← evalExpr y f).truthy else return .bool false
    | .or => if l.truthy then return .bool true else return .bool (← evalExpr y f).truthy
    | .coalesce =>
      match l with
      | .null => evalExpr y f
      | l => return l
    | op =>
      let r ← evalExpr y f
      applyBinary op l r span
  | .is _ x t, f => do
    let v ← evalExpr x f
    return .bool (← isOfType v t f)
  | .typeof _ x, f => do
    let v ← evalExpr x f
    return .str (utf8 (← typeName v))
  | .await span x, f => do
    let v ← evalExpr x f
    await v span
  | .spawn span x, f =>
    match x with
    | .call at' fn args optional => do
      let operand : Eval Value := match fn with
        | .member _ receiver _ _ => evalExpr receiver f
        | fn => evalExpr fn f
      match ← callTarget? (.of fn) optional operand (evalArgs args f) f at' with
      | none => return .null
      | some (callee, args) => spawnCall callee args span
    | x => do
      let held ← share f
      spawn "spawn" (.expression x held)
  | .new span cls _ args, f => do
    let v ← evalExpr cls f
    match v with
    | .ref .classRef r =>
      let args ← evalArgs args f
      instantiate r args span
    | v => typeError cls.span ("new expects a class, got " ++ (← typeName v))
  | .assign span op target value, f => do
    let p ← evalPlace target f
    match op.binary? with
    | none =>
      let v ← evalExpr value f
      if let some name := targetName? target then nameFunction value name v
      p.write v
      return v
    | some op =>
      let old ← p.read
      let r ← evalExpr value f
      let v ← applyBinary op old r span
      p.write v
      return v
  | .ternary _ c yes no, f => do
    let v ← evalExpr c f
    if v.truthy then evalExpr yes f else evalExpr no f
  | .call span fn args optional, f => do
    let operand : Eval Value := match fn with
      | .member _ receiver _ _ => evalExpr receiver f
      | fn => evalExpr fn f
    match ← callTarget? (.of fn) optional operand (evalArgs args f) f span with
    | none => return .null
    | some (callee, args) => call callee args span
  | .member span x name optional, f =>
    match x with
    | .super _ => superMember f name span
    | x => do
      let v ← evalExpr x f
      match v, optional with
      | .null, true => return .null
      | v, _ => member v name span
  | .index span x i, f => do
    let v ← evalExpr x f
    let i ← evalExpr i f
    item v i span
  | .array _ elems, f => do
    let items ← evalArgs elems f
    newArray items
  | .tuple _ elems, f => do return .tuple (← evalArgs elems f)
  | .set _ elems, f => do
    let items ← evalArgs elems f
    stepHeap fun h => do return h.newSet (← h.setOf items)
  | .map _ entries, f => do
    let table ← evalEntries {} entries f
    onHeap (·.newMap table)
  | .spread span _, _ => raiseText span .malformed "spread is only allowed in calls and array literals"
  | .function _ fn, f => newClosure { fn, env := f, name := fn.name }
  | .validate span c message, f => do
    let v ← whileValidating (evalExpr c f)
    if v.truthy then return .bool true
    else
      match message with
      | none => failValidation (utf8 "validation failed") span
      | some x =>
        let m ← evalExpr x f
        failValidation (← plain m) span
  | .emit span name args, f => do
    let c ← context
    if c.working.isNone then raiseText span .ledger ("emit " ++ name ++ " outside a transaction")
    else if c.readOnly then typeError span ("cannot emit " ++ name ++ " from a view method")
    else
      let args ← evalArgs args f
      emitEvent name args (← eventFieldNames name f) span
      return .null
  | .match _ subject arms, f => do
    let v ← evalExpr subject f
    evalArms v arms f

def evalHoles : List Bytes → List Expr → HoldId → Eval Bytes
  | t :: texts, x :: holes, f => do
    let v ← evalExpr x f
    let shown ← plain v
    return t ++ shown ++ (← evalHoles texts holes f)
  | texts, [], _ => return texts.flatten
  | [], _ :: _, _ => return []

/-- The values of arguments or items; a spread gives all that it goes through. -/
def evalArgs : List Expr → HoldId → Eval (List Value)
  | [], _ => return []
  | x :: rest, f => do
    let first ← match x with
      | .spread span x => do
        let v ← evalExpr x f
        iterate v span
      | x => do
        let v ← evalExpr x f
        pure [v]
    return first ++ (← evalArgs rest f)

def evalEntries (table : MapTable) : List MapEntry → HoldId → Eval MapTable
  | [], _ => return table
  | ⟨k, v⟩ :: rest, f => do
    let key ← match k with
      | .ident _ name => pure (.str (utf8 name))
      | k => evalExpr k f
    let value ← evalExpr v f
    let table ← readHeap fun h => do table.insert (← h.key key) key value
    evalEntries table rest f

/-- The value of the first arm that takes a value. -/
def evalArms (subject : Value) : List MatchArm → HoldId → Eval Value
  | [], _ => return .null
  | ⟨_, pattern, _, body⟩ :: rest, f => do
    let taken ← match pattern with
      | none => pure true
      | some p => do
        match ← kindPattern? p f with
        | some k => pure (subject.kind = k)
        | none => do
          let v ← evalExpr p f
          matchesValue subject v
    if taken then
      match body with
      | .block ⟨_, stmts⟩ => inside f {} fun child => evalBlock stmts child
      | .expr x => evalExpr x f
      | .missing => return .null
    else evalArms subject rest f

/-- The value of a block: that of the expression at its end. -/
def evalBlock : List Stmt → HoldId → Eval Value
  | [], _ => return .null
  | [.expr _ x], f => evalExpr x f
  | s :: rest, f => do
    match ← settle (execStmt s f) with
    | .next => evalBlock rest f
    | c => fail (.escape c s.span)

def evalPlace : Expr → HoldId → Eval Place
  | .paren _ x, f => evalPlace x f
  | .ident span name, f => do
    match ← boundSlot? name f with
    | some p => return .variable f p span
    | none =>
      match ← builtin? name with
      | some _ => raiseText span .immutableAssignment ("cannot assign to builtin " ++ name)
      | none => raiseText span .undefinedVariable (name ++ " is not defined")
  | .member span x name _, f =>
    match x with
    | .super _ => raiseText span .malformed "cannot assign through super"
    | x => do
      guardStorage f x span
      let v ← evalExpr x f
      return .member v name f span
  | .index span x i, f => do
    guardStorage f x span
    let v ← evalExpr x f
    let i ← evalExpr i f
    return .item v i span
  | x, _ => raiseText x.span .malformed "invalid assignment target"

/-- How a statement ends; a control transfer out of a match arm is still a fault. -/
def execStmt : Stmt → HoldId → Eval Control
  | .expr _ x, f => do
    let _ ← evalExpr x f
    return .next
  | .declare kind ⟨span, name, type, init, _, _⟩, f => do
    let v ← match init with
      | none => pure .null
      | some x => do
        let v ← evalExpr x f
        nameFunction x name v
        pure v
    declareVariable kind name (.coerce type v) f span
    return .next
  | .function d, f => do
    declareFunction d f
    return .next
  | .classDecl d, f => do
    let _ ← declareClass d f
    return .next
  | .interface d, f => do
    declareInterface d f
    return .next
  | .contract d, f => do
    declareContract d f
    return .next
  | .import span names path, f => do
    importModule names path f span
    return .next
  | .export _ d, f => settle (execStmt d f)
  | .block ⟨_, stmts⟩, f => inside f {} fun child => execStmts stmts child
  | .if _ c yes no, f => do
    let v ← evalExpr c f
    if v.truthy then inBranch yes f fun g => settle (execStmt yes g)
    else
      match no with
      | none => return .next
      | some s => inBranch s f fun g => settle (execStmt s g)
  | .while _ c body, f => ask (.whilePass c body f)
  | .doWhile _ body c, f => ask (.doPass body c f)
  | .for _ init c post body, f => do
    let frame ← onEnv (.enter f {})
    let begun ← match init with
      | none => pure (.ok .next)
      | some s => outcome (settle (execStmt s frame))
    match begun with
    | .ok _ => ask (.forPass c post body frame)
    | .error e =>
      giveUp frame
      throw e
  | .forEach span kind name iter body, f => do
    let v ← evalExpr iter f
    match v with
    | .handle .channel id => ask (.drainPass kind name body f id span)
    | v =>
      let items ← iterate v iter.span
      ask (.eachPass kind name body f items)
  | .switch _ tag cases, f => do
    let v ← evalExpr tag f
    match ← execCases v cases f with
    | some c => return leaveSwitch c
    | none => return leaveSwitch (← execDefault cases f)
  | .try _ body catches final, f => do
    let r ← outcome (execBlock body f)
    let r ← match r with
      | .error (.fault fault) =>
        if fault.escape?.isSome then pure r
        else do
          let (v, thrown) ← toThrown fault body.span
          outcome (execCatches v thrown catches f)
      | r => pure r
    match r with
    | .error (.crash m) => throw (.crash m)
    | .error .killed => throw .killed
    | r =>
      match final with
      | none => pure ()
      | some b =>
        match ← execBlock b f with
        | .next => pure ()
        | c => return c
      match r with
      | .ok c => return c
      | .error e => throw e
  | .throw span x, f => do
    let v ← evalExpr x f
    fail (.thrown v span none)
  | .return _ x, f => do
    match x with
    | none => return .result .null
    | some x => return .result (← evalExpr x f)
  | .break _, _ => return .leaveLoop
  | .continue _, _ => return .nextPass
  | .lock span target body, f => do
    let v ← evalExpr target f
    holding v body f target.span span
  | .unlock _ target, f => do
    let v ← evalExpr target f
    giveBack v target.span
    return .next
  | .transfer span payer payee amount, f => do
    let a ← evalExpr payer f
    let b ← evalExpr payee f
    let n ← evalExpr amount f
    let sender ← addressOf a payer.span
    let receiver ← addressOf b payee.span
    let n ← amountOf n amount.span
    transferValue sender receiver n span
    return .next

def execBlock : Block → HoldId → Eval Control
  | ⟨_, stmts⟩, f => inside f {} fun child => execStmts stmts child

/-- Statements one after another, until one does not end normally. -/
def execStmts : List Stmt → HoldId → Eval Control
  | [], _ => return .next
  | s :: rest, f => do
    match ← settle (execStmt s f) with
    | .next => execStmts rest f
    | c => return c

/-- The first clause whose value is equal to the tag. -/
def execCases (tag : Value) : List CaseClause → HoldId → Eval (Option Control)
  | [], _ => return none
  | ⟨_, value, body⟩ :: rest, f => do
    match value with
    | none => execCases tag rest f
    | some x =>
      let v ← evalExpr x f
      if tag.equal v then return some (← inside f {} fun child => execStmts body child)
      else execCases tag rest f

/-- The first clause without a value. -/
def execDefault : List CaseClause → HoldId → Eval Control
  | [], _ => return .next
  | ⟨_, value, body⟩ :: rest, f => do
    match value with
    | none => inside f {} fun child => execStmts body child
    | some _ => execDefault rest f

/-- The first handler that takes a thrown value; without one it is thrown on. -/
def execCatches (v : Value) (thrown : Fault) : List CatchClause → HoldId → Eval Control
  | [], _ => fail thrown
  | ⟨_, name, type, ⟨_, stmts⟩⟩ :: rest, f => do
    if ← catches type v f then
      inside f {} fun child => do
        if let some name := name then
          let _ ← bind child name .letDecl v
        execStmts stmts child
    else execCatches v thrown rest f

def declareClass : ClassDecl → HoldId → Eval Ref
  | ⟨span, name, superName, interfaces, mods, decorators, fields, ctor, methods, doc⟩, f => do
    let super? ← superclass name superName f span
    let decl : ClassDecl := ⟨span, name, superName, interfaces, mods, decorators, fields, ctor, methods, doc⟩
    let cls ← newClass
      { name, form := .declared decl, super?, interfaces, isAbstract := mods.isAbstract, env := f } ctor methods
    declareName f name .constDecl (.ref .classRef cls) span " is already declared"
    evalStatics cls fields f
    if !mods.isAbstract then checkInterfaces cls f span
    return cls

/-- The static fields of a class get their first values. -/
def evalStatics (cls : Ref) : List Binding → HoldId → Eval Unit
  | [], _ => return ()
  | ⟨_, name, _, init, mods, _⟩ :: rest, f => do
    if mods.isStatic then
      let v ← match init with
        | none => pure .null
        | some x => evalExpr x f
      modifyHeap (·.modifyClass cls fun c => { c with statics := putName name v c.statics })
    evalStatics cls rest f

/-- The classes inside a contract. -/
def declareClasses (owner : Ref) : List ClassDecl → HoldId → Eval Unit
  | [], _ => return ()
  | d :: rest, f => do
    let cls ← declareClass d f
    let name ← className cls
    modifyHeap (·.modifyClass owner fun c => { c with statics := putName name (.ref .classRef cls) c.statics })
    declareClasses owner rest f

def declareContract : ContractDecl → HoldId → Eval Unit
  | ⟨span, name, _, ledger, fields, ctor, methods, classes, _⟩, f => do
    inside f {} fun scope => do
      let cls ← newClass { name, form := .contract (contractSlots ledger fields), env := scope } ctor methods
      declareClasses cls classes scope
      declareName f name .constDecl (.ref .classRef cls) span " is already declared"
      onState (fun s => ((), { s with contracts := (utf8 name, cls) :: s.contracts.filter (·.1 != utf8 name) }))
        fun _ => .contract (utf8 name) cls

end

end LedgerScript.Eval
