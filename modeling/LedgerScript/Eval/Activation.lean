import LedgerScript.Eval.Basic

/-!
# Activations

What each activation does.  A pass of a loop evaluates the condition and the body and then becomes the next pass, so
a loop takes no room however long it runs.  A `for` loop hands its frame on from pass to pass, or a copy if something that
was made in one pass needs the variables of that pass.
-/

namespace LedgerScript.Eval

/-- What a module or a function says about a break or continue that no loop takes. -/
def outsideLoop {α : Type} (span : Span) : Eval α :=
  raiseText span .malformed "break or continue outside a loop"

/-! ## Modules -/

/-- A fault at the top level of a module: a return that reaches it ends the module. -/
def endModule (f : Fault) (span : Span) : Eval Value := do
  match f.escape? with
  | some (.result _, _) => return .null
  | some (_, at') => outsideLoop at'
  | none => throwAs f span

/-- An exported name goes to the map of exports. -/
def exportItem (exports : Option Ref) (frame : HoldId) (s : Stmt) : Eval Unit := do
  match exports, s with
  | some r, .export _ d =>
    match ← boundValue? d.declName frame with
    | some v => stepHeap fun h => do return ((), ← h.mapInsert r (.str (utf8 d.declName)) v)
    | none => return ()
  | _, _ => return ()

/-- The items of a module; the value is that of the last expression. -/
def runItems (frame : HoldId) (exports : Option Ref) (last : Value) : List Stmt → Eval Value
  | [] => return last
  | .expr span x :: rest => do
    match ← outcome (evalExpr x frame) with
    | .ok v => runItems frame exports v rest
    | .error (.fault f) => endModule f span
    | .error e => throw e
  | s :: rest => do
    match ← outcome (settle (execStmt s frame)) with
    | .ok .next =>
      exportItem exports frame s
      runItems frame exports last rest
    | .ok (.result v) => return v
    | .ok _ => outsideLoop s.span
    | .error (.fault f) => endModule f s.span
    | .error e => throw e

/-! ## Functions -/

def fieldOf? (v : Value) (name : String) : Eval (Option Value) := do
  match v with
  | .ref .map r => readHeap (·.mapGet? r (.str (utf8 name)))
  | .ref .object r => ofHeap fun h => (h.object? r).bind fun o => lookupName name o.fields
  | _ => return none

/-- A map that is taken apart may only have keys that are asked for. -/
def checkFields (fnName : String) (names : List String) (v : Value) (span : Span) : Eval Unit := do
  match v with
  | .ref .map r =>
    for k in ← ofHeap fun h => (h.mapTable r).keys.toList do
      let known := match k with
        | .text .string s => names.any (utf8 · == s)
        | _ => false
      if !known then
        raise span .malformed
          (utf8 "unknown named argument " ++ (← quoted k) ++ utf8 (" in call to " ++ fnName))
  | _ => return ()

/-- The names that a map or an object is taken apart into. -/
def bindFields (v : Value) (frame : HoldId) : List Param → Eval Unit
  | [] => return ()
  | p :: rest => do
    let v' ← match ← fieldOf? v p.name, p.default with
      | some w, _ => pure w
      | none, some x => evalExpr x frame
      | none, none => pure .null
    let _ ← bind frame p.name .letDecl (.coerce p.type v')
    bindFields v frame rest

def bindParams (fnName : String) (frame : HoldId) (span : Span) : List Param → List Value → Eval Unit
  | [], _ => return ()
  | p :: rest, args => do
    if p.isRest then
      let v ← newArray args
      let _ ← bind frame p.name .letDecl v
    else if p.takesApart then
      let v := args.headD .null
      checkFields fnName (p.fields.map (·.name)) v span
      bindFields v frame p.fields
    else
      let v ← match args, p.default with
        | v :: _, _ => pure v
        | [], some x => evalExpr x frame
        | [], none => pure .null
      if !(← bind frame p.name .letDecl (.coerce p.type v)) then raiseText p.span .malformed ("duplicate parameter " ++ p.name)
    bindParams fnName frame span rest args.tail

def runBody (c : Closure) (frame : HoldId) (span : Span) : Eval Value := do
  match c.fn.body with
  | .expr x =>
    match ← outcome (evalExpr x frame) with
    | .ok v => return v
    | .error (.fault f) =>
      match f.escape? with
      | some (.result v, _) => return v
      | some (_, at') => outsideLoop at'
      | none => fail f
    | .error e => throw e
  | .missing => raiseText span .abstractMethod (c.shownName ++ " has no body")
  | .block b =>
    match ← execStmts b.stmts frame with
    | .result v => return v
    | _ => return .null

/-- How deeply calls may be nested. -/
def callLimit : Nat := 2000

/-- A closure runs in the running task. -/
def invoke (c : Closure) (args : List Value) (span : Span) : Eval Value := do
  if callLimit ≤ (← context).depth then raiseText span .runtime ("stack overflow in " ++ c.shownName)
  else
    modifyContext fun k => { k with depth := k.depth + 1 }
    andFinally
      (do
        let receiver := c.this?.map fun this => ({ this, home? := c.home?, isCtor := c.isCtor } : Receiver)
        inside c.env { isFunction := true, receiver } fun frame => do
          bindParams c.shownName frame span c.fn.params args
          runBody c frame span)
      (modifyContext fun k => { k with depth := k.depth - 1 })

/-! ## Objects and contracts -/

/-- The fields of an object get their first values. -/
def initFields (object : Ref) (frame : HoldId) : List Binding → Eval Unit
  | [] => return ()
  | b :: rest => do
    let v ← match b.init with
      | none => pure .null
      | some x => evalExpr x frame
    modifyHeap (·.modifyObject object fun o =>
      { o with
        fields := putName b.name v o.fields
        frozen := if b.mods.isReadonly then b.name :: o.frozen else o.frozen })
    initFields object frame rest

/-- The fields of one class of an object get their first values. -/
def initObject (cls object : Ref) : Eval Unit := do
  match ← ofHeap (·.class? cls) with
  | some { form := .declared decl, env, .. } =>
    match decl.fields.filter (!·.mods.isStatic) with
    | [] => return ()
    | fields =>
      let receiver : Receiver := { this := .ref .object object, home? := some cls, isCtor := true }
      inside env { isFunction := true, receiver := some receiver } fun frame => initFields object frame fields
  | _ => return ()

def scalarDefault? (t : TypeRef) : Option Value :=
  if t.arrays > 0 || ["map", "Map", "mapping", "set", "Set"].contains t.name then none
  else if t.name = "string" then some (.str [])
  else if t.name = "address" then some (.text .address [])
  else if t.name = "bool" || t.name = "boolean" then some (.bool false)
  else
    match Kind.ofName? t.name with
    | some (.whole .char) => some .null
    | some (.whole k) => some (.whole k 0)
    | some (.real _) => some (.whole .long 0)
    | _ => some .null

def defaultOf (t : Option TypeRef) : Eval Value := do
  match t with
  | none => return .null
  | some t =>
    match scalarDefault? t with
    | some v => return v
    | none =>
      if t.arrays > 0 then newArray []
      else if t.name = "set" || t.name = "Set" then onHeap (·.newSet {})
      else
        let zero := match t.args with
          | [_, t] => (scalarDefault? t).getD .null
          | _ => .null
        onHeap (·.newMap { zero })

def firstValue (s : ContractSlot) (frame : HoldId) : Eval Value := do
  let v ← defaultOf s.type
  match s.init with
  | none => return v
  | some x =>
    let v ← evalExpr x frame
    return .coerce s.type v

/-- The slots of a new contract get their first values. -/
def initSlots (w : WorkingId) (address : Address) (frame : HoldId) (span : Span) :
    List ContractSlot → ExceptT Exit Deed Unit
  | [] => return ()
  | s :: rest => do
    let v ← firstValue s frame
    let r ← ExceptT.lift (Deed.ledger (.store w address (utf8 s.name) v))
    settled span r
    initSlots w address frame span rest

/-- The frame of a contract activation: the slots of storage, and the message unless a slot has its name. -/
def contractFrame (c : Class) (cls : Ref) (slots : List ContractSlot) (address : Address) (message : Message) :
    Eval HoldId := do
  let receiver : Receiver := { this := .text .account address, home? := some cls, isCtor := false }
  let frame ← onEnv (.enter c.env {
    receiver := some receiver, contract := address, slots := (slots.map fun s => .ledger s.name).toArray })
  let messageClass ← ofState (·.messageClass)
  let m ← onHeap (·.newObject {
    cls := messageClass
    fields := [("sender", .text .address message.sender), ("value", amountValue message.value)] })
  let _ ← bind frame "msg" .constDecl m
  return frame

/-- A method of a contract runs on a working set; without a method the contract is deployed. -/
def runContract (cls : Ref) (address : Address) (method : Option Closure) (args : List Value) (w : WorkingId)
    (message : Message) (span : Span) : ExceptT Exit Deed Value := do
  match ← ofHeap (·.class? cls) with
  | none => return .null
  | some c =>
    let slots := match c.form with
      | .contract slots => slots
      | _ => []
    let saved ← ExceptT.lift Deed.context
    ExceptT.lift (Deed.modifyContext fun k =>
      { k with working := some w, self := address, messageSender := message.sender, readOnly := message.readOnly })
    andFinally
      (do
        let frame ← contractFrame c cls slots address message
        andFinally
          (do
            if method.isNone then initSlots w address frame span slots
            match method.or c.ctor? with
            | none => return .null
            | some m => invoke { m with this? := some (.text .account address), home? := some cls, env := frame } args span)
          (giveUp frame))
      (ExceptT.lift (Deed.modifyContext fun k =>
        { k with
          working := saved.working, self := saved.self, messageSender := saved.messageSender
          readOnly := saved.readOnly }))

/-! ## All activations -/

/-- An activation that ends with a value. -/
def answerValue (x : Eval Value) : Eval (Turn PlainRequest Answer) := do
  return .answer (.ok (.result (← x)))

/-- The body of a loop has run: the loop ends or goes on. -/
def afterBody (body : Stmt) (frame : HoldId) (next : Eval (Turn PlainRequest Answer)) :
    Eval (Turn PlainRequest Answer) := do
  match ← inBranch body frame fun inner => settle (execStmt body inner) with
  | .leaveLoop => return .answer (.ok .next)
  | .result v => return .answer (.ok (.result v))
  | _ => next

/-- A hold is given up, unless another activation goes on with it or with one in its place. -/
def handingOn (frame : HoldId) (x : Eval (Turn PlainRequest Answer)) : Eval (Turn PlainRequest Answer) := do
  match ← outcome x with
  | .ok (.become request) => return .become request
  | .ok t =>
    giveUp frame
    return t
  | .error e =>
    giveUp frame
    throw e

/-- An activation that has come to its end. -/
def finished : Turn PlainRequest Answer :=
  .answer (.ok .next)

theorem isPlain_whilePass (cond : Expr) (body : Stmt) (frame : HoldId) :
    (Request.whilePass cond body frame).isPlain = true := rfl

theorem isPlain_doPass (body : Stmt) (cond : Expr) (frame : HoldId) :
    (Request.doPass body cond frame).isPlain = true := rfl

theorem isPlain_forPass (cond post : Option Expr) (body : Stmt) (frame : HoldId) :
    (Request.forPass cond post body frame).isPlain = true := rfl

theorem isPlain_eachPass (kind : DeclKind) (name : String) (body : Stmt) (frame : HoldId) (items : List Value) :
    (Request.eachPass kind name body frame items).isPlain = true := rfl

theorem isPlain_drainPass (kind : DeclKind) (name : String) (body : Stmt) (frame : HoldId) (channel : ObjectId)
    (span : Span) : (Request.drainPass kind name body frame channel span).isPlain = true := rfl

def activate (request : Request) : ExceptT Exit Deed (Turn PlainRequest Answer) :=
  match request with
  | .topLevel items frame exports => answerValue (runItems frame exports .null items)
  | .apply callee args span => answerValue (call callee args span)
  | .invoke c args span => answerValue (invoke c args span)
  | .detached callee args span => answerValue (do
    let v ← call callee args span
    await v span)
  | .expression x frame => answerValue (andFinally (evalExpr x frame) (giveUp frame))
  | .whilePass cond body frame => toDeed do
    let v ← evalExpr cond frame
    if v.truthy then afterBody body frame (return .become ⟨.whilePass cond body frame, isPlain_whilePass ..⟩) else return finished
  | .doPass body cond frame =>
    afterBody body frame (do
      let v ← evalExpr cond frame
      return if v.truthy then .become ⟨.doPass body cond frame, isPlain_doPass ..⟩ else finished)
  | .forPass cond post body frame => toDeed <| handingOn frame do
    let goes ← match cond with
      | none => pure true
      | some x => do pure (← evalExpr x frame).truthy
    if goes then
      afterBody body frame (do
        let renewed ← onEnv (.renew frame)
        handingOn renewed do
          if let some x := post then
            let _ ← evalExpr x renewed
          return .become ⟨.forPass cond post body renewed, isPlain_forPass ..⟩)
    else return finished
  | .eachPass kind name body frame items => toDeed do
    match items with
    | [] => return finished
    | v :: rest =>
      inside frame {} fun inner => do
        let _ ← bind inner name kind v
        afterBody body inner (return .become ⟨.eachPass kind name body frame rest, isPlain_eachPass ..⟩)
  | .drainPass kind name body frame channel span => toDeed do
    match ← receive channel span with
    | none => return finished
    | some v =>
      inside frame {} fun inner => do
        let _ ← bind inner name kind v
        afterBody body inner (return .become ⟨.drainPass kind name body frame channel span, isPlain_drainPass ..⟩)
  | .block body frame => toDeed do
    return .answer (.ok (← execBlock body frame))
  | .fields cls object => toDeed do
    initObject cls object
    return finished
  | .contract cls address method args w message span => do
    return .answer (.ok (.result (← runContract cls address method args w message span)))

/-- How an activation ends. -/
def turnOf : Except Exit (Turn PlainRequest Answer) → Turn Request Answer
  | .ok (.answer a) => .answer a
  | .ok (.become request) => .become request
  | .error e => .answer (.error e)

/-- What the machine has to know about the evaluator. -/
def host : Host RunState Value Fault Request Answer where
  start request := Deed.act do
    return turnOf (← (activate request).run)
  conclude id
    | .ok (.result v) => (some v, none)
    | .ok _ => (some .null, none)
    | .error (.fault f) => (none, some (.own f))
    | .error (.crash m) => (none, some (.schedule (.crashed id m)))
    | .error .killed => (none, some (.schedule .cancelled))
  errorText s f := f.text s.heap

end LedgerScript.Eval
