import LedgerScript.Eval.Transaction

/-!
# Classes, interfaces and instances

Interfaces are named by their words, and a name means what it means where the class or the interface that uses it was
declared.  A class implements an interface if it names it, or names one that extends it; every method that the
interface and those it extends ask for has to be there when the class is declared.

A new object first gets its fields, those of the root class first, each class in an activation of its own, and then
the nearest constructor runs.
-/

namespace LedgerScript.Eval

/-- The interface that a name means at a frame, with the frame in which it was declared. -/
def interface? (v : Value) : Eval (Option (InterfaceDecl × HoldId)) := do
  match v with
  | .ref .classRef r =>
    match ← ofHeap (·.class? r) with
    | some { form := .interface decl, env, .. } => return some (decl, env)
    | _ => return none
  | _ => return none

/-- A bound on how many names a walk through interfaces may visit; no program has as many. -/
def interfaceBound : Nat := Nat.pow 2 40

/-- The methods that interfaces ask for, each interface once.  The names that have been visited grow along the way. -/
def requiredMethods (span : Span) : Nat → List String → HoldId → List String → Eval (List String × List String)
  | 0, _, _, seen => return ([], seen)
  | _, [], _, seen => return ([], seen)
  | fuel + 1, name :: rest, frame, seen => do
    if seen.contains name then requiredMethods span fuel rest frame seen
    else
      let v ← lookup name frame span
      match ← interface? v with
      | none => typeError span (name ++ " is not an interface")
      | some (decl, env) =>
        let own := (decl.members.filter (·.isMethod)).map (·.name)
        let (inherited, seen) ← requiredMethods span fuel decl.bases env (name :: seen)
        let (others, seen) ← requiredMethods span fuel rest frame seen
        return (own ++ inherited ++ others, seen)

/-- A class has all methods that its interfaces ask for. -/
def checkInterfaces (cls : Ref) (frame : HoldId) (span : Span) : Eval Unit := do
  let names ← ofHeap fun h => (h.chain cls).flatMap fun k => match h.class? k with
    | some c => c.interfaces
    | none => []
  for name in names do
    let (methods, _) ← requiredMethods span interfaceBound [name] frame []
    let missing ← ofHeap fun h => methods.filter fun m => match h.method? cls m with
      | some m => m.isAbstract
      | none => true
    if !missing.isEmpty then
      typeError span ("class " ++ (← className cls) ++ " does not implement " ++ name ++ ": missing " ++
        ", ".intercalate missing)

/-- One of some interfaces is a given one or extends it. -/
def reaches (target : String) : Nat → List String → HoldId → List String → Eval (Bool × List String)
  | 0, _, _, seen => return (false, seen)
  | _, [], _, seen => return (false, seen)
  | fuel + 1, name :: rest, frame, seen => do
    if name = target then return (true, seen)
    else if seen.contains name then reaches target fuel rest frame seen
    else
      let seen := name :: seen
      match ← interface? ((← lookup? name frame).getD .null) with
      | none => reaches target fuel rest frame seen
      | some (decl, env) =>
        let (found, seen) ← reaches target fuel decl.bases env seen
        if found then return (true, seen) else reaches target fuel rest frame seen

def implements (cls : Ref) (target : String) : Eval Bool := do
  let named ← ofHeap fun h => (h.chain cls).filterMap h.class?
  named.anyM fun c => c.interfaces.anyM fun name => do
    return (← reaches target interfaceBound [name] c.env []).1

/-- A value is an object of a class, of a subclass of it, or of a class that implements it. -/
def isInstance (v : Value) (cls : Ref) : Eval Bool := do
  match v with
  | .ref .object r =>
    match ← ofHeap fun h => (h.object? r, h.class? cls) with
    | (some o, some { form := .interface decl, .. }) => implements o.cls decl.name
    | (some o, _) => ofHeap fun h => (h.chain o.cls).contains cls
    | (none, _) => return false
  | _ => return false

/-- A value is an object of a class of some name or of a subclass of it. -/
def hasClassNamed (v : Value) (name : String) : Eval Bool := do
  match v with
  | .ref .object r => ofState fun s => match s.heap.object? r with
    | some o => s.heap.hasAncestor o.cls name
    | none => false
  | _ => return false

def isOfType (v : Value) (t : TypeRef) (frame : HoldId) : Eval Bool := do
  if t.arrays > 0 then return v.kind = .ref .array
  else if t.name = "any" then return true
  else if t.name = "Error" then
    match v with
    | .ref .object r => ofState fun s => match s.heap.object? r with
      | some o => s.heap.isErrorClass o.cls
      | none => false
    | _ => return false
  else
    match Kind.ofName? t.name with
    | some k => return v.kind = k
    | none =>
      match ← boundValue? t.name frame with
      | some (.ref .classRef cls) => isInstance v cls
      | _ =>
        match Kind.ofName? (Text.shown (Text.lower (utf8 t.name))) with
        | some k => return v.kind = k
        | none => hasClassNamed v t.name

def catches (t : Option TypeRef) (v : Value) (frame : HoldId) : Eval Bool := do
  match t with
  | none => return true
  | some t =>
    let name := t.name
    if name = "" || name = "any" then return true
    else
      match v with
      | .ref .object _ =>
        if ← hasClassNamed v name then return true
        else
          match ← boundValue? name frame with
          | some (.ref .classRef cls) => isInstance v cls
          | _ => return false
      | v =>
        match Kind.ofName? name with
        | some k => return v.kind = k
        | none => return (← typeName v) == name

/-- The nearest constructor of a class runs on an object. -/
def construct (object : Ref) (args : List Value) (span : Span) : List Ref → Eval Unit
  | [] => return ()
  | k :: rest => do
    match ← ofState (·.heap.class? k) with
    | none => construct object args span rest
    | some c =>
      match c.ctor? with
      | some ctor =>
        let bound := { ctor with this? := some (.ref .object object), home? := some k, isCtor := true }
        let _ ← ask (.invoke bound args span)
      | none =>
        if c.isErrorRoot then
          let message ← match args with
            | [] => pure []
            | v :: _ => plain v
          modifyHeap (·.modifyObject object fun o => { o with fields := putName "message" (.str message) o.fields })
        else construct object args span rest

/-- A new object of a class, or the account of a new contract. -/
def instantiate (cls : Ref) (args : List Value) (span : Span) : Eval Value := do
  match ← ofState (·.heap.class? cls) with
  | none => return .null
  | some c =>
    match c.form with
    | .interface _ => typeError span ("cannot instantiate interface " ++ c.name)
    | .contract _ => deploy cls args span
    | _ =>
      if c.isAbstract then typeError span ("cannot instantiate abstract class " ++ c.name)
      else
        let v ← onHeap (·.newObject { cls })
        match v with
        | .ref _ object =>
          for k in (cls :: c.ancestors).reverse do
            let _ ← ask (.fields k object)
          construct object args span (cls :: c.ancestors)
          return v
        | _ => return .null

/-- The constructor of the superclass runs on the object under construction. -/
def superCall (frame : HoldId) (args : List Value) (span : Span) : Eval Unit := do
  match ← receiver? frame with
  | some { this, home? := some home, isCtor := true } =>
    let ancestors ← ofState fun s => match s.heap.class? home with
      | some c => c.ancestors
      | none => []
    match ancestors, this with
    | [], _ => typeError span ((← className home) ++ " has no superclass")
    | ancestors, .ref .object r => construct r args span ancestors
    | _, _ => typeError span "super() without an object receiver"
  | _ => raiseText span .malformed "super() outside a constructor"

/-- A method of the superclass, bound to the current receiver. -/
def superMember (frame : HoldId) (name : String) (span : Span) : Eval Value := do
  let refuse : Eval Value := typeError span ("super." ++ name ++ " outside a subclass method")
  match ← receiver? frame with
  | some { this, home? := some home, .. } =>
    match ← ofHeap fun h => (h.class? home).bind (·.super?) with
    | none => refuse
    | some super =>
      match ← ofHeap (·.method? super name) with
      | none => typeError span ((← className super) ++ " has no method " ++ name)
      | some m => boundMethod m this span
  | _ => refuse

/-- The names of the fields of an event: those of its class, or else the parameters of its constructor. -/
def eventFieldNames (name : String) (frame : HoldId) : Eval (List String) := do
  match ← boundValue? name frame with
  | some (.ref .classRef r) =>
    match ← ofHeap (·.class? r) with
    | some { form := .declared decl, .. } =>
      match decl.fields, decl.ctor with
      | [], some ctor => return ctor.params.map (·.name)
      | fields, _ => return fields.map (·.name)
    | _ => return []
  | _ => return []

end LedgerScript.Eval
