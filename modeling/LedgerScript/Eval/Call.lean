import LedgerScript.Eval.Builtin
import LedgerScript.Eval.Instance

/-!
# Calls

What can be called is called: a closure in an activation, or in a task of its own if it is asynchronous, a built-in
function or method directly, and a method of a contract by a transaction.
-/

namespace LedgerScript.Eval

def call (callee : Value) (args : List Value) (span : Span) : Eval Value := do
  match callee with
  | .ref .function r =>
    match ← ofState (·.heap.function? r) with
    | some (.closure c) =>
      if c.fn.isAsync || c.mods.isAsync then spawn c.shownName (.invoke c args span)
      else askValue (.invoke c args span)
    | some (.native name) =>
      match lookupName name Builtin.table with
      | some b => callBuiltin b args span
      | none => return .null
    | some (.nativeMethod receiver _ name) => callMethod receiver name args span
    | some (.contractMethod address name) => callContract address name args span
    | none => return .null
  | .ref .classRef r => typeError span ("class " ++ (← className r) ++ " must be instantiated with new")
  | v => typeError span ((← typeName v) ++ " is not callable")

/-- The result of a task, for which the running task waits; any other value is its own result. -/
def await (v : Value) (span : Span) : Eval Value := do
  match v with
  | .task id _ =>
    notice id
    match (← waitFor (.await id)).fault with
    | some f => throwAs (.schedule f) span
    | none =>
      match ← ofSched (·.outcome id) with
      | (_, some (.schedule f)) => throwAs (.schedule f) span
      | (_, some (.own f)) => throwAs f span
      | (r, none) => return r.getD .null
  | v => return v

/-- What stands in front of the arguments of a call. -/
inductive CalleeShape where
  /-- The constructor of the superclass. -/
  | super
  | superMember (name : String) (span : Span)
  /-- A member of a receiver; with a question mark a null receiver ends the call. -/
  | member (name : String) (span : Span) (optional : Bool)
  | value

def CalleeShape.of : Expr → CalleeShape
  | .super _ => .super
  | .member span (.super _) name _ => .superMember name span
  | .member span _ name optional => .member name span optional
  | _ => .value

/-- What is called with which arguments; nothing if the call is already over.  `operand` evaluates the receiver of a
member, or else the callee itself. -/
def callTarget? (shape : CalleeShape) (optional : Bool) (operand : Eval Value) (args : Eval (List Value))
    (frame : HoldId) (span : Span) : Eval (Option (Value × List Value)) := do
  match shape with
  | .super =>
    superCall frame (← args) span
    return none
  | .superMember name at' =>
    let callee ← superMember frame name at'
    return some (callee, ← args)
  | .member name at' memberOptional =>
    let receiver ← operand
    match receiver, memberOptional || optional with
    | .null, true => return none
    | receiver, _ =>
      let callee ← member receiver name at'
      return some (callee, ← args)
  | .value =>
    let callee ← operand
    return some (callee, ← args)

/-- A call is made in a task of its own. -/
def spawnCall (callee : Value) (args : List Value) (span : Span) : Eval Value := do
  let name ← match callee with
    | .ref .function r => ofState fun s => match s.heap.function? r with
      | some f => f.name
      | none => "spawn"
    | _ => pure "spawn"
  spawn name (.detached callee args span)

/-!
## Modules

A module is run once, when it is first imported, in a frame of its own inside the frame of the main file.  While it
runs it may not be imported again.  A module that fails can be tried again; its tree is kept.
-/

/-- Something of the modules, which may change. -/
def onModules {α : Type} (f : Modules → α × Modules) : Eval α :=
  onState (fun s =>
    let (a, modules) := f s.modules
    (a, { s with modules })) fun s => .modules (f s.modules).2

def parseModule (path text : Bytes) : Eval SyntaxFile := do
  let known ← ofState fun s => s.modules.parsed.find? fun p => p.1 == path && p.2.1 == text
  match known with
  | some (_, _, tree) => return tree
  | none =>
    let file ← onModules fun m =>
      let (files, file) := m.files.addInMemory path text
      (file, { m with files })
    match parse file with
    | .error f => fail (.source f)
    | .ok tree =>
      onModules fun m => ((), { m with parsed := (path, text, tree) :: m.parsed })
      return tree

def setModule (path : Bytes) (state : Option ModuleState) : Eval Unit :=
  onModules fun m =>
    let others := m.states.filter (·.1 != path)
    let states := match state with
      | some state => (path, state) :: others
      | none => others
    ((), { m with states })

/-- The map of the exports of a module, which is run if it has not been run before. -/
def loadModule (path : Bytes) : Eval Ref := do
  match ← ofState fun s => s.modules.states.find? (·.1 == path) with
  | some (_, .done exports) => return exports
  | some (_, .loading) => fail (.importing (.cycle path))
  | none =>
    let text ← match ← ofState fun s => s.modules.read path with
      | .ok text => pure text
      | .error f => fail (.importing f)
    let tree ← parseModule path text
    let v ← onHeap (·.newMap {})
    match v with
    | .ref _ exports =>
      setModule path (some .loading)
      let frame ← onEnv (.enter (← ofState (·.global)) { isFunction := true })
      match ← outcome (ask (.topLevel tree.items frame (some exports))) with
      | .ok _ =>
        setModule path (some (.done exports))
        return exports
      | .error e =>
        giveUp frame
        match e with
        | .fault f =>
          setModule path none
          fail f
        | e => throw e
    | _ => return 0

/-- Names are taken from a module. -/
def importNames (path : Bytes) (exports : Ref) (frame : HoldId) : List ImportSpec → Eval Unit
  | [] => return ()
  | spec :: rest => do
    match ← readHeap (·.mapGet? exports (.str (utf8 spec.name))) with
    | none =>
      raise spec.span .undefinedVariable
        (utf8 "module " ++ Text.quoted path ++ utf8 (" does not export " ++ spec.name))
    | some v =>
      if ← bind frame spec.binding .constDecl v then importNames path exports frame rest
      else raiseText spec.span .malformed (spec.binding ++ " is already declared in this scope")

def importModule (names : List ImportSpec) (path : Bytes) (frame : HoldId) (span : Span) : Eval Unit := do
  match ← outcome (loadModule path) with
  | .ok exports => importNames path exports frame names
  | .error (.fault f) => throwAs f span
  | .error e => throw e

end LedgerScript.Eval
