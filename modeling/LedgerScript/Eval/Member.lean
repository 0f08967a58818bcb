import LedgerScript.Eval.Method
import LedgerScript.Eval.Storage
import LedgerScript.Value.Container

/-!
# Members and items

What a dot and what brackets reach.  An object has fields and methods, a class has static members, a map reads a
missing member as a key, an account has the methods and the storage of its contract, and the other built-in kinds
have a few properties and their built-in methods.  A method that is read off a value is a function that remembers
its receiver.

A *place* is what an assignment can go to: a variable, a member or an item.
-/

namespace LedgerScript

namespace Eval

def modifyHeap (f : Heap → Heap) : Eval Unit :=
  onHeap fun h => ((), f h)

def newArray (items : List Value) : Eval Value :=
  onHeap (·.newArray items.toArray)

def boundMethod (m : Method) (this : Value) (span : Span) : Eval Value := do
  match m.fn? with
  | none =>
    raiseText span .abstractMethod
      ("abstract method " ++ (← className m.owner) ++ "." ++ m.name ++ " has no implementation")
  | some r =>
    match ← ofHeap (·.function? r), m.isStatic with
    | some (.closure c), false =>
      onHeap (·.newFunction (.closure { c with this? := some this, home? := some m.owner }))
    | _, _ => return .ref .function r

def contractAt (address : Address) (span : Span) : Eval Ref := do
  let code ← inTransaction span (.code · address) (fun _ _ runs => .code runs _)
    (ofState fun s => match s.ledger.account? address with
      | some a => a.code
      | none => [])
  match ← ofState fun s => s.contracts.find? (·.1 == code) with
  | some (_, cls) => if code = [] then refuse else return cls
  | none => refuse
where
  refuse : Eval Ref := raise span .type (address ++ utf8 " is not a contract account")

def accountMember (isAccount : Bool) (address : Address) (name : String) (span : Span) : Eval Value := do
  if name = "address" then return .text .address address
  else if name = "balance" then return amountValue (← balance address span)
  else if isAccount then
    let cls ← contractAt address span
    match ← ofHeap (·.method? cls name) with
    | some { isStatic := false, .. } => onHeap (·.newFunction (.contractMethod address name))
    | _ =>
      match ← ofHeap fun h => (h.class? cls).bind fun c => lookupName name c.statics with
      | some v => return v
      | none => loadStorage address name span
  else typeError span ("address has no member " ++ name)

/-- A count that belongs to a value. -/
def property? (v : Value) (name : String) : Eval (Option Nat) := do
  let isLength := name = "length" || name = "size"
  match v with
  | .text .string s => return if isLength then some (Text.glyphs s).length else none
  | .ref .array r => ofHeap fun h => if isLength then some (h.items r).size else none
  | .ref .set r => ofHeap fun h => if isLength then some (h.setTable r).size else none
  | .tuple items => return if isLength then some items.length else none
  | .handle .channel id => ofSched fun s =>
      if isLength then some (s.channel id).buffer.length
      else if name = "capacity" then some (s.channel id).capacity
      else none
  | .handle .barrier id => ofSched fun s => if name = "parties" then some (s.barrierState id).1 else none
  | _ => return none

def member (v : Value) (name : String) (span : Span) : Eval Value := do
  let method : Eval (Option Value) := do
    match BuiltinMethod.find? v.kind name with
    | some _ =>
      let type ← typeName v
      return some (← onHeap (·.newFunction (.nativeMethod v type name)))
    | none => return none
  match v with
  | .null => typeError span ("cannot read " ++ name ++ " of null")
  | .ref .object r =>
    let some o ← ofHeap (·.object? r) | return .null
    match lookupName name o.fields with
    | some field => return field
    | none =>
      match ← ofHeap (·.method? o.cls name) with
      | some { isStatic := false, name, fn?, isReadOnly, owner } =>
        boundMethod { isStatic := false, name, fn?, isReadOnly, owner } v span
      | _ => typeError span ((← className o.cls) ++ " has no member " ++ name)
  | .ref .classRef r =>
    match ← ofHeap fun h => ((h.class? r).bind fun c => lookupName name c.statics, h.method? r name) with
    | (some field, _) => return field
    | (none, some { isStatic := true, name, fn?, isReadOnly, owner }) =>
      boundMethod { isStatic := true, name, fn?, isReadOnly, owner } v span
    | (none, _) => typeError span ("class " ++ (← className r) ++ " has no static member " ++ name)
  | .text .account address => accountMember true address name span
  | .text .address address => accountMember false address name span
  | .ref .map r =>
    match ← method with
    | some f => return f
    | none =>
      if name = "size" || name = "length" then return .count (← ofHeap fun h => (h.mapTable r).size)
      else readHeap (·.mapLookup r (.str (utf8 name)))
  | v =>
    match ← property? v name with
    | some n => return .count n
    | none =>
      match ← method with
      | some f => return f
      | none => typeError span ((← typeName v) ++ " has no member " ++ name)

def inConstructorOf (frame : HoldId) (object : Ref) : Eval Bool := do
  match ← receiver? frame with
  | some { this := .ref .object r, isCtor := true, .. } => return r == object
  | _ => return false

def setMember (v : Value) (name : String) (new : Value) (frame : HoldId) (span : Span) : Eval Unit := do
  match v with
  | .ref .object r =>
    let some (cls, frozen) ← ofHeap fun h => (h.object? r).map fun o => (o.cls, o.frozen.contains name) | return ()
    if frozen && !(← inConstructorOf frame r) then
      raiseText span .immutableAssignment
        ("cannot assign to readonly field " ++ (← className cls) ++ "." ++ name ++ " outside the constructor")
    else modifyHeap (·.modifyObject r fun o => { o with fields := putName name new o.fields })
  | .ref .classRef r => modifyHeap (·.modifyClass r fun c => { c with statics := putName name new c.statics })
  | .ref .map r => stepHeap fun h => do return ((), ← h.mapInsert r (.str (utf8 name)) new)
  | .text .account address => storeStorage address name new span
  | v => typeError span ("cannot set member " ++ name ++ " on " ++ (← typeName v))

def positionIn (i : Value) (length : Nat) (span : Span) : Eval Nat := do
  if i.kind.isIntegral then
    let n := i.toInt
    if 0 ≤ n && n < length then return n.toNat
    else raiseText span .runtime ("index " ++ toString n ++ " out of range [0, " ++ toString length ++ ")")
  else typeError span ("index must be an integer, got " ++ (← typeName i))

def item (v : Value) (i : Value) (span : Span) : Eval Value := do
  let refuse : Eval Value := do typeError span ("cannot index " ++ (← typeName v) ++ " with " ++ (← typeName i))
  match v with
  | .ref .array r =>
    let n ← positionIn i (← ofHeap fun h => (h.items r).size) span
    ofHeap fun h => ((h.items r)[n]?).getD .null
  | .tuple items => return (items[← positionIn i items.length span]?).getD .null
  | .text .string s =>
    let chars := Text.shownChars s
    return match chars[← positionIn i chars.length span]? with
      | some c => .whole .char c.toNat
      | none => .null
  | .ref .map r => readHeap (·.mapLookup r i)
  | .ref .object _ =>
    match i with
    | .text .string s =>
      match Text.toString? s with
      | some name => member v name span
      | none => raise span .type (utf8 ((← typeName v) ++ " has no member ") ++ s)
    | _ => refuse
  | _ => refuse

def setItem (v : Value) (i : Value) (new : Value) (span : Span) : Eval Unit := do
  match v with
  | .ref .array r =>
    let n ← positionIn i (← ofHeap fun h => (h.items r).size) span
    modifyHeap (·.modifyItems r (·.setIfInBounds n new))
  | .ref .map r => stepHeap fun h => do return ((), ← h.mapInsert r i new)
  | .tuple _ => raiseText span .immutableAssignment "tuples are immutable"
  | v => typeError span ("cannot assign index of " ++ (← typeName v))

end Eval

/-- What an assignment can go to. -/
inductive Place where
  | variable (frame : HoldId) (p : BoundSlot) (span : Span)
  | member (v : Value) (name : String) (frame : HoldId) (span : Span)
  | item (v : Value) (i : Value) (span : Span)
  deriving Inhabited

def Place.read : Place → Eval Value
  | .variable frame p span => Eval.loadSlot frame p span
  | .member v name _ span => Eval.member v name span
  | .item v i span => Eval.item v i span

def Place.write (v : Value) : Place → Eval Unit
  | .variable frame p span => Eval.storeSlot frame p v span
  | .member target name frame span => Eval.setMember target name v frame span
  | .item target i span => Eval.setItem target i v span

end LedgerScript
