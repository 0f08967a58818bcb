import LedgerScript.Syntax.Tree
import LedgerScript.Value.Table

/-!
# The heap

Cells hold what a program can change: arrays, maps, sets and objects, and also classes and functions, which have an
identity.  A reference is the number of a cell, and cells are never taken back.

A function is a closure, a built-in function, a built-in method together with its receiver, or a method of a
contract at an address.
-/

namespace LedgerScript

abbrev HoldId := Nat

/-- A function of the program with a hold on the frame in which it was made.  A bound method has a receiver, the class
that declares it, and a mark if it is a constructor. -/
structure Closure where
  fn : Function
  env : HoldId
  name : String
  mods : Modifiers := {}
  this? : Option Value := none
  home? : Option Ref := none
  isCtor : Bool := false
  deriving Inhabited

def Closure.shownName (c : Closure) : String :=
  if c.name = "" then "<anonymous>" else c.name

inductive Callable where
  | closure (c : Closure)
  | native (name : String)
  | nativeMethod (receiver : Value) (receiverType : String) (name : String)
  | contractMethod (address : Bytes) (name : String)
  deriving Inhabited

def Callable.name : Callable → String
  | closure c => c.shownName
  | native name => name
  | nativeMethod _ receiverType name => receiverType ++ "." ++ name
  | contractMethod _ name => name

structure Method where
  name : String
  /-- The closure; an abstract method has none. -/
  fn? : Option Ref
  isStatic : Bool
  isReadOnly : Bool
  owner : Ref
  deriving Inhabited

def Method.isAbstract (m : Method) : Bool :=
  m.fn?.isNone

/-- A slot of a contract: its name, its type and its first value. -/
structure ContractSlot where
  name : String
  type : Option TypeRef
  init : Option Expr

inductive ClassForm where
  /-- A class that the language brings with it. -/
  | builtin
  | declared (decl : ClassDecl)
  | interface (decl : InterfaceDecl)
  | contract (slots : List ContractSlot)
  deriving Inhabited

/-- A class, an interface or a contract. -/
structure Class where
  name : String
  form : ClassForm := .builtin
  super? : Option Ref := none
  /-- The superclasses from the nearest to the root, without the class itself. -/
  ancestors : List Ref := []
  methods : List Method := []
  interfaces : List String := []
  isAbstract : Bool := false
  /-- Objects of the class and of its subclasses are errors. -/
  isErrorRoot : Bool := false
  statics : List (String × Value) := []
  /-- The frame in which the class was declared. -/
  env : HoldId := 0
  ctor? : Option Closure := none
  deriving Inhabited

/-- An object: its class, its fields in the order in which they were first set, and the fields that only the
constructor may set. -/
structure Object where
  cls : Ref
  fields : List (String × Value) := []
  frozen : List String := []
  deriving Inhabited

/-- The value of a name in an ordered list of names. -/
def lookupName {α : Type} (name : String) : List (String × α) → Option α
  | [] => none
  | (n, v) :: rest => if n = name then some v else lookupName name rest

/-- A name gets a value: in its place if it is there, else at the end. -/
def putName {α : Type} (name : String) (v : α) : List (String × α) → List (String × α)
  | [] => [(name, v)]
  | (n, w) :: rest => if n = name then (n, v) :: rest else (n, w) :: putName name v rest

inductive Cell where
  | array (items : Array Value)
  | map (table : MapTable)
  | set (table : SetTable)
  | object (o : Object)
  | classCell (c : Class)
  | function (f : Callable)
  deriving Inhabited

structure Heap where
  cells : Array Cell := #[]
  deriving Inhabited

namespace Heap

def alloc (h : Heap) (c : Cell) : Ref × Heap :=
  (h.cells.size, { cells := h.cells.push c })

/-- A cell gets other contents. -/
def put (h : Heap) (r : Ref) (c : Cell) : Heap :=
  { cells := h.cells.setIfInBounds r c }

/-- The contents of a cell change. -/
def modify (h : Heap) (r : Ref) (f : Cell → Cell) : Heap :=
  { cells := h.cells.modify r f }

def modifyItems (h : Heap) (r : Ref) (f : Array Value → Array Value) : Heap :=
  h.modify r fun c => match c with
    | .array xs => .array (f xs)
    | c => c

def modifyObject (h : Heap) (r : Ref) (f : Object → Object) : Heap :=
  h.modify r fun c => match c with
    | .object o => .object (f o)
    | c => c

def modifyClass (h : Heap) (r : Ref) (f : Class → Class) : Heap :=
  h.modify r fun c => match c with
    | .classCell k => .classCell (f k)
    | c => c

def items (h : Heap) (r : Ref) : Array Value :=
  match h.cells[r]? with
  | some (.array xs) => xs
  | _ => #[]

def mapTable (h : Heap) (r : Ref) : MapTable :=
  match h.cells[r]? with
  | some (.map m) => m
  | _ => {}

def setTable (h : Heap) (r : Ref) : SetTable :=
  match h.cells[r]? with
  | some (.set s) => s
  | _ => {}

def object? (h : Heap) (r : Ref) : Option Object :=
  match h.cells[r]? with
  | some (.object o) => some o
  | _ => none

def class? (h : Heap) (r : Ref) : Option Class :=
  match h.cells[r]? with
  | some (.classCell c) => some c
  | _ => none

def function? (h : Heap) (r : Ref) : Option Callable :=
  match h.cells[r]? with
  | some (.function f) => some f
  | _ => none

def className (h : Heap) (r : Ref) : String :=
  match h.class? r with
  | some c => c.name
  | none => ""

def chain (h : Heap) (r : Ref) : List Ref :=
  match h.class? r with
  | some c => r :: c.ancestors
  | none => [r]

def isErrorClass (h : Heap) (r : Ref) : Bool :=
  (h.chain r).any fun k => match h.class? k with
    | some c => c.isErrorRoot
    | none => false

def hasAncestor (h : Heap) (r : Ref) (name : String) : Bool :=
  (h.chain r).any fun k => h.className k = name

def ownMethod? (h : Heap) (r : Ref) (name : String) : Option Method :=
  (h.class? r).bind fun c => c.methods.find? (·.name = name)

/-- The method of a class or of the nearest superclass that has it. -/
def method? (h : Heap) (r : Ref) (name : String) : Option Method :=
  (h.chain r).findSome? fun k => h.ownMethod? k name

def newArray (h : Heap) (items : Array Value) : Value × Heap :=
  let (r, h) := h.alloc (.array items)
  (.ref .array r, h)

def newMap (h : Heap) (m : MapTable) : Value × Heap :=
  let (r, h) := h.alloc (.map m)
  (.ref .map r, h)

def newSet (h : Heap) (s : SetTable) : Value × Heap :=
  let (r, h) := h.alloc (.set s)
  (.ref .set r, h)

def newObject (h : Heap) (o : Object) : Value × Heap :=
  let (r, h) := h.alloc (.object o)
  (.ref .object r, h)

def newFunction (h : Heap) (f : Callable) : Value × Heap :=
  let (r, h) := h.alloc (.function f)
  (.ref .function r, h)

def newClass (h : Heap) (c : Class) : Ref × Heap :=
  let ancestors := match c.super? with
    | some s => h.chain s
    | none => []
  h.alloc (.classCell { c with ancestors })

/-- The type of a value: the class of an object, else the kind. -/
def typeName (h : Heap) : Value → String
  | .ref .object r =>
    match h.object? r with
    | some o => h.className o.cls
    | none => "object"
  | v => v.kind.name

end Heap

end LedgerScript
