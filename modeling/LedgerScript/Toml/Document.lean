import LedgerScript.Toml.Reader

/-!
# TOML documents

The lines of a TOML text build a tree of tables.  A table that is only mentioned on the way to another one is there
*implicitly*; it may be declared later, but only once.  A key that holds a list may be given again, and then the last
value stands.  Every other key may be given once.

The document also keeps the keys in the order in which they were written, headers included.
-/

namespace LedgerScript.Toml

/-- What a key holds. -/
inductive Node where
  | scalar (v : TomlValue)
  | table (entries : List (Bytes × Node))
  /-- Tables under a header of their own each, the latest last. -/
  | tables (earlier : Nat) (latest : List (Bytes × Node))
  deriving Inhabited

abbrev Table := List (Bytes × Node)

def get? (t : Table) (name : Bytes) : Option Node :=
  (t.find? (·.1 == name)).map (·.2)

def put (t : Table) (name : Bytes) (v : Node) : Table :=
  if t.any (·.1 == name) then t.map fun e => if e.1 == name then (name, v) else e else t ++ [(name, v)]

/-- The table inside a node; of several tables the latest. -/
def Node.inner? : Node → Option Table
  | table t | tables _ t => some t
  | scalar _ => none

def Node.setInner (t : Table) : Node → Node
  | tables n _ => .tables n t
  | _ => .table t

def onTable {α : Type} (f : Table → Option (α × Table)) : TomlKey → Table → Option (α × Table)
  | [], t => f t
  | k :: rest, t => do
    let node ← get? t k
    let (a, t') ← onTable f rest (← node.inner?)
    return (a, put t k (node.setInner t'))

/-- A document on its way. -/
structure Build where
  root : Table := []
  implicit : List TomlKey := []
  /-- The keys that hold lists. -/
  lists : List TomlKey := []
  /-- The keys in the order in which they were written, the latest first. -/
  order : List TomlKey := []
  deriving Inhabited

abbrev BuildM := StateT Build Option

namespace BuildM

def addImplicit (key : TomlKey) : BuildM Unit :=
  modify fun b => { b with implicit := key :: b.implicit }

/-- A table is no longer there implicitly only. -/
def removeImplicit (key : TomlKey) : BuildM Unit :=
  modify fun b => { b with implicit := b.implicit.filter (· ≠ key) }

def addKey (key : TomlKey) : BuildM Unit :=
  modify fun b => { b with order := key :: b.order }

def inTable {α : Type} (context : TomlKey) (f : Table → Option (α × Table)) : BuildM α := fun b => do
  let (a, root) ← onTable f context b.root
  return (a, { b with root })

/-- The key whose kind is recorded for a name: a nameless entry counts as the table around it. -/
def kindKey (context : TomlKey) (name : Bytes) : TomlKey :=
  if name = [] then if context = [] then [[]] else context else context ++ [name]

def setKind (context : TomlKey) (name : Bytes) (isList : Bool) : BuildM Unit :=
  modify fun b =>
    let key := kindKey context name
    let others := b.lists.filter (· ≠ key)
    { b with lists := if isList then key :: others else others }

/-- A name gets a value.  Only a list can be replaced, and only an implicit table can be given again. -/
def setValue (context : TomlKey) (name : Bytes) (v : Node) : BuildM Unit := do
  let key := context ++ [name]
  let known ← inTable context fun t => some ((get? t name).isSome, t)
  if !known then inTable context fun t => some ((), put t name v)
  else if (← get).lists.contains key then
    removeImplicit key
    inTable context fun t => some ((), put t name v)
  else if (← get).implicit.contains key then removeImplicit key
  else failure

/-- The tables on the way to a key are there, implicitly if need be. -/
def openWay (before : TomlKey) : TomlKey → BuildM Unit
  | [] => return ()
  | k :: rest => do
    let known ← inTable before fun t => some (get? t k, t)
    match known with
    | none =>
      addImplicit (before ++ [k])
      inTable before fun t => some ((), put t k (.table []))
    | some (.scalar _) => failure
    | some _ => pure ()
    openWay (before ++ [k]) rest

def openTable (key : TomlKey) (inList : Bool) : BuildM Unit := do
  let before := key.dropLast
  let name := key.getLastD []
  openWay [] before
  if inList then
    inTable before fun t =>
      match get? t name with
      | none => some ((), put t name (.tables 0 []))
      | some (.tables n _) => some ((), put t name (.tables (n + 1) []))
      | some _ => none
  else setValue before name (.table [])

/-- The tables that a dotted key goes through are opened one after the other. -/
def openDotted (context : TomlKey) : TomlKey → BuildM TomlKey
  | [] => return context
  | k :: rest => do
    let key := context ++ [k]
    addImplicit key
    openTable key false
    openDotted key rest

mutual

/-- A value is built under a name; inside a list, tables are opened one after the other. -/
def build (context : TomlKey) (name : Bytes) (inList : Bool) : TomlValue → BuildM Node
  | .list items => do
    setKind context name true
    buildItems context name items
    return .scalar (.list [])
  | .table entries => do
    let key := context ++ [name]
    addImplicit key
    openTable key inList
    buildEntries key entries
    return .table (← inTable key fun t => some (t, t))
  | v => return .scalar v

def buildItems (context : TomlKey) (name : Bytes) : List TomlValue → BuildM Unit
  | [] => return ()
  | v :: rest => do
    let _ ← build context name true v
    buildItems context name rest

def buildEntries (context : TomlKey) : List (TomlKey × TomlValue) → BuildM Unit
  | [] => return ()
  | (key, v) :: rest => do
    let inner ← openDotted context key.dropLast
    let name := key.getLastD []
    addKey (inner ++ [name])
    let node ← build inner name false v
    setValue inner name node
    setKind inner name (match v with
      | .list _ => true
      | _ => false)
    buildEntries context rest

end

/-- The lines of a text, below the header that came last. -/
def buildLines (context : TomlKey) : List TomlLine → BuildM Unit
  | [] => return ()
  | .table key :: rest => do
    openTable key false
    setKind key [] false
    addKey key
    buildLines key rest
  | .tableInList key :: rest => do
    openTable key true
    setKind key [] false
    addKey key
    buildLines key rest
  | .entry key v :: rest => do
    buildEntries context [(key, v)]
    buildLines context rest

end BuildM

/-- A document: its table and its keys in the order in which they were written. -/
structure Document where
  root : Table
  keys : List TomlKey
  deriving Inhabited

/-- The document of a text, or nothing if it is malformed. -/
def Document.ofText? (text : Bytes) : Option Document := do
  let (_, b) ← (BuildM.buildLines [] (← read? text)).run {}
  return { root := b.root, keys := b.order.reverse }

end LedgerScript.Toml
