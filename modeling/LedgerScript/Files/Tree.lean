import LedgerScript.Source.File

/-!
# A tree of files

Files and folders below a root, as they stand at one moment, and a folder that relative paths start from.  A path is
followed component by component: every component before the last has to name a folder, and `..` leads to the folder
around.  What goes wrong names the action and the path that was asked for.
-/

namespace LedgerScript

/-- Why a path cannot be used. -/
inductive FileProblem where
  | missing
  | notFolder
  | isFolder
  | tooLong
  | invalid
  deriving DecidableEq, Repr, Inhabited

def FileProblem.text : FileProblem → String
  | missing => "no such file or directory"
  | notFolder => "not a directory"
  | isFolder => "is a directory"
  | tooLong => "file name too long"
  | invalid => "invalid argument"

/-- An action on a path that failed. -/
structure FileFault where
  action : String
  path : Bytes
  problem : FileProblem
  deriving DecidableEq, Repr, Inhabited

/-- What is said about a failed action. -/
def FileFault.text (f : FileFault) : Bytes :=
  utf8 (f.action ++ " ") ++ f.path ++ utf8 (": " ++ f.problem.text)

/-- What a path leads to. -/
inductive FileNode where
  | file (content : Bytes)
  | folder
  deriving DecidableEq, Repr, Inhabited

/-- Files by the components of their paths from the root, in any order, and the folders that hold no file. -/
structure FileTree where
  files : List (List Bytes × Bytes) := []
  folders : List (List Bytes) := []
  /-- The folder that relative paths start from. -/
  home : List Bytes := []
  deriving Repr, Inhabited

namespace FileTree

def node? (t : FileTree) (place : List Bytes) : Option FileNode :=
  match t.files.find? (·.1 == place) with
  | some f => some (.file f.2)
  | none =>
    if place.isPrefixOf t.home || t.folders.any place.isPrefixOf || t.files.any (place.isPrefixOf ·.1) then
      some .folder
    else none

def componentLimit : Nat := 255

/-- How long a path may be, its end mark included. -/
def pathLimit : Nat := 4096

/-- From a folder along components.  A trailing slash gives an empty last component, which asks for a folder. -/
def follow (t : FileTree) (place : List Bytes) : List Bytes → Except FileProblem (List Bytes)
  | [] => .ok place
  | c :: rest =>
    match t.node? place with
    | none => .error .missing
    | some (.file _) => .error .notFolder
    | some .folder =>
      if c = [] ∨ c = utf8 "." then t.follow place rest
      else if c = utf8 ".." then t.follow place.dropLast rest
      else if componentLimit < c.length then .error .tooLong
      else t.follow (place ++ [c]) rest

/-- The place that a path names, whether or not something is there. -/
def locate (t : FileTree) (path : Bytes) : Except FileProblem (List Bytes) :=
  if path = [] then .error .missing
  else if path.contains 0 then .error .invalid
  else if pathLimit ≤ path.length then .error .tooLong
  else t.follow (if Path.isRooted path then [] else t.home) (Text.splitOn Path.slash path)

def find (t : FileTree) (path : Bytes) : Except FileProblem FileNode := do
  match t.node? (← t.locate path) with
  | some n => return n
  | none => throw .missing

/-- What a path leads to, for somebody who only wants to know. -/
def inspect (t : FileTree) (path : Bytes) : Except FileFault FileNode :=
  (t.find path).mapError fun problem => { action := "stat", path, problem }

def read (t : FileTree) (path : Bytes) : Except FileFault Bytes :=
  match t.find path with
  | .ok (.file content) => .ok content
  | .ok .folder => .error { action := "read", path, problem := .isFolder }
  | .error problem => .error { action := "open", path, problem }

def put (t : FileTree) (place : List Bytes) (content : Bytes) : FileTree :=
  if t.files.any (·.1 == place) then
    { t with files := t.files.map fun f => if f.1 == place then (place, content) else f }
  else { t with files := t.files ++ [(place, content)] }

/-- A file gets a content; its folder has to exist. -/
def write (t : FileTree) (path content : Bytes) : Except FileFault FileTree :=
  match t.locate path with
  | .error problem => .error { action := "open", path, problem }
  | .ok place =>
    match t.node? place, t.node? place.dropLast with
    | some .folder, _ => .error { action := "open", path, problem := .isFolder }
    | some (.file _), _ | none, some .folder => .ok (t.put place content)
    | none, some (.file _) => .error { action := "open", path, problem := .notFolder }
    | none, none => .error { action := "open", path, problem := .missing }

/-- The path of the folder that relative paths start from. -/
def homePath (t : FileTree) : Bytes :=
  Path.slash :: Text.join [Path.slash] t.home

def place (t : FileTree) (path : Bytes) : List Bytes :=
  Path.cleanComponents (Path.absolute t.homePath path)

/-- The tree with a file at a path that is taken as it stands, its folders included. -/
def add (t : FileTree) (path content : Bytes) : FileTree :=
  t.put (t.place path) content

/-- The names in a folder, sorted. -/
def names (t : FileTree) (place : List Bytes) : List Bytes :=
  let nameIn (p : List Bytes) : Option Bytes := if place.isPrefixOf p then p[place.length]? else none
  ((t.files.map (·.1) ++ t.folders ++ [t.home]).filterMap nameIn).eraseDups.mergeSort Text.lexLe

/-- The files at and below a place, folder by folder in the order of names, with their paths.  Folders of an ignored
name are passed over.  The first argument bounds the depth. -/
def filesBelow (t : FileTree) (ignored : Bytes) : Nat → List Bytes → Bytes → List Bytes
  | 0, _, _ => []
  | depth + 1, place, path =>
    (t.names place).flatMap fun name =>
      match t.node? (place ++ [name]) with
      | some .folder =>
        if name = ignored then []
        else t.filesBelow ignored depth (place ++ [name]) (Path.join [path, name])
      | some (.file _) => [Path.join [path, name]]
      | none => []

/-- No file lies deeper. -/
def depth (t : FileTree) : Nat :=
  (t.files.map (·.1.length)).foldl max t.home.length

def walk (t : FileTree) (ignored : Bytes) (path : Bytes) : List Bytes :=
  match t.locate path with
  | .error _ => []
  | .ok place => if Path.base path = ignored then [] else t.filesBelow ignored (t.depth + 1) place path

end FileTree

end LedgerScript
