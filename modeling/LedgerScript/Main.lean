import LedgerScript.Command.Execute

/-!
# The command line

The files below the working folder are read, together with the settings in the folders around it.  The command is
executed on them, the files that it changed are written, and what it said is printed.
-/

namespace LedgerScript

abbrev PlacedFile := List Bytes × Bytes

def pathOf (place : List Bytes) : String :=
  Text.shown (Path.slash :: Text.join [Path.slash] place)

def readPlace (place : List Bytes) : IO (List PlacedFile) := do
  try
    return [(place, (← IO.FS.readBinFile (pathOf place)).toList)]
  catch _ => return []

partial def readEntry (folder : List Bytes) (e : IO.FS.DirEntry) : IO (List PlacedFile) := do
  let place := folder ++ [utf8 e.fileName]
  if ← e.path.isDir then
    return (← (← e.path.readDir).toList.mapM (readEntry place)).flatten
  else
    readPlace place

/-- The files that a command may look at. -/
def readTree : IO FileTree := do
  let folder ← IO.currentDir
  let home := Path.cleanComponents (utf8 folder.toString)
  let below ← (← folder.readDir).toList.mapM (readEntry home)
  let above ← (List.range home.length).mapM fun n => readPlace (home.take n ++ [Settings.fileName])
  return { files := below.flatten ++ above.flatten, home }

def writeChanges (before after : FileTree) : IO Unit := do
  for (place, content) in after.files do
    if before.node? place != some (.file content) then
      IO.FS.createDirAll (pathOf place.dropLast)
      IO.FS.writeBinFile (pathOf place) ⟨content.toArray⟩

/-- A command is executed in the working folder. -/
def executeHere (args : List Bytes) : IO UInt32 := do
  let tree ← readTree
  let (result, space) := ({ tree } : Workspace).execute args
  writeChanges tree space.tree
  (← IO.getStdout).write ⟨result.output.toArray⟩
  (← IO.getStderr).write ⟨result.errors.toArray⟩
  return if result.isOk then 0 else 1

end LedgerScript

/-- The program. -/
def main (args : List String) : IO UInt32 :=
  LedgerScript.executeHere (args.map LedgerScript.utf8)
