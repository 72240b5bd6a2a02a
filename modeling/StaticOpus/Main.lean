import StaticOpus.Program

/-!
# The program on its system

Reads the directory of the headers, runs the command line on it, prints, and writes back what has
changed. Other programs are out of its reach: a command that needs cargo finds none.
-/

namespace StaticOpus

/-- The directory of the headers. -/
def headersDirectory : String := "include"

/-- Where a path below the directory of the headers is on the system. -/
def place (path : Path) : String := String.intercalate "/" (headersDirectory :: path)

/-- What stands at a path on the system: what can be read as a file is one, and what is there but
cannot be read so is a directory. -/
def findEntry (path : Path) : IO (Option Entry) := do
  try
    return some (.file (← IO.FS.readBinFile (place path)).data.toList)
  catch _ =>
    try
      discard (IO.FS.realPath (place path))
      return some .dir
    catch _ => return none

/-- The paths that the headers take up: the directory and one file each. -/
def headerPaths : List Path := [] :: Header.all.map fun header => [header.fileName]

/-- The directory of the headers as it is on the system. -/
def readTree : IO FileTree :=
  headerPaths.foldlM (fun tree path => do
    match ← findEntry path with
    | none => return tree
    | some entry => return tree.put path (some entry)) .nothing

/-- Writes to the system what one tree has and another had not. -/
def writeChanges (before after : FileTree) : IO Unit :=
  headerPaths.forM fun path => do
    if before.entry path ≠ after.entry path then
      match after.entry path with
      | none => pure ()
      | some .dir => IO.FS.createDirAll (place path)
      | some (.file bytes) => IO.FS.writeBinFile (place path) ⟨bytes.toArray⟩

/-- Runs a command line on the system. -/
def runOnSystem (args : List String) : IO UInt32 := do
  let library ← IO.getEnv "OPUS_LIB_DIR"
  let workspace : Workspace :=
    { cargo := none, tree := ← readTree, headers := ⟨[], headersDirectory⟩ }
  let outcome := runProgram args (library.map Text.Utf8.encode) workspace
  writeChanges workspace.tree (outcome.workspace workspace).tree
  IO.print outcome.stdout
  match outcome with
  | .refused fault => IO.eprintln fault.headline
  | _ => IO.eprint outcome.stderr
  return UInt32.ofNat outcome.exitCode

end StaticOpus

/-- Runs the command line that the program was called with. -/
def main (args : List String) : IO UInt32 := StaticOpus.runOnSystem args
