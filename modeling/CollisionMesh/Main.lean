import CollisionMesh.CommandLine

/-!
# The program

The files around the working directory and around the arguments are read into a `FileSystem`, the
command runs on it, and what it changed is written back. Links and special files are passed over.
-/

namespace CollisionMesh.Main

set_option autoImplicit false

def locationOf (path : String) : Location := FileSystem.names ⟨path⟩

def pathOf (location : Location) : String := "/" ++ "/".intercalate location

/-- The directories on the way to a location, and that location as a directory. -/
def directoriesTo (location : Location) : List (Location × Node) :=
  (List.range location.length).map fun n => (location.take (n + 1), .directory)

/-- The files and directories below a directory. -/
partial def below (location : Location) : IO (List (Location × Node)) := do
  let directory ← IO.FS.realPath (pathOf location)
  let mut nodes : List (Location × Node) := []
  for entry in ← directory.readDir do
    let here := location ++ [entry.fileName]
    try
      match (← entry.path.symlinkMetadata).type with
      | .dir => nodes := (here, .directory) :: (← below here) ++ nodes
      | .file => nodes := (here, .file (← IO.FS.readBinFile entry.path)) :: nodes
      | _ => pure ()
    catch _ => pure ()
  return nodes

/-- The directory around the file, or the directory itself, that an argument
names, if there is one. -/
def surroundings (argument : String) : IO (Option Location) := do
  try
    let real ← IO.FS.realPath argument
    let location := locationOf real.toString
    if ← real.isDir then return some location
    else if ← real.pathExists then return some location.dropLast
    else return none
  catch _ => return none

/-- Adds what is below a location, unless it is known already. -/
def explore (known : List Location × FileSystem) (location : Location) :
    IO (List Location × FileSystem) := do
  if known.1.any fun root => root.isPrefixOf location then return known
  let found := directoriesTo location ++ (← below location)
  let kept := known.2.nodes.filter fun node => !location.isPrefixOf node.1
  return (location :: known.1, { known.2 with nodes := found ++ kept })

/-- Writes what stands at a location if it is not what stood there before. -/
def writeBack (before : FileSystem) (entry : Location × Node) : IO Unit := do
  match before.lookup entry.1, entry.2 with
  | some .directory, .directory => return
  | _, .directory => IO.FS.createDirAll (pathOf entry.1)
  | old, .file content =>
    if let some (.file old) := old then
      if old.data == content.data then return
    let draft := pathOf (entry.1.dropLast ++ [".draft-" ++ (entry.1.getLast?.getD "")])
    IO.FS.writeBinFile draft content
    IO.FS.rename draft (pathOf entry.1)

def runProgram (arguments : List String) : IO UInt32 := do
  let origin := locationOf (← IO.currentDir).toString
  let around ← arguments.filterMapM surroundings
  let (_, before) ← (origin :: around).foldlM explore ([], ⟨[], origin⟩)
  let (outcome, after) := CommandLine.run before arguments
  after.nodes.reverse.forM (writeBack before)
  IO.print outcome.output
  IO.eprint outcome.errors
  return outcome.exitCode

end CollisionMesh.Main

def main (arguments : List String) : IO UInt32 := CollisionMesh.Main.runProgram arguments
