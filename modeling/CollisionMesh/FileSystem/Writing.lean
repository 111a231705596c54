import CollisionMesh.FileSystem

/-!
# Writing

Making directories, and the steps by which a file comes to its place: it is written under the name
of a temporary file into the directory of its path, and then renamed. Directories that were made
stay, also when a later step fails.
-/

namespace CollisionMesh

set_option autoImplicit false

namespace Path

/-- The directory that a file at this path is put into: the parent, or a dot if that is empty. -/
def containingDirectory (p : Path) : Path :=
  match p.parent? with
  | some parent => if parent.text.isEmpty then ⟨"."⟩ else parent
  | none => ⟨"."⟩

end Path

namespace FileSystem

/-- Makes one directory; everything on the way to it must be there already. -/
def makeDirectory (fs : FileSystem) (p : Path) : Except SystemFault FileSystem := do
  let (location, name?) ← fs.locateParent p
  match name? with
  | none => .error .alreadyExists
  | some name =>
    if name = "." ∨ name = ".." then .error .alreadyExists
    else do
      let target ← fs.step location name
      match fs.lookup target with
      | some _ => .error .alreadyExists
      | none => .ok (fs.insert target .directory)

/-- Makes a directory and, where they are missing, those above it. `depth` bounds how many of them
are tried; the number of components of the path is enough. -/
def makeDirectoriesUpTo (depth : Nat) (fs : FileSystem) (p : Path) :
    Except SystemFault Unit × FileSystem :=
  if p.text.isEmpty then (.ok (), fs)
  else
    match fs.makeDirectory p with
    | .ok made => (.ok (), made)
    | .error .notFound =>
      match depth, p.parent? with
      | depth + 1, some parent =>
        match makeDirectoriesUpTo depth fs parent with
        | (.error fault, left) => (.error fault, left)
        | (.ok (), left) =>
          match left.makeDirectory p with
          | .ok made => (.ok (), made)
          | .error fault => (if left.isDirectory p then .ok () else .error fault, left)
      | _, _ => (.error .notFound, fs)
    | .error fault => (if fs.isDirectory p then .ok () else .error fault, fs)

def makeDirectories (fs : FileSystem) (p : Path) : Except SystemFault Unit × FileSystem :=
  makeDirectoriesUpTo p.components.length fs p

def remove (fs : FileSystem) (location : Location) : FileSystem :=
  { fs with nodes := fs.nodes.filter fun entry => entry.1 != location }

/-- Where a file goes that is put at a path: not to a directory. A path that holds the character NUL
is refused as an argument, before any walk. -/
def place (fs : FileSystem) (p : Path) : Except SystemFault Location :=
  if p.text.toList.contains '\x00' then .error .invalidArgument
  else do
    let (location, name?) ← fs.locateParent p
    match name? with
    | none => .error .busy
    | some name =>
      if name = "." ∨ name = ".." then .error .busy
      else do
        let target ← fs.step location name
        if p.endsInSlash then .error .notDirectory
        else
          match fs.lookup target with
          | some .directory => .error .isDirectory
          | _ => .ok target

/-- Moves a file to a path, where it takes the place of a file that may stand there. -/
def rename (fs : FileSystem) (source : Location) (p : Path) : Except SystemFault FileSystem := do
  let target ← fs.place p
  match fs.lookup source with
  | some (.file content) => .ok ((fs.remove source).insert target (.file content))
  | _ => .error .notFound

def temporaryName (number : Nat) : String := ".tmp" ++ number.repr

/-- The first name of a temporary file that is none of some names. -/
def freshName (names : List String) : String :=
  let free :=
    (List.range (names.length + 1)).find? fun number => !names.contains (temporaryName number)
  temporaryName (free.getD 0)

def namesInUse (fs : FileSystem) : List String := fs.workingDirectory ++ fs.nodes.flatMap Prod.fst

/-- Puts a file with a name of its own into the directory of a path; the outcome tells its place.
The name occurs neither in the file system nor in the path. -/
def putTemporary (fs : FileSystem) (p : Path) (content : ByteArray) :
    Except SystemFault (Location × FileSystem) :=
  match fs.locate p.containingDirectory with
  | .error fault => .error fault
  | .ok (_, .file _) => .error .notDirectory
  | .ok (directory, .directory) =>
    let source := directory ++ [freshName (names p ++ fs.namesInUse)]
    .ok (source, fs.insert source (.file content))

end FileSystem

end CollisionMesh
