import CollisionMesh.Failure

/-!
# Scanning directories

The mesh files under a directory, in the order of paths. A mesh file is a regular file whose
extension is `obj` in any case; a file that is scanned itself counts like one in a directory.
-/

namespace CollisionMesh

set_option autoImplicit false

def Path.isMesh (p : Path) : Bool :=
  p.extension?.any fun extension => extension.toList.map Char.toLower == "obj".toList

namespace FileSystem

/-- The names that lead from a directory to a location under it. -/
def namesUnder (directory location : Location) : Option (List String) :=
  if directory.isPrefixOf location then some (location.drop directory.length) else none

/-- The path of a location under a directory that was reached by `root`. -/
def extendPath (root : Path) (names : List String) : Path :=
  names.foldl (fun p name => p.join ⟨name⟩) root

/-- The paths of the files under a directory: those in it, or also those further down. -/
def filesUnder (fs : FileSystem) (root : Path) (directory : Location) (recursive : Bool) :
    List Path :=
  fs.nodes.filterMap fun entry =>
    match entry.2, namesUnder directory entry.1 with
    | .file _, some names =>
      if names.length = 1 ∨ (recursive = true ∧ names ≠ []) then some (extendPath root names)
      else none
    | _, _ => none

/-- The mesh files that a scan finds, in the order of paths. -/
def scan (fs : FileSystem) (root : Path) (recursive : Bool) : Except Failure (List Path) :=
  match fs.locate root with
  | .error fault => .error (.file root (.scan root fault))
  | .ok (_, .file _) => .ok (if root.isMesh then [root] else [])
  | .ok (directory, .directory) =>
    .ok (((fs.filesUnder root directory recursive).filter Path.isMesh).mergeSort Path.le)

end FileSystem

end CollisionMesh
