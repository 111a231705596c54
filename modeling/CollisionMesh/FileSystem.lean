import CollisionMesh.Path

/-!
# File systems

Regular files and directories, without links. A `Location` names a place from the root down;
`FileSystem.locate` walks a path from the root or the working directory, name by name, and says what
stands there or why the walk fails.
-/

namespace CollisionMesh

set_option autoImplicit false

/-- The names on the way from the root to a place. -/
abbrev Location := List String

inductive Node where
  | file (content : ByteArray)
  | directory
  deriving Inhabited

/-- The files and directories below the root, and the directory at which relative paths start. -/
structure FileSystem where
  nodes : List (Location × Node)
  workingDirectory : Location

inductive SystemFault where
  | notFound
  | busy
  | alreadyExists
  | notDirectory
  | isDirectory
  | invalidArgument
  | nameTooLong
  | nulInName
  deriving DecidableEq, Repr, Inhabited

def SystemFault.message : SystemFault → String
  | notFound => "No such file or directory (os error 2)"
  | busy => "Device or resource busy (os error 16)"
  | alreadyExists => "File exists (os error 17)"
  | notDirectory => "Not a directory (os error 20)"
  | isDirectory => "Is a directory (os error 21)"
  | invalidArgument => "Invalid argument (os error 22)"
  | nameTooLong => "File name too long (os error 36)"
  | nulInName => "file name contained an unexpected NUL byte"

namespace FileSystem

def nameLimit : Nat := 255

def pathLimit : Nat := 4095

/-- What stands at a location; the root is always a directory. -/
def lookup (fs : FileSystem) (location : Location) : Option Node :=
  if location = [] then some .directory else fs.nodes.lookup location

def insert (fs : FileSystem) (location : Location) (node : Node) : FileSystem :=
  { fs with nodes := (location, node) :: fs.nodes.filter fun entry => entry.1 != location }

/-- One step of a walk: from a directory to the place that a name leads to, which need not exist. -/
def step (fs : FileSystem) (location : Location) (name : String) : Except SystemFault Location :=
  match fs.lookup location with
  | none => .error .notFound
  | some (.file _) => .error .notDirectory
  | some .directory =>
    if name = "." then .ok location
    else if name = ".." then .ok location.dropLast
    else if nameLimit < name.utf8ByteSize then .error .nameTooLong
    else .ok (location ++ [name])

/-- The names between the slashes of a path, dots included. -/
def names (p : Path) : List String :=
  (p.pieces.filter fun piece => !piece.isEmpty).map String.ofList

/-- The directory at which the walk of a path starts. -/
def origin (fs : FileSystem) (p : Path) : Location :=
  if p.isAbsolute then [] else fs.workingDirectory

def checkPath (p : Path) : Except SystemFault Unit :=
  if p.text.toList.contains '\x00' then .error .nulInName
  else if p.text.isEmpty then .error .notFound
  else if pathLimit < p.text.utf8ByteSize then .error .nameTooLong
  else .ok ()

/-- What a path leads to, and where. -/
def locate (fs : FileSystem) (p : Path) : Except SystemFault (Location × Node) := do
  checkPath p
  let location ← (names p).foldlM fs.step (fs.origin p)
  match fs.lookup location with
  | none => .error .notFound
  | some .directory => .ok (location, .directory)
  | some (.file content) =>
    if p.endsInSlash then .error .notDirectory else .ok (location, .file content)

/-- The directory that a path leads to without its last name, and that name; `none` for the name if
the path is the root. -/
def locateParent (fs : FileSystem) (p : Path) : Except SystemFault (Location × Option String) := do
  checkPath p
  let location ← (names p).dropLast.foldlM fs.step (fs.origin p)
  match fs.lookup location with
  | none => .error .notFound
  | some (.file _) => .error .notDirectory
  | some .directory => .ok (location, (names p).getLast?)

def contains (fs : FileSystem) (p : Path) : Bool := (fs.locate p).isOk

def isDirectory (fs : FileSystem) (p : Path) : Bool :=
  match fs.locate p with
  | .ok (_, .directory) => true
  | _ => false

def read (fs : FileSystem) (p : Path) : Except SystemFault ByteArray :=
  match fs.locate p with
  | .ok (_, .file content) => .ok content
  | .ok (_, .directory) => .error .isDirectory
  | .error fault => .error fault

theorem lookup_insert_self (fs : FileSystem) {location : Location} (h : location ≠ [])
    (node : Node) : (fs.insert location node).lookup location = some node := by
  simp [lookup, insert, h]

theorem lookup_filter_of_ne (nodes : List (Location × Node)) {a b : Location} (h : a ≠ b) :
    (nodes.filter fun entry => entry.1 != b).lookup a = nodes.lookup a := by
  induction nodes with
  | nil => rfl
  | cons entry rest ih =>
    obtain ⟨location, node⟩ := entry
    by_cases hb : location = b
    · have hne : (a == b) = false := by simp [h]
      simp [hb, List.lookup_cons, ih, hne]
    · simp [hb, List.lookup_cons, ih]

theorem lookup_insert_of_ne (fs : FileSystem) {a b : Location} (h : a ≠ b) (node : Node) :
    (fs.insert b node).lookup a = fs.lookup a := by
  by_cases ha : a = []
  · simp [lookup, ha]
  · have hne : (a == b) = false := by simp [h]
    simp [lookup, insert, ha, List.lookup_cons, hne, lookup_filter_of_ne fs.nodes h]

end FileSystem

end CollisionMesh
