/-!
# Paths

A path is text in which slashes separate names. Two paths with the same components, such as
`a//b`, `a/./b` and `a/b`, are the same as far as order and sameness go, while messages
show a path as it was built.
-/

namespace CollisionMesh

set_option autoImplicit false

/-- A path as it was written or built. -/
structure Path where
  text : String
  deriving DecidableEq, Repr, Inhabited

inductive Component where
  /-- The root directory, at the start of an absolute path. -/
  | root
  /-- A dot at the start of a relative path. -/
  | current
  /-- Two dots, in any place. -/
  | parent
  | name (text : String)
  deriving DecidableEq, Repr, Inhabited

namespace Component

/-- The component of a piece between slashes, in any place but the first; empty
pieces and dots have none. -/
def ofPiece? : List Char → Option Component
  | [] => none
  | ['.'] => none
  | ['.', '.'] => some .parent
  | cs => some (.name (String.ofList cs))

/-- Sorting key: kinds in the order of their constructors, names among themselves by code points. -/
def key : Component → List Nat
  | root => [0]
  | current => [1]
  | parent => [2]
  | name text => 3 :: text.toList.map Char.toNat

end Component

namespace Path

/-- The pieces between slashes, empty ones included. -/
def pieces (p : Path) : List (List Char) := p.text.toList.splitOn '/'

def ofPieces (pieces : List (List Char)) : Path := ⟨String.ofList (['/'].intercalate pieces)⟩

def isAbsolute (p : Path) : Bool := p.text.toList.head? == some '/'

/-- Whether the path ends in a slash, so that only a directory can be meant. -/
def endsInSlash (p : Path) : Bool := p.text.toList.getLast? == some '/'

/-- The component of the first piece: an empty one is the root of an absolute path. -/
def firstComponent? (absolute : Bool) (piece : List Char) : Option Component :=
  if absolute then some .root
  else if piece = ['.'] then some .current
  else Component.ofPiece? piece

def components (p : Path) : List Component :=
  match p.pieces with
  | [] => []
  | first :: rest =>
    (firstComponent? p.isAbsolute first).toList ++ rest.filterMap Component.ofPiece?

def same (p q : Path) : Bool := p.components == q.components

def key (p : Path) : List (List Nat) := p.components.map Component.key

/-- The order of paths: component by component. -/
def le (p q : Path) : Bool := (compare p.key q.key).isLE

def dropTrailing (pieces : List (List Char)) : List (List Char) :=
  (pieces.reverse.dropWhile fun piece => (Component.ofPiece? piece).isNone).reverse

/-- The pieces before the last component, and the piece of that component; the
root is not taken off. -/
def splitLast? (p : Path) : Option (List (List Char) × List Char) :=
  match p.pieces with
  | [] => none
  | first :: rest =>
    match (dropTrailing rest).reverse with
    | last :: before => some (first :: before.reverse, last)
    | [] => if first.isEmpty then none else some ([], first)

/-- The path without its last component, as far as it was written; the root and the
empty path have none. -/
def parent? (p : Path) : Option Path :=
  p.splitLast?.map fun split =>
    match split.1 with
    | [] => ⟨""⟩
    | first :: rest =>
      match dropTrailing rest with
      | [] => if first.isEmpty then ⟨"/"⟩ else ofPieces [first]
      | rest => ofPieces (first :: rest)

/-- The last component, if it is a name. -/
def fileName? (p : Path) : Option String :=
  match p.components.getLast? with
  | some (.name text) => some text
  | _ => none

/-- Splits a file name at its last point into stem and extension; a point at the
start does not count. -/
def splitExtension (name : List Char) : List Char × Option (List Char) :=
  let extension := (name.reverse.takeWhile fun c => c != '.').reverse
  match (name.reverse.dropWhile fun c => c != '.').reverse.dropLast with
  | [] => (name, none)
  | stem => (stem, some extension)

def fileStem? (p : Path) : Option String :=
  p.fileName?.map fun name => String.ofList (splitExtension name.toList).1

def extension? (p : Path) : Option String :=
  p.fileName?.bind fun name => (splitExtension name.toList).2.map String.ofList

/-- The path `q` seen from the directory `p`; an absolute path stays what it is. -/
def join (p q : Path) : Path :=
  if q.isAbsolute then q
  else if p.text.toList.isEmpty || p.endsInSlash then ⟨p.text ++ q.text⟩
  else ⟨p.text ++ "/" ++ q.text⟩

/-- The path with another extension after the stem of its file name; without file
name it stays as it is. -/
def withExtension (p : Path) (extension : String) : Path :=
  match p.fileStem?, p.splitLast? with
  | some stem, some (before, _) =>
    ofPieces (before ++ [stem.toList ++ '.' :: extension.toList])
  | _, _ => p

@[simp] theorem same_self (p : Path) : p.same p = true := by simp [same]

theorem same_comm (p q : Path) : p.same q = q.same p := by
  simp only [same, Bool.beq_comm]

theorem same_trans {p q r : Path} (hpq : p.same q = true) (hqr : q.same r = true) :
    p.same r = true := by
  simp only [same, beq_iff_eq] at *
  exact hpq.trans hqr

end Path

end CollisionMesh
