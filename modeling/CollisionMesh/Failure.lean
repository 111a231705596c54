import CollisionMesh.FileSystem
import CollisionMesh.Mesh.Statement
import CollisionMesh.Options

/-!
# Failures

Why a conversion fails. A failure keeps its cause as data; `Failure.message` is the only place where
it is put into words.
-/

namespace CollisionMesh

set_option autoImplicit false

inductive FileFault where
  | system (fault : SystemFault)
  | invalidUtf8
  /-- A scan that could not start at this directory. -/
  | scan (directory : Path) (fault : SystemFault)
  deriving DecidableEq, Repr

def FileFault.message : FileFault → String
  | system fault => fault.message
  | invalidUtf8 => "stream did not contain valid UTF-8"
  | scan directory fault =>
    "IO error for operation on " ++ directory.text ++ ": " ++ fault.message

inductive Failure where
  /-- A line cannot be read; `content` is its trimmed text. -/
  | malformedLine (path : Path) (line : Nat) (content : String) (fault : LineFault)
  /-- A face of this line refers to a vertex that is not there. -/
  | vertexOutOfRange (path : Path) (line : Nat) (index : Int64) (vertexCount : Nat)
  | noFaces (path : Path)
  | invalidOptions (fault : OptionsFault)
  | file (path : Path) (fault : FileFault)
  /-- A file is no list of triangles. -/
  | malformedTriangles (path : Path)
  deriving DecidableEq, Repr

namespace Failure

def message : Failure → String
  | malformedLine path line content fault =>
    path.text ++ ":" ++ line.repr ++ ": " ++ fault.message ++ ": `" ++ content ++ "`"
  | vertexOutOfRange path line index vertexCount =>
    path.text ++ ":" ++ line.repr ++ ": face references vertex " ++ index.toInt.repr ++
      ", but only " ++ vertexCount.repr ++ " vertices are defined"
  | noFaces path =>
    path.text ++ ": no faces found (is the model triangulated and exported with faces?)"
  | invalidOptions fault => "invalid configuration: " ++ fault.message
  | file path fault => path.text ++ ": " ++ fault.message
  | malformedTriangles path => path.text ++ ": invalid triangle JSON"

def ofSystem (path : Path) (fault : SystemFault) : Failure := file path (.system fault)

end Failure

def Options.check (options : Options) : Except Failure Unit :=
  options.validate.mapError .invalidOptions

end CollisionMesh
