import CollisionMesh.Geometry
import CollisionMesh.Number.Literal
import CollisionMesh.Text.Blank

/-!
# Lines of a mesh

A mesh file is read line by line, and each line says one thing, whatever stands on the others: a
vertex, a face, the material of the faces that follow, or nothing of interest here.
-/

namespace CollisionMesh

set_option autoImplicit false

inductive LineFault where
  | invalidCoordinate (field : String)
  | missingCoordinates (found : Nat)
  | invalidReference (token : String)
  | unnamedMaterial
  deriving DecidableEq, Repr, Inhabited

def LineFault.message : LineFault → String
  | invalidCoordinate field => "invalid vertex coordinate `" ++ field ++ "`"
  | missingCoordinates found => "vertex needs 3 coordinates, found " ++ found.repr
  | invalidReference token => "invalid face index `" ++ token ++ "`"
  | unnamedMaterial => "usemtl without a material name"

inductive Statement where
  | vertex (position : Point Binary64)
  | malformedVertex (fault : LineFault)
  /-- A face with its references as written: negative ones count back from the last vertex. -/
  | face (references : List Int64)
  | material (name : String)
  /-- A face or material line that cannot be read. -/
  | malformed (fault : LineFault)
  | other
  deriving DecidableEq, Repr

namespace Statement

def readCoordinate (field : List Char) : Except LineFault Binary64 :=
  match Binary64.ofText? field with
  | some x => .ok x
  | none => .error (.invalidCoordinate (String.ofList field))

/-- The first three fields; those after them must be numbers too. -/
def readPosition (fields : List (List Char)) : Except LineFault (Point Binary64) := do
  match ← fields.mapM readCoordinate with
  | x :: y :: z :: _ => .ok ⟨x, y, z⟩
  | values => .error (.missingCoordinates values.length)

/-- The reference before the first slash of a token; what follows it is not looked at. -/
def readReference (token : List Char) : Except LineFault Int64 :=
  match readInt64? (token.takeWhile fun c => c != '/') with
  | some index => .ok index
  | none => .error (.invalidReference (String.ofList token))

def ofLine (line : List Char) : Statement :=
  match Text.words line with
  | [] => .other
  | keyword :: fields =>
    if keyword = ['v'] then
      match readPosition fields with
      | .ok position => .vertex position
      | .error fault => .malformedVertex fault
    else if keyword = ['f'] then
      match fields.mapM readReference with
      | .ok references => .face references
      | .error fault => .malformed fault
    else if keyword = "usemtl".toList then
      match Text.trim (line.drop keyword.length) with
      | [] => .malformed .unnamedMaterial
      | name => .material (String.ofList name)
    else .other

end Statement

end CollisionMesh
