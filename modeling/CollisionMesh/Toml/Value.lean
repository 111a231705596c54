import CollisionMesh.Number.Binary64
import CollisionMesh.Toml.Moment

/-!
# TOML values

The values of a TOML document. A table is a list of keys with their values in ascending
order of keys, no key twice.
-/

namespace CollisionMesh.Toml

set_option autoImplicit false

inductive Value where
  | text (value : String)
  | integer (value : Int)
  | float (value : Binary64)
  /-- A number beyond every numeric type; a document may hold it, but no reader takes it. -/
  | overflow
  | boolean (value : Bool)
  | moment (value : Moment)
  | array (items : List Value)
  | table (entries : List (String × Value))
  deriving Inhabited

/-- Keys with their values, in ascending order of keys. -/
abbrev Table := List (String × Value)

mutual

/-- Whether every number in a value can be read, whole numbers being held to a range. -/
def Value.isReadable (low high : Int) : Value → Bool
  | .overflow => false
  | .integer value => low ≤ value && value < high
  | .array items => areReadable low high items
  | .table entries => areReadableEntries low high entries
  | _ => true

def areReadable (low high : Int) : List Value → Bool
  | [] => true
  | value :: rest => value.isReadable low high && areReadable low high rest

/-- Whether every number in the values of a table can be read. -/
def areReadableEntries (low high : Int) : List (String × Value) → Bool
  | [] => true
  | (_, value) :: rest => value.isReadable low high && areReadableEntries low high rest

end

end CollisionMesh.Toml
