import CollisionMesh.Text.Blank

/-!
# C identifiers

The names in generated code. `sanitize` makes an identifier of any text that is not blank, and
`isIdentifier` says which texts may be used as they stand.
-/

namespace CollisionMesh.Identifier

set_option autoImplicit false

/-- A character that may stand anywhere in an identifier but, if a digit, at its start. -/
def isNameChar (c : Char) : Bool := c.isAlphanum || c == '_'

def isIdentifier (text : String) : Bool :=
  match text.toList with
  | [] => false
  | c :: cs => (c.isAlpha || c == '_') && cs.all isNameChar

def guardDigit : List Char → List Char
  | [] => []
  | c :: cs => if c.isDigit then '_' :: c :: cs else c :: cs

def sanitizeChars (cs : List Char) : List Char :=
  guardDigit ((Text.trim cs).map fun c => if isNameChar c then c else '_')

/-- Trims white space, puts an underscore in place of each character that no identifier has, and one
before a leading digit. A blank text gives the empty text. -/
def sanitize (text : String) : String := String.ofList (sanitizeChars text.toList)

/-- The identifier of a material: its trimmed name after a fixed text, sanitized and in upper case.
A blank name gives the empty text, whatever stands before it. -/
def ofMaterial (lead name : String) : String :=
  let trimmed := Text.trim name.toList
  if trimmed.isEmpty then ""
  else String.ofList ((sanitizeChars (lead.toList ++ trimmed)).map Char.toUpper)

def arrayName (symbol : String) : String := symbol ++ "_surfaces"

/-- The name of the constant with the number of elements of that array. -/
def countName (symbol : String) : String := symbol ++ "_surfaces_count"

end CollisionMesh.Identifier
