import CollisionMesh.Text.Visible

/-!
# Quoted text

Text between double quotes, as messages show a path: a quote and a backslash have a backslash before
them, some control characters have a letter of their own, and any other character that is not
visible is written as its code point.
-/

namespace CollisionMesh.Text

set_option autoImplicit false

/-- A code point in hexadecimal digits between braces, after `\u`. -/
def codePointEscape (c : Char) : List Char :=
  '\\' :: 'u' :: '\x7b' :: Nat.toDigits 16 c.toNat ++ ['\x7d']

/-- A character as it stands between quotes. -/
def escapeChar (c : Char) : List Char :=
  if c = '"' then ['\\', '"']
  else if c = '\\' then ['\\', '\\']
  else if c = '\n' then ['\\', 'n']
  else if c = '\t' then ['\\', 't']
  else if c = '\r' then ['\\', 'r']
  else if c = '\x00' then ['\\', '0']
  else if isVisible c then [c]
  else codePointEscape c

def quote (text : String) : String :=
  String.ofList ('"' :: text.toList.flatMap escapeChar ++ ['"'])

end CollisionMesh.Text
