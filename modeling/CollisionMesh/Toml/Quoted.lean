import CollisionMesh.Toml.Value

/-!
# TOML strings

The four forms of strings. Each reader is given the text after the opening quotes, and its result is
the content of the string and the text after the closing quotes.
-/

namespace CollisionMesh.Toml

set_option autoImplicit false

/-- Control characters other than the tab stand nowhere in a document but at the end of a line. -/
def isControl (c : Char) : Bool := (c.toNat < 0x20 && c != '\t') || c.toNat == 0x7F

def shortEscape? (c : Char) : Option Char :=
  if c = 'b' then some '\x08'
  else if c = 't' then some '\t'
  else if c = 'n' then some '\n'
  else if c = 'f' then some '\x0c'
  else if c = 'r' then some '\r'
  else if c = 'e' then some '\x1b'
  else if c = '"' then some '"'
  else if c = '\\' then some '\\'
  else none

def codePoint? (digits : List Char) : Option Char :=
  let isHex (c : Char) : Bool := c.isDigit || ('a' ≤ c.toLower && c.toLower ≤ 'f')
  if digits.all isHex then
    let value := digits.foldl (fun value c =>
      16 * value + (if c.isDigit then c.toNat - '0'.toNat else c.toLower.toNat - 'a'.toNat + 10)) 0
    if h : value.isValidChar then some (Char.ofNatAux value h) else none
  else none

/-- Puts a character before the content that is read next. -/
def prepend (c : Option Char) (read : Option (List Char × List Char)) :
    Option (List Char × List Char) := do
  let c ← c
  let (content, rest) ← read
  return (c :: content, rest)

/-- A string on one line, with escapes. -/
def readBasic : List Char → Option (List Char × List Char)
  | [] => none
  | '"' :: rest => some ([], rest)
  | '\\' :: 'x' :: a :: b :: rest => prepend (codePoint? [a, b]) (readBasic rest)
  | '\\' :: 'u' :: a :: b :: c :: d :: rest => prepend (codePoint? [a, b, c, d]) (readBasic rest)
  | '\\' :: 'U' :: a :: b :: c :: d :: e :: f :: g :: h :: rest =>
    prepend (codePoint? [a, b, c, d, e, f, g, h]) (readBasic rest)
  | '\\' :: c :: rest => prepend (shortEscape? c) (readBasic rest)
  | c :: rest => if isControl c || c == '\\' then none else prepend (some c) (readBasic rest)

/-- A string on one line, taken as it stands. -/
def readLiteral : List Char → Option (List Char × List Char)
  | [] => none
  | '\'' :: rest => some ([], rest)
  | c :: rest => if isControl c then none else prepend (some c) (readLiteral rest)

/-- At three quotes: up to two more belong to the content. -/
def closeLong (quote : Char) (rest : List Char) : List Char × List Char :=
  let extra := (rest.take 2).takeWhile fun c => c == quote
  (extra, rest.drop extra.length)

/-- Whether only blanks come before the end of the line. -/
def isBlankToEnd (cs : List Char) : Bool :=
  match cs.dropWhile fun c => c == ' ' || c == '\t' with
  | '\n' :: _ => true
  | '\r' :: '\n' :: _ => true
  | _ => false

/-- A string over several lines, with escapes. A backslash at the end of a line joins it with what
follows: while `joining`, blanks and line ends are passed over. -/
def readLongBasic (joining : Bool) : List Char → Option (List Char × List Char)
  | [] => none
  | '"' :: '"' :: '"' :: rest => some (closeLong '"' rest)
  | '\r' :: '\n' :: rest =>
    if joining then readLongBasic true rest
    else prepend (some '\r') (prepend (some '\n') (readLongBasic false rest))
  | '\n' :: rest =>
    if joining then readLongBasic true rest else prepend (some '\n') (readLongBasic false rest)
  | '\\' :: 'x' :: a :: b :: rest => prepend (codePoint? [a, b]) (readLongBasic false rest)
  | '\\' :: 'u' :: a :: b :: c :: d :: rest =>
    prepend (codePoint? [a, b, c, d]) (readLongBasic false rest)
  | '\\' :: 'U' :: a :: b :: c :: d :: e :: f :: g :: h :: rest =>
    prepend (codePoint? [a, b, c, d, e, f, g, h]) (readLongBasic false rest)
  | '\\' :: c :: rest =>
    if isBlankToEnd (c :: rest) then readLongBasic true (c :: rest)
    else prepend (shortEscape? c) (readLongBasic false rest)
  | c :: rest =>
    if isControl c || c == '\\' then none
    else if joining && (c == ' ' || c == '\t') then readLongBasic true rest
    else prepend (some c) (readLongBasic false rest)

/-- A string over several lines, taken as it stands. -/
def readLongLiteral : List Char → Option (List Char × List Char)
  | [] => none
  | '\'' :: '\'' :: '\'' :: rest => some (closeLong '\'' rest)
  | '\r' :: '\n' :: rest => prepend (some '\r') (prepend (some '\n') (readLongLiteral rest))
  | '\n' :: rest => prepend (some '\n') (readLongLiteral rest)
  | c :: rest => if isControl c then none else prepend (some c) (readLongLiteral rest)

/-- A line end right after the opening quotes does not count. -/
def dropFirstLineEnd : List Char → List Char
  | '\n' :: rest => rest
  | '\r' :: '\n' :: rest => rest
  | cs => cs

/-- A string on one line, in either kind of quotes, from its opening quote on. -/
def readShortString? : List Char → Option (String × List Char)
  | '"' :: rest => (readBasic rest).map fun read => (String.ofList read.1, read.2)
  | '\'' :: rest => (readLiteral rest).map fun read => (String.ofList read.1, read.2)
  | _ => none

/-- A string in any of the four forms, from its opening quote on. -/
def readString? : List Char → Option (String × List Char)
  | '"' :: '"' :: '"' :: rest =>
    (readLongBasic false (dropFirstLineEnd rest)).map fun read => (String.ofList read.1, read.2)
  | '\'' :: '\'' :: '\'' :: rest =>
    (readLongLiteral (dropFirstLineEnd rest)).map fun read => (String.ofList read.1, read.2)
  | cs => readShortString? cs

end CollisionMesh.Toml
