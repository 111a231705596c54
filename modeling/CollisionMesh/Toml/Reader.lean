import CollisionMesh.Toml.Draft
import CollisionMesh.Toml.Quoted
import CollisionMesh.Toml.Scalar

/-!
# Reading TOML

A document is a sequence of statements: a header opens a table, and a key gives a value in the
table that was opened last. Nested arrays and inline tables are read up to a fixed depth, and a
key has no more parts than that. Lines may end between any two signs of an array or an inline
table, but not within a key.
-/

namespace CollisionMesh.Toml

set_option autoImplicit false

/-- A reader takes a part off the text, or refuses it. -/
abbrev Scan := StateT (List Char) Option

namespace Scan

/-- The next character, which stays in the text. -/
def peek : Scan (Option Char) := fun cs => some (cs.head?, cs)

def expect (c : Char) : Scan Unit
  | [] => none
  | first :: rest => if first = c then some ((), rest) else none

/-- Takes a given character off if it is next, and says whether it was. -/
def accept (c : Char) : Scan Bool
  | [] => some (false, [])
  | first :: rest => some (if first = c then (true, rest) else (false, first :: rest))

def blanks : Scan Unit := fun cs => some ((), cs.dropWhile fun c => c == ' ' || c == '\t')

/-- Passes over blanks, line ends and comments. -/
def fillFrom (inComment : Bool) : List Char → Option (List Char)
  | [] => some []
  | '\n' :: rest => fillFrom false rest
  | '\r' :: '\n' :: rest => fillFrom false rest
  | c :: rest =>
    if inComment then if isControl c then none else fillFrom true rest
    else if c == ' ' || c == '\t' then fillFrom false rest
    else if c == '#' then fillFrom true rest
    else some (c :: rest)

def fill : Scan Unit := fun cs => (fillFrom false cs).map fun rest => ((), rest)

/-- The rest of a line behind a statement: blanks and a comment, and then the
line or the text ends. -/
def lineEnd : Scan Unit := do
  blanks
  match ← peek with
  | none => pure ()
  | some '\n' => pure ()
  | some '\r' => fun
    | '\r' :: '\n' :: rest => some ((), '\n' :: rest)
    | _ => none
  | some '#' => pure ()
  | some _ => failure

def isBareKeyChar (c : Char) : Bool := c.isAlphanum || c == '_' || c == '-'

def keyPart : Scan String := fun cs =>
  match cs with
  | '"' :: _ => readShortString? cs
  | '\'' :: _ => readShortString? cs
  | _ =>
    let part := cs.takeWhile isBareKeyChar
    if part.isEmpty then none else some (String.ofList part, cs.drop part.length)

/-- How deep arrays and inline tables may be nested, and how many parts a key may have. -/
def depthLimit : Nat := 80

/-- The parts of a key behind another part: fewer than `limit`. -/
def moreKeyParts : Nat → Scan (List String)
  | 0 => failure
  | limit + 1 => do
    blanks
    if ← accept '.' then
      blanks
      let part ← keyPart
      return part :: (← moreKeyParts limit)
    else return []

/-- A key: parts with points between them. The result is the last part, and those before it. -/
def key : Scan (List String × String) := do
  blanks
  let first ← keyPart
  let more ← moreKeyParts depthLimit
  let parts := first :: more
  return (parts.dropLast, parts.getLast (by simp [parts]))

/-- A character of a value without quotes and brackets. -/
def isScalarChar (c : Char) : Bool :=
  c.isAlphanum || c == '_' || c == '+' || c == '-' || c == '.' || c == ':'

/-- The text of a value without quotes and brackets; a blank may stand between a date and a time. -/
def scalarText (cs : List Char) : List Char × List Char :=
  let first := cs.takeWhile isScalarChar
  match cs.drop first.length with
  | ' ' :: c :: rest =>
    if (Date.ofText? first).isSome && c.isDigit then
      let time := (c :: rest).takeWhile isScalarChar
      (first ++ ' ' :: time, (c :: rest).drop time.length)
    else (first, ' ' :: c :: rest)
  | rest => (first, rest)

/-- A value without quotes and brackets. -/
def scalar : Scan Value := fun cs =>
  let (text, rest) := scalarText cs
  (readScalar? text).map fun value => (value, rest)

mutual

/-- A value. `fuel` bounds the steps within it and `depth` the nesting of
arrays and inline tables. -/
def value : Nat → Nat → Scan Value
  | 0, _ => failure
  | fuel + 1, depth => do
    match ← peek with
    | none => failure
    | some '[' =>
      match depth with
      | 0 => failure
      | depth + 1 =>
        expect '['
        return .array (← items fuel depth)
    | some '\x7b' =>
      match depth with
      | 0 => failure
      | depth + 1 =>
        expect '\x7b'
        return .table (finishEntries (← pairs fuel depth []))
    | some '"' => fun cs => (readString? cs).map fun read => (.text read.1, read.2)
    | some '\'' => fun cs => (readString? cs).map fun read => (.text read.1, read.2)
    | some _ => scalar

/-- The items of an array up to its closing bracket. -/
def items : Nat → Nat → Scan (List Value)
  | 0, _ => failure
  | fuel + 1, depth => do
    fill
    if ← accept ']' then return []
    let first ← value fuel depth
    fill
    if ← accept ',' then return first :: (← items fuel depth)
    expect ']'
    return [first]

/-- The pairs of an inline table up to its closing brace. -/
def pairs : Nat → Nat → Entries → Scan Entries
  | 0, _, _ => failure
  | fuel + 1, depth, entries => do
    fill
    if ← accept '\x7d' then return entries
    let (parents, name) ← key
    fill
    expect '='
    fill
    let value ← value fuel depth
    match Entries.assign value name parents entries with
    | none => failure
    | some entries =>
      fill
      if ← accept ',' then pairs fuel depth entries
      else
        expect '\x7d'
        return entries

end

/-- What has been read so far, and the path of the table that was opened last. -/
structure Document where
  entries : Entries
  current : List String

/-- A header, from its opening bracket on. -/
def header (document : Document) : Scan Document := do
  expect '['
  let isArray ← accept '['
  let (parents, name) ← key
  blanks
  expect ']'
  if isArray then expect ']'
  let opened :=
    if isArray then Entries.openNextTable parents name document.entries
    else Entries.openTable parents name document.entries
  match opened with
  | none => failure
  | some entries => return ⟨entries, parents ++ [name]⟩

/-- A key with its value. -/
def assignment (document : Document) : Scan Document := do
  let (parents, name) ← key
  blanks
  expect '='
  blanks
  let value ← value (2 * (← get).length + 2) depthLimit
  match Entries.within (Entries.assign value name parents) document.current document.entries with
  | none => failure
  | some entries => return { document with entries := entries }

/-- The statements of a document; `fuel` bounds their number. -/
def statements : Nat → Document → Scan Document
  | 0, _ => failure
  | fuel + 1, document => do
    fill
    match ← peek with
    | none => return document
    | some c =>
      let document ← if c = '[' then header document else assignment document
      lineEnd
      statements fuel document

end Scan

/-- A mark at the start of a text that says nothing but how the text is encoded. -/
def dropByteOrderMark : List Char → List Char
  | '\uFEFF' :: cs => cs
  | cs => cs

/-- The table of a document, unless the text is none. -/
def ofText? (text : String) : Option Table :=
  let cs := dropByteOrderMark text.toList
  ((Scan.statements (cs.length + 1) ⟨[], []⟩).run cs).map fun read => finishEntries read.1.entries

end CollisionMesh.Toml
