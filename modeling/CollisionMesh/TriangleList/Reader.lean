import CollisionMesh.Number.Stepwise
import CollisionMesh.TriangleList

/-!
# Reading triangle lists

The text is cut into tokens, blanks between them left out, and the tokens must then make up a list
of triangles of three points of three numbers. Numbers have the strict form of JSON, and one beyond
the finite numbers is none.
-/

namespace CollisionMesh.TriangleList

set_option autoImplicit false

inductive Token where
  | opening
  | closing
  | comma
  | number (x : Binary64)
  deriving DecidableEq, Repr

def isBlank (c : Char) : Bool := c == ' ' || c == '\n' || c == '\t' || c == '\r'

def isNumberChar (c : Char) : Bool :=
  c.isDigit || c == '-' || c == '+' || c == '.' || c == 'e' || c == 'E'

/-- Whether an unsigned number has the strict form: digits on both sides of a point, and no zero
before other digits of the whole part. -/
def isStrict (body : List Char) : Bool :=
  let whole := body.takeWhile Char.isDigit
  let wholeOk := !whole.isEmpty && (whole.head? != some '0' || whole.length == 1)
  match body.dropWhile Char.isDigit with
  | '.' :: tail => wholeOk && tail.head?.any Char.isDigit
  | _ => wholeOk

/-- The value of a number, if it is one and a finite one. -/
def readNumber? (lexeme : List Char) : Option Binary64 :=
  let (negative, body) :=
    match lexeme with
    | '-' :: body => (true, body)
    | body => (false, body)
  if isStrict body then
    ((Literal.ofText? body).map fun literal =>
      if negative then literal.stepwise.neg else literal.stepwise).filter Binary64.isFinite
  else none

def tokens (cs : List Char) : Option (List Token) :=
  match cs with
  | [] => some []
  | c :: rest =>
    if isBlank c then tokens rest
    else if c = '[' then (tokens rest).map (Token.opening :: ·)
    else if c = ']' then (tokens rest).map (Token.closing :: ·)
    else if c = ',' then (tokens rest).map (Token.comma :: ·)
    else if isNumberChar c then
      (readNumber? (c :: rest.takeWhile isNumberChar)).bind fun x =>
        (tokens (rest.dropWhile isNumberChar)).map (Token.number x :: ·)
    else none
termination_by cs.length
decreasing_by
  all_goals
    simp only [List.length_cons]
    first
      | omega
      | have := (List.dropWhile_sublist (l := rest) isNumberChar).length_le
        omega

/-- Three numbers between brackets, and the tokens after them. -/
def readPoint? : List Token → Option (Point Binary64 × List Token)
  | .opening :: .number x :: .comma :: .number y :: .comma :: .number z :: .closing :: rest =>
    some (⟨x, y, z⟩, rest)
  | _ => none

def expect? (token : Token) : List Token → Option (List Token)
  | [] => none
  | first :: rest => if first = token then some rest else none

/-- Three points between brackets, and the tokens after them. -/
def readCorners? (ts : List Token) : Option (Corners Binary64 × List Token) := do
  let ts ← expect? .opening ts
  let (a, ts) ← readPoint? ts
  let ts ← expect? .comma ts
  let (b, ts) ← readPoint? ts
  let ts ← expect? .comma ts
  let (c, ts) ← readPoint? ts
  let ts ← expect? .closing ts
  return (⟨a, b, c⟩, ts)

theorem length_of_expect? {token : Token} {ts rest : List Token}
    (h : expect? token ts = some rest) :
    rest.length < ts.length := by
  cases ts with
  | nil => simp [expect?] at h
  | cons first tail =>
    simp only [expect?] at h
    split at h
    · cases h; simp
    · cases h

theorem length_of_readPoint? {ts rest : List Token} {p : Point Binary64}
    (h : readPoint? ts = some (p, rest)) : rest.length < ts.length := by
  unfold readPoint? at h
  split at h
  · cases h
    simp only [List.length_cons]
    omega
  · cases h

theorem length_of_readCorners? {ts rest : List Token} {t : Corners Binary64}
    (h : readCorners? ts = some (t, rest)) : rest.length < ts.length := by
  simp only [readCorners?, Option.bind_eq_bind, Option.bind_eq_some_iff, Prod.exists,
    Option.pure_def, Option.some.injEq, Prod.mk.injEq] at h
  obtain ⟨_, h1, _, _, h2, _, h3, _, _, h4, _, h5, _, _, h6, _, h7, _, rfl⟩ := h
  have := length_of_expect? h1
  have := length_of_readPoint? h2
  have := length_of_expect? h3
  have := length_of_readPoint? h4
  have := length_of_expect? h5
  have := length_of_readPoint? h6
  have := length_of_expect? h7
  omega

/-- Triangles with commas between them, up to the closing bracket that ends the tokens. -/
def readItems? (ts : List Token) : Option (List (Corners Binary64)) :=
  match _h : readCorners? ts with
  | some (t, [.closing]) => some [t]
  | some (t, .comma :: rest) => (readItems? rest).map (t :: ·)
  | _ => none
termination_by ts.length
decreasing_by
  have := length_of_readCorners? _h
  simp only [List.length_cons] at this
  omega

def readList? : List Token → Option (List (Corners Binary64))
  | [.opening, .closing] => some []
  | .opening :: ts => readItems? ts
  | _ => none

/-- Reads a list of triangles from its text. -/
def ofText? (text : String) : Option (List (Corners Binary64)) :=
  (tokens text.toList).bind readList?

end CollisionMesh.TriangleList
