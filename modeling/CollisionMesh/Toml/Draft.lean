import CollisionMesh.Toml.Value

/-!
# Tables under construction

While a document is read, a table must remember how it came about, since that decides what may still
be added: a header may open a table once, and dotted keys only extend tables that dotted keys made.
A value that is written as a whole, inline tables included, is closed.
-/

namespace CollisionMesh.Toml

set_option autoImplicit false

inductive TableOrigin where
  /-- As a parent in the header of another table; a header may still open it. -/
  | implied
  /-- By a header of its own. -/
  | header
  /-- As a parent in a dotted key. -/
  | dotted
  deriving DecidableEq, Repr, Inhabited

inductive Draft where
  /-- A value that is complete. -/
  | closed (value : Value)
  | table (origin : TableOrigin) (entries : List (String × Draft))
  /-- An array of tables, the last one first. -/
  | tables (items : List (List (String × Draft)))
  deriving Inhabited

/-- The entries of a table under construction, in ascending order of keys. -/
abbrev Entries := List (String × Draft)

mutual

def Draft.finish : Draft → Value
  | .closed value => value
  | .table _ entries => .table (finishEntries entries)
  | .tables items => .array (finishTables items).reverse

def finishEntries : List (String × Draft) → List (String × Value)
  | [] => []
  | (key, draft) :: rest => (key, draft.finish) :: finishEntries rest

/-- The tables of an array, in the order in which they are kept. -/
def finishTables : List (List (String × Draft)) → List Value
  | [] => []
  | entries :: rest => .table (finishEntries entries) :: finishTables rest

end

namespace Entries

def alter (key : String) (change : Option Draft → Option Draft) : Entries → Option Entries
  | [] => (change none).map fun draft => [(key, draft)]
  | (first, draft) :: rest =>
    if key = first then (change (some draft)).map fun draft => (first, draft) :: rest
    else if key < first then (change none).map fun new => (key, new) :: (first, draft) :: rest
    else (alter key change rest).map fun rest => (first, draft) :: rest

/-- Changes the table under a path of keys. Tables that are missing on the way are made; of an array
of tables the last one is meant. -/
def within (change : Entries → Option Entries) : List String → Entries → Option Entries
  | [], entries => change entries
  | key :: path, entries =>
    alter key
      (fun
        | none => (within change path []).map (Draft.table .implied)
        | some (.table origin inner) => (within change path inner).map (Draft.table origin)
        | some (.tables (last :: done)) =>
          (within change path last).map fun last => Draft.tables (last :: done)
        | some _ => none)
      entries

def openTable (parents : List String) (key : String) : Entries → Option Entries :=
  within
    (alter key fun
      | none => some (.table .header [])
      | some (.table .implied inner) => some (.table .header inner)
      | some _ => none)
    parents

/-- Opens the next table of the array that a header names by its parents and its own key. -/
def openNextTable (parents : List String) (key : String) : Entries → Option Entries :=
  within
    (alter key fun
      | none => some (.tables [[]])
      | some (.tables items) => some (.tables ([] :: items))
      | some _ => none)
    parents

/-- Gives a value to a key, which must be new, under the parents of a dotted key. -/
def assign (value : Value) (key : String) : List String → Entries → Option Entries
  | [], entries =>
    alter key
      (fun
        | none => some (.closed value)
        | some _ => none)
      entries
  | parent :: parents, entries =>
    alter parent
      (fun
        | none => (assign value key parents []).map (Draft.table .dotted)
        | some (.table .dotted inner) => (assign value key parents inner).map (Draft.table .dotted)
        | some (.table .implied inner) =>
          if parents.isEmpty then none
          else (assign value key parents inner).map (Draft.table .implied)
        | some (.tables (last :: done)) =>
          if parents.isEmpty then none
          else (assign value key parents last).map fun last => Draft.tables (last :: done)
        | some _ => none)
      entries

end Entries

end CollisionMesh.Toml
