import CollisionMesh.Surface

/-!
# Generated C text

The file that defines a surface array and its element count, and the header that declares the arrays
of several such files. Both are lists of lines, each ended by a line feed.
-/

namespace CollisionMesh

set_option autoImplicit false

structure SurfaceArray where
  /-- Identifier on which the names of the array and of its count are built. -/
  symbol : String
  /-- Name of the file that the surfaces come from. -/
  sourceName : Option String
  includes : List String
  records : List SurfaceRecord
  deriving DecidableEq, Repr, Inhabited

/-- Lines as text, each with a line feed at its end. -/
def unlines (lines : List String) : String := String.join (lines.map fun line => line ++ "\n")

/-- The line at the top of every generated file. -/
def generatedBanner : String := "// GENERATED FILE - DO NOT EDIT"

namespace SurfaceArray

/-- The comment lines at the top, and the blank line after them. -/
def bannerLines (array : SurfaceArray) : List String :=
  [generatedBanner] ++
    (array.sourceName.map fun name => "// Source: " ++ name).toList ++
    ["// Surfaces: " ++ array.records.length.repr, ""]

/-- One line for each header, and a blank line if there is any. -/
def includeLines (array : SurfaceArray) : List String :=
  if array.includes.isEmpty then []
  else array.includes.map (fun header => "#include \"" ++ header ++ "\"") ++ [""]

/-- One line for each initializer: all but the last have a comma. -/
def recordLines : List SurfaceRecord → List String
  | [] => []
  | [record] => ["    " ++ record.text]
  | record :: rest => ("    " ++ record.text ++ ",") :: recordLines rest

def definitionLines (array : SurfaceArray) : List String :=
  ["const struct SM64Surface " ++ Identifier.arrayName array.symbol ++ "[] = \x7b"] ++
    recordLines array.records ++ ["\x7d;", ""]

def countLine (array : SurfaceArray) : String :=
  let name := Identifier.arrayName array.symbol
  "const size_t " ++ Identifier.countName array.symbol ++ " = sizeof(" ++ name ++ ") / sizeof(" ++
    name ++ "[0]);"

def lines (array : SurfaceArray) : List String :=
  array.bannerLines ++ array.includeLines ++ array.definitionLines ++ [array.countLine]

def source (array : SurfaceArray) : String := unlines array.lines

end SurfaceArray

/-- The declarations of one symbol, after a blank line. -/
def declarationLines (symbol : String) : List String :=
  ["", "extern const struct SM64Surface " ++ Identifier.arrayName symbol ++ "[];",
    "extern const size_t " ++ Identifier.countName symbol ++ ";"]

def declarationHeader (symbols : List String) : String :=
  unlines
    ([generatedBanner, "", "#pragma once", "", "#include <stddef.h>", "#include \"libsm64.h\""] ++
      symbols.flatMap declarationLines)

end CollisionMesh
