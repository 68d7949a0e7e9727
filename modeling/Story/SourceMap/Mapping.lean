/-!
# Mappings

A `Mapping` ties a place of a generated script to the place of the source that it was generated
from. Lines and columns are counted from zero, columns in characters.
-/

namespace Story

/-- A place of a generated script and where it comes from. -/
structure Mapping where
  /-- The line of the script. -/
  generatedLine : Nat
  /-- The column of the script. -/
  generatedColumn : Nat
  /-- Which source, if any. -/
  source : Option Nat
  /-- The line of the source. -/
  sourceLine : Nat
  /-- The column of the source. -/
  sourceColumn : Nat
  /-- Which name, if any. -/
  name : Option Nat
deriving DecidableEq

namespace Mapping

/-- The place of the script. -/
def generated (m : Mapping) : Nat × Nat := (m.generatedLine, m.generatedColumn)

/-- An index that may be absent. -/
def indexText (i : Option Nat) : String := (i.map toString).getD "none"

/-- Both places and both indices. -/
def display (m : Mapping) : String :=
  s!"{m.generatedLine}:{m.generatedColumn} -> {m.sourceLine}:{m.sourceColumn} source=" ++
    indexText m.source ++ " name=" ++ indexText m.name

end Mapping

end Story
