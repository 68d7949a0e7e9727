import Story.SourceMap.Mapping

/-!
# Segments

In a source map the mappings are one text: lines are divided by semicolons, the mappings of a line
by commas, and every mapping is a *segment* of up to five numbers. The numbers are differences: of
the column of the script to the segment before it on the same line, of everything else to the
segment before it at all. A number is written in digits of base 64, five bits each and the lowest
first; the sixth bit says that more digits follow.
-/

namespace Story

/-! ### Numbers -/

/-- The digits of base 64. -/
def base64Digits : List Char :=
  "ABCDEFGHIJKLMNOPQRSTUVWXYZabcdefghijklmnopqrstuvwxyz0123456789+/".toList

/-- The digit of a number below sixty-four. -/
def base64Digit (n : Nat) : Char := base64Digits.getD n 'A'

/-- A natural number, five bits to a digit and the lowest bits first. -/
def vlqNat (n : Nat) : List Char :=
  if n < 32 then [base64Digit n] else base64Digit (n % 32 + 32) :: vlqNat (n / 32)
termination_by n

/-- The sign goes to the lowest bit. -/
def foldSign (i : Int) : Nat := if i < 0 then 2 * i.natAbs + 1 else 2 * i.natAbs

/-- The difference of `new` to `old`. -/
def vlqDifference (new old : Nat) : List Char := vlqNat (foldSign ((new : Int) - old))

/-! ### Segments -/

namespace SourceMap

/-- Where a place of the script comes from. -/
structure Origin where
  /-- Which source. -/
  source : Nat
  /-- The line of the source. -/
  line : Nat
  /-- The column of the source. -/
  column : Nat
  /-- Which name, if any. -/
  name : Option Nat
deriving DecidableEq

/-- What a segment says. -/
structure Segment where
  /-- The line of the script. -/
  line : Nat
  /-- The column of the script. -/
  column : Nat
  /-- Where the place comes from, if the segment says so. -/
  origin : Option Origin
deriving DecidableEq

/-- What the differences of the next segment are taken to, besides the column of the script. -/
structure Trail where
  /-- The last source. -/
  source : Nat
  /-- The last line of a source. -/
  line : Nat
  /-- The last column of a source. -/
  column : Nat
  /-- The last name. -/
  name : Nat
deriving DecidableEq

/-- Before the first segment everything is zero. -/
def Trail.initial : Trail := ⟨0, 0, 0, 0⟩

/-- The numbers of a segment, and the trail after it. -/
def Segment.numbers (column : Nat) (trail : Trail) (s : Segment) : List Char × Trail :=
  let first := vlqDifference s.column column
  match s.origin with
  | none => (first, trail)
  | some o =>
    let four := first ++ vlqDifference o.source trail.source ++
      vlqDifference o.line trail.line ++ vlqDifference o.column trail.column
    match o.name with
    | none => (four, ⟨o.source, o.line, o.column, trail.name⟩)
    | some name => (four ++ vlqDifference name trail.name, ⟨o.source, o.line, o.column, name⟩)

/-- What divides a segment from what is before it, which ended on `line`: semicolons up to its line,
or a comma after another segment of its line. -/
def Segment.divider (line : Nat) (isFirst : Bool) (s : Segment) : List Char :=
  if s.line ≠ line then List.replicate (s.line - line) ';'
  else if isFirst then [] else [',']

/-- The text of segments in order, after `line` and `column`. -/
def encodeFrom (line column : Nat) (isFirst : Bool) (trail : Trail) : List Segment → List Char
  | [] => []
  | s :: ss =>
    -- Columns start again on each line; the trail goes on.
    let (text, after) := s.numbers (if s.line = line then column else 0) trail
    s.divider line isFirst ++ text ++ encodeFrom s.line s.column false after ss

/-- The text of segments in order. -/
def encode (segments : List Segment) : String := String.ofList (encodeFrom 0 0 true .initial segments)

end SourceMap

/-- The segment of a mapping. It has a place of a source, and a name, if the mapping has a source. -/
def Mapping.segment (m : Mapping) : SourceMap.Segment where
  line := m.generatedLine
  column := m.generatedColumn
  origin := m.source.map fun source => ⟨source, m.sourceLine, m.sourceColumn, m.name⟩

end Story
