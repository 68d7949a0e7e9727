import Story.Grammar.Statement

/-!
# The grammar

The productions of the grammar are written in terms of the readers one level of nesting further in.
Here the levels are put on top of each other: `nested (n + 1)` reads in terms of `nested n`. The
state counts the levels that are open, and beyond `nestingLimit` of them nothing is read but the
rest of the line. A story is read with `nestingLimit` levels, which is all that can be opened.

* `Grammar.line`, `expression`, `statement` read a part of a story;
* `parseModule` reads a whole story: every text has a syntax tree, and what is wrong with the text
  is told by the diagnostics beside it.
-/

namespace Story.Grammar

open Story.Parser

/-! ### Levels of nesting -/

/-- How many levels of expressions and statements may be nested. -/
def nestingLimit : Nat := 200

/-- Pass over the rest of the line and give the place before it. -/
def passedOver : Parser Span := do
  let here ← look State.here
  change .skipLine
  return here

/-- What stands in for what is nested too deep. -/
def refused : Nested where
  expression _ _ := do return .missing (← passedOver)
  operand _ := do return .missing (← look State.here)
  statement _ := do return .missing (← passedOver)

/-- Read one level further in by `inner`. If all levels are open, report that the nesting is too
deep and read by `instead`. -/
def guarded {α : Type} (inner instead : Parser α) : Parser α := do
  let s ← state
  if s.depth < nestingLimit then deeper inner
  else
    -- Deeper than the limit it has been reported already.
    if s.depth = nestingLimit then report .nestingTooDeep []
    instead

/-- Readers that open a level. An expression or a statement that fails leaves no trace. -/
def levelled (g : Nested) : Nested where
  expression multiline binary :=
    rewind (guarded (g.expression multiline binary) (refused.expression multiline binary))
  operand multiline := guarded (g.operand multiline) (refused.operand multiline)
  statement multiline := rewind (guarded (g.statement multiline) (refused.statement multiline))

/-- The productions in terms of the readers one level further in. -/
def productions (g : Nested) : Nested where
  expression := expression g
  operand := prefixed g
  statement := statement g

/-- The readers with `n` levels to go. -/
def nested : Nat → Nested
  | 0 => levelled refused
  | n + 1 => levelled (productions (nested n))

/-- The readers at the outermost level. -/
def outermost : Nested := nested nestingLimit

/-! ### A whole story -/

/-- One line, or one token that starts none. -/
def moduleRound (lines : List Line) : Parser (Round (List Line) (List Line)) := do
  if ← look State.isEof then
    return .done lines.reverse
  else
    match ← withProgress (line outermost) with
    | some l => return .again (l :: lines)
    | none => return .again lines

/-- All lines that are left. -/
def lines : Parser (List Line) := repeated moduleRound []

end Story.Grammar

namespace Story

/-- A story and what is wrong with its text. -/
structure ParseResult where
  /-- The story. -/
  module : Module
  /-- What is wrong, in the order of the text. -/
  diagnostics : List Diagnostic

/-- Read all that is left as a story. -/
def State.parseModule (s : State) (path : String) : ParseResult :=
  let (lines, s') := Grammar.lines s
  -- Reading lines never fails, so the empty list is never taken.
  ⟨⟨⟨.zero, s'.current.stop⟩, path, lines.getD [], s'.imports.reverse⟩,
    Diagnostic.sort s'.reports.reverse⟩

/-- The diagnostics are the reports in another order. -/
theorem State.mem_diagnostics {s : State} {path : String} {d : Diagnostic} :
    d ∈ (s.parseModule path).diagnostics ↔ d ∈ (Grammar.lines s).2.reports := by
  change d ∈ Diagnostic.sort (Grammar.lines s).2.reports.reverse ↔ _
  rw [Diagnostic.sort, (List.mergeSort_perm _ _).mem_iff, List.mem_reverse]

/-- The state before the tokens of a text, comment signs split. -/
def State.ofText (text : String) (indentSize : Nat) : State :=
  .ofTokens (splitComments (scan text)) indentSize

/-- Read a text as a story. -/
def parseModule (text path : String) (indentSize : Nat) : ParseResult :=
  (State.ofText text indentSize).parseModule path

end Story
