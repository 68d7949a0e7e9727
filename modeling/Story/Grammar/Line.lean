import Story.Grammar.List
import Story.Grammar.Content
import Story.Text.Blank
import Story.Text.Column
import Story.Text.Identifier

/-!
# Lines

The outer grammar. A line is one of six things, tried in this order because they overlap: a block of
code after `*`, a `delete` line, an object line, a statement after `*`, a comment, and else text.
Lines can also stand inside code, between a brace that ends its line and a line that starts with `*
` and the closing brace; `Grammar.block` reads either kind of block.
-/

namespace Story.Grammar

open Story.Parser

/-! ### Both ends of a line -/

/-- The columns of the blanks that tokens start with, after `width` columns: a tab counts as one
level of indentation. -/
def blankWidth (indentSize width : Nat) : List Token → Nat
  | [] => width
  | t :: ts =>
    match t.kind with
    | .space => blankWidth indentSize (wrapped (width + 1)) ts
    | .tab => blankWidth indentSize (wrapped (width + indentSize)) ts
    | _ => width

/-- The columns that belong to the blocks of lines that are open: one level for each. -/
def blockWidth (indentSize : Nat) : Nat → Nat
  | 0 => 0
  | blocks + 1 => wrapped (blockWidth indentSize blocks + indentSize)

/-- The indentation of a line. Columns that belong to enclosing blocks do not count. -/
def indentation : Parser Indent := do
  let s ← state
  change .skipBlanks
  -- Inside of blocks a line is indented once more for each of them.
  let width := blankWidth s.indentSize 0 s.rest - blockWidth s.indentSize s.blocks
  return ⟨← spanFrom s.position, width, width / s.indentSize⟩

/-- Read trivia and the end of the line; tell whether the line ended. -/
def lineEnds : Parser Bool := do
  trivia false
  let found ← eats .endline
  if found then return true
  look State.isEof

/-- Go on only at the end of the line. -/
def lineEnd : Parser Unit := do
  let found ← lineEnds
  require found

/-- Read to the end of the line, and report what should not be there. -/
def finishLine : Parser Unit := do
  let found ← lineEnds
  if !found then
    -- The rest is read before it is reported, so that the span covers it.
    let s ← state
    change .skipLine
    reportAt (← spanFrom s.position) .unexpectedRest [trimEnd s.lineText]
    let _ ← eats .endline

/-! ### Pieces of lines -/

/-- The name of an object: a word, or text between back-ticks. -/
def objectKey (g : Nested) : Parser ObjectKey := do
  let t ← look State.current
  if t.kind = .word then
    require (isFreeName t.text)
    change .advance
    return .word t.span t.text
  else
    require (t.kind == .backtick)
    let (parts, _) ← quoted g .backtick
    return .quoted (← spanFrom t.start) parts

/-- `: expression`, if there is a colon. -/
def prototype (g : Nested) : Parser Prototype := do
  let start ← position
  if ← eats .colon then
    let _ ← blanks
    let value ← g.expression false false
    let span ← spanFrom start
    let _ ← blanks
    return .inherits span value
  else
    return .nothing

/-- `= expression` inside a tag, if there is an equals sign. -/
def tagValue (g : Nested) : Parser (Option Expression) := do
  if ← eats .equals then
    let _ ← blanks
    let value ← g.expression false true
    let _ ← blanks
    return some value
  else
    return none

/-- `<name>` or `<name = value>`. -/
def tag (g : Nested) : Parser Tag := do
  let opening ← eat .angleOpen
  let _ ← blanks
  let name ← eat .word
  require (isIdentifier name.text)
  let _ ← blanks
  let value ← tagValue g
  let _ ← eat .angleClose
  return .tag (← spanFrom opening.start) name.text value

/-- One more tag, if there is one. -/
def tagRound (g : Nested) (tags : List Tag) : Parser (Round (List Tag) (List Tag)) := do
  let s ← state
  if s.kind = .angleOpen then
    let t ← tag g
    let _ ← blanks
    return .again (t :: tags)
  else
    return .done tags.reverse

/-- The tags of an object line. -/
def tags (g : Nested) : Parser (List Tag) := repeated (tagRound g) []

/-- Report each tag whose name is among the names before it. -/
def reportDuplicates (seen : List String) : List Tag → Parser Unit
  | [] => return ()
  | .tag span name _ :: rest => do
    if seen.contains name then reportAt span .duplicateTag [name]
    reportDuplicates (name :: seen) rest

/-- `= expression`, if there is one equals sign and not two. -/
def initializer (g : Nested) : Parser (Option Expression) := do
  let s ← state
  if s.kind = .equals && (s.peek 1).kind != .equals then
    change .advance
    let _ ← blanks
    return some (← g.expression false true)
  else
    return none

/-! ### Blocks of code -/

/-- Statements between braces. What an unscoped block makes known stays known. -/
def codeBlock (g : Nested) (isScoped : Bool) : Parser Block := do
  let start ← position
  let list := bracketed statementList fun _ => g.statement true
  let (brackets, statements) ← if isScoped then inScope list else list
  return .code (← spanFrom start) brackets statements isScoped

/-! ### The six kinds of lines -/

/-- A block of code after `*`. -/
def codeBlockLine (g : Nested) : Parser Line := do
  let start ← position
  let indent ← indentation
  let _ ← eat .star
  let block ← codeBlock g false
  let span ← spanFrom start
  finishLine
  return .code span indent (.block block)

/-- `delete key`. -/
def deleteLine (g : Nested) : Parser Line := do
  let start ← position
  let indent ← indentation
  let keyword ← eatWord "delete"
  someBlanks
  let key ← objectKey g
  let body ← spanFrom keyword.start
  let span ← spanFrom start
  -- An unexpected rest makes the line fail here, and then it is read as text.
  lineEnd
  return .delete span indent body key

/-- `key : prototype <tag> = value`. With anything else on the line, the line is text. -/
def objectLine (g : Nested) : Parser Line := do
  let start ← position
  let indent ← indentation
  let bodyStart ← position
  let key ← objectKey g
  let _ ← blanks
  let proto ← prototype g
  let tags ← tags g
  reportDuplicates [] tags
  let value ← initializer g
  let body ← spanFrom bodyStart
  let span ← spanFrom start
  -- Reports and names are dropped with the line if more stands on it.
  lineEnd
  return .object span indent body key proto tags value

/-- A statement, or a placeholder for it and a report. -/
def expectStatement (g : Nested) : Parser Statement := do
  match ← found (g.statement false) with
  | some statement => return statement
  | none =>
    report .statementExpected []
    let here ← look State.here
    change .skipLine
    return .missing here

/-- A statement after `*` and blanks. -/
def statementLine (g : Nested) : Parser Line := do
  let start ← position
  let indent ← indentation
  let _ ← eat .star
  someBlanks
  -- A star with nothing behind it is text.
  requireState fun s => !(s.isLineEnd || s.atLineComment)
  let statement ← expectStatement g
  let span ← spanFrom start
  finishLine
  return .code span indent statement

/-- A comment by itself. -/
def commentLine : Parser Line := do
  let start ← position
  let indent ← indentation
  requireState State.atLineComment
  change (.advanceBy 2)
  let text ← look State.lineText
  change .skipLine
  let span ← spanFrom start
  let _ ← eats .endline
  return .comment span indent text

/-- A line of text. -/
def textLine (g : Nested) : Parser Line := do
  let start ← position
  let indent ← indentation
  requireState fun s => !s.isLineEnd
  let parts ← textContent g
  let span ← spanFrom start
  let _ ← eats .endline
  return .text span indent parts

/-- A line; a blank line is none. -/
def line (g : Nested) : Parser Line :=
  rewind (codeBlockLine g <|> deleteLine g <|> objectLine g <|> statementLine g <|> commentLine <|>
    textLine g)

/-! ### Blocks of lines -/

/-- The closing brace of a block of lines, after a star. -/
def templateEnd : Parser Span := do
  let _ ← blanks
  let _ ← eat .star
  let _ ← blanks
  let closing ← eat .braceClose
  return closing.span

/-- One line of a block of lines, or its end. -/
def templateRound (g : Nested) (opening : Span) (lines : List Line) :
    Parser (Round (List Line) (List Line × Option Span)) := do
  if ← look State.isEof then
    reportAt opening .blockNotClosed []
    return .done (lines.reverse, none)
  else
    match ← attempt templateEnd with
    | some closing => return .done (lines.reverse, some closing)
    | none =>
      -- A blank line is no line, and it is passed over token by token.
      match ← withProgress (line g) with
      | some l => return .again (l :: lines)
      | none => return .again lines

/-- Lines from a brace that ends its line to a closing brace after a star. -/
def templateBlock (g : Nested) : Parser Block := do
  let opening ← eat .braceOpen
  trivia false
  let _ ← eats .endline
  let (lines, closing) ← inScope (inBlock (repeated (templateRound g opening.span) []))
  return .template (← spanFrom opening.start) ⟨opening.span, closing⟩ lines

/-- A block. In code of one line, a brace that ends the line opens a block of lines; any other opens
a block of code. -/
def block (g : Nested) (multiline : Bool) : Parser Block := rewind do
  trivia multiline
  let s ← state
  require (s.kind == .braceOpen)
  -- In code that may go on in the next line, a brace always opens code.
  if !multiline && s.advance.restIsTrivia then templateBlock g else codeBlock g true

end Story.Grammar
