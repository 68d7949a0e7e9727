import Story.Grammar.Parser

/-!
# Text with values in it

The words of a text line and the inside of quotes are read into `TextPart`s: chunks of words as they
stand and, where a `*` is followed by an expression, the value of that expression. A chunk is
pending until something ends it; its text is the text of the tokens that it covers.
-/

namespace Story

/-- The readers that embedded code is nested through. Each production of the grammar is written in
terms of these, as they are one level of nesting further in. -/
structure Nested where
  /-- An expression; without `binary`, only an operand with what is attached to it. -/
  expression : (multiline binary : Bool) → Parser Expression
  /-- The operand of an operator that stands before it. -/
  operand : (multiline : Bool) → Parser Expression
  /-- A statement. -/
  statement : (multiline : Bool) → Parser Statement

namespace Grammar

open Story.Parser

/-- Text that is being read: the finished parts, the latest first, and the chunk that is pending. -/
structure Content where
  /-- The finished parts, the latest first. -/
  parts : List TextPart
  /-- Where the pending chunk starts and its text so far. -/
  pending : Option (Position × String)

namespace Content

/-- No text at all. -/
def empty : Content := ⟨[], none⟩

/-- Finish the pending chunk, which ends at `stop`. -/
def flush (c : Content) (stop : Position) : Content :=
  match c.pending with
  | none => c
  | some (start, text) => ⟨.chunk ⟨start, stop⟩ text :: c.parts, none⟩

/-- Add text that starts at `start` to the pending chunk, or start one with it. -/
def extend (c : Content) (start : Position) (text : String) : Content :=
  match c.pending with
  | none => ⟨c.parts, some (start, text)⟩
  | some (first, before) => ⟨c.parts, some (first, before ++ text)⟩

/-- Add a finished part. -/
def add (c : Content) (part : TextPart) : Content := ⟨part :: c.parts, c.pending⟩

/-- All parts of a text that ends at `stop`. -/
def finish (c : Content) (stop : Position) : List TextPart := (c.flush stop).parts.reverse

end Content

/-- `*expression`, with the expression right after the star. -/
def splice (g : Nested) : Parser TextPart := do
  let star ← eat .star
  requireState fun s => !(s.kind.isBlank || s.isLineEnd || s.atLineComment)
  let value ← g.expression false false
  return .splice (← spanFrom star.start) value

/-- At a star: a value, or else the star itself. -/
def starOrSplice (g : Nested) (c : Content) : Parser Content := do
  let star ← look State.current
  match ← attempt (splice g) with
  | some part => return (c.flush star.start).add part
  | none =>
    change .advance
    return c.extend star.start star.text

/-- One token of a text line. A backslash makes the token after it plain text and is dropped. -/
def textRound (g : Nested) (c : Content) : Parser (Round Content (List TextPart)) := do
  let s ← state
  if s.isLineEnd then
    return .done (c.finish s.position)
  else if s.kind = .backslash then
    change .advance
    let plain ← look State.current
    -- A backslash at the end of the line is dropped, and the line ends after it.
    if plain.kind.isLineEnd then
      return .again (c.flush s.position)
    else
      change .advance
      return .again ((c.flush s.position).extend plain.start plain.text)
  else if s.kind = .star then
    return .again (← starOrSplice g c)
  else
    change .advance
    return .again (c.extend s.position s.current.text)

/-- The words of a text line, up to its end. -/
def textContent (g : Nested) : Parser (List TextPart) := repeated (textRound g) .empty

/-- One token inside quotes. A backslash before a star is dropped and makes the star plain text; any
other backslash is kept, with the token after it. -/
def quotedRound (g : Nested) (quote : TokenKind) (opening : Span) (c : Content) :
    Parser (Round Content (List TextPart × Option Span)) := do
  let s ← state
  if s.kind = quote then
    change .advance
    return .done (c.finish s.position, some s.current.span)
  -- Text between back-ticks goes on in the next line.
  else if s.isEof || (s.kind = .endline && quote != .backtick) then
    reportAt opening .unterminatedString []
    return .done (c.finish s.position, none)
  else if s.kind = .backslash then
    change .advance
    let next ← look State.current
    if next.kind = .star then
      change .advance
      return .again ((c.flush s.position).extend next.start next.text)
    else
      -- The token after the backslash is text whatever it is, so an escaped quote closes nothing.
      change .advance
      return .again (c.extend s.position (s.current.text ++ next.text))
  else if s.kind = .star then
    return .again (← starOrSplice g c)
  else
    change .advance
    return .again (c.extend s.position s.current.text)

/-- What stands between quotes, and the closing quote if it was found. Only text between back-ticks
may go on in the next line. -/
def quoted (g : Nested) (quote : TokenKind) : Parser (List TextPart × Option Span) := do
  let opening ← token
  repeated (quotedRound g quote opening.span) .empty

end Grammar

end Story
