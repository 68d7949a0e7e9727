import Story.SourceMap.Mapping
import Story.Text.Position

/-!
# Scripts as lists of pieces

A generated script is a list of pieces: words, ends of lines, margins, and marks that say which
place of the source the next words come from. A `Layout` says what an end of line and a unit of
margin look like.

* `Script.text` is the script with a layout: marks leave no trace in it;
* `Script.mappings` are its marks, each with the place that the text before it leads to. A mark at
  the place of the mark before it is dropped, so the outermost construct that starts somewhere is
  the one that is mapped.

Since marks are pieces like any other, what is mapped and what is written are decided at one place.
-/

namespace Story

/-- How a script is laid out. -/
structure Layout where
  /-- One unit of margin. -/
  indentation : String
  /-- The end of a line. -/
  newline : String
deriving DecidableEq

/-- A piece of a script. -/
inductive Piece where
  /-- Words, which may hold ends of lines of their own. -/
  | text (words : String)
  /-- The end of a line. -/
  | lineBreak
  /-- The margin of a line, in units. -/
  | margin (level : Nat)
  /-- What follows comes from this place of the source. -/
  | mark (source : Position)
deriving DecidableEq

/-- A script, piece by piece. -/
abbrev Script := List Piece

/-- What a piece looks like. -/
def Piece.toText (layout : Layout) : Piece → String
  | text words => words
  | lineBreak => layout.newline
  | margin level => String.join (List.replicate level layout.indentation)
  | mark _ => ""

/-- A place of a script. -/
structure Cursor where
  /-- The line, counted from zero. -/
  line : Nat
  /-- The column, counted in characters from zero. -/
  column : Nat
deriving DecidableEq

namespace Cursor

/-- The place after one character. -/
def step (c : Cursor) (char : Char) : Cursor :=
  if char = '\n' then ⟨c.line + 1, 0⟩ else ⟨c.line, c.column + 1⟩

/-- The place after a piece. An end of line starts a line and a margin moves along it, whatever the
layout makes them look like. -/
def after (layout : Layout) (c : Cursor) : Piece → Cursor
  | .text words => words.toList.foldl step c
  | .lineBreak => ⟨c.line + 1, 0⟩
  | .margin level => ⟨c.line, c.column + level * layout.indentation.length⟩
  | .mark _ => c

/-- Tie this place to a place of the first source. -/
def mapping (c : Cursor) (source : Position) : Mapping :=
  ⟨c.line, c.column, some 0, source.line, source.column, none⟩

end Cursor

namespace Script

/-- The script as text. -/
def text (layout : Layout) (script : Script) : String :=
  String.join (script.map (Piece.toText layout))

theorem text_append (layout : Layout) (s t : Script) :
    text layout (s ++ t) = text layout s ++ text layout t := by
  simp [text, String.join_append]

/-- The marks of a script that starts at the place `c`, after a mark at the place `last`. -/
def mappingsFrom (layout : Layout) (c : Cursor) (last : Option Cursor) : Script → List Mapping
  | [] => []
  | .mark source :: rest =>
    -- Only the first mark at a place counts.
    if last = some c then mappingsFrom layout c last rest
    else c.mapping source :: mappingsFrom layout c (some c) rest
  | piece :: rest => mappingsFrom layout (c.after layout piece) last rest

/-- The marks of a script. -/
def mappings (layout : Layout) (script : Script) : List Mapping :=
  mappingsFrom layout ⟨0, 0⟩ none script

end Script

end Story
