/-!
# Places in a story's text

A `Position` says where a character stands: how many bytes of UTF-8 come before it, on which line it
is and how many characters of that line come before it. Only a line feed starts a new line. A `Span`
is the stretch of text between two positions.

Every position in this library arises by walking over text from the start, with `Position.advance`;
bytes and characters are counted apart, so a letter that takes two bytes moves the column by one.
-/

namespace Story

/-- A place in the text, all three numbers counted from zero. -/
structure Position where
  /-- Bytes of UTF-8 before this place. -/
  offset : Nat
  /-- Line feeds before this place. -/
  line : Nat
  /-- Characters between the last line feed and this place. -/
  column : Nat
deriving DecidableEq, Inhabited

namespace Position

/-- The start of every text. -/
def zero : Position := ⟨0, 0, 0⟩

/-- The place after one character. -/
def step (p : Position) (c : Char) : Position :=
  if c = '\n' then ⟨p.offset + 1, p.line + 1, 0⟩
  else ⟨p.offset + c.utf8Size, p.line, p.column + 1⟩

/-- The place after a stretch of text that starts at `p`. -/
def advance (p : Position) (text : String) : Position :=
  text.toList.foldl step p

/-- All three numbers, `line:column@offset`, counted from zero. -/
def exact (p : Position) : String :=
  s!"{p.line}:{p.column}@{p.offset}"

/-- `line:column` as an editor shows it, counted from one. -/
def display (p : Position) : String :=
  s!"{p.line + 1}:{p.column + 1}"

/-- Positions are ordered by offset, then line, then column. -/
def order (p q : Position) : Ordering :=
  (compare p.offset q.offset).then ((compare p.line q.line).then (compare p.column q.column))

end Position

/-- The stretch of text from `start` up to, and not including, `stop`. -/
structure Span where
  /-- The first place of the stretch. -/
  start : Position
  /-- The place right after the stretch. -/
  stop : Position
deriving DecidableEq, Inhabited

namespace Span

/-- The stretch of no text at `p`. -/
def empty (p : Position) : Span := ⟨p, p⟩

/-- Length in bytes. -/
def size (r : Span) : Nat := r.stop.offset - r.start.offset

/-- Whether the stretch holds no text. -/
def isEmpty (r : Span) : Bool := r.start.offset == r.stop.offset

/-- Whether the byte at `offset` lies in the stretch. -/
def contains (r : Span) (offset : Nat) : Bool :=
  r.start.offset ≤ offset && offset < r.stop.offset

/-- The smallest stretch that covers both. -/
def union (r t : Span) : Span :=
  ⟨if t.start.offset < r.start.offset then t.start else r.start,
   if r.stop.offset < t.stop.offset then t.stop else r.stop⟩

/-- Both ends in full. -/
def exact (r : Span) : String :=
  r.start.exact ++ ".." ++ r.stop.exact

/-- Where the stretch starts, as an editor shows it. -/
def display (r : Span) : String := r.start.display

end Span

end Story
