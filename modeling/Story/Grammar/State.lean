import Story.Token.Scan
import Story.Diagnostic
import Story.Syntax.Tree

/-!
# The state of reading a story

`State` is all that reading a story depends on: the tokens that are left, what has been found so
far, and which names and blocks surround the place that has been reached. Reading only ever drops
tokens from the front of `rest`; when none are left, the end of the file is seen for ever.

Since tokens touch, the end of what has been read is the start of the current token. So the span of
a construct is given by the positions before and after it, and its text is that of the tokens
between.
-/

namespace Story

/-- Everything that reading depends on. -/
structure State where
  /-- The tokens that are left, without the end of the file. -/
  rest : List Token
  /-- Where the text ends. -/
  finish : Position
  /-- How many tokens have been read. -/
  cursor : Nat
  /-- The diagnostics so far, the latest first. -/
  reports : List Diagnostic
  /-- The imports so far, the latest first. -/
  imports : List Import
  /-- The script variables that are known here, the latest first. -/
  locals : List String
  /-- How many blocks of lines are open. -/
  blocks : Nat
  /-- How many expressions, operands and statements are open. -/
  depth : Nat
  /-- The columns of one level of indentation. -/
  indentSize : Nat

namespace State

/-- The state before a list of tokens. A list that lacks the end of the file ends with its last
token. -/
def ofTokens (tokens : List Token) (indentSize : Nat) : State where
  rest := tokens.filter fun t => t.kind != .endfile
  finish := match tokens.getLast? with
    | none => .zero
    | some t => t.stop
  cursor := 0
  reports := []
  imports := []
  locals := []
  blocks := 0
  depth := 0
  -- Widths are divided by it, so it is not zero.
  indentSize := max indentSize 1

/-! ### Looking at tokens -/

/-- The token `n` places ahead. -/
def peek (s : State) (n : Nat) : Token := s.rest.getD n (.endfile s.finish)

/-- The first token that has not been read. -/
def current (s : State) : Token := s.rest.headD (.endfile s.finish)

/-- The kind of the current token. -/
def kind (s : State) : TokenKind := s.current.kind

/-- Where the current token starts, which is where the last one ended. -/
def position (s : State) : Position := s.current.start

/-- From `start` to the end of what has been read. -/
def spanFrom (s : State) (start : Position) : Span := ⟨start, s.position⟩

/-- The stretch of no text before the current token. -/
def here (s : State) : Span := .empty s.position

/-- Whether all tokens have been read. -/
def isEof (s : State) : Bool := s.kind == .endfile

/-- Whether the line, or the file, ends here. -/
def isLineEnd (s : State) : Bool := s.kind.isLineEnd

/-- Whether a comment to the end of the line starts here. -/
def atLineComment (s : State) : Bool := s.kind == .slash && (s.peek 1).kind == .slash

/-- Whether three dots stand here. -/
def atSpread (s : State) : Bool :=
  s.kind == .dot && (s.peek 1).kind == .dot && (s.peek 2).kind == .dot

/-- Whether the name is known as a script variable. -/
def isLocal (s : State) (name : String) : Bool := s.locals.contains name

/-! ### Reading tokens -/

/-- Read one token; at the end of the file there is none to read. -/
def advance (s : State) : State :=
  match s.rest with
  | [] => s
  | _ :: ts => { s with rest := ts, cursor := s.cursor + 1 }

/-- Read `n` tokens. -/
def advanceBy : Nat → State → State
  | 0, s => s
  | n + 1, s => advanceBy n s.advance

/-- Read tokens as long as they satisfy `p`. -/
def skipWhile (p : Token → Bool) (s : State) : State :=
  let skipped := s.rest.takeWhile p
  { s with rest := s.rest.dropWhile p, cursor := s.cursor + skipped.length }

/-- Read spaces and tabs. -/
def skipBlanks (s : State) : State := s.skipWhile fun t => t.kind.isBlank

/-- Read up to the end of the line. -/
def skipLine (s : State) : State := s.skipWhile fun t => !t.kind.isLineEnd

/-- The text up to the end of the line. -/
def lineText (s : State) : String :=
  String.join ((s.rest.takeWhile fun t => !t.kind.isLineEnd).map Token.text)

/-! ### Recording -/

/-- Record a diagnostic about a span. -/
def reportAt (s : State) (span : Span) (m : Message) (arguments : List String) : State :=
  { s with reports := .of m span arguments :: s.reports }

/-- Record a diagnostic about the current token. -/
def report (s : State) (m : Message) (arguments : List String) : State :=
  s.reportAt s.current.span m arguments

/-- Make a name known as a script variable. -/
def declare (s : State) (name : String) : State := { s with locals := name :: s.locals }

/-- Record an import. -/
def addImport (s : State) (found : Import) : State := { s with imports := found :: s.imports }

/-! ### Coming back -/

/-- The first `n` things of a list that has the latest first. -/
def earliest {α : Type} (n : Nat) (found : List α) : List α := found.drop (found.length - n)

/-- Forget all script variables but the first `n`. -/
def forgetLocals (n : Nat) (s : State) : State := { s with locals := earliest n s.locals }

/-- A place to come back to. Of what has been found by then only the numbers are kept, since
whatever is found later is found on top of it. -/
structure Checkpoint where
  /-- The tokens that were left. -/
  rest : List Token
  /-- How many tokens had been read. -/
  cursor : Nat
  /-- How many diagnostics there were. -/
  reports : Nat
  /-- How many imports there were. -/
  imports : Nat
  /-- How many script variables were known. -/
  locals : Nat
  /-- How many blocks of lines were open. -/
  blocks : Nat

/-- The place that has been reached. -/
def checkpoint (s : State) : Checkpoint where
  rest := s.rest
  cursor := s.cursor
  reports := s.reports.length
  imports := s.imports.length
  locals := s.locals.length
  blocks := s.blocks

/-- Come back to a place: what was found after it is dropped. -/
def restore (c : Checkpoint) (s : State) : State :=
  { s with
    rest := c.rest
    cursor := c.cursor
    reports := earliest c.reports s.reports
    imports := earliest c.imports s.imports
    locals := earliest c.locals s.locals
    blocks := c.blocks }

/-! ### Comments -/

/-- How many tokens of a comment come before its closing signs, which are two more; none if the text
ends first. -/
def commentLength : List Token → Option Nat
  | [] => none
  | [_] => none
  | t :: u :: ts =>
    if t.kind == .star && u.kind == .slash then some 0
    else (commentLength (u :: ts)).map (· + 1)

/-- Read a comment with its two opening and its two closing signs. A comment without an end is
reported at its first sign and takes all the rest. -/
def skipComment (s : State) : State :=
  let inside := s.advanceBy 2
  match commentLength inside.rest with
  | some n => inside.advanceBy (n + 2)
  -- The text ends inside the comment.
  | none => (inside.advanceBy inside.rest.length).reportAt s.current.span .unterminatedComment []

theorem length_advance_le (s : State) : s.advance.rest.length ≤ s.rest.length := by
  unfold advance; split <;> simp_all

theorem length_advance_lt {s : State} (h : s.rest ≠ []) :
    s.advance.rest.length < s.rest.length := by
  unfold advance; split <;> simp_all

theorem length_advanceBy_le (n : Nat) (s : State) :
    (advanceBy n s).rest.length ≤ s.rest.length := by
  induction n generalizing s with
  | zero => exact Nat.le_refl _
  | succ n ih => exact Nat.le_trans (ih s.advance) (length_advance_le s)

theorem length_skipLine_lt {s : State} {t : Token} {ts : List Token} (h : s.rest = t :: ts)
    (hk : t.kind.isLineEnd = false) : s.skipLine.rest.length < s.rest.length := by
  have hle : (ts.dropWhile fun t => !t.kind.isLineEnd).length ≤ ts.length :=
    (List.dropWhile_suffix _).length_le
  simp only [skipLine, skipWhile, h, List.dropWhile_cons, hk, Bool.not_false, ↓reduceIte,
    List.length_cons]
  omega

theorem length_skipComment_lt {s : State} (h : s.rest ≠ []) :
    s.skipComment.rest.length < s.rest.length := by
  have h2 : (advanceBy 2 s).rest.length < s.rest.length :=
    Nat.lt_of_le_of_lt (length_advanceBy_le 1 s.advance) (length_advance_lt h)
  unfold skipComment
  dsimp only
  split
  · exact Nat.lt_of_le_of_lt (length_advanceBy_le _ _) h2
  · exact Nat.lt_of_le_of_lt (length_advanceBy_le _ (advanceBy 2 s)) h2

/-- Read blanks and comments and, if `multiline`, ends of lines. -/
def skipTrivia (multiline : Bool) (s : State) : State :=
  match _hrest : s.rest with
  | [] => s
  | t :: _ =>
    if t.kind.isBlank || (multiline && t.kind == .endline) then skipTrivia multiline s.advance
    else if _hslash : t.kind = .slash then
      if (s.peek 1).kind == .slash then skipTrivia multiline s.skipLine
      else if (s.peek 1).kind == .star then skipTrivia multiline s.skipComment
      else s
    else s
termination_by s.rest.length
decreasing_by
  · exact length_advance_lt (by simp [_hrest])
  · exact length_skipLine_lt _hrest (by simp [_hslash, TokenKind.isLineEnd])
  · exact length_skipComment_lt (by simp [_hrest])

/-- Whether only blanks and comments are left on the line. -/
def restIsTrivia (s : State) : Bool := (s.skipTrivia false).isLineEnd

end State

end Story
