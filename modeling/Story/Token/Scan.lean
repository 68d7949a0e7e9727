import Story.Token.Basic

/-!
# Cutting text into tokens

`Scanner.next?` cuts one token off the text. The spellings of the table are searched for, at each place the
longest first. If the text starts with the one that is found, this is the token; otherwise the token is
the word before it. `scan` cuts a whole text.

The table of spellings is a parameter. With the whole table, two slashes are the start of a comment;
`splitComments` undoes just that, so that a comment sign is seen as the two signs that it is made
of.
-/

namespace Story

/-! ### One token -/

/-- Put a spelling before all that are not longer. -/
def Spelling.insert (s : Spelling) : List Spelling → List Spelling
  | [] => [s]
  | t :: ts => if t.text.length ≤ s.text.length then s :: t :: ts else t :: s.insert ts

/-- The spellings of a table in the order in which they are tried: the longest first, so that two slashes are
tried before one, and equally long ones as they are in the table. -/
def byLength (table : List Spelling) : List Spelling := table.foldr Spelling.insert []

/-- The first of the spellings that the text starts with. -/
def firstSpelling (tried : List Spelling) (cs : List Char) : Option Spelling :=
  tried.find? fun s => s.text.isPrefixOf cs

/-- The leftmost place of the text where one of the spellings starts: what is before it, and the first
spelling there. -/
def search (tried : List Spelling) : List Char → Option (List Char × Spelling)
  | [] => none
  | c :: cs =>
    match firstSpelling tried (c :: cs) with
    | some s => some ([], s)
    | none => (search tried cs).map fun found => (c :: found.1, found.2)

/-- The kind and the text of the token that the text starts with. -/
def lexeme (table : List Spelling) (cs : List Char) : TokenKind × List Char :=
  match search (byLength table) cs with
  | some ([], s) => (s.kind, s.text)
  | some (word, _) => (.word, word)
  | none => (.word, cs)

/-! ### A whole text -/

/-- A text that is being cut into tokens. -/
structure Scanner where
  /-- What is left of the text, or nothing once the end of the file has been given out. -/
  rest : Option (List Char)
  /-- Where the next token starts. -/
  position : Position

namespace Scanner

/-- The scanner at the start of a text. -/
def ofText (text : String) : Scanner := ⟨some text.toList, .zero⟩

/-- How many tokens a scanner can give out at most. -/
def size (s : Scanner) : Nat :=
  match s.rest with
  | none => 0
  | some cs => cs.length + 1

/-- Cut off the next token: after the text comes the end of the file, once. -/
def next? (table : List Spelling) (s : Scanner) : Option (Token × Scanner) :=
  match s.rest with
  | none => none
  | some [] => some (.endfile s.position, ⟨none, s.position⟩)
  | some (c :: cs) =>
    let (kind, chars) := lexeme table (c :: cs)
    let token : Token := ⟨kind, String.ofList chars, s.position⟩
    -- The first character is always taken, so every token is a step ahead.
    some (token, ⟨some (cs.drop (chars.length - 1)), token.stop⟩)

/-- A token taken off leaves less to scan. -/
theorem size_next? {table : List Spelling} {s s' : Scanner} {t : Token}
    (h : s.next? table = some (t, s')) : s'.size < s.size := by
  unfold next? at h
  split at h
  · cases h
  · next hs => cases h; simp [size, hs]
  · next c cs hs =>
    cases h
    simp only [size, hs, List.length_drop, List.length_cons]
    omega

/-- All tokens that are left. -/
def tokens (table : List Spelling) (s : Scanner) : List Token :=
  match _hnext : s.next? table with
  | none => []
  | some (t, s') => t :: tokens table s'
termination_by s.size
decreasing_by exact size_next? _hnext

end Scanner

/-- Cut a text into tokens by a table of spellings. -/
def scanWith (table : List Spelling) (text : String) : List Token :=
  (Scanner.ofText text).tokens table

/-- Cut a text into tokens. -/
def scan (text : String) : List Token := scanWith TokenKind.spellings text

/-! ### Comment signs -/

/-- The kind of a sign of one character. -/
def TokenKind.ofChar (c : Char) : TokenKind :=
  match TokenKind.spellings.find? fun s => s.text == [c] with
  | some s => s.kind
  | none => .word

/-- One token for each character, from the place `p` on. -/
def Token.ofChars (p : Position) : List Char → List Token
  | [] => []
  | c :: cs => ⟨.ofChar c, c.toString, p⟩ :: Token.ofChars (p.step c) cs

/-- A comment sign as the signs that it is made of; any other token as it is. -/
def Token.signs (t : Token) : List Token :=
  if t.kind.isComment then Token.ofChars t.start t.text.toList else [t]

/-- Undo the joining of signs into comment signs. -/
def splitComments (tokens : List Token) : List Token := tokens.flatMap Token.signs

end Story
