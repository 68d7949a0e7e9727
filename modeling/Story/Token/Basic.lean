import Story.Text.Position

/-!
# Tokens

A token is a stretch of a story's text with its kind. Every kind but `word` and `endfile` stands for
fixed spellings, which `TokenKind.spellings` lists; a word is what lies between them, and the end of
the file is a token of its own with no text.
-/

namespace Story

/-- The kinds of tokens. -/
inductive TokenKind where
  | endline | space | tab | colon | semicolon | dot | comma | star | slash | backslash
  | parenOpen | parenClose | braceOpen | braceClose | bracketOpen | bracketClose
  | angleOpen | angleClose | equals | plus | minus | percent | ampersand | pipe | caret | tilde
  | exclamation | question | atSign | hash | singleQuote | doubleQuote | backtick
  | commentLine | commentBlockOpen | commentBlockClose | word | endfile
deriving DecidableEq, Inhabited

/-- A fixed text and the kind of token that it is. -/
structure Spelling where
  /-- The text. -/
  text : List Char
  /-- The kind of token. -/
  kind : TokenKind
deriving DecidableEq

namespace TokenKind

/-- All kinds, in order. -/
def all : List TokenKind :=
  [endline, space, tab, colon, semicolon, dot, comma, star, slash, backslash,
   parenOpen, parenClose, braceOpen, braceClose, bracketOpen, bracketClose,
   angleOpen, angleClose, equals, plus, minus, percent, ampersand, pipe, caret, tilde,
   exclamation, question, atSign, hash, singleQuote, doubleQuote, backtick,
   commentLine, commentBlockOpen, commentBlockClose, word, endfile]

/-- The kind's name. -/
def name : TokenKind → String
  | endline => "Endline"
  | space => "Space"
  | tab => "Tab"
  | colon => "Colon"
  | semicolon => "Semicolon"
  | dot => "Dot"
  | comma => "Comma"
  | star => "Star"
  | slash => "Slash"
  | backslash => "Backslash"
  | parenOpen => "ParenOpen"
  | parenClose => "ParenClose"
  | braceOpen => "BraceOpen"
  | braceClose => "BraceClose"
  | bracketOpen => "BracketOpen"
  | bracketClose => "BracketClose"
  | angleOpen => "AngleOpen"
  | angleClose => "AngleClose"
  | equals => "Equals"
  | plus => "Plus"
  | minus => "Minus"
  | percent => "Percent"
  | ampersand => "Ampersand"
  | pipe => "Pipe"
  | caret => "Caret"
  | tilde => "Tilde"
  | exclamation => "Exclamation"
  | question => "Question"
  | atSign => "At"
  | hash => "Hash"
  | singleQuote => "SingleQuote"
  | doubleQuote => "DoubleQuote"
  | backtick => "Backtick"
  | commentLine => "CommentLine"
  | commentBlockOpen => "CommentBlockOpen"
  | commentBlockClose => "CommentBlockClose"
  | word => "Word"
  | endfile => "Endfile"

/-- The usual spelling of a kind; words and the end of the file have none. -/
def spelling? : TokenKind → Option String
  | endline => some "\n"
  | space => some " "
  | tab => some "\t"
  | colon => some ":"
  | semicolon => some ";"
  | dot => some "."
  | comma => some ","
  | star => some "*"
  | slash => some "/"
  | backslash => some "\\"
  | parenOpen => some "("
  | parenClose => some ")"
  | braceOpen => some "\x7b"
  | braceClose => some "\x7d"
  | bracketOpen => some "["
  | bracketClose => some "]"
  | angleOpen => some "<"
  | angleClose => some ">"
  | equals => some "="
  | plus => some "+"
  | minus => some "-"
  | percent => some "%"
  | ampersand => some "&"
  | pipe => some "|"
  | caret => some "^"
  | tilde => some "~"
  | exclamation => some "!"
  | question => some "?"
  | atSign => some "@"
  | hash => some "#"
  | singleQuote => some "'"
  | doubleQuote => some "\""
  | backtick => some "`"
  | commentLine => some "//"
  | commentBlockOpen => some "/*"
  | commentBlockClose => some "*/"
  | word | endfile => none

/-- The spelling of a kind as messages quote it. -/
def text (k : TokenKind) : String := k.spelling?.getD "token"

/-- Every fixed spelling. A line ends with a line feed or with a carriage return and a line feed. -/
def spellings : List Spelling :=
  ⟨['\r', '\n'], endline⟩ ::
    all.filterMap fun k => k.spelling?.map fun s => ⟨s.toList, k⟩

/-- What a kind is called. -/
def description : TokenKind → String
  | endline => "end of line"
  | endfile => "end of file"
  | word => "word"
  | k => k.spelling?.getD ""

/-- A space or a tab. -/
def isBlank : TokenKind → Bool
  | space | tab => true
  | _ => false

/-- A sign that opens or closes a comment. -/
def isComment : TokenKind → Bool
  | commentLine | commentBlockOpen | commentBlockClose => true
  | _ => false

/-- The end of a line or of the file. -/
def isLineEnd : TokenKind → Bool
  | endline | endfile => true
  | _ => false

end TokenKind

/-- A stretch of text with its kind and the place where it starts. -/
structure Token where
  /-- The kind. -/
  kind : TokenKind
  /-- The text. -/
  text : String
  /-- Where the text starts. -/
  start : Position
deriving DecidableEq, Inhabited

namespace Token

/-- The place right after the token. -/
def stop (t : Token) : Position := t.start.advance t.text

/-- The stretch of text that the token covers. -/
def span (t : Token) : Span := ⟨t.start, t.stop⟩

/-- The length of the token's text in bytes. -/
def size (t : Token) : Nat := t.text.utf8ByteSize

/-- Whether the token is this very word. -/
def isWord (t : Token) (word : String) : Bool := t.kind == .word && t.text == word

/-- The token that stands for the end of the file. -/
def endfile (p : Position) : Token := ⟨.endfile, "", p⟩

/-- Kind, span, length in bytes and text, with blanks between. -/
def line (t : Token) : String :=
  s!"{t.kind.name} {t.span.exact} {t.size} {t.text}"

end Token

end Story
