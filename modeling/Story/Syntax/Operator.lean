/-!
# Operators and other closed word lists

The operators of embedded code and the small closed sets of words that a syntax tree stores: each
with its spelling and with the name under which an outline of the tree shows it.
-/

namespace Story

/-- An operator between two operands, assignments included. -/
inductive BinaryOperator where
  | equals | plusEquals | minusEquals | starEquals | starStarEquals | slashEquals | percentEquals
  | lessLessEquals | moreMoreEquals | moreMoreMoreEquals | ampersandEquals | pipeEquals
  | caretEquals | ampersandAmpersandEquals | pipePipeEquals | questionQuestionEquals
  | equalsEqualsEquals | equalsEquals | exclamationEqualsEquals | exclamationEquals
  | less | lessEquals | more | moreEquals | inside | instanceof
  | plus | minus | star | starStar | slash | percent
  | lessLess | moreMore | moreMoreMore | ampersand | pipe | caret
  | ampersandAmpersand | pipePipe | questionQuestion
deriving DecidableEq

namespace BinaryOperator

/-- All operators: those that assign, the comparisons, arithmetic, bits, logic. -/
def all : List BinaryOperator :=
  [equals, plusEquals, minusEquals, starEquals, starStarEquals, slashEquals, percentEquals,
   lessLessEquals, moreMoreEquals, moreMoreMoreEquals, ampersandEquals, pipeEquals, caretEquals,
   ampersandAmpersandEquals, pipePipeEquals, questionQuestionEquals,
   equalsEqualsEquals, equalsEquals, exclamationEqualsEquals, exclamationEquals,
   less, lessEquals, more, moreEquals, inside, instanceof,
   plus, minus, star, starStar, slash, percent,
   lessLess, moreMore, moreMoreMore, ampersand, pipe, caret,
   ampersandAmpersand, pipePipe, questionQuestion]

/-- The operator as it is written. -/
def spelling : BinaryOperator → String
  | equals => "="
  | plusEquals => "+="
  | minusEquals => "-="
  | starEquals => "*="
  | starStarEquals => "**="
  | slashEquals => "/="
  | percentEquals => "%="
  | lessLessEquals => "<<="
  | moreMoreEquals => ">>="
  | moreMoreMoreEquals => ">>>="
  | ampersandEquals => "&="
  | pipeEquals => "|="
  | caretEquals => "^="
  | ampersandAmpersandEquals => "&&="
  | pipePipeEquals => "||="
  | questionQuestionEquals => "??="
  | equalsEqualsEquals => "==="
  | equalsEquals => "=="
  | exclamationEqualsEquals => "!=="
  | exclamationEquals => "!="
  | less => "<"
  | lessEquals => "<="
  | more => ">"
  | moreEquals => ">="
  | inside => "in"
  | instanceof => "instanceof"
  | plus => "+"
  | minus => "-"
  | star => "*"
  | starStar => "**"
  | slash => "/"
  | percent => "%"
  | lessLess => "<<"
  | moreMore => ">>"
  | moreMoreMore => ">>>"
  | ampersand => "&"
  | pipe => "|"
  | caret => "^"
  | ampersandAmpersand => "&&"
  | pipePipe => "||"
  | questionQuestion => "??"

/-- The operator's name: its signs read out one by one. -/
def name : BinaryOperator → String
  | equals => "Equals"
  | plusEquals => "PlusEquals"
  | minusEquals => "MinusEquals"
  | starEquals => "StarEquals"
  | starStarEquals => "StarStarEquals"
  | slashEquals => "SlashEquals"
  | percentEquals => "PercentEquals"
  | lessLessEquals => "LessLessEquals"
  | moreMoreEquals => "MoreMoreEquals"
  | moreMoreMoreEquals => "MoreMoreMoreEquals"
  | ampersandEquals => "AmpersandEquals"
  | pipeEquals => "PipeEquals"
  | caretEquals => "CaretEquals"
  | ampersandAmpersandEquals => "AmpersandAmpersandEquals"
  | pipePipeEquals => "PipePipeEquals"
  | questionQuestionEquals => "QuestionQuestionEquals"
  | equalsEqualsEquals => "EqualsEqualsEquals"
  | equalsEquals => "EqualsEquals"
  | exclamationEqualsEquals => "ExclamationEqualsEquals"
  | exclamationEquals => "ExclamationEquals"
  | less => "Less"
  | lessEquals => "LessEquals"
  | more => "More"
  | moreEquals => "MoreEquals"
  | inside => "In"
  | instanceof => "Instanceof"
  | plus => "Plus"
  | minus => "Minus"
  | star => "Star"
  | starStar => "StarStar"
  | slash => "Slash"
  | percent => "Percent"
  | lessLess => "LessLess"
  | moreMore => "MoreMore"
  | moreMoreMore => "MoreMoreMore"
  | ampersand => "Ampersand"
  | pipe => "Pipe"
  | caret => "Caret"
  | ampersandAmpersand => "AmpersandAmpersand"
  | pipePipe => "PipePipe"
  | questionQuestion => "QuestionQuestion"

/-- Whether the operator writes to its left operand. -/
def isAssignment : BinaryOperator → Bool
  | equals | plusEquals | minusEquals | starEquals | starStarEquals | slashEquals | percentEquals
  | lessLessEquals | moreMoreEquals | moreMoreMoreEquals | ampersandEquals | pipeEquals
  | caretEquals | ampersandAmpersandEquals | pipePipeEquals | questionQuestionEquals => true
  | _ => false

/-- Whether the operator is written as a word. -/
def isWord : BinaryOperator → Bool
  | inside | instanceof => true
  | _ => false

end BinaryOperator

/-- An operator before its operand, other than `++` and `--`. -/
inductive UnaryOperator where
  | exclamation | minus | plus | tilde | void
deriving DecidableEq

namespace UnaryOperator

/-- All of them. -/
def all : List UnaryOperator := [exclamation, minus, plus, tilde, void]

/-- The operator as it is written. -/
def spelling : UnaryOperator → String
  | exclamation => "!"
  | minus => "-"
  | plus => "+"
  | tilde => "~"
  | void => "void"

/-- The operator's name. -/
def name : UnaryOperator → String
  | exclamation => "Exclamation"
  | minus => "Minus"
  | plus => "Plus"
  | tilde => "Tilde"
  | void => "Void"

end UnaryOperator

/-- `++` or `--`. -/
inductive UpdateOperator where
  | increment | decrement
deriving DecidableEq

namespace UpdateOperator

/-- Both of them. -/
def all : List UpdateOperator := [increment, decrement]

/-- The operator as it is written. -/
def spelling : UpdateOperator → String
  | increment => "++"
  | decrement => "--"

/-- The operator's name. -/
def name : UpdateOperator → String
  | increment => "Increment"
  | decrement => "Decrement"

end UpdateOperator

/-- An operator before its operand that is written as a word and has a node kind of its own. -/
inductive WordOperator where
  | delete | typeof | await
deriving DecidableEq

/-- The operator as it is written. -/
def WordOperator.spelling : WordOperator → String
  | delete => "delete"
  | typeof => "typeof"
  | await => "await"

/-- The word that opens a declaration of variables. -/
inductive VariableKind where
  | changing | constant | hoisted
deriving DecidableEq

namespace VariableKind

/-- All of them. -/
def all : List VariableKind := [changing, constant, hoisted]

/-- The word itself. -/
def spelling : VariableKind → String
  | changing => "let"
  | constant => "const"
  | hoisted => "var"

/-- The word's name. -/
def name : VariableKind → String
  | changing => "Let"
  | constant => "Const"
  | hoisted => "Var"

/-- The kind of declaration that a word opens. -/
def ofWord? (word : String) : Option VariableKind :=
  all.find? (·.spelling == word)

end VariableKind

/-- A word that is a value by itself. -/
inductive Keyword where
  | null | undefined | this
deriving DecidableEq

namespace Keyword

/-- All of them. -/
def all : List Keyword := [null, undefined, this]

/-- The word itself. -/
def spelling : Keyword → String
  | null => "null"
  | undefined => "undefined"
  | this => "this"

/-- The word's name. -/
def name : Keyword → String
  | null => "Null"
  | undefined => "Undefined"
  | this => "This"

/-- The value that a word stands for. -/
def ofWord? (word : String) : Option Keyword :=
  all.find? (·.spelling == word)

end Keyword

/-- The quote around a string. -/
inductive Quote where
  | single | double | backtick
deriving DecidableEq

namespace Quote

/-- All of them. -/
def all : List Quote := [single, double, backtick]

/-- The quote itself. -/
def spelling : Quote → String
  | single => "'"
  | double => "\""
  | backtick => "`"

/-- The quote's name. -/
def name : Quote → String
  | single => "Single"
  | double => "Double"
  | backtick => "Backtick"

end Quote

end Story
