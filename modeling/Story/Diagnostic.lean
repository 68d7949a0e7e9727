import Story.Text.Position

/-!
# Diagnostics

What is wrong with a story, or with a whole project, is told by diagnostics. A `Message` is an entry
of the catalogue: a code, a severity and a template with numbered places for arguments. A
`Diagnostic` is a message with its arguments filled in, at a span of the text.

Arguments are filled in one after the other (`fill`), so a place that an earlier argument brings in
is filled by a later one.
-/

namespace Story

/-! ### Messages -/

/-- How grave a diagnostic is. -/
inductive Severity where
  | error | warning | info | hint
deriving DecidableEq

/-- The severity's name. -/
def Severity.name : Severity → String
  | error => "error"
  | warning => "warning"
  | info => "info"
  | hint => "hint"

/-- Replace every occurrence of `mark` by `value`, from left to right. -/
def replaceAll (mark value : List Char) : List Char → List Char
  | [] => []
  | c :: cs =>
    if mark.isPrefixOf (c :: cs) then value ++ replaceAll mark value (cs.drop (mark.length - 1))
    else c :: replaceAll mark value cs
termination_by cs => cs.length
decreasing_by
  · simp only [List.length_drop, List.length_cons]; omega
  · simp

/-- The place for the argument with number `i`: the number in braces. -/
def placeholder (i : Nat) : String := "\x7b" ++ toString i ++ "\x7d"

/-- Fill the place of each argument, the first argument first. -/
def fillFrom (i : Nat) (template : List Char) : List String → List Char
  | [] => template
  | a :: as => fillFrom (i + 1) (replaceAll (placeholder i).toList a.toList template) as

/-- Fill the numbered places of a template. -/
def fill (template : String) (arguments : List String) : String :=
  String.ofList (fillFrom 0 template.toList arguments)

/-- An entry of the catalogue. -/
structure Message where
  /-- The number by which the message is known. -/
  code : Nat
  /-- How grave it is. -/
  severity : Severity
  /-- The text, with numbered places. -/
  template : String
deriving DecidableEq

namespace Message

/-! ### The catalogue: reading stories -/

/-- A token that fits nowhere. -/
def unexpectedToken : Message := ⟨1001, .error, "Unexpected token '\x7b0\x7d'."⟩
/-- A name was expected. -/
def identifierExpected : Message := ⟨1002, .error, "Identifier expected."⟩
/-- An expression was expected. -/
def expressionExpected : Message := ⟨1003, .error, "Expression expected."⟩
/-- A statement was expected. -/
def statementExpected : Message := ⟨1004, .error, "Statement expected."⟩
/-- A certain sign or word was expected. -/
def expected : Message := ⟨1005, .error, "'\x7b0\x7d' expected."⟩
/-- A string without its closing quote. -/
def unterminatedString : Message := ⟨1006, .error, "Unterminated string literal."⟩
/-- A comment without its end. -/
def unterminatedComment : Message := ⟨1007, .error, "'*/' expected."⟩
/-- Something after the end of what a line can hold. -/
def unexpectedRest : Message :=
  ⟨1008, .error, "Unexpected content at end of line: '\x7b0\x7d'."⟩
/-- A block of lines without its end. -/
def blockNotClosed : Message :=
  ⟨1009, .error, "Block opened here is never closed with '* \x7d\x7d'."⟩
/-- An import without a path. -/
def pathExpected : Message := ⟨1010, .error, "Module path string expected after 'from'."⟩
/-- An assignment to something that is no place. -/
def invalidTarget : Message := ⟨1011, .error, "Invalid left-hand side in assignment."⟩
/-- A `try` alone. -/
def clauseExpected : Message := ⟨1012, .error, "'catch' or 'finally' expected."⟩
/-- A tag that an object line has twice. -/
def duplicateTag : Message :=
  ⟨1013, .warning, "Tag '\x7b0\x7d' is declared more than once on this line."⟩
/-- A declaration of both script variables and context properties. -/
def mixedDeclaration : Message :=
  ⟨1015, .error, "'@' variables and context variables cannot be declared together."⟩
/-- More levels of nesting than the parser follows. -/
def nestingTooDeep : Message := ⟨1016, .error, "Expression or statement is nested too deeply."⟩

/-! ### The catalogue: writing scripts -/

/-- A placeholder in the tree. -/
def incomplete : Message := ⟨2001, .error, "Cannot generate code for incomplete \x7b0\x7d."⟩

/-! ### The catalogue: files and settings -/

/-- A file that cannot be read. -/
def cannotRead : Message := ⟨5001, .error, "Cannot read file '\x7b0\x7d': \x7b1\x7d."⟩
/-- A file that cannot be written. -/
def cannotWrite : Message := ⟨5002, .error, "Cannot write file '\x7b0\x7d': \x7b1\x7d."⟩
/-- Settings that make no sense. -/
def invalidSettings : Message := ⟨5003, .error, "Invalid configuration: \x7b0\x7d."⟩
/-- A failure of the compiler itself. -/
def unexpectedFailure : Message := ⟨5004, .error, "Unexpected failure: \x7b0\x7d."⟩

/-! ### The catalogue: other tools -/

/-- A tool that could not be run or that failed. -/
def toolFailed : Message := ⟨6001, .error, "External tool '\x7b0\x7d' failed: \x7b1\x7d."⟩
/-- A line that a tool printed. -/
def toolOutput : Message := ⟨6002, .info, "\x7b0\x7d"⟩

/-- All messages, by code. -/
def catalogue : List Message :=
  [unexpectedToken, identifierExpected, expressionExpected, statementExpected, expected,
   unterminatedString, unterminatedComment, unexpectedRest, blockNotClosed, pathExpected,
   invalidTarget, clauseExpected, duplicateTag, mixedDeclaration, nestingTooDeep, incomplete,
   cannotRead, cannotWrite, invalidSettings, unexpectedFailure, toolFailed, toolOutput]

/-- The message with a code. -/
def ofCode? (code : Nat) : Option Message := catalogue.find? (·.code == code)

end Message

/-! ### Diagnostics -/

/-- A message about a place. -/
structure Diagnostic where
  /-- How grave it is. -/
  severity : Severity
  /-- The message in full. -/
  message : String
  /-- The place it is about. -/
  span : Span
  /-- The number of the message. -/
  code : Option Nat
  /-- The tool that says so. -/
  source : Option String
deriving DecidableEq

namespace Diagnostic

/-- The name under which this compiler reports. -/
def compilerName : String := "stsc"

/-- A message of the catalogue at a place. -/
def of (m : Message) (span : Span) (arguments : List String) : Diagnostic :=
  ⟨m.severity, fill m.template arguments, span, some m.code, some compilerName⟩

/-- A message of the catalogue about no place in particular. -/
def placeless (m : Message) (arguments : List String) : Diagnostic :=
  of m (.empty .zero) arguments

/-- The same diagnostic from another tool. -/
def reportedBy (d : Diagnostic) (tool : String) : Diagnostic := { d with source := some tool }

/-- Whether it is an error. -/
def isError (d : Diagnostic) : Bool := d.severity == .error

/-- Place, severity, code and message on one line. -/
def display (d : Diagnostic) : String :=
  let code := match d.code with
    | some c => " STS" ++ toString c
    | none => ""
  d.span.display ++ " - " ++ d.severity.name ++ code ++ ": " ++ d.message

/-- Whether `d` comes no later than `e`: by start, then by end. -/
def notAfter (d e : Diagnostic) : Bool :=
  d.span.start.offset < e.span.start.offset ||
    (d.span.start.offset == e.span.start.offset && d.span.stop.offset ≤ e.span.stop.offset)

/-- In the order of the text; what is about the same place keeps its order. -/
def sort (ds : List Diagnostic) : List Diagnostic := ds.mergeSort notAfter

/-- How many are errors. -/
def errorCount (ds : List Diagnostic) : Nat := ds.countP isError

/-- Whether one is an error. -/
def hasErrors (ds : List Diagnostic) : Bool := ds.any isError

end Diagnostic

end Story
