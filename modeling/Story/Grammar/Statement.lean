import Story.Grammar.Expression

/-!
# Statements

The statements of embedded code. In code of one line a statement ends with the line, or goes on
after a block of lines; with `multiline` it may go on in the next line anyway. A statement that has
been recognised by its first word is never given up: what is missing is reported, and a placeholder
stands in for it.
-/

namespace Story.Grammar

open Story.Parser

/-! ### Parts of statements -/

/-- A block, or an empty one and a report. -/
def expectBlock (g : Nested) (multiline : Bool) : Parser Block := do
  match ← found (block g multiline) with
  | some body => return body
  | none =>
    expected (TokenKind.text .braceOpen)
    let here ← look State.here
    return .code here ⟨here, none⟩ [] true

/-- What a condition or a loop governs: a block or a single statement. -/
def body (g : Nested) (multiline : Bool) : Parser Statement := do
  match ← found (block g multiline) with
  | some b => return .block b
  | none =>
    match ← attempt (do trivia multiline; g.statement multiline) with
    | some statement => return statement
    | none =>
      report .statementExpected []
      return .missing (← look State.here)

/-- `(expression)` after `if`, `while` and `switch`. Of several expressions the first one counts. -/
def condition (g : Nested) (multiline : Bool) : Parser Expression := do
  let _ ← blanks
  let list ← found <| bracketed (conditionList multiline) fun taken =>
    if taken.isEmpty then g.expression multiline true else fail
  match list with
  | some (_, value :: _) => return value
  | some (brackets, []) =>
    reportAt brackets.span .expressionExpected []
    return .missing brackets.span
  | none =>
    expected (TokenKind.text .parenOpen)
    return .missing (← look State.here)

/-- Trivia and the word that goes on with a statement, if they are there; tell whether they were. -/
def goesOn (word : String) (multiline : Bool) : Parser Bool := do
  let found ← attempt (do trivia multiline; eatWord word)
  return found.isSome

/-- Where the next token after trivia starts. -/
def positionAhead (multiline : Bool) : Parser Position :=
  look fun s => (s.skipTrivia multiline).position

/-! ### Declarations -/

/-- The name in a declaration; with `@` it becomes known as a script variable. What was read on the
way to finding that there is no name has been read. -/
def binding : Parser (Option Binding) := do
  let start ← position
  let isRaw ← eats .atSign
  let name ← look State.current
  if name.kind = .word then
    change .advance
    if isFreeName name.text then
      if isRaw then declare name.text
      return some ⟨⟨start, name.stop⟩, isRaw, name.text⟩
    else
      return none
  else
    return none

/-- The first value of a declared name, after an equals sign. -/
def declaredValue (g : Nested) (multiline : Bool) : Parser (Option Expression) := do
  if ← eatsAhead .equals multiline then
    trivia multiline
    return some (← expectExpression g multiline)
  else
    return none

/-- One more declared name, after a comma. -/
def declaratorRound (g : Nested) (multiline withValues : Bool) (declarators : List Declarator) :
    Parser (Round (List Declarator) (List Declarator)) := do
  trivia multiline
  let start ← position
  match ← binding with
  | none =>
    report .identifierExpected []
    return .done declarators.reverse
  | some name =>
    let value ← if withValues then declaredValue g multiline else pure none
    let d : Declarator := .bind (← spanFrom start) name value
    if ← eatsAhead .comma multiline then return .again (d :: declarators)
    else return .done (d :: declarators).reverse

/-- Whether some declared names have `@` and some do not. -/
def isMixed (declarators : List Declarator) : Bool :=
  declarators.any (·.name.isRaw) && declarators.any (!·.name.isRaw)

/-- A declaration of variables after its opening word. -/
def declaration (g : Nested) (multiline withValues : Bool) (keyword : Token) :
    Parser (Span × List Declarator) := do
  someBlanks
  let declarators ← repeated (declaratorRound g multiline withValues) []
  let span ← spanFrom keyword.start
  if isMixed declarators then reportAt span .mixedDeclaration []
  return (span, declarators)

/-- Whether a declaration of a function starts here, with a name, and not a function expression. -/
def functionDeclarationAhead : Parser Unit := do
  if ← eatsWord "async" then someBlanks
  let _ ← eatWord "function"
  let _ ← blanks
  let _ ← eats .star
  let _ ← blanks
  requireState fun s => s.kind == .atSign || s.kind == .word

/-- Parameters, or an empty list of them and a report. -/
def expectParameters (g : Nested) (multiline : Bool) : Parser (Brackets × List Parameter) := do
  match ← found (parameters g multiline) with
  | some list => return list
  | none =>
    expected (TokenKind.text .parenOpen)
    let here ← look State.here
    return (⟨here, none⟩, [])

/-- A declaration of a function. Its name belongs to what is around it, its parameters do not. -/
def functionDeclaration (g : Nested) (multiline : Bool) : Parser Statement := do
  let start ← position
  let isAsync ← eatsWord "async"
  let _ ← blanks
  let _ ← eatWord "function"
  let _ ← blanks
  let isGenerator ← eats .star
  let _ ← blanks
  match ← binding with
  | none => fail
  | some name =>
    -- The name is known outside, so the scope starts behind it.
    let ((brackets, params), body) ← inScope do
      let _ ← blanks
      let params ← expectParameters g multiline
      let body ← expectBlock g multiline
      return (params, body)
    return .function (← spanFrom start) name isAsync isGenerator brackets params body

/-! ### Control -/

/-- `if (condition) body else body`. -/
def ifStatement (g : Nested) (multiline : Bool) : Parser Statement := do
  let start ← position
  change .advance
  let test ← condition g multiline
  let whenTrue ← body g multiline
  if ← goesOn "else" multiline then
    let whenFalse ← body g multiline
    return .ifElse (← spanFrom start) test whenTrue (some whenFalse)
  else
    return .ifElse (← spanFrom start) test whenTrue none

/-- `switch (value) block`. -/
def switchStatement (g : Nested) (multiline : Bool) : Parser Statement := do
  let start ← position
  change .advance
  let value ← condition g multiline
  let cases ← expectBlock g multiline
  return .switch (← spanFrom start) value cases

/-- The colon after `case test` or `default`. -/
def labelEnd (start : Position) (test : Option Expression) : Parser Statement := do
  let _ ← blanks
  let _ ← expect .colon
  return .label (← spanFrom start) test

/-- `case test:`. -/
def caseLabel (g : Nested) (multiline : Bool) : Parser Statement := do
  let start ← position
  change .advance
  someBlanks
  let test ← g.expression multiline true
  labelEnd start (some test)

/-- `default:`. -/
def defaultLabel : Parser Statement := do
  let start ← position
  change .advance
  labelEnd start none

/-- `while (condition) body`. -/
def whileStatement (g : Nested) (multiline : Bool) : Parser Statement := do
  let start ← position
  change .advance
  let test ← condition g multiline
  let inner ← body g multiline
  return .whileLoop (← spanFrom start) test inner

/-- The condition after the body of a `do`. -/
def doCondition (g : Nested) (multiline : Bool) : Parser Expression := do
  if ← goesOn "while" multiline then condition g multiline
  else
    expected "while"
    return .missing (← look State.here)

/-- `do body while (condition)`. -/
def doStatement (g : Nested) (multiline : Bool) : Parser Statement := do
  let start ← position
  change .advance
  let inner ← body g multiline
  let test ← doCondition g multiline
  return .doLoop (← spanFrom start) inner test

/-! ### Loops over values -/

/-- A declaration or a target before `in` or `of`. -/
def loopBinding (g : Nested) : Parser LoopHead := do
  let t ← look State.current
  match (if t.kind = .word then VariableKind.ofWord? t.text else none) with
  | some kind =>
    change .advance
    let (span, declarators) ← declaration g true false t
    return .variable span kind declarators
  | none => return .expression (← g.expression true false)

/-- `of` or `in`; tell whether it is `of`. -/
def ofOrIn : Parser Bool := do
  if ← eatsWord "of" then return true
  let _ ← eatWord "in"
  return false

/-- The head of a loop over values, up to its closing parenthesis. -/
def valuesHead (g : Nested) : Parser (LoopHead × Bool × Expression) := do
  trivia true
  let head ← loopBinding g
  trivia true
  let isOf ← ofOrIn
  trivia true
  let value ← expectExpression g true
  trivia true
  let _ ← expect .parenClose
  return (head, isOf, value)

/-- What stands before the first semicolon of a counting loop. A declaration that breaks off after
its opening word leaves nothing but that word read. -/
def countingStart (g : Nested) : Parser LoopHead := do
  let t ← look State.current
  match (if t.kind = .word then VariableKind.ofWord? t.text else none) with
  | some kind =>
    change .advance
    match ← found (declaration g true true t) with
    | some (span, declarators) => return .variable span kind declarators
    | none => return .nothing
  | none =>
    match ← found (g.expression true true) with
    | some value => return .expression value
    | none => return .nothing

/-- The head of a counting loop, up to its closing parenthesis. -/
def countingHead (g : Nested) (multiline : Bool) :
    Parser (LoopHead × Option Expression × Option Expression) := do
  trivia true
  let head ← countingStart g
  trivia true
  let _ ← expect .semicolon
  trivia true
  let test ← found (g.expression true true)
  trivia true
  let _ ← expect .semicolon
  trivia true
  let update ← found (g.expression true true)
  trivia true
  let closed ← expect .parenClose
  -- On one line, the rest of a head that does not close is passed over.
  if !closed && !multiline then change .skipLine
  return (head, test, update)

/-- A `for` whose head is not over values. -/
def countingLoop (g : Nested) (multiline hasHead : Bool) (start : Position) :
    Parser Statement := do
  let (head, test, update) ←
    if hasHead then countingHead g multiline else pure (.nothing, none, none)
  let inner ← body g multiline
  return .forLoop (← spanFrom start) head test update inner

/-- What follows the opening parenthesis of a `for`, which may be missing. -/
def loopAfter (g : Nested) (multiline isAwait hasHead : Bool) (start : Position) :
    Parser Statement := do
  -- A loop over values is tried first; a counting loop starts with the same words.
  match ← attempt (do require hasHead; valuesHead g) with
  | some (head, isOf, value) =>
    let inner ← body g multiline
    let span ← spanFrom start
    return if isOf then .forOf span isAwait head value inner else .forIn span head value inner
  | none => countingLoop g multiline hasHead start

/-- A `for` loop of any kind. -/
def forStatement (g : Nested) (multiline : Bool) : Parser Statement := inScope do
  let start ← position
  change .advance
  let _ ← blanks
  let isAwait ← eatsWord "await"
  let _ ← blanks
  let hasHead ← expect .parenOpen
  loopAfter g multiline isAwait hasHead start

/-! ### Failures, jumps and values -/

/-- The name of what is caught, which becomes known. A word is read whatever it is. -/
def caughtWord : Parser (Option String) := do
  let t ← look State.current
  let isWord ← eats .word
  if isWord && isIdentifier t.text then
    declare t.text
    return some t.text
  else
    report .identifierExpected []
    return none

/-- `(name)` after `catch`. -/
def caughtName : Parser (Option String) := do
  let _ ← blanks
  let name ← caughtWord
  let _ ← blanks
  let _ ← expect .parenClose
  return name

/-- `catch` and what belongs to it, if it is there. -/
def handler (g : Nested) (multiline : Bool) : Parser (List Clause) := do
  let start ← positionAhead multiline
  if ← goesOn "catch" multiline then
    let (name, inner) ← inScope do
      let _ ← blanks
      let name ← if ← eats .parenOpen then caughtName else pure none
      let inner ← expectBlock g multiline
      return (name, inner)
    return [.handler (← spanFrom start) name inner]
  else
    return []

/-- `finally` and what belongs to it, if it is there. -/
def finalizer (g : Nested) (multiline : Bool) : Parser (List Clause) := do
  let start ← positionAhead multiline
  if ← goesOn "finally" multiline then
    let inner ← expectBlock g multiline
    return [.finalizer (← spanFrom start) inner]
  else
    return []

/-- `try block` with one clause or both. -/
def tryStatement (g : Nested) (multiline : Bool) : Parser Statement := do
  let start ← position
  change .advance
  let inner ← expectBlock g multiline
  let caught ← handler g multiline
  let finished ← finalizer g multiline
  let span ← spanFrom start
  if (caught ++ finished).isEmpty then reportAt span .clauseExpected []
  return .attempt span inner (caught ++ finished)

/-- `throw value`. -/
def throwStatement (g : Nested) (multiline : Bool) : Parser Statement := do
  let start ← position
  change .advance
  let _ ← blanks
  let value ← expectExpression g multiline
  return .throw (← spanFrom start) value

/-- `return`, with or without a value. -/
def returnStatement (g : Nested) (multiline : Bool) : Parser Statement := do
  let start ← position
  change .advance
  let value ← attempt (do
    let _ ← blanks
    g.expression multiline true)
  return .result (← spanFrom start) value

/-- `break` or `continue`, with or without a label. -/
def jump : Parser (Span × Option String) := do
  let start ← position
  change .advance
  let label ← attempt (do
    let _ ← blanks
    let t ← eat .word
    require (isFreeName t.text)
    return t.text)
  return (← spanFrom start, label)

/-! ### Imports -/

/-- `in` and blanks after `import`. -/
def importIn : Parser Unit := do
  let _ ← eatWord "in"
  someBlanks

/-- `as alias`. -/
def importAlias : Parser String := do
  let _ ← eatWord "as"
  let _ ← blanks
  let t ← eat .word
  require (isIdentifier t.text)
  return t.text

/-- Give up on an import: a report about the current token, and the rest of the line is passed over.
-/
def abandonImport (start : Position) (m : Message) (arguments : List String) :
    Parser Statement := do
  report m arguments
  change .skipLine
  return .missing (← spanFrom start)

/-- The path of an import, as it is written, and whether it ends. -/
def importPath (g : Nested) : Parser (String × Bool) := do
  let s ← state
  let (_, closing) ← quoted g s.kind
  -- The path is all that was read, with its quotes.
  let length := (← look State.cursor) - s.cursor
  return (String.join ((s.rest.take length).map Token.text), closing.isSome)

/-- An import after its name: `as alias`, `from` and the path. The import is recorded, and unless it
goes into the context its name becomes known. -/
def importFrom (g : Nested) (start : Position) (isIn : Bool) (name : String) :
    Parser Statement := do
  let _ ← blanks
  let newName ← attempt importAlias
  let _ ← blanks
  if ← eatsWord "from" then
    let _ ← blanks
    let s ← state
    if s.kind = .singleQuote || s.kind = .doubleQuote then
      let (path, closed) ← importPath g
      let span ← spanFrom start
      if closed then
        let value : Import := ⟨span, isIn, name, newName, path⟩
        -- An import into the context is looked up there, so it makes no name known.
        if !isIn then declare value.binding
        change (.addImport value)
        return .imported value
      else
        -- The string has reported that it does not end.
        return .missing span
    else
      abandonImport start .pathExpected []
  else
    abandonImport start .expected ["from"]

/-- `import [in] name [as alias] from 'path'`. -/
def importStatement (g : Nested) : Parser Statement := do
  let start ← position
  change .advance
  someBlanks
  let isIn ← attempt importIn
  let t ← look State.current
  -- A word that is no name is passed over as well, and the report is about what follows it.
  if t.kind = .word then change .advance
  if t.kind = .word && isIdentifier t.text then importFrom g start isIn.isSome t.text
  else abandonImport start .identifierExpected []

/-! ### All statements -/

/-- An expression for its effect. -/
def expressionStatement (g : Nested) (multiline : Bool) : Parser Statement := do
  return .expression (← g.expression multiline true)

/-- A declaration of variables. -/
def variableStatement (g : Nested) (multiline : Bool) (t : Token) : Parser Statement := do
  match VariableKind.ofWord? t.text with
  | none => fail
  | some kind =>
    change .advance
    let (span, declarators) ← declaration g multiline true t
    return .variable span kind declarators

/-- A statement that starts with a word. -/
def wordStatement (g : Nested) (multiline : Bool) (t : Token) : Parser Statement := do
  match t.text with
  | "let" | "const" | "var" => variableStatement g multiline t
  | "function" | "async" =>
    -- Without a name it is an expression.
    if ← succeeds functionDeclarationAhead then functionDeclaration g multiline
    else expressionStatement g multiline
  | "if" => ifStatement g multiline
  | "switch" => switchStatement g multiline
  | "case" => caseLabel g multiline
  | "default" => defaultLabel
  | "while" => whileStatement g multiline
  | "do" => doStatement g multiline
  | "for" => forStatement g multiline
  | "try" => tryStatement g multiline
  | "throw" => throwStatement g multiline
  | "import" => importStatement g
  | "break" =>
    let (span, label) ← jump
    return .leave span label
  | "continue" =>
    let (span, label) ← jump
    return .next span label
  | "return" => returnStatement g multiline
  | "debugger" =>
    change .advance
    return .debugger t.span
  | _ => expressionStatement g multiline

/-- A statement without the semicolon that may end it. -/
def bareStatement (g : Nested) (multiline : Bool) : Parser Statement := do
  let t ← look State.current
  match t.kind with
  | .braceOpen => return .block (← block g multiline)
  | .semicolon =>
    change .advance
    return .empty t.span
  | .word => wordStatement g multiline t
  | _ => expressionStatement g multiline

/-- A statement, with the semicolon that may end it. -/
def statement (g : Nested) (multiline : Bool) : Parser Statement := do
  let result ← bareStatement g multiline
  let _ ← attempt (do
    let _ ← blanks
    eat .semicolon)
  return result

end Story.Grammar
