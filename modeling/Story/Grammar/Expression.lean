import Story.Grammar.Line

/-!
# Expressions

An expression is an operand followed by any number of continuations, each applied to all that stands
before it: a member, a call, an index, `++` or `--`, an operator with a right operand, or a
conditional. There is no precedence here; a script written in the same order means the same by its
own rules.

Names are told apart while they are read: a name that is known as a script variable, or as a global,
stays as it is, and any other is looked up in the context.
-/

namespace Story.Grammar

open Story.Parser

/-! ### Names and numbers -/

/-- The expression that a name stands for in this state. -/
def resolve (s : State) (t : Token) : Expression :=
  .name t.span (if s.isLocal t.text || isGlobalName t.text then .plain else .context) t.text

/-- `@name`. -/
def rawName : Parser Expression := do
  let start ← position
  let _ ← eat .atSign
  let name ← eat .word
  require (isIdentifier name.text)
  return .name (← spanFrom start) .raw name.text

/-- The number of tokens that a number starts with before its exponent's sign, and the last of them:
a dot and a fraction, digits with a dot and a fraction, or one word. -/
def mantissa (s : State) : Nat × Token :=
  if s.kind = .dot then (2, s.peek 1)
  -- What follows the dot has to be a fraction: in `1.floor` the number ends before the dot.
  else if isDigits s.current.text && (s.peek 1).kind == .dot && (s.peek 2).kind == .word &&
      isFraction (s.peek 2).text then (3, s.peek 2)
  else (1, s.current)

/-- The number of tokens of the number that starts here. -/
def numberLength (s : State) : Nat :=
  let (n, last) := mantissa s
  -- The sign of an exponent is a token of its own, and so are the digits after it.
  if endsWithOpenExponent last.text &&
      ((s.peek n).kind == .plus || (s.peek n).kind == .minus) &&
      (s.peek (n + 1)).kind == .word && isDigits (s.peek (n + 1)).text then n + 2
  else n

/-- A number, put together from the tokens that dots and signs cut it into. -/
def number : Parser Expression := do
  let s ← state
  let length := numberLength s
  change (.advanceBy length)
  return .number (← spanFrom s.position) (String.join ((s.rest.take length).map Token.text))

/-- A string. -/
def stringLiteral (g : Nested) (quote : Quote) : Parser Expression := do
  let opening ← look State.current
  let (parts, _) ← quoted g opening.kind
  return .string (← spanFrom opening.start) quote parts

/-! ### Lists -/

/-- `...expression` or an expression. -/
def element (g : Nested) (multiline : Bool) : Parser Expression := do
  let s ← state
  if s.atSpread then
    change (.advanceBy 3)
    let inner ← g.expression multiline true
    return .spread (← spanFrom s.position) inner
  else
    g.expression multiline true

/-- Arguments between parentheses. -/
def arguments (g : Nested) (multiline : Bool) : Parser (Brackets × List Expression) :=
  bracketed (parenList multiline) fun _ => element g multiline

/-- `[a, b]`. -/
def arrayLiteral (g : Nested) (multiline : Bool) : Parser Expression := do
  let start ← position
  let (brackets, elements) ← bracketed (bracketList multiline) fun _ => element g multiline
  return .array (← spanFrom start) brackets elements

/-- An expression, or a placeholder for it and a report. -/
def expectExpression (g : Nested) (multiline : Bool) : Parser Expression := do
  match ← found (g.expression multiline true) with
  | some value => return value
  | none => missingHere

/-- Trivia and a token of the kind, if they are there; tell whether they were. -/
def eatsAhead (kind : TokenKind) (multiline : Bool) : Parser Bool := do
  let found ← attempt (do trivia multiline; eat kind)
  return found.isSome

/-- `: value` in an object literal; without it, `shorthand`, or a placeholder and a report. -/
def propertyValue (g : Nested) (multiline : Bool) (shorthand : Option Expression) :
    Parser Expression := do
  if ← eatsAhead .colon multiline then
    trivia multiline
    expectExpression g multiline
  else
    match shorthand with
    | some value => return value
    | none =>
      expected (TokenKind.text .colon)
      return .missing (← look State.here)

/-- A member whose key is a word. -/
def wordProperty (g : Nested) (multiline : Bool) (t : Token) : Parser Property := do
  if startsNumber t.text then
    change .advance
    let value ← propertyValue g multiline none
    return .numbered (← spanFrom t.start) t.text value
  else
    require (isIdentifier t.text)
    let s ← state
    change .advance
    -- A reserved word names a member, but it has no value of its own.
    let shorthand := if isReserved t.text then none else some (resolve s t)
    let value ← propertyValue g multiline shorthand
    return .named (← spanFrom t.start) t.text value

/-- A member whose key is quoted. -/
def quotedProperty (g : Nested) (multiline : Bool) (t : Token) (quote : Quote) :
    Parser Property := do
  let (parts, _) ← quoted g t.kind
  let key ← spanFrom t.start
  let value ← propertyValue g multiline none
  return .quoted (← spanFrom t.start) key quote parts value

/-- A member whose key is an expression in brackets. -/
def computedProperty (g : Nested) (multiline : Bool) : Parser Property := do
  let start ← position
  let _ ← eat .bracketOpen
  trivia true
  let key ← g.expression true true
  trivia true
  let _ ← eat .bracketClose
  let value ← propertyValue g multiline none
  return .computed (← spanFrom start) key value

/-- A member of an object literal. -/
def property (g : Nested) (multiline : Bool) : Parser Property := do
  let s ← state
  if s.atSpread then
    let value ← element g multiline
    return .spread (← spanFrom s.position) value
  else
    match s.kind with
    | .word => wordProperty g multiline s.current
    | .singleQuote => quotedProperty g multiline s.current .single
    | .doubleQuote => quotedProperty g multiline s.current .double
    | .bracketOpen => computedProperty g multiline
    | _ => fail

/-- An object literal. -/
def objectLiteral (g : Nested) (multiline : Bool) : Parser Expression := do
  let start ← position
  let (brackets, properties) ← bracketed (braceList multiline) fun _ => property g multiline
  return .object (← spanFrom start) brackets properties

/-- `(expression)`. -/
def parenExpression (g : Nested) : Parser Expression := do
  let start ← position
  let _ ← eat .parenOpen
  trivia true
  let inner ← expectExpression g true
  trivia true
  let _ ← expect .parenClose
  return .paren (← spanFrom start) inner

/-! ### Functions -/

/-- The default value of a parameter, after an equals sign. -/
def parameterDefault (g : Nested) (multiline : Bool) : Parser Expression := do
  trivia multiline
  let _ ← eat .equals
  trivia multiline
  g.expression multiline true

/-- A parameter; its name becomes known. -/
def parameter (g : Nested) (multiline : Bool) : Parser Parameter := do
  let s ← state
  if s.atSpread then change (.advanceBy 3)
  let _ ← eats .atSign
  let name ← eat .word
  require (isFreeName name.text)
  let default ← attempt (parameterDefault g multiline)
  -- The name is not known in its own default value.
  declare name.text
  return .named (← spanFrom s.position) name.text s.atSpread default

/-- Parameters between parentheses. -/
def parameters (g : Nested) (multiline : Bool) : Parser (Brackets × List Parameter) :=
  bracketed (parenList multiline) fun _ => parameter g multiline

/-- The name of a `function` expression, if a word stands here; the word is read whatever it is. -/
def functionName : Parser (Option String) := do
  let t ← look State.current
  if t.kind = .word then
    change .advance
    if isFreeName t.text then
      declare t.text
      return some t.text
    else
      return none
  else
    return none

/-- A `function` expression that starts at `start`. -/
def functionExpression (g : Nested) (start : Position) (isAsync multiline : Bool) :
    Parser Expression := do
  let _ ← eatWord "function"
  let _ ← blanks
  let isGenerator ← eats .star
  let _ ← blanks
  let (name, (brackets, params), body) ← inScope do
    let name ← functionName
    let _ ← blanks
    let params ← parameters g multiline
    let body ← block g multiline
    return (name, params, body)
  return .function (← spanFrom start) name isAsync isGenerator brackets params body

/-- The parameters of an arrow function: one name, or a list in which nothing is wrong. -/
def arrowParameters (g : Nested) (multiline : Bool) : Parser (Brackets × List Parameter) := do
  let s ← state
  if s.kind = .parenOpen then
    let (brackets, params) ← parameters g multiline
    -- A list with faults is given up, since it may be an expression in parentheses.
    requireState fun s' => brackets.closing.isSome && s'.reports.length == s.reports.length
    return (brackets, params)
  else
    let name ← eat .word
    require (isFreeName name.text)
    declare name.text
    return (⟨name.span, some name.span⟩, [.named name.span name.text false none])

/-- An arrow function that starts at `start`. -/
def arrowFunction (g : Nested) (start : Position) (isAsync multiline : Bool) :
    Parser Expression := inScope do
  let (brackets, params) ← arrowParameters g multiline
  let _ ← blanks
  let _ ← eat .equals
  let _ ← eat .angleClose
  match ← found (block g multiline) with
  | some body => return .arrowBlock (← spanFrom start) isAsync brackets params body
  | none =>
    -- Without a block, what follows the arrow is the value.
    trivia multiline
    let body ← expectExpression g multiline
    return .arrowValue (← spanFrom start) isAsync brackets params body

/-- A function after the word `async`. -/
def asyncFunction (g : Nested) (multiline : Bool) : Parser Expression := rewind do
  let start ← position
  change .advance
  someBlanks
  let s ← state
  if s.current.isWord "function" then functionExpression g start true multiline
  else arrowFunction g start true multiline

/-! ### Operands -/

/-- An operand that starts with a word other than `new`. -/
def wordOperand (g : Nested) (multiline : Bool) : Parser Expression := do
  let s ← state
  let t := s.current
  if startsNumber t.text then number
  else if t.text = "true" || t.text = "false" then
    change .advance
    return .boolean t.span (t.text == "true")
  else if let some word := Keyword.ofWord? t.text then
    change .advance
    return .keyword t.span word
  else if t.text = "function" then functionExpression g t.start false multiline
  else if t.text = "async" then asyncFunction g multiline
  else
    require (isFreeName t.text)
    -- A name is the parameter of an arrow function if an arrow follows it.
    arrowFunction g t.start false multiline <|> (do
      change .advance
      return resolve s t)

/-- An operand that does not start with `new`. -/
def plainOperand (g : Nested) (multiline : Bool) : Parser Expression := do
  let s ← state
  match s.kind with
  | .word => wordOperand g multiline
  | .dot =>
    require ((s.peek 1).kind == .word && isFraction (s.peek 1).text)
    number
  | .atSign => rawName
  | .singleQuote => stringLiteral g .single
  | .doubleQuote => stringLiteral g .double
  | .backtick => stringLiteral g .backtick
  | .parenOpen => arrowFunction g s.position false multiline <|> parenExpression g
  | .bracketOpen => arrayLiteral g multiline
  | .braceOpen => objectLiteral g multiline
  | _ => fail

/-- The name after a dot, on an object that starts at `start`. -/
def memberName (object : Expression) (start : Position) (isOptional : Bool) :
    Parser Expression := do
  let name ← eat .word
  require (isIdentifier name.text)
  return .member (← spanFrom start) object name.text isOptional

/-- One more member on the way to what `new` makes. -/
def newMemberRound (callee : Expression) : Parser (Round Expression Expression) := do
  let next ← attempt do
    let _ ← eat .dot
    memberName callee callee.span.start false
  match next with
  | some member => return .again member
  | none => return .done callee

/-- What stands after one `new` whose callee has been read: members, then arguments. -/
def newTail (g : Nested) (multiline : Bool) (callee : Expression) (start : Position) :
    Parser Expression := do
  let callee ← repeated newMemberRound callee
  match ← found (arguments g multiline) with
  | some (brackets, items) => return .new (← spanFrom start) callee (some brackets) items
  | none => return .new (← spanFrom start) callee none []

/-- One more `new`; blanks must follow it. -/
def newRound (starts : List Position) : Parser (Round (List Position) (List Position)) := do
  let s ← state
  if s.current.isWord "new" then
    change .advance
    someBlanks
    return .again (s.position :: starts)
  else
    return .done starts

/-- An operand: any number of `new`, and what the innermost of them makes. -/
def operand (g : Nested) (multiline : Bool) : Parser Expression := do
  let starts ← repeated newRound []
  let callee ← plainOperand g multiline
  -- The last `new` is the innermost, and it comes first in the list.
  starts.foldlM (newTail g multiline) callee

/-- `++` or `--`. -/
def updateOperator : Parser UpdateOperator := do
  let s ← state
  match s.kind, (s.peek 1).kind with
  | .plus, .plus =>
    change (.advanceBy 2)
    return .increment
  | .minus, .minus =>
    change (.advanceBy 2)
    return .decrement
  | _, _ => fail

/-- `++operand` or `--operand`. -/
def updateOperand (g : Nested) (multiline : Bool) : Parser Expression := do
  let start ← position
  let operator ← updateOperator
  let operand ← g.operand multiline
  return .update (← spanFrom start) operator true operand

/-- The operator sign or word that a token is, before an operand. -/
def unaryOperator? (t : Token) : Option UnaryOperator :=
  match t.kind with
  | .exclamation => some .exclamation
  | .tilde => some .tilde
  | .plus => some .plus
  | .minus => some .minus
  | .word => if t.text = "void" then some .void else none
  | _ => none

/-- An operator and its operand. -/
def unaryOperand (g : Nested) (multiline : Bool) (operator : UnaryOperator) :
    Parser Expression := do
  let start ← position
  change .advance
  let _ ← blanks
  let operand ← g.operand multiline
  return .unary (← spanFrom start) operator operand

/-- The operator word that a token is, before an operand. -/
def wordOperator? (t : Token) : Option WordOperator :=
  if t.isWord "typeof" then some .typeof
  else if t.isWord "delete" then some .delete
  else if t.isWord "await" then some .await
  else none

/-- An operator word and its operand, with blanks or a parenthesis between them. -/
def wordOperation (g : Nested) (multiline : Bool) (operator : WordOperator) :
    Parser Expression := do
  let start ← position
  change .advance
  let spaced ← blanks
  requireState fun s => spaced || s.kind == .parenOpen
  let operand ← g.operand multiline
  return .operation (← spanFrom start) operator operand

/-- `yield` or `yield*`, with or without a value. -/
def yieldOperand (g : Nested) (multiline : Bool) : Parser Expression := do
  let start ← position
  change .advance
  let delegate ← eats .star
  let value ← attempt (do
    let _ ← blanks
    g.expression multiline true)
  return .yield (← spanFrom start) delegate value

/-- `++` or `--` with an operand, if the signs are there. -/
def atUpdate (s : State) : Bool :=
  (s.kind == .plus && (s.peek 1).kind == .plus) || (s.kind == .minus && (s.peek 1).kind == .minus)

/-- An operand with the operators before it. -/
def prefixed (g : Nested) (multiline : Bool) : Parser Expression := do
  let s ← state
  if atUpdate s then updateOperand g multiline
  else if let some operator := unaryOperator? s.current then unaryOperand g multiline operator
  else if let some operator := wordOperator? s.current then wordOperation g multiline operator
  else if s.current.isWord "yield" then yieldOperand g multiline
  else operand g multiline

/-! ### Continuations -/

/-- The index between brackets. -/
def indexed (g : Nested) (object : Expression) (start : Position) (isOptional : Bool) :
    Parser Expression := do
  let _ ← eat .bracketOpen
  trivia true
  let index ← expectExpression g true
  trivia true
  let _ ← expect .bracketClose
  return .index (← spanFrom start) object index isOptional

/-- A call with arguments. -/
def called (g : Nested) (multiline : Bool) (callee : Expression) (start : Position)
    (isOptional : Bool) : Parser Expression := do
  let (brackets, items) ← arguments g multiline
  return .call (← spanFrom start) callee brackets items isOptional

/-- `?.`, if it is there; tell whether it was. -/
def eatsOptional : Parser Bool := do
  let s ← state
  if s.kind = .question && (s.peek 1).kind == .dot then
    change (.advanceBy 2)
    return true
  else
    return false

/-- What is attached to an operand after `?.`, or without it: a member, arguments, an index, `++` or
`--`. -/
def attachment (g : Nested) (multiline : Bool) (start : Position) (object : Expression)
    (isOptional : Bool) : Parser Expression := do
  match ← look State.kind with
  | .dot =>
    -- After `?.` a second dot is too much, and without it a word is.
    require !isOptional
    change .advance
    memberName object start false
  | .word =>
    require isOptional
    memberName object start true
  | .parenOpen => called g multiline object start isOptional
  | .bracketOpen => indexed g object start isOptional
  | .plus | .minus =>
    require !isOptional
    let operator ← updateOperator
    return .update (← spanFrom start) operator false object
  | _ => fail

/-- What is attached to an operand. On one line nothing may stand between. -/
def attached (g : Nested) (multiline : Bool) (start : Position) (object : Expression) :
    Parser Expression := do
  if multiline then trivia true
  attachment g multiline start object (← eatsOptional)

/-- Operators by their signs, the longest first, so that the first that fits is the longest. -/
def operatorTable : List BinaryOperator :=
  [.instanceof, .moreMoreMoreEquals, .equalsEqualsEquals, .exclamationEqualsEquals,
   .starStarEquals, .lessLessEquals, .moreMoreEquals, .moreMoreMore,
   .ampersandAmpersandEquals, .pipePipeEquals, .questionQuestionEquals,
   .equalsEquals, .exclamationEquals, .lessEquals, .moreEquals, .plusEquals, .minusEquals,
   .starEquals, .slashEquals, .percentEquals, .ampersandEquals, .pipeEquals, .caretEquals,
   .starStar, .lessLess, .moreMore, .ampersandAmpersand, .pipePipe, .questionQuestion, .inside,
   .equals, .less, .more, .plus, .minus, .star, .slash, .percent, .ampersand, .pipe, .caret]

/-- Whether the tokens start with these signs, one token for each. -/
def startsWithSigns : List Char → List Token → Bool
  | [], _ => true
  | _ :: _, [] => false
  | c :: cs, t :: ts => t.kind != .word && t.text == c.toString && startsWithSigns cs ts

/-- Whether the tokens start with the operator. -/
def startsWithOperator (tokens : List Token) (operator : BinaryOperator) : Bool :=
  if operator.isWord then (tokens.head?.map (·.isWord operator.spelling)).getD false
  else startsWithSigns operator.spelling.toList tokens

/-- The number of tokens of an operator. -/
def operatorLength (operator : BinaryOperator) : Nat :=
  if operator.isWord then 1 else operator.spelling.length

/-- The operator that the tokens start with. -/
def operatorAt? (tokens : List Token) : Option BinaryOperator :=
  operatorTable.find? (startsWithOperator tokens)

/-- Whether the expression is a place that can be assigned to. -/
def isAssignable : Expression → Bool
  | .name .. | .member .. | .index .. | .array .. | .object .. | .paren .. => true
  | _ => false

/-- An operator with its right operand. -/
def operated (g : Nested) (multiline : Bool) (start : Position) (left : Expression) :
    Parser Expression := do
  trivia multiline
  let s ← state
  match operatorAt? s.rest with
  | none => fail
  | some operator =>
    change (.advanceBy (operatorLength operator))
    trivia multiline
    let right ← prefixed g multiline
    -- The target is no reason to give up: what was read is kept.
    if operator.isAssignment && !isAssignable left then
      reportAt s.current.span .invalidTarget []
    return .binary (← spanFrom start) left operator right

/-- The value after the colon of a conditional. -/
def otherwiseValue (g : Nested) (multiline : Bool) : Parser Expression := do
  if ← expect .colon then
    trivia multiline
    expectExpression g multiline
  else
    return .missing (← look State.here)

/-- `? whenTrue : whenFalse`. -/
def conditional (g : Nested) (multiline : Bool) (start : Position) (condition : Expression) :
    Parser Expression := do
  trivia multiline
  -- `??` is an operator and `?.` attaches; neither opens a conditional.
  requireState fun s =>
    s.kind == .question && (s.peek 1).kind != .question && (s.peek 1).kind != .dot
  change .advance
  trivia multiline
  let whenTrue ← g.expression multiline true
  trivia multiline
  let whenFalse ← otherwiseValue g multiline
  return .conditional (← spanFrom start) condition whenTrue whenFalse

/-- One more continuation, if there is one. -/
def continuation (g : Nested) (multiline binary : Bool) (start : Position)
    (e : Expression) : Parser (Round Expression Expression) := do
  let next ← attempt <|
    if binary then
      attached g multiline start e <|> operated g multiline start e <|>
        conditional g multiline start e
    -- A prototype, a value in text and the target of a loop end where an operator starts.
    else attached g multiline start e
  match next with
  | some e' => return .again e'
  | none => return .done e

/-- An operand and its continuations. -/
def expression (g : Nested) (multiline binary : Bool) : Parser Expression := do
  let start ← position
  let first ← prefixed g multiline
  repeated (continuation g multiline binary start) first

end Story.Grammar
