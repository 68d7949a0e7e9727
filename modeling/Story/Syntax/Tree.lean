import Story.Text.Position
import Story.Syntax.Operator

/-!
# The syntax tree of a story

A story is a list of lines. A line holds text, opens or deletes an object, or holds embedded code;
code is made of statements and expressions, and a block of code may in turn hold lines. So lines,
statements and expressions are defined together, and every node keeps the span of text that it was
read from.

Three decisions shape the types:

* a bracketed list is a `Brackets` value beside the list of its items, with no closing bracket when
  none was found;
* a construct that was expected and not found is a `missing` node, an expression or a statement, so
  a tree exists for every text;
* what only a whole line can be (an object line, a delete line) is a kind of `Line`, not a
  statement.
-/

namespace Story

/-- The brackets around a list: the opening one and, when it was found, the closing one. -/
structure Brackets where
  /-- Where the opening bracket stands. -/
  opening : Span
  /-- Where the closing bracket stands. -/
  closing : Option Span
deriving DecidableEq

/-- From the opening bracket through the closing one; just the opening one if the other is missing.
-/
def Brackets.span (b : Brackets) : Span :=
  b.opening.union (b.closing.getD b.opening)

/-- How a name in code is looked up. -/
inductive NameKind where
  /-- A variable or a well-known global of the generated script. -/
  | plain
  /-- A name written with `@`, used as it stands. -/
  | raw
  /-- A property of the story's context object. -/
  | context
deriving DecidableEq

/-- A name that a declaration introduces: with `@` a variable of the script, otherwise a property of
the context. -/
structure Binding where
  /-- The name with its `@`. -/
  span : Span
  /-- Whether it was written with `@`. -/
  isRaw : Bool
  /-- The name without `@`. -/
  name : String
deriving DecidableEq

/-- `import [in] name [as alias] from 'path'`. -/
structure Import where
  /-- The whole statement. -/
  span : Span
  /-- Whether the value goes into the context and not into a variable. -/
  isIn : Bool
  /-- The name after `import`. -/
  name : String
  /-- The name after `as`. -/
  newName : Option String
  /-- The path as it is written, quotes included. -/
  path : String
deriving DecidableEq

/-- The name that an import binds. -/
def Import.binding (i : Import) : String := i.newName.getD i.name

/-- The white space before a line. -/
structure Indent where
  /-- The white space. -/
  span : Span
  /-- Its columns, less those that belong to enclosing blocks of lines. -/
  width : Nat
  /-- The number of whole indentation units in `width`. -/
  level : Nat
deriving DecidableEq

mutual

/-- A value in embedded code. -/
inductive Expression where
  /-- A number as it is written. -/
  | number (span : Span) (text : String)
  /-- A quoted string. -/
  | string (span : Span) (quote : Quote) (parts : List TextPart)
  /-- `true` or `false`. -/
  | boolean (span : Span) (value : Bool)
  /-- `null`, `undefined` or `this`. -/
  | keyword (span : Span) (word : Keyword)
  /-- `[a, b]`. -/
  | array (span : Span) (brackets : Brackets) (elements : List Expression)
  /-- An object literal. -/
  | object (span : Span) (brackets : Brackets) (properties : List Property)
  /-- A name. -/
  | name (span : Span) (kind : NameKind) (text : String)
  /-- `left op right`; chains lean to the left whatever the operators are. -/
  | binary (span : Span) (left : Expression) (operator : BinaryOperator) (right : Expression)
  /-- `object.property`, or with `?.` if `optional`. -/
  | member (span : Span) (object : Expression) (property : String) (optional : Bool)
  /-- `object[index]`, or with `?.` if `optional`. -/
  | index (span : Span) (object : Expression) (index : Expression) (optional : Bool)
  /-- `callee(arguments)`, or with `?.` if `optional`. -/
  | call (span : Span) (callee : Expression) (brackets : Brackets) (arguments : List Expression)
      (optional : Bool)
  /-- `++` or `--`, before its operand if `isBefore`, else after it. -/
  | update (span : Span) (operator : UpdateOperator) (isBefore : Bool) (operand : Expression)
  /-- An operator sign before its operand. -/
  | unary (span : Span) (operator : UnaryOperator) (operand : Expression)
  /-- An operator word before its operand. -/
  | operation (span : Span) (operator : WordOperator) (operand : Expression)
  /-- `condition ? whenTrue : whenFalse`. -/
  | conditional (span : Span) (condition whenTrue whenFalse : Expression)
  /-- `(inner)`. -/
  | paren (span : Span) (inner : Expression)
  /-- `new callee(arguments)`; with no brackets there are no arguments. -/
  | new (span : Span) (callee : Expression) (brackets : Option Brackets)
      (arguments : List Expression)
  /-- `yield value`, or `yield* value` if `delegate`. -/
  | yield (span : Span) (delegate : Bool) (value : Option Expression)
  /-- A `function` expression. -/
  | function (span : Span) (name : Option String) (isAsync isGenerator : Bool)
      (brackets : Brackets) (parameters : List Parameter) (body : Block)
  /-- An arrow function with a block. -/
  | arrowBlock (span : Span) (isAsync : Bool) (brackets : Brackets) (parameters : List Parameter)
      (body : Block)
  /-- An arrow function with a value. -/
  | arrowValue (span : Span) (isAsync : Bool) (brackets : Brackets) (parameters : List Parameter)
      (body : Expression)
  /-- `...inner`, among the items of a list. -/
  | spread (span : Span) (inner : Expression)
  /-- A place where an expression was expected. -/
  | missing (span : Span)

/-- A piece of a text: words as they stand, or the value of an expression. -/
inductive TextPart where
  /-- Words as they stand. -/
  | chunk (span : Span) (text : String)
  /-- `*expression`. -/
  | splice (span : Span) (value : Expression)

/-- A member of an object literal. -/
inductive Property where
  /-- `name: value`, or `name` alone, which is the value of that name. -/
  | named (span : Span) (name : String) (value : Expression)
  /-- `number: value`. -/
  | numbered (span : Span) (number : String) (value : Expression)
  /-- `'text': value`; `key` is the quoted text. -/
  | quoted (span : Span) (key : Span) (quote : Quote) (parts : List TextPart) (value : Expression)
  /-- `[key]: value`. -/
  | computed (span : Span) (key : Expression) (value : Expression)
  /-- `...value`; the value is a spread. -/
  | spread (span : Span) (value : Expression)

/-- A parameter of a function. -/
inductive Parameter where
  /-- A name, `...` before it if `isRest`, and a default value. -/
  | named (span : Span) (name : String) (isRest : Bool) (default : Option Expression)

/-- Statements, or lines, between braces. -/
inductive Block where
  /-- Statements. What an unscoped block declares stays known after it. -/
  | code (span : Span) (brackets : Brackets) (statements : List Statement) (isScoped : Bool)
  /-- Lines of the story. -/
  | template (span : Span) (brackets : Brackets) (lines : List Line)

/-- A statement of embedded code. -/
inductive Statement where
  /-- A block. -/
  | block (body : Block)
  /-- An expression for its effect. -/
  | expression (value : Expression)
  /-- A declaration of variables. -/
  | variable (span : Span) (kind : VariableKind) (declarators : List Declarator)
  /-- A declaration of a function. -/
  | function (span : Span) (name : Binding) (isAsync isGenerator : Bool) (brackets : Brackets)
      (parameters : List Parameter) (body : Block)
  /-- `if (condition) whenTrue else whenFalse`. -/
  | ifElse (span : Span) (condition : Expression) (whenTrue : Statement)
      (whenFalse : Option Statement)
  /-- `switch (value) body`. -/
  | switch (span : Span) (value : Expression) (body : Block)
  /-- `case test:`, or `default:` with no test. -/
  | label (span : Span) (test : Option Expression)
  /-- `while (condition) body`. -/
  | whileLoop (span : Span) (condition : Expression) (body : Statement)
  /-- `do body while (condition)`. -/
  | doLoop (span : Span) (body : Statement) (condition : Expression)
  /-- `for (head; condition; update) body`. -/
  | forLoop (span : Span) (head : LoopHead) (condition update : Option Expression)
      (body : Statement)
  /-- `for (head in value) body`. -/
  | forIn (span : Span) (head : LoopHead) (value : Expression) (body : Statement)
  /-- `for (head of value) body`. -/
  | forOf (span : Span) (isAwait : Bool) (head : LoopHead) (value : Expression) (body : Statement)
  /-- `try body` with its clauses. -/
  | attempt (span : Span) (body : Block) (clauses : List Clause)
  /-- `throw value`. -/
  | throw (span : Span) (value : Expression)
  /-- An import. -/
  | imported (value : Import)
  /-- `break` with a label. -/
  | leave (span : Span) (label : Option String)
  /-- `continue` with a label. -/
  | next (span : Span) (label : Option String)
  /-- `return` with a value. -/
  | result (span : Span) (value : Option Expression)
  /-- `debugger`. -/
  | debugger (span : Span)
  /-- A lone semicolon. -/
  | empty (span : Span)
  /-- A place where a statement was expected. -/
  | missing (span : Span)

/-- One declared name. -/
inductive Declarator where
  /-- The name and its first value. -/
  | bind (span : Span) (name : Binding) (value : Option Expression)

/-- What stands before the first `;`, the `in` or the `of` of a `for` loop. -/
inductive LoopHead where
  /-- Nothing. -/
  | nothing
  /-- A declaration. -/
  | variable (span : Span) (kind : VariableKind) (declarators : List Declarator)
  /-- An expression. -/
  | expression (value : Expression)

/-- What follows the block of a `try`. -/
inductive Clause where
  /-- `catch (parameter) body`. -/
  | handler (span : Span) (parameter : Option String) (body : Block)
  /-- `finally body`. -/
  | finalizer (span : Span) (body : Block)

/-- The name on an object line or a delete line. -/
inductive ObjectKey where
  /-- A plain word. -/
  | word (span : Span) (text : String)
  /-- Text between back-ticks. -/
  | quoted (span : Span) (parts : List TextPart)

/-- What an object line says about its object, besides name and value. -/
inductive Tag where
  /-- `<name>` or `<name = value>`. -/
  | tag (span : Span) (name : String) (value : Option Expression)

/-- What an object inherits from. -/
inductive Prototype where
  /-- Nothing in particular. -/
  | nothing
  /-- `: value`. -/
  | inherits (span : Span) (value : Expression)

/-- A line of a story. -/
inductive Line where
  /-- `key : proto <tag> = value`; `body` is the line without its indentation. -/
  | object (span : Span) (indent : Indent) (body : Span) (key : ObjectKey) (proto : Prototype)
      (tags : List Tag) (value : Option Expression)
  /-- `delete key`; `body` is the line without its indentation. -/
  | delete (span : Span) (indent : Indent) (body : Span) (key : ObjectKey)
  /-- A statement after `*`. -/
  | code (span : Span) (indent : Indent) (statement : Statement)
  /-- Text. -/
  | text (span : Span) (indent : Indent) (parts : List TextPart)
  /-- `//` and the comment after it. -/
  | comment (span : Span) (indent : Indent) (text : String)

end

/-- A whole story. -/
structure Module where
  /-- From the start of the text to its end. -/
  span : Span
  /-- The path that the text was read from. -/
  path : String
  /-- The lines. -/
  lines : List Line
  /-- Every import in the story, in the order of the text. -/
  imports : List Import

/-! ### Where a node stands -/

/-- The span of an expression. -/
def Expression.span : Expression → Span
  | .number s _ | .string s _ _ | .boolean s _ | .keyword s _ | .array s _ _ | .object s _ _
  | .name s _ _ | .binary s _ _ _ | .member s _ _ _ | .index s _ _ _ | .call s _ _ _ _
  | .update s _ _ _ | .unary s _ _ | .operation s _ _ | .conditional s _ _ _ | .paren s _
  | .new s _ _ _ | .yield s _ _ | .function s _ _ _ _ _ _ | .arrowBlock s _ _ _ _
  | .arrowValue s _ _ _ _ | .spread s _ | .missing s => s

/-- The span of a block. -/
def Block.span : Block → Span
  | .code s _ _ _ | .template s _ _ => s

/-- The span of a statement. -/
def Statement.span : Statement → Span
  | .block b => b.span
  | .expression e => e.span
  | .imported i => i.span
  | .variable s _ _ | .function s _ _ _ _ _ _ | .ifElse s _ _ _ | .switch s _ _ | .label s _
  | .whileLoop s _ _ | .doLoop s _ _ | .forLoop s _ _ _ _ | .forIn s _ _ _ | .forOf s _ _ _ _
  | .attempt s _ _ | .throw s _ | .leave s _ | .next s _ | .result s _ | .debugger s | .empty s
  | .missing s => s

/-- The span of a line. -/
def Line.span : Line → Span
  | .object s _ _ _ _ _ _ | .delete s _ _ _ | .code s _ _ | .text s _ _ | .comment s _ _ => s

/-- The indentation of a line. -/
def Line.indent : Line → Indent
  | .object _ i _ _ _ _ _ | .delete _ i _ _ | .code _ i _ | .text _ i _ | .comment _ i _ => i

/-- The name that a declarator declares. -/
def Declarator.name : Declarator → Binding
  | .bind _ name _ => name

/-- Whether a list of declarators is of script variables: it is not empty and every name has `@`. -/
def Declarator.areRaw (declarators : List Declarator) : Bool :=
  !declarators.isEmpty && declarators.all fun d => d.name.isRaw

end Story
