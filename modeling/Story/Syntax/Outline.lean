import Story.Syntax.Tree

/-!
# Outlines: one shape for every node

A syntax tree has many types of nodes. An `Outline` is the same tree with one type of node: a role
(what the node is to its parent), a kind, a span, attributes and children in the order of the text.
Whatever is said about all nodes of a tree, such as which placeholders it holds, is said about its
outline.

* `Module.outline` is the outline of a whole story, `Expression.outline`, `Statement.outline` and
  `Line.outline` those of its parts;
* `Outline.lines` writes an outline down, one line for each node, parents before children.
-/

namespace Story

/-- The kinds of nodes: first those of the lines of a story, then literals, names, declarations,
statements and expressions. -/
inductive NodeKind where
  | module | outerStatement | textLineStatement | commentLine | textChunk | stringIncludeStatement
  | objectLineStatement | prototypeExpression | deleteLineExpression | tag | scope | indent
  | numberLiteral | stringLiteral | booleanLiteral | keywordLiteral | arrayLiteral | objectLiteral
  | identifier | rawIdentifier | contextIdentifier | identifierScope
  | variableDeclaration | variableDeclarator | functionDeclaration | propertyDeclaration | parameter
  | blockStatement | expressionStatement | ifStatement | switchStatement | caseStatement
  | whileStatement | doWhileStatement | forStatement | forInStatement | forOfStatement
  | tryStatement | catchClause | finallyClause | throwStatement | importStatement
  | breakStatement | continueStatement | returnStatement | debuggerStatement | emptyStatement
  | binaryExpression | memberExpression | indexerExpression | callExpression | updateExpression
  | unaryExpression | conditionalExpression | parenExpression | newExpression | deleteExpression
  | typeofExpression | awaitExpression | yieldExpression | functionExpression | spreadExpression
  | missing
deriving DecidableEq

namespace NodeKind

/-- All kinds, in order. -/
def all : List NodeKind :=
  [module, outerStatement, textLineStatement, commentLine, textChunk, stringIncludeStatement,
   objectLineStatement, prototypeExpression, deleteLineExpression, tag, scope, indent,
   numberLiteral, stringLiteral, booleanLiteral, keywordLiteral, arrayLiteral, objectLiteral,
   identifier, rawIdentifier, contextIdentifier, identifierScope,
   variableDeclaration, variableDeclarator, functionDeclaration, propertyDeclaration, parameter,
   blockStatement, expressionStatement, ifStatement, switchStatement, caseStatement,
   whileStatement, doWhileStatement, forStatement, forInStatement, forOfStatement,
   tryStatement, catchClause, finallyClause, throwStatement, importStatement,
   breakStatement, continueStatement, returnStatement, debuggerStatement, emptyStatement,
   binaryExpression, memberExpression, indexerExpression, callExpression, updateExpression,
   unaryExpression, conditionalExpression, parenExpression, newExpression, deleteExpression,
   typeofExpression, awaitExpression, yieldExpression, functionExpression, spreadExpression,
   missing]

/-- The kind's name. -/
def name : NodeKind → String
  | module => "Module"
  | outerStatement => "OuterStatement"
  | textLineStatement => "TextLineStatement"
  | commentLine => "CommentLine"
  | textChunk => "TextChunk"
  | stringIncludeStatement => "StringIncludeStatement"
  | objectLineStatement => "ObjectLineStatement"
  | prototypeExpression => "PrototypeExpression"
  | deleteLineExpression => "DeleteLineExpression"
  | tag => "Tag"
  | scope => "Scope"
  | indent => "Indent"
  | numberLiteral => "NumberLiteral"
  | stringLiteral => "StringLiteral"
  | booleanLiteral => "BooleanLiteral"
  | keywordLiteral => "KeywordLiteral"
  | arrayLiteral => "ArrayLiteral"
  | objectLiteral => "ObjectLiteral"
  | identifier => "Identifier"
  | rawIdentifier => "RawIdentifier"
  | contextIdentifier => "ContextIdentifier"
  | identifierScope => "IdentifierScope"
  | variableDeclaration => "VariableDeclaration"
  | variableDeclarator => "VariableDeclarator"
  | functionDeclaration => "FunctionDeclaration"
  | propertyDeclaration => "PropertyDeclaration"
  | parameter => "Parameter"
  | blockStatement => "BlockStatement"
  | expressionStatement => "ExpressionStatement"
  | ifStatement => "IfStatement"
  | switchStatement => "SwitchStatement"
  | caseStatement => "CaseStatement"
  | whileStatement => "WhileStatement"
  | doWhileStatement => "DoWhileStatement"
  | forStatement => "ForStatement"
  | forInStatement => "ForInStatement"
  | forOfStatement => "ForOfStatement"
  | tryStatement => "TryStatement"
  | catchClause => "CatchClause"
  | finallyClause => "FinallyClause"
  | throwStatement => "ThrowStatement"
  | importStatement => "ImportStatement"
  | breakStatement => "BreakStatement"
  | continueStatement => "ContinueStatement"
  | returnStatement => "ReturnStatement"
  | debuggerStatement => "DebuggerStatement"
  | emptyStatement => "EmptyStatement"
  | binaryExpression => "BinaryExpression"
  | memberExpression => "MemberExpression"
  | indexerExpression => "IndexerExpression"
  | callExpression => "CallExpression"
  | updateExpression => "UpdateExpression"
  | unaryExpression => "UnaryExpression"
  | conditionalExpression => "ConditionalExpression"
  | parenExpression => "ParenExpression"
  | newExpression => "NewExpression"
  | deleteExpression => "DeleteExpression"
  | typeofExpression => "TypeofExpression"
  | awaitExpression => "AwaitExpression"
  | yieldExpression => "YieldExpression"
  | functionExpression => "FunctionExpression"
  | spreadExpression => "SpreadExpression"
  | missing => "Missing"

/-- What the kind is called in messages. -/
def description : NodeKind → String
  | module => "module"
  | outerStatement => "line"
  | textLineStatement => "text line"
  | commentLine => "comment line"
  | textChunk => "text"
  | stringIncludeStatement => "include"
  | objectLineStatement => "object line"
  | prototypeExpression => "prototype"
  | deleteLineExpression => "delete line"
  | tag => "tag"
  | scope => "scope"
  | indent => "indentation"
  | numberLiteral => "number"
  | stringLiteral => "string"
  | booleanLiteral => "boolean"
  | keywordLiteral => "keyword"
  | arrayLiteral => "array"
  | objectLiteral => "object"
  | identifier | rawIdentifier | contextIdentifier => "identifier"
  | identifierScope => "identifier scope"
  | variableDeclaration | variableDeclarator => "variable declaration"
  | functionDeclaration => "function declaration"
  | propertyDeclaration => "property"
  | parameter => "parameter"
  | blockStatement => "block"
  | expressionStatement => "expression statement"
  | ifStatement => "if statement"
  | switchStatement => "switch statement"
  | caseStatement => "case clause"
  | whileStatement => "while statement"
  | doWhileStatement => "do statement"
  | forStatement | forInStatement | forOfStatement => "for statement"
  | tryStatement => "try statement"
  | catchClause => "catch clause"
  | finallyClause => "finally clause"
  | throwStatement => "throw statement"
  | importStatement => "import statement"
  | breakStatement => "break statement"
  | continueStatement => "continue statement"
  | returnStatement => "return statement"
  | debuggerStatement => "debugger statement"
  | emptyStatement => "empty statement"
  | binaryExpression => "binary expression"
  | memberExpression => "member access"
  | indexerExpression => "element access"
  | callExpression => "call expression"
  | updateExpression => "update expression"
  | unaryExpression => "unary expression"
  | conditionalExpression => "conditional expression"
  | parenExpression => "parenthesized expression"
  | newExpression => "new expression"
  | deleteExpression => "delete expression"
  | typeofExpression => "typeof expression"
  | awaitExpression => "await expression"
  | yieldExpression => "yield expression"
  | functionExpression => "function expression"
  | spreadExpression => "spread element"
  | missing => "missing node"

/-- Whether the kind belongs to the lines of a story rather than to embedded code. -/
def isTemplate : NodeKind → Bool
  | module | outerStatement | textLineStatement | commentLine | textChunk | stringIncludeStatement
  | objectLineStatement | prototypeExpression | deleteLineExpression | tag | scope | indent => true
  | _ => false

/-- Whether the kind is a statement of embedded code, or a clause of one. -/
def isStatement : NodeKind → Bool
  | blockStatement | expressionStatement | ifStatement | switchStatement | caseStatement
  | whileStatement | doWhileStatement | forStatement | forInStatement | forOfStatement
  | tryStatement | catchClause | finallyClause | throwStatement | importStatement
  | breakStatement | continueStatement | returnStatement | debuggerStatement
  | emptyStatement => true
  | _ => false

end NodeKind

/-- The kind of a name. -/
def NameKind.nodeKind : NameKind → NodeKind
  | plain => .identifier
  | raw => .rawIdentifier
  | context => .contextIdentifier

/-- The kind of an operator word with its operand. -/
def WordOperator.nodeKind : WordOperator → NodeKind
  | delete => .deleteExpression
  | typeof => .typeofExpression
  | await => .awaitExpression

/-- A node with what it is to its parent, its kind, its span, its attributes and its children. -/
inductive Outline where
  /-- The node. -/
  | node (role : String) (kind : NodeKind) (span : Span) (attributes : List (String × String))
      (children : List Outline)

namespace Outline

/-- What the node is to its parent. -/
def role : Outline → String
  | node r _ _ _ _ => r

/-- The node's kind. -/
def kind : Outline → NodeKind
  | node _ k _ _ _ => k

/-- The node's span. -/
def span : Outline → Span
  | node _ _ s _ _ => s

/-- The node's attributes. -/
def attributes : Outline → List (String × String)
  | node _ _ _ a _ => a

/-- The node's children. -/
def children : Outline → List Outline
  | node _ _ _ _ c => c

/-- The node's own line: depth, role, kind and span, then `key=value` for each attribute. -/
def headline (depth : Nat) (role : String) (kind : NodeKind) (span : Span)
    (attributes : List (String × String)) : String :=
  s!"{depth} {role} {kind.name} {span.exact}" ++
    String.join (attributes.map fun (key, value) => " " ++ key ++ "=" ++ value)

mutual

/-- One line for the node and each node below it, parents before children. -/
def lines (depth : Nat) : Outline → List String
  | node role kind span attributes children =>
    headline depth role kind span attributes :: linesOfAll (depth + 1) children

/-- The lines of several nodes. -/
def linesOfAll (depth : Nat) : List Outline → List String
  | [] => []
  | o :: os => lines depth o ++ linesOfAll depth os

end

end Outline

/-- `true` or `false`. -/
def Outline.flag (b : Bool) : String := if b then "true" else "false"

/-- A name that may be absent. -/
def Outline.optional (name : Option String) : String := name.getD "none"

open Outline (node flag optional)

/-- The outline of a bracketed list. -/
def Brackets.outline (role : String) (b : Brackets) (items : List Outline) : Outline :=
  node role .scope b.span
    [("open", b.opening.exact), ("close", optional (b.closing.map Span.exact))] items

/-- The outline of a declared name. -/
def Binding.outline (role : String) (b : Binding) : Outline :=
  node role (if b.isRaw then .rawIdentifier else .contextIdentifier) b.span [("name", b.name)] []

/-- The outline of an import. -/
def Import.outline (role : String) (i : Import) : Outline :=
  node role .importStatement i.span
    [("in", flag i.isIn), ("name", i.name), ("alias", optional i.newName), ("binding", i.binding),
     ("path", i.path)] []

/-- The outline of an indentation. -/
def Indent.outline (i : Indent) : Outline :=
  node "indent" .indent i.span [("width", toString i.width), ("level", toString i.level)] []

mutual

/-- The outline of an expression. -/
def Expression.outline (role : String) : Expression → Outline
  | .number span text => node role .numberLiteral span [("text", text)] []
  | .string span quote parts =>
    node role .stringLiteral span [("quote", quote.spelling)] (TextPart.outlines parts)
  | .boolean span value => node role .booleanLiteral span [("value", flag value)] []
  | .keyword span word => node role .keywordLiteral span [("keyword", word.spelling)] []
  | .array span brackets elements =>
    node role .arrayLiteral span [] [brackets.outline "elements" (Expression.outlines elements)]
  | .object span brackets properties =>
    node role .objectLiteral span [] [brackets.outline "properties" (Property.outlines properties)]
  | .name span kind text => node role kind.nodeKind span [("name", text)] []
  | .binary span left operator right =>
    node role .binaryExpression span [("operator", operator.name)]
      [left.outline "left", right.outline "right"]
  | .member span object property isOptional =>
    node role .memberExpression span [("property", property), ("optional", flag isOptional)]
      [object.outline "object"]
  | .index span object index isOptional =>
    node role .indexerExpression span [("optional", flag isOptional)]
      [object.outline "object", index.outline "index"]
  | .call span callee brackets arguments isOptional =>
    node role .callExpression span [("optional", flag isOptional)]
      [callee.outline "callee", brackets.outline "arguments" (Expression.outlines arguments)]
  | .update span operator isBefore operand =>
    node role .updateExpression span [("operator", operator.name), ("prefix", flag isBefore)]
      [operand.outline "operand"]
  | .unary span operator operand =>
    node role .unaryExpression span [("operator", operator.name)] [operand.outline "operand"]
  | .operation span operator operand =>
    node role operator.nodeKind span [] [operand.outline "expression"]
  | .conditional span condition whenTrue whenFalse =>
    node role .conditionalExpression span []
      [condition.outline "condition", whenTrue.outline "whenTrue", whenFalse.outline "whenFalse"]
  | .paren span inner => node role .parenExpression span [] [inner.outline "expression"]
  | .new span callee none _ => node role .newExpression span [] [callee.outline "callee"]
  | .new span callee (some brackets) arguments =>
    node role .newExpression span []
      [callee.outline "callee", brackets.outline "arguments" (Expression.outlines arguments)]
  | .yield span delegate value =>
    node role .yieldExpression span [("delegate", flag delegate)]
      (Expression.outlineOption "expression" value)
  | .function span name isAsync isGenerator brackets parameters body =>
    node role .functionExpression span
      [("name", optional name), ("async", flag isAsync), ("arrow", flag false),
       ("generator", flag isGenerator)]
      [brackets.outline "parameters" (Parameter.outlines parameters), body.outline "body"]
  | .arrowBlock span isAsync brackets parameters body =>
    node role .functionExpression span
      [("name", optional none), ("async", flag isAsync), ("arrow", flag true),
       ("generator", flag false)]
      [brackets.outline "parameters" (Parameter.outlines parameters), body.outline "body"]
  | .arrowValue span isAsync brackets parameters body =>
    node role .functionExpression span
      [("name", optional none), ("async", flag isAsync), ("arrow", flag true),
       ("generator", flag false)]
      [brackets.outline "parameters" (Parameter.outlines parameters), body.outline "body"]
  | .spread span inner => node role .spreadExpression span [] [inner.outline "expression"]
  | .missing span => node role .missing span [] []

/-- The outline of an expression that may be absent: at most one node. -/
def Expression.outlineOption (role : String) : Option Expression → List Outline
  | none => []
  | some e => [e.outline role]

/-- The outlines of the items of a list. -/
def Expression.outlines : List Expression → List Outline
  | [] => []
  | e :: es => e.outline "item" :: Expression.outlines es

/-- The outline of a piece of text. -/
def TextPart.outline : TextPart → Outline
  | .chunk span text => node "part" .textChunk span [("text", text)] []
  | .splice span value => node "part" .stringIncludeStatement span [] [value.outline "expression"]

/-- The outlines of the pieces of a text. -/
def TextPart.outlines : List TextPart → List Outline
  | [] => []
  | p :: ps => p.outline :: TextPart.outlines ps

/-- The outline of a member of an object literal. -/
def Property.outline : Property → Outline
  | .named span name value =>
    node "item" .propertyDeclaration span [("key", "name:" ++ name)] [value.outline "value"]
  | .numbered span number value =>
    node "item" .propertyDeclaration span [("key", "number:" ++ number)] [value.outline "value"]
  | .quoted span key quote parts value =>
    node "item" .propertyDeclaration span [("key", "string")]
      [node "key" .stringLiteral key [("quote", quote.spelling)] (TextPart.outlines parts),
       value.outline "value"]
  | .computed span key value =>
    node "item" .propertyDeclaration span [("key", "computed")]
      [key.outline "key", value.outline "value"]
  | .spread span value =>
    node "item" .propertyDeclaration span [("key", "spread")] [value.outline "value"]

/-- The outlines of the members of an object literal. -/
def Property.outlines : List Property → List Outline
  | [] => []
  | p :: ps => p.outline :: Property.outlines ps

/-- The outline of a parameter. -/
def Parameter.outline : Parameter → Outline
  | .named span name isRest default =>
    node "item" .parameter span [("name", name), ("rest", flag isRest)]
      (Expression.outlineOption "default" default)

/-- The outlines of the parameters of a function. -/
def Parameter.outlines : List Parameter → List Outline
  | [] => []
  | p :: ps => p.outline :: Parameter.outlines ps

/-- The outline of a block. -/
def Block.outline (role : String) : Block → Outline
  | .code span brackets statements isScoped =>
    node role .blockStatement span
      [("body", "code"), ("scoped", flag isScoped), ("closed", flag brackets.closing.isSome)]
      [brackets.outline "scope" (Statement.outlines statements)]
  | .template span brackets lines =>
    node role .blockStatement span
      [("body", "template"), ("scoped", flag true), ("closed", flag brackets.closing.isSome)]
      [brackets.outline "scope" (Line.outlines "item" lines)]

/-- The outline of a statement. -/
def Statement.outline (role : String) : Statement → Outline
  | .block body => body.outline role
  | .expression value =>
    node role .expressionStatement value.span [] [value.outline "expression"]
  | .variable span kind declarators =>
    node role .variableDeclaration span
      [("kind", kind.spelling), ("raw", flag (Declarator.areRaw declarators))]
      (Declarator.outlines declarators)
  | .function span name isAsync isGenerator brackets parameters body =>
    node role .functionDeclaration span
      [("async", flag isAsync), ("generator", flag isGenerator)]
      [name.outline "name", brackets.outline "parameters" (Parameter.outlines parameters),
       body.outline "body"]
  | .ifElse span condition whenTrue whenFalse =>
    node role .ifStatement span []
      (condition.outline "condition" :: whenTrue.outline "then" ::
        Statement.outlineOption "else" whenFalse)
  | .switch span value body =>
    node role .switchStatement span [] [value.outline "discriminant", body.outline "body"]
  | .label span test => node role .caseStatement span [] (Expression.outlineOption "test" test)
  | .whileLoop span condition body =>
    node role .whileStatement span [] [condition.outline "condition", body.outline "body"]
  | .doLoop span body condition =>
    node role .doWhileStatement span [] [body.outline "body", condition.outline "condition"]
  | .forLoop span head condition update body =>
    node role .forStatement span []
      (head.outline "initializer" ++ Expression.outlineOption "condition" condition ++
        Expression.outlineOption "update" update ++ [body.outline "body"])
  | .forIn span head value body =>
    node role .forInStatement span []
      (head.outline "binding" ++ [value.outline "expression", body.outline "body"])
  | .forOf span isAwait head value body =>
    node role .forOfStatement span [("await", flag isAwait)]
      (head.outline "binding" ++ [value.outline "expression", body.outline "body"])
  | .attempt span body clauses =>
    node role .tryStatement span [] (body.outline "block" :: Clause.outlines clauses)
  | .throw span value => node role .throwStatement span [] [value.outline "expression"]
  | .imported value => value.outline role
  | .leave span label => node role .breakStatement span [("label", optional label)] []
  | .next span label => node role .continueStatement span [("label", optional label)] []
  | .result span value =>
    node role .returnStatement span [] (Expression.outlineOption "expression" value)
  | .debugger span => node role .debuggerStatement span [] []
  | .empty span => node role .emptyStatement span [] []
  | .missing span => node role .missing span [] []

/-- The outline of a statement that may be absent: at most one node. -/
def Statement.outlineOption (role : String) : Option Statement → List Outline
  | none => []
  | some s => [s.outline role]

/-- The outlines of the statements of a block. -/
def Statement.outlines : List Statement → List Outline
  | [] => []
  | s :: ss => s.outline "item" :: Statement.outlines ss

/-- The outline of a declared name with its value. -/
def Declarator.outline : Declarator → Outline
  | .bind span name value =>
    node "declarator" .variableDeclarator span []
      (name.outline "name" :: Expression.outlineOption "initializer" value)

/-- The outlines of declared names. -/
def Declarator.outlines : List Declarator → List Outline
  | [] => []
  | d :: ds => d.outline :: Declarator.outlines ds

/-- The outline of the head of a loop: at most one node. -/
def LoopHead.outline (role : String) : LoopHead → List Outline
  | .nothing => []
  | .variable span kind declarators =>
    [node role .variableDeclaration span
      [("kind", kind.spelling), ("raw", flag (Declarator.areRaw declarators))]
      (Declarator.outlines declarators)]
  | .expression value => [value.outline role]

/-- The outline of a clause of a `try`. -/
def Clause.outline : Clause → Outline
  | .handler span parameter body =>
    node "catch" .catchClause span [("parameter", optional parameter)] [body.outline "block"]
  | .finalizer span body => node "finally" .finallyClause span [] [body.outline "block"]

/-- The outlines of the clauses of a `try`. -/
def Clause.outlines : List Clause → List Outline
  | [] => []
  | c :: cs => c.outline :: Clause.outlines cs

/-- The outline of the name of an object. -/
def ObjectKey.outline : ObjectKey → Outline
  | .word span text => node "identifier" .contextIdentifier span [("name", text)] []
  | .quoted span parts => node "identifier" .identifierScope span [] (TextPart.outlines parts)

/-- The outline of a tag. -/
def Tag.outline : Tag → Outline
  | .tag span name value =>
    node "tag" .tag span [("name", name)] (Expression.outlineOption "value" value)

/-- The outlines of the tags of an object line. -/
def Tag.outlines : List Tag → List Outline
  | [] => []
  | t :: ts => t.outline :: Tag.outlines ts

/-- The outline of what an object inherits from: at most one node. -/
def Prototype.outline : Prototype → List Outline
  | .nothing => []
  | .inherits span value =>
    [node "prototype" .prototypeExpression span [] [value.outline "expression"]]

/-- The outline of a line. -/
def Line.outline (role : String) : Line → Outline
  | .object span indent body key proto tags value =>
    node role .outerStatement span []
      [indent.outline, node "statement" .objectLineStatement body []
        (key.outline :: (proto.outline ++ Tag.outlines tags ++
          Expression.outlineOption "initializer" value))]
  | .delete span indent body key =>
    node role .outerStatement span []
      [indent.outline, node "statement" .expressionStatement body []
        [node "expression" .deleteLineExpression body [] [key.outline]]]
  | .code span indent statement =>
    node role .outerStatement span [] [indent.outline, statement.outline "statement"]
  | .text span indent parts =>
    node role .textLineStatement span [] (indent.outline :: TextPart.outlines parts)
  | .comment span indent text =>
    node role .commentLine span [("text", text)] [indent.outline]

/-- The outlines of several lines. -/
def Line.outlines (role : String) : List Line → List Outline
  | [] => []
  | l :: ls => l.outline role :: Line.outlines role ls

end

/-- The outline of a whole story: its lines, then its imports once more. -/
def Module.outline (m : Module) : Outline :=
  node "module" .module m.span [("path", m.path)]
    (Line.outlines "line" m.lines ++ m.imports.map (Import.outline "import"))

end Story
