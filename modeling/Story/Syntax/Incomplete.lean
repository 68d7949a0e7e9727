import Story.Diagnostic
import Story.Syntax.Tree

/-!
# Incomplete stories

A story that could not be read completely has `missing` nodes, and the script generated from it has
holes or `undefined` in their place. `Module.incomplete` reports each of them, in the order of the
text.

The search goes from each node to what is below it. Of the members of an object literal it enters values and
keys in brackets, but no quoted keys.
-/

namespace Story

mutual

/-- The spans of the placeholders in an expression. -/
def Expression.placeholders : Expression → List Span
  | .missing span => [span]
  | .number .. | .boolean .. | .keyword .. | .name .. => []
  | .string _ _ parts => TextPart.placeholdersOfAll parts
  | .array _ _ elements => Expression.placeholdersOfAll elements
  | .object _ _ properties => Property.placeholdersOfAll properties
  | .binary _ left _ right => left.placeholders ++ right.placeholders
  | .member _ object _ _ => object.placeholders
  | .index _ object index _ => object.placeholders ++ index.placeholders
  | .call _ callee _ arguments _ => callee.placeholders ++ Expression.placeholdersOfAll arguments
  | .update _ _ _ operand | .unary _ _ operand | .operation _ _ operand => operand.placeholders
  | .conditional _ condition whenTrue whenFalse =>
    condition.placeholders ++ whenTrue.placeholders ++ whenFalse.placeholders
  | .paren _ inner | .spread _ inner => inner.placeholders
  | .new _ callee _ arguments => callee.placeholders ++ Expression.placeholdersOfAll arguments
  | .yield _ _ value => Expression.placeholdersOption value
  | .function _ _ _ _ _ parameters body | .arrowBlock _ _ _ parameters body =>
    Parameter.placeholdersOfAll parameters ++ body.placeholders
  | .arrowValue _ _ _ parameters body => Parameter.placeholdersOfAll parameters ++ body.placeholders

/-- The spans of the placeholders in an expression that may be absent. -/
def Expression.placeholdersOption : Option Expression → List Span
  | none => []
  | some e => e.placeholders

/-- The spans of the placeholders in the items of a list. -/
def Expression.placeholdersOfAll : List Expression → List Span
  | [] => []
  | e :: es => e.placeholders ++ Expression.placeholdersOfAll es

/-- The spans of the placeholders in a piece of text. -/
def TextPart.placeholders : TextPart → List Span
  | .chunk .. => []
  | .splice _ value => value.placeholders

/-- The spans of the placeholders in the pieces of a text. -/
def TextPart.placeholdersOfAll : List TextPart → List Span
  | [] => []
  | p :: ps => p.placeholders ++ TextPart.placeholdersOfAll ps

/-- The spans of the placeholders in a member of an object literal, outside of a quoted key. -/
def Property.placeholders : Property → List Span
  | .named _ _ value | .numbered _ _ value | .quoted _ _ _ _ value | .spread _ value => value.placeholders
  | .computed _ key value => key.placeholders ++ value.placeholders

/-- The spans of the placeholders in the members of an object literal. -/
def Property.placeholdersOfAll : List Property → List Span
  | [] => []
  | p :: ps => p.placeholders ++ Property.placeholdersOfAll ps

/-- The spans of the placeholders in a parameter. -/
def Parameter.placeholders : Parameter → List Span
  | .named _ _ _ default => Expression.placeholdersOption default

/-- The spans of the placeholders in the parameters of a function. -/
def Parameter.placeholdersOfAll : List Parameter → List Span
  | [] => []
  | p :: ps => p.placeholders ++ Parameter.placeholdersOfAll ps

/-- The spans of the placeholders in a block. -/
def Block.placeholders : Block → List Span
  | .code _ _ statements _ => Statement.placeholdersOfAll statements
  | .template _ _ lines => Line.placeholdersOfAll lines

/-- The spans of the placeholders in a statement. -/
def Statement.placeholders : Statement → List Span
  | .missing span => [span]
  | .imported .. | .leave .. | .next .. | .debugger .. | .empty .. => []
  | .block body => body.placeholders
  | .expression value | .throw _ value => value.placeholders
  | .variable _ _ declarators => Declarator.placeholdersOfAll declarators
  | .function _ _ _ _ _ parameters body => Parameter.placeholdersOfAll parameters ++ body.placeholders
  | .ifElse _ condition whenTrue whenFalse =>
    condition.placeholders ++ whenTrue.placeholders ++ Statement.placeholdersOption whenFalse
  | .switch _ value body => value.placeholders ++ body.placeholders
  | .label _ value | .result _ value => Expression.placeholdersOption value
  | .whileLoop _ condition body => condition.placeholders ++ body.placeholders
  | .doLoop _ body condition => body.placeholders ++ condition.placeholders
  | .forLoop _ head condition update body =>
    head.placeholders ++ Expression.placeholdersOption condition ++ Expression.placeholdersOption update ++
      body.placeholders
  | .forIn _ head value body | .forOf _ _ head value body =>
    head.placeholders ++ value.placeholders ++ body.placeholders
  | .attempt _ body clauses => body.placeholders ++ Clause.placeholdersOfAll clauses

/-- The spans of the placeholders in a statement that may be absent. -/
def Statement.placeholdersOption : Option Statement → List Span
  | none => []
  | some s => s.placeholders

/-- The spans of the placeholders in the statements of a block. -/
def Statement.placeholdersOfAll : List Statement → List Span
  | [] => []
  | s :: ss => s.placeholders ++ Statement.placeholdersOfAll ss

/-- The spans of the placeholders in a declared name with its value. -/
def Declarator.placeholders : Declarator → List Span
  | .bind _ _ value => Expression.placeholdersOption value

/-- The spans of the placeholders in a declaration. -/
def Declarator.placeholdersOfAll : List Declarator → List Span
  | [] => []
  | d :: ds => d.placeholders ++ Declarator.placeholdersOfAll ds

/-- The spans of the placeholders in the head of a loop. -/
def LoopHead.placeholders : LoopHead → List Span
  | .nothing => []
  | .variable _ _ declarators => Declarator.placeholdersOfAll declarators
  | .expression value => value.placeholders

/-- The spans of the placeholders in a clause of a `try`. -/
def Clause.placeholders : Clause → List Span
  | .handler _ _ body | .finalizer _ body => body.placeholders

/-- The spans of the placeholders in the clauses of a `try`. -/
def Clause.placeholdersOfAll : List Clause → List Span
  | [] => []
  | c :: cs => c.placeholders ++ Clause.placeholdersOfAll cs

/-- The spans of the placeholders in the name of an object. -/
def ObjectKey.placeholders : ObjectKey → List Span
  | .word .. => []
  | .quoted _ parts => TextPart.placeholdersOfAll parts

/-- The spans of the placeholders in a tag. -/
def Tag.placeholders : Tag → List Span
  | .tag _ _ value => Expression.placeholdersOption value

/-- The spans of the placeholders in the tags of an object line. -/
def Tag.placeholdersOfAll : List Tag → List Span
  | [] => []
  | t :: ts => t.placeholders ++ Tag.placeholdersOfAll ts

/-- The spans of the placeholders in what an object inherits from. -/
def Prototype.placeholders : Prototype → List Span
  | .nothing => []
  | .inherits _ value => value.placeholders

/-- The spans of the placeholders in a line. -/
def Line.placeholders : Line → List Span
  | .object _ _ _ key proto tags value =>
    key.placeholders ++ proto.placeholders ++ Tag.placeholdersOfAll tags ++ Expression.placeholdersOption value
  | .delete _ _ _ key => key.placeholders
  | .code _ _ statement => statement.placeholders
  | .text _ _ parts => TextPart.placeholdersOfAll parts
  | .comment .. => []

/-- The spans of the placeholders in several lines. -/
def Line.placeholdersOfAll : List Line → List Span
  | [] => []
  | l :: ls => l.placeholders ++ Line.placeholdersOfAll ls

end

/-- One diagnostic for each placeholder of a story. -/
def Module.incomplete (m : Module) : List Diagnostic :=
  (Line.placeholdersOfAll m.lines).map fun span => Diagnostic.of .incomplete span ["syntax"]

end Story
