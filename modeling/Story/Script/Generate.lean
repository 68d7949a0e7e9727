import Story.Grammar.Module
import Story.Script.IndentScope
import Story.Script.Literal
import Story.Script.Piece
import Story.Syntax.Incomplete

/-!
# From a story to a script

The generated script builds one `context` object and exports it. An object line assigns a property
of the object that it is indented under, a text line appends to that object's `__text`, and code
runs where it stands. A name without `@` is a property of the context.

* `Expression.script`, `Statement.script` and `Line.script` give the pieces of a part of a story.
  They run in `Emit`, which carries the indentation scope: an object line changes it for the lines
  after it, also when it stands in a block of lines inside an expression;
* `Module.script` is the whole script, and `generate` puts it together with its mappings and with
  what is incomplete.

Binary operators are written in the order of the text, so the precedence of the script's language
decides what they mean.
-/

namespace Story

/-- What the generated script depends on, besides the story. -/
structure ScriptOptions where
  /-- What the script requires as its environment. -/
  environment : String
  /-- Columns of the story's text for each level of indentation. -/
  indentSize : Nat
  /-- How the script is laid out. -/
  layout : Layout
deriving DecidableEq

namespace ScriptOptions

/-- The environment when none is configured. -/
def defaultEnvironment : String := "storytailor/environment"

/-- The default environment, two columns a level, two blanks a unit and line feeds. -/
def standard : ScriptOptions := ⟨defaultEnvironment, 2, ⟨"  ", "\n"⟩⟩

end ScriptOptions

/-- Writing pieces while following the indentation scope. -/
abbrev Emit := StateM IndentScope

/-! ### Small scripts -/

namespace Script

/-- Just words. -/
def words (text : String) : Script := [.text text]

/-- A script that comes from what starts at `span`. -/
def marked (span : Span) (script : Script) : Script := .mark span.start :: script

/-- A line of its own. -/
def line (level : Nat) (script : Script) : Script := .margin level :: (script ++ [.lineBreak])

/-- Scripts with commas between them. -/
def commas (scripts : List Script) : Script := List.intercalate (words ", ") scripts

/-- `before` and `after` around a script. -/
def around (before : String) (script : Script) (after : String) : Script :=
  words before ++ script ++ words after

/-- Lines between braces, where the line that they belong to has the margin `level`. -/
def braced (level : Nat) (lines : Script) : Script :=
  words "\x7b" ++ [.lineBreak] ++ lines ++ [.margin level] ++ words "\x7d"

end Script

open Script (words marked commas around braced)

/-- How a name is written: as a property of the context, or as it stands. -/
def NameKind.written : NameKind → String → String
  | plain, name | raw, name => name
  | context, name => "context[" ++ quoteName name ++ "]"

/-- A declared name. -/
def Binding.script (b : Binding) : Script :=
  marked b.span (words ((if b.isRaw then NameKind.raw else .context).written b.name))

/-- The start of a function, up to its parameters. -/
def functionHead (isAsync isGenerator : Bool) (name : Option String) : String :=
  (if isAsync then "async " else "") ++ "function" ++ (if isGenerator then "*" else "") ++
    (name.map (" " ++ ·)).getD ""

/-- Whether a blank must keep an operator sign and its operand apart: two signs would otherwise run
together into another operator. -/
def UnaryOperator.needsBlank : UnaryOperator → Expression → Bool
  | .void, _ => true
  | .minus, .unary _ .minus _ => true
  | .plus, .unary _ .plus _ => true
  | .minus, .update _ .decrement true _ => true
  | .plus, .update _ .increment true _ => true
  | _, _ => false

/-- Whether an expression is an object literal, which an arrow function has to put in parentheses.
-/
def Expression.isObject : Expression → Bool
  | .object .. => true
  | _ => false

/-- Whether a statement is a block. -/
def Statement.isBlock : Statement → Bool
  | .block _ => true
  | _ => false

/-- `?.` if the access is optional. -/
def optionalMark (isOptional : Bool) : String := if isOptional then "?." else ""

/-- `break` or `continue` with its label. -/
def jump (word : String) (label : Option String) : String :=
  word ++ (label.map (" " ++ ·)).getD "" ++ ";"

/-- A statement on a line of its own, given its script and the lines of the statements in it.
An import stands at the top of the script and a placeholder nowhere; a block without a scope of its
own is just its statements. -/
def Statement.onLine (level : Nat) (own inner : Emit Script) : Statement → Emit Script
  | .imported _ | .missing _ => return []
  | .block (.code _ _ _ false) => inner
  | _ => return Script.line level (← own)

/-! ### Expressions, statements and lines -/

mutual

/-- The script of an expression. `level` is the margin of the line that it stands on. -/
def Expression.script (o : ScriptOptions) (level : Nat) : Expression → Emit Script
  | .number span text => return marked span (words text)
  | .string span _ parts =>
    return marked span (around "`" (← TextPart.scripts o level escapeString parts) "`")
  | .boolean span value => return marked span (words (if value then "true" else "false"))
  | .keyword span word => return marked span (words word.spelling)
  | .array span _ elements =>
    return marked span (around "[" (commas (← Expression.scripts o level elements)) "]")
  | .object span _ properties => do
    let members ← Property.scripts o level properties
    -- An empty object has no blank between its braces.
    if members.isEmpty then return marked span (words "\x7b\x7d")
    return marked span (around "\x7b " (commas members) " \x7d")
  | .name span kind text => return marked span (words (kind.written text))
  | .binary span left operator right => do
    let l ← left.script o level
    let r ← right.script o level
    return marked span (l ++ words (" " ++ operator.spelling ++ " ") ++ r)
  | .member span object property isOptional => do
    let base ← object.script o level
    return marked span
      (base ++ words (optionalMark isOptional ++ "[" ++ quoteName property ++ "]"))
  | .index span object index isOptional => do
    let base ← object.script o level
    let key ← index.script o level
    return marked span (base ++ around (optionalMark isOptional ++ "[") key "]")
  | .call span callee _ arguments isOptional => do
    let base ← callee.script o level
    let args ← Expression.scripts o level arguments
    return marked span (base ++ around (optionalMark isOptional ++ "(") (commas args) ")")
  | .update span operator isBefore operand => do
    let inner ← operand.script o level
    if isBefore then return marked span (words operator.spelling ++ inner)
    return marked span (inner ++ words operator.spelling)
  | .unary span operator operand => do
    let inner ← operand.script o level
    let blank := if operator.needsBlank operand then " " else ""
    return marked span (words (operator.spelling ++ blank) ++ inner)
  | .operation span operator operand => do
    return marked span (words (operator.spelling ++ " ") ++ (← operand.script o level))
  | .conditional span condition whenTrue whenFalse => do
    let c ← condition.script o level
    let t ← whenTrue.script o level
    let f ← whenFalse.script o level
    return marked span (c ++ words " ? " ++ t ++ words " : " ++ f)
  | .paren span inner => return marked span (around "(" (← inner.script o level) ")")
  | .new span callee brackets arguments => do
    let base ← callee.script o level
    let args ← Expression.scripts o level arguments
    let list := if brackets.isSome then around "(" (commas args) ")" else []
    return marked span (words "new " ++ base ++ list)
  | .yield span delegate value => do
    let word := if delegate then "yield*" else "yield"
    match ← Expression.scriptOption o level value with
    | none => return marked span (words word)
    | some inner => return marked span (words (word ++ " ") ++ inner)
  | .function span name isAsync isGenerator _ parameters body => do
    let list ← Parameter.scripts o level parameters
    let block ← body.script o level
    return marked span
      (around (functionHead isAsync isGenerator name ++ "(") (commas list) ") " ++ block)
  | .arrowBlock span isAsync _ parameters body => do
    let list ← Parameter.scripts o level parameters
    let block ← body.script o level
    return marked span
      (around ((if isAsync then "async " else "") ++ "(") (commas list) ") => " ++ block)
  | .arrowValue span isAsync _ parameters body => do
    let list ← Parameter.scripts o level parameters
    let value ← body.script o level
    -- Without parentheses the braces would be those of a block.
    let value := if body.isObject then around "(" value ")" else value
    return marked span
      (around ((if isAsync then "async " else "") ++ "(") (commas list) ") => " ++ value)
  | .spread span inner => return marked span (words "..." ++ (← inner.script o level))
  | .missing span => return marked span (words "undefined")

/-- The script of an expression that may be absent. -/
def Expression.scriptOption (o : ScriptOptions) (level : Nat) :
    Option Expression → Emit (Option Script)
  | none => return none
  | some e => return some (← e.script o level)

/-- The scripts of several expressions. -/
def Expression.scripts (o : ScriptOptions) (level : Nat) :
    List Expression → Emit (List Script)
  | [] => return []
  | e :: es => do
    let first ← e.script o level
    let rest ← Expression.scripts o level es
    return first :: rest

/-- The inside of a template literal; `escape` prepares the words of it. -/
def TextPart.scripts (o : ScriptOptions) (level : Nat) (escape : String → String) :
    List TextPart → Emit Script
  | [] => return []
  | p :: ps => do
    let first ← p.script o level escape
    let rest ← TextPart.scripts o level escape ps
    return first ++ rest

/-- A piece of a template literal: words, or the value of an expression made into text. -/
def TextPart.script (o : ScriptOptions) (level : Nat) (escape : String → String) :
    TextPart → Emit Script
  | .chunk span text => return marked span (words (escape text))
  | .splice span value => do
    let inner ← value.script o level
    return marked span (around "$\x7bserializer.serialize(" inner ", '\\r\\n')\x7d")

/-- A member of an object literal. -/
def Property.script (o : ScriptOptions) (level : Nat) : Property → Emit Script
  | .named span name value =>
    return marked span (words (name ++ ": ") ++ (← value.script o level))
  | .numbered span number value =>
    return marked span (words (number ++ ": ") ++ (← value.script o level))
  | .quoted span _ _ parts value => do
    let key ← TextPart.scripts o level escapeString parts
    let inner ← value.script o level
    return marked span (around "[`" key "`]: " ++ inner)
  | .computed span key value => do
    let key ← key.script o level
    let inner ← value.script o level
    return marked span (around "[" key "]: " ++ inner)
  | .spread span value => return marked span (← value.script o level)

/-- The members of an object literal. -/
def Property.scripts (o : ScriptOptions) (level : Nat) : List Property → Emit (List Script)
  | [] => return []
  | p :: ps => do
    let first ← p.script o level
    let rest ← Property.scripts o level ps
    return first :: rest

/-- A parameter. -/
def Parameter.script (o : ScriptOptions) (level : Nat) : Parameter → Emit Script
  | .named span name isRest default => do
    let name := words ((if isRest then "..." else "") ++ name)
    match ← Expression.scriptOption o level default with
    | none => return marked span name
    | some value => return marked span (name ++ words " = " ++ value)

/-- The parameters of a function. -/
def Parameter.scripts (o : ScriptOptions) (level : Nat) : List Parameter → Emit (List Script)
  | [] => return []
  | p :: ps => do
    let first ← p.script o level
    let rest ← Parameter.scripts o level ps
    return first :: rest

/-- A block. -/
def Block.script (o : ScriptOptions) (level : Nat) : Block → Emit Script
  | .code _ _ statements _ => do
    let lines ← Statement.lines o (level + 1) statements
    if statements.isEmpty then return words "\x7b\x7d"
    return braced level lines
  | .template _ _ lines => return braced level (← Line.scripts o (level + 1) lines)

/-- The script of a statement, without the end of its line. -/
def Statement.script (o : ScriptOptions) (level : Nat) : Statement → Emit Script
  | .block body => return marked body.span (← body.script o level)
  | .expression value => return (← value.script o level) ++ words ";"
  | .variable span kind declarators => do
    -- Properties of the context are assigned, so no word declares them.
    let isRaw := Declarator.areRaw declarators
    let list ← Declarator.scripts o level isRaw declarators
    return marked span
      (around (if isRaw then kind.spelling ++ " " else "") (commas list) ";")
  | .function span name isAsync isGenerator _ parameters body => do
    let list ← Parameter.scripts o level parameters
    let block ← body.script o level
    let function :=
      around (functionHead isAsync isGenerator (some name.name) ++ "(") (commas list) ") " ++ block
    -- A function of the context is a value that is assigned, under its own name.
    if name.isRaw then return marked span function
    return marked span (name.script ++ words " = " ++ function ++ words ";")
  | .ifElse span condition whenTrue whenFalse => do
    let c ← condition.script o level
    let t ← whenTrue.script o level
    let first := around "if (" c ") " ++ t
    match ← Statement.scriptOption o level whenFalse with
    | none => return marked span first
    | some f =>
      -- After a block `else` stays on its line.
      let between := if whenTrue.isBlock then words " " else [.lineBreak, .margin level]
      return marked span (first ++ between ++ words "else " ++ f)
  | .switch span value body => do
    let v ← value.script o level
    let b ← body.script o level
    return marked span (around "switch (" v ") " ++ b)
  | .label span test => do
    match ← Expression.scriptOption o level test with
    | none => return marked span (words "default:")
    | some value => return marked span (around "case " value ":")
  | .whileLoop span condition body => do
    let c ← condition.script o level
    let b ← body.script o level
    return marked span (around "while (" c ") " ++ b)
  | .doLoop span body condition => do
    let b ← body.script o level
    let c ← condition.script o level
    return marked span (words "do " ++ b ++ around " while (" c ");")
  | .forLoop span head condition update body => do
    let h ← head.script o level
    let c ← Expression.scriptOption o level condition
    let u ← Expression.scriptOption o level update
    let b ← body.script o level
    let spaced (script : Option Script) : Script := (script.map (words " " ++ ·)).getD []
    return marked span
      (words "for (" ++ h ++ words ";" ++ spaced c ++ words ";" ++ spaced u ++ words ") " ++ b)
  | .forIn span head value body => do
    let h ← head.bindingScript o level
    let v ← value.script o level
    let b ← body.script o level
    return marked span (around "for (" h " in " ++ v ++ words ") " ++ b)
  | .forOf span isAwait head value body => do
    let h ← head.bindingScript o level
    let v ← value.script o level
    let b ← body.script o level
    return marked span
      (around (if isAwait then "for await (" else "for (") h " of " ++ v ++ words ") " ++ b)
  | .attempt span body clauses => do
    let b ← body.script o level
    let c ← Clause.scripts o level clauses
    return marked span (words "try " ++ b ++ c)
  | .throw span value => return marked span (around "throw " (← value.script o level) ";")
  | .imported value => return marked value.span (words ";")
  | .leave span label => return marked span (words (jump "break" label))
  | .next span label => return marked span (words (jump "continue" label))
  | .result span value => do
    match ← Expression.scriptOption o level value with
    | none => return marked span (words "return;")
    | some inner => return marked span (around "return " inner ";")
  | .debugger span => return marked span (words "debugger;")
  | .empty span => return marked span (words ";")
  | .missing span => return marked span (words ";")

/-- The script of a statement that may be absent. -/
def Statement.scriptOption (o : ScriptOptions) (level : Nat) :
    Option Statement → Emit (Option Script)
  | none => return none
  | some s => return some (← s.script o level)

/-- Statements, each on a line of its own. -/
def Statement.lines (o : ScriptOptions) (level : Nat) : List Statement → Emit Script
  | [] => return []
  | s :: ss => do
    let first ← s.onLine level (s.script o level) (s.inner o level)
    let rest ← Statement.lines o level ss
    return first ++ rest

/-- The lines of the statements in a block. -/
def Statement.inner (o : ScriptOptions) (level : Nat) : Statement → Emit Script
  | .block (.code _ _ statements _) => Statement.lines o level statements
  | _ => return []

/-- A declared name and its first value. A property of the context is always assigned. -/
def Declarator.script (o : ScriptOptions) (level : Nat) (isRaw : Bool) : Declarator → Emit Script
  | .bind _ name value => do
    match ← Expression.scriptOption o level value with
    | some inner => return name.script ++ words " = " ++ inner
    | none => return if isRaw then name.script else name.script ++ words " = undefined"

/-- The names of a declaration. -/
def Declarator.scripts (o : ScriptOptions) (level : Nat) (isRaw : Bool) :
    List Declarator → Emit (List Script)
  | [] => return []
  | d :: ds => do
    let first ← d.script o level isRaw
    let rest ← Declarator.scripts o level isRaw ds
    return first :: rest

/-- What stands before the first `;` of a loop. -/
def LoopHead.script (o : ScriptOptions) (level : Nat) : LoopHead → Emit Script
  | .nothing => return []
  | .variable _ kind declarators => do
    let isRaw := Declarator.areRaw declarators
    let list ← Declarator.scripts o level isRaw declarators
    return words (if isRaw then kind.spelling ++ " " else "") ++ commas list
  | .expression value => value.script o level

/-- What stands before the `in` or the `of` of a loop. A property of the context takes each value in
turn, so of a declaration of properties only the first name remains. -/
def LoopHead.bindingScript (o : ScriptOptions) (level : Nat) : LoopHead → Emit Script
  | .nothing => return []
  | .variable _ kind declarators => do
    if Declarator.areRaw declarators then
      let list ← Declarator.scripts o level true declarators
      return words (kind.spelling ++ " ") ++ commas list
    return (declarators.head?.map fun d => d.name.script).getD []
  | .expression value => value.script o level

/-- What follows the block of a `try`. -/
def Clause.script (o : ScriptOptions) (level : Nat) : Clause → Emit Script
  | .handler _ parameter body => do
    let block ← body.script o level
    return words (" catch " ++ (parameter.map ("(" ++ · ++ ") ")).getD "") ++ block
  | .finalizer _ body => return words " finally " ++ (← body.script o level)

/-- The clauses of a `try`. -/
def Clause.scripts (o : ScriptOptions) (level : Nat) : List Clause → Emit Script
  | [] => return []
  | c :: cs => do
    let first ← c.script o level
    let rest ← Clause.scripts o level cs
    return first ++ rest

/-- The key of an object as it stands between brackets. -/
def ObjectKey.script (o : ScriptOptions) (level : Nat) : ObjectKey → Emit Script
  | .word _ text => return words (quoteName text)
  | .quoted _ parts =>
    return around "`" (← TextPart.scripts o level escapeString parts) "`"

/-- An entry of an object's tags, after the entries before it. -/
def Tag.script (o : ScriptOptions) (level : Nat) : Tag → Emit Script
  | .tag span name value => do
    let inner ← Expression.scriptOption o level value
    return words ", " ++
      marked span (words (quoteName name ++ ": ") ++ inner.getD (words "true"))

/-- The entries of an object's tags. -/
def Tag.scripts (o : ScriptOptions) (level : Nat) : List Tag → Emit Script
  | [] => return []
  | t :: ts => do
    let first ← t.script o level
    let rest ← Tag.scripts o level ts
    return first ++ rest

/-- The value of an object with its prototype. -/
def Prototype.script (o : ScriptOptions) (level : Nat) (value : Script) : Prototype → Emit Script
  | .nothing => return value
  | .inherits _ proto =>
    return around "Object.setPrototypeOf(" value ", " ++ (← proto.script o level) ++ words ")"

/-- The script of a line, with the ends of its lines. -/
def Line.script (o : ScriptOptions) (level : Nat) : Line → Emit Script
  | .object _ indent body key proto tags value => do
    -- The key and the value belong to the scope of the parent; the object opens its own after them.
    modify (·.enter indent.level)
    let parent := (← get).path
    let keyScript ← key.script o level
    let keyText := Script.text o.layout keyScript
    let path := (← get).childPath keyText
    let given ← Expression.scriptOption o level value
    let whole ← proto.script o level (given.getD (words (path ++ " || \x7b __text: [] \x7d")))
    let entries ← Tag.scripts o level tags
    modify (·.push keyText)
    let assignment := Script.line level
      (marked body (around (parent ++ "[") keyScript "] = " ++ whole ++ words ";"))
    match tags with
    | [] => return assignment
    | .tag span _ _ :: _ =>
      let all := path ++ "['__tags']"
      -- Tags are added to those that the object has.
      return assignment ++ Script.line level
        (marked span (around (all ++ " = \x7b ..." ++ all) entries " \x7d;"))
  | .delete _ indent body key => do
    modify (·.enter indent.level)
    let parent := (← get).path
    let keyScript ← key.script o level
    return Script.line level (marked body (around ("delete " ++ parent ++ "[") keyScript "];"))
  | .code _ indent statement => do
    modify (·.enter indent.level)
    statement.onLine level (statement.script o level) (statement.inner o level)
  | .text span indent parts => do
    modify (·.enter indent.level)
    let scope ← get
    let all := scope.path ++ "['__text']"
    -- Columns that belong to the scope are not part of the text.
    let blanks := "".pushn ' ' (indent.width - scope.ownedWidth o.indentSize)
    let inside ← TextPart.scripts o level escapeText parts
    return Script.line level
      (marked span (around (all ++ " = [..." ++ all ++ ", `" ++ blanks) inside "`];"))
  | .comment span _ text => return Script.line level (marked span (words ("//" ++ text)))

/-- The scripts of several lines. -/
def Line.scripts (o : ScriptOptions) (level : Nat) : List Line → Emit Script
  | [] => return []
  | l :: ls => do
    let first ← l.script o level
    let rest ← Line.scripts o level ls
    return first ++ rest

end

/-! ### The whole script -/

/-- The imports that the script makes: a variable is bound once, by the first import of its name;
`bound` are the variables so far. -/
def Import.effective (bound : List String) : List Import → List Import
  | [] => []
  | i :: is =>
    if i.isIn then i :: effective bound is
    else if i.binding ∈ bound then effective bound is
    else i :: effective (i.binding :: bound) is

/-- What an import requires: a whole module, or one property of it if the import has an alias. -/
def Import.required (i : Import) : String :=
  "require(" ++ i.path ++ ")" ++ (if i.newName.isSome then "[" ++ quoteName i.name ++ "]" else "")

/-- The line of an import. -/
def Import.script (i : Import) : Script :=
  Script.line 0 (marked i.span (words
    (if i.isIn then "context[" ++ quoteName i.binding ++ "] = " ++ i.required ++ ";"
     else "const " ++ i.binding ++ " = " ++ i.required ++ ";")))

/-- What comes before the imports. -/
def ScriptOptions.preamble (o : ScriptOptions) : Script :=
  Script.line 0 (words ("const environment = require(" ++ quoteName o.environment ++ ");")) ++
  Script.line 0 (words "let context = \x7b __text: [] \x7d;") ++
  Script.line 0 (words "const serializer = environment.getSerializer();")

/-- The script of a whole story. -/
def Module.script (o : ScriptOptions) (m : Module) : Script :=
  o.preamble ++ (Import.effective [] m.imports).flatMap Import.script ++
    ((Line.scripts o 0 m.lines).run .initial).1 ++
    Script.line 0 (words "module.exports = context;")

/-- A generated script. -/
structure Generated where
  /-- The text of the script. -/
  script : String
  /-- Where its parts come from. -/
  mappings : List Mapping
  /-- What could not be generated. -/
  diagnostics : List Diagnostic

/-- Generate the script of a story. -/
def generate (o : ScriptOptions) (m : Module) : Generated :=
  let script := m.script o
  ⟨script.text o.layout, script.mappings o.layout, m.incomplete⟩

end Story
