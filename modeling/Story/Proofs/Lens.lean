import Mathlib.Data.List.Forall2
import Story.Grammar.Extension

/-!
# Trees seen through a lens

Two texts may be read alike and still give different trees, since a tree tells where its parts stand and
which words it was made of. A `Lens` says what is to be seen of places and words; two trees are alike if
they look the same, each through a lens of its own.

* `Expression.through` and its like — what is seen of a tree. All spans are seen through the lens, and so
  are names and the words that a chunk of text, a number, a comment or the path of an import is made of.
  Operators and flags are seen as they are;
* `Through` — the types of which there is something to be seen;
* `Likeness` — two lenses, and where the two readers started; `Alike` — values that look the same.
-/

namespace Story

/-- What is seen of places and of words. -/
structure Lens where
  /-- What is seen of a place. -/
  position : Position → Position
  /-- What is seen of a name. -/
  name : String → String
  /-- What is seen of a stretch of words, which may go over ends of lines. -/
  text : String → String
  text_append (s t : String) : text (s ++ t) = text s ++ text t

namespace Lens

/-- All is seen as it is. -/
def clear : Lens := ⟨id, id, id, fun _ _ => rfl⟩

/-- All places look the same, and words are seen as they are. -/
def placeless : Lens := ⟨fun _ => .zero, id, id, fun _ _ => rfl⟩

theorem text_empty (l : Lens) : l.text "" = "" := by
  have h : (l.text "").length = (l.text "" ++ l.text "").length := by
    rw [← l.text_append, String.append_empty]
  rw [String.length_append] at h
  exact String.length_eq_zero_iff.mp (by omega)

theorem text_join (l : Lens) (texts : List String) :
    l.text (String.join texts) = String.join (texts.map l.text) := by
  induction texts with
  | nil => exact l.text_empty
  | cons s rest ih => rw [String.join_cons, l.text_append, ih, List.map_cons, String.join_cons]

end Lens

/-! ### Spans and names -/

/-- What is seen of a span. -/
def Span.through (l : Lens) (s : Span) : Span := ⟨l.position s.start, l.position s.stop⟩

/-- What is seen of a pair of brackets. -/
def Brackets.through (l : Lens) (b : Brackets) : Brackets :=
  ⟨b.opening.through l, b.closing.map (Span.through l)⟩

/-- What is seen of a declared name. -/
def Binding.through (l : Lens) (b : Binding) : Binding :=
  { b with span := b.span.through l, name := l.name b.name }

/-- What is seen of an import. -/
def Import.through (l : Lens) (i : Import) : Import :=
  ⟨i.span.through l, i.isIn, l.name i.name, i.newName.map l.name, l.text i.path⟩

/-- What is seen of an indentation. -/
def Indent.through (l : Lens) (i : Indent) : Indent := { i with span := i.span.through l }

/-- What is seen of a diagnostic. -/
def Diagnostic.through (l : Lens) (d : Diagnostic) : Diagnostic := { d with span := d.span.through l }

/-! ### Trees -/

mutual

/-- What is seen of an expression. -/
def Expression.through (l : Lens) : Expression → Expression
  | .number span text => .number (span.through l) (l.text text)
  | .string span quote parts => .string (span.through l) quote (TextPart.allThrough l parts)
  | .boolean span value => .boolean (span.through l) value
  | .keyword span word => .keyword (span.through l) word
  | .array span brackets elements =>
    .array (span.through l) (brackets.through l) (Expression.allThrough l elements)
  | .object span brackets properties =>
    .object (span.through l) (brackets.through l) (Property.allThrough l properties)
  | .name span kind text => .name (span.through l) kind (l.name text)
  | .binary span left operator right =>
    .binary (span.through l) (left.through l) operator (right.through l)
  | .member span object property isOptional =>
    .member (span.through l) (object.through l) (l.name property) isOptional
  | .index span object index isOptional =>
    .index (span.through l) (object.through l) (index.through l) isOptional
  | .call span callee brackets arguments isOptional =>
    .call (span.through l) (callee.through l) (brackets.through l) (Expression.allThrough l arguments)
      isOptional
  | .update span operator isBefore operand =>
    .update (span.through l) operator isBefore (operand.through l)
  | .unary span operator operand => .unary (span.through l) operator (operand.through l)
  | .operation span operator operand => .operation (span.through l) operator (operand.through l)
  | .conditional span condition whenTrue whenFalse =>
    .conditional (span.through l) (condition.through l) (whenTrue.through l) (whenFalse.through l)
  | .paren span inner => .paren (span.through l) (inner.through l)
  | .new span callee brackets arguments =>
    .new (span.through l) (callee.through l) (brackets.map (Brackets.through l))
      (Expression.allThrough l arguments)
  | .yield span delegate value => .yield (span.through l) delegate (Expression.throughOption l value)
  | .function span name isAsync isGenerator brackets parameters body =>
    .function (span.through l) (name.map l.name) isAsync isGenerator (brackets.through l)
      (Parameter.allThrough l parameters) (body.through l)
  | .arrowBlock span isAsync brackets parameters body =>
    .arrowBlock (span.through l) isAsync (brackets.through l) (Parameter.allThrough l parameters)
      (body.through l)
  | .arrowValue span isAsync brackets parameters body =>
    .arrowValue (span.through l) isAsync (brackets.through l) (Parameter.allThrough l parameters)
      (body.through l)
  | .spread span inner => .spread (span.through l) (inner.through l)
  | .missing span => .missing (span.through l)

/-- What is seen of an expression that may be absent. -/
def Expression.throughOption (l : Lens) : Option Expression → Option Expression
  | none => none
  | some e => some (e.through l)

/-- What is seen of several expressions. -/
def Expression.allThrough (l : Lens) : List Expression → List Expression
  | [] => []
  | e :: es => e.through l :: Expression.allThrough l es

/-- What is seen of a piece of text. -/
def TextPart.through (l : Lens) : TextPart → TextPart
  | .chunk span text => .chunk (span.through l) (l.text text)
  | .splice span value => .splice (span.through l) (value.through l)

/-- What is seen of several pieces of text. -/
def TextPart.allThrough (l : Lens) : List TextPart → List TextPart
  | [] => []
  | p :: ps => p.through l :: TextPart.allThrough l ps

/-- What is seen of a member of an object literal. -/
def Property.through (l : Lens) : Property → Property
  | .named span name value => .named (span.through l) (l.name name) (value.through l)
  | .numbered span number value => .numbered (span.through l) (l.name number) (value.through l)
  | .quoted span key quote parts value =>
    .quoted (span.through l) (key.through l) quote (TextPart.allThrough l parts) (value.through l)
  | .computed span key value => .computed (span.through l) (key.through l) (value.through l)
  | .spread span value => .spread (span.through l) (value.through l)

/-- What is seen of several members. -/
def Property.allThrough (l : Lens) : List Property → List Property
  | [] => []
  | p :: ps => p.through l :: Property.allThrough l ps

/-- What is seen of a parameter. -/
def Parameter.through (l : Lens) : Parameter → Parameter
  | .named span name isRest value =>
    .named (span.through l) (l.name name) isRest (Expression.throughOption l value)

/-- What is seen of several parameters. -/
def Parameter.allThrough (l : Lens) : List Parameter → List Parameter
  | [] => []
  | p :: ps => p.through l :: Parameter.allThrough l ps

/-- What is seen of a block. -/
def Block.through (l : Lens) : Block → Block
  | .code span brackets statements isScoped =>
    .code (span.through l) (brackets.through l) (Statement.allThrough l statements) isScoped
  | .template span brackets lines =>
    .template (span.through l) (brackets.through l) (Line.allThrough l lines)

/-- What is seen of a statement. -/
def Statement.through (l : Lens) : Statement → Statement
  | .block body => .block (body.through l)
  | .expression value => .expression (value.through l)
  | .variable span kind declarators =>
    .variable (span.through l) kind (Declarator.allThrough l declarators)
  | .function span name isAsync isGenerator brackets parameters body =>
    .function (span.through l) (name.through l) isAsync isGenerator (brackets.through l)
      (Parameter.allThrough l parameters) (body.through l)
  | .ifElse span condition whenTrue whenFalse =>
    .ifElse (span.through l) (condition.through l) (whenTrue.through l)
      (Statement.throughOption l whenFalse)
  | .switch span value body => .switch (span.through l) (value.through l) (body.through l)
  | .label span test => .label (span.through l) (Expression.throughOption l test)
  | .whileLoop span condition body => .whileLoop (span.through l) (condition.through l) (body.through l)
  | .doLoop span body condition => .doLoop (span.through l) (body.through l) (condition.through l)
  | .forLoop span head condition update body =>
    .forLoop (span.through l) (head.through l) (Expression.throughOption l condition)
      (Expression.throughOption l update) (body.through l)
  | .forIn span head value body =>
    .forIn (span.through l) (head.through l) (value.through l) (body.through l)
  | .forOf span isAwait head value body =>
    .forOf (span.through l) isAwait (head.through l) (value.through l) (body.through l)
  | .attempt span body clauses =>
    .attempt (span.through l) (body.through l) (Clause.allThrough l clauses)
  | .throw span value => .throw (span.through l) (value.through l)
  | .imported value => .imported (value.through l)
  | .leave span label => .leave (span.through l) (label.map l.name)
  | .next span label => .next (span.through l) (label.map l.name)
  | .result span value => .result (span.through l) (Expression.throughOption l value)
  | .debugger span => .debugger (span.through l)
  | .empty span => .empty (span.through l)
  | .missing span => .missing (span.through l)

/-- What is seen of a statement that may be absent. -/
def Statement.throughOption (l : Lens) : Option Statement → Option Statement
  | none => none
  | some s => some (s.through l)

/-- What is seen of several statements. -/
def Statement.allThrough (l : Lens) : List Statement → List Statement
  | [] => []
  | s :: ss => s.through l :: Statement.allThrough l ss

/-- What is seen of a declared name. -/
def Declarator.through (l : Lens) : Declarator → Declarator
  | .bind span name value => .bind (span.through l) (name.through l) (Expression.throughOption l value)

/-- What is seen of several declared names. -/
def Declarator.allThrough (l : Lens) : List Declarator → List Declarator
  | [] => []
  | d :: ds => d.through l :: Declarator.allThrough l ds

/-- What is seen of the head of a loop. -/
def LoopHead.through (l : Lens) : LoopHead → LoopHead
  | .nothing => .nothing
  | .variable span kind declarators =>
    .variable (span.through l) kind (Declarator.allThrough l declarators)
  | .expression value => .expression (value.through l)

/-- What is seen of a clause of a `try`. -/
def Clause.through (l : Lens) : Clause → Clause
  | .handler span parameter body =>
    .handler (span.through l) (parameter.map l.name) (body.through l)
  | .finalizer span body => .finalizer (span.through l) (body.through l)

/-- What is seen of several clauses. -/
def Clause.allThrough (l : Lens) : List Clause → List Clause
  | [] => []
  | c :: cs => c.through l :: Clause.allThrough l cs

/-- What is seen of the key of an object. -/
def ObjectKey.through (l : Lens) : ObjectKey → ObjectKey
  | .word span text => .word (span.through l) (l.name text)
  | .quoted span parts => .quoted (span.through l) (TextPart.allThrough l parts)

/-- What is seen of a tag. -/
def Tag.through (l : Lens) : Tag → Tag
  | .tag span name value => .tag (span.through l) (l.name name) (Expression.throughOption l value)

/-- What is seen of several tags. -/
def Tag.allThrough (l : Lens) : List Tag → List Tag
  | [] => []
  | t :: ts => t.through l :: Tag.allThrough l ts

/-- What is seen of a prototype. -/
def Prototype.through (l : Lens) : Prototype → Prototype
  | .nothing => .nothing
  | .inherits span value => .inherits (span.through l) (value.through l)

/-- What is seen of a line. -/
def Line.through (l : Lens) : Line → Line
  | .object span indent body key proto tags value =>
    .object (span.through l) (indent.through l) (body.through l) (key.through l) (proto.through l)
      (Tag.allThrough l tags) (Expression.throughOption l value)
  | .delete span indent body key =>
    .delete (span.through l) (indent.through l) (body.through l) (key.through l)
  | .code span indent statement => .code (span.through l) (indent.through l) (statement.through l)
  | .text span indent parts => .text (span.through l) (indent.through l) (TextPart.allThrough l parts)
  | .comment span indent text => .comment (span.through l) (indent.through l) (l.text text)

/-- What is seen of several lines. -/
def Line.allThrough (l : Lens) : List Line → List Line
  | [] => []
  | x :: xs => x.through l :: Line.allThrough l xs

end

/-- Each kind of list is seen item by item. -/
theorem eq_map_of_cons {α β : Type} {f : α → β} {all : List α → List β} (hnil : all [] = [])
    (hcons : ∀ a as, all (a :: as) = f a :: all as) (as : List α) : all as = as.map f := by
  induction as with
  | nil => exact hnil
  | cons a as ih => rw [hcons, ih, List.map_cons]

section

variable (l : Lens)

@[simp] theorem Expression.allThrough_eq_map (es : List Expression) :
    Expression.allThrough l es = es.map (Expression.through l) :=
  eq_map_of_cons rfl (fun _ _ => rfl) es

@[simp] theorem TextPart.allThrough_eq_map (ps : List TextPart) :
    TextPart.allThrough l ps = ps.map (TextPart.through l) :=
  eq_map_of_cons rfl (fun _ _ => rfl) ps

@[simp] theorem Property.allThrough_eq_map (ps : List Property) :
    Property.allThrough l ps = ps.map (Property.through l) :=
  eq_map_of_cons rfl (fun _ _ => rfl) ps

@[simp] theorem Parameter.allThrough_eq_map (ps : List Parameter) :
    Parameter.allThrough l ps = ps.map (Parameter.through l) :=
  eq_map_of_cons rfl (fun _ _ => rfl) ps

@[simp] theorem Statement.allThrough_eq_map (ss : List Statement) :
    Statement.allThrough l ss = ss.map (Statement.through l) :=
  eq_map_of_cons rfl (fun _ _ => rfl) ss

@[simp] theorem Declarator.allThrough_eq_map (ds : List Declarator) :
    Declarator.allThrough l ds = ds.map (Declarator.through l) :=
  eq_map_of_cons rfl (fun _ _ => rfl) ds

@[simp] theorem Clause.allThrough_eq_map (cs : List Clause) :
    Clause.allThrough l cs = cs.map (Clause.through l) :=
  eq_map_of_cons rfl (fun _ _ => rfl) cs

@[simp] theorem Tag.allThrough_eq_map (ts : List Tag) :
    Tag.allThrough l ts = ts.map (Tag.through l) :=
  eq_map_of_cons rfl (fun _ _ => rfl) ts

@[simp] theorem Line.allThrough_eq_map (ls : List Line) :
    Line.allThrough l ls = ls.map (Line.through l) :=
  eq_map_of_cons rfl (fun _ _ => rfl) ls

@[simp] theorem Expression.throughOption_eq_map (e : Option Expression) :
    Expression.throughOption l e = e.map (Expression.through l) := by
  cases e <;> rfl

@[simp] theorem Statement.throughOption_eq_map (s : Option Statement) :
    Statement.throughOption l s = s.map (Statement.through l) := by
  cases s <;> rfl

end

/-! ### The clear lens -/

theorem Brackets.through_clear (b : Brackets) : b.through .clear = b := by
  obtain ⟨_, _ | _⟩ := b <;> rfl

theorem Import.through_clear (i : Import) : i.through .clear = i := by
  obtain ⟨_, _, _, _ | _, _⟩ := i <;> rfl

theorem Lens.map_name_clear (name : Option String) : name.map Lens.clear.name = name := Option.map_id_apply

mutual

/-- Through the clear lens a tree is seen as it is. -/
theorem Expression.through_clear : (e : Expression) → e.through .clear = e
  | .number .. | .boolean .. | .keyword .. | .name .. | .missing .. => rfl
  | .string span quote parts => congrArg (Expression.string span quote) (TextPart.allThrough_clear parts)
  | .array span brackets elements =>
    congrArg₂ (Expression.array span) brackets.through_clear (Expression.allThrough_clear elements)
  | .object span brackets properties =>
    congrArg₂ (Expression.object span) brackets.through_clear (Property.allThrough_clear properties)
  | .binary span left operator right =>
    congrArg₂ (Expression.binary span · operator ·) left.through_clear right.through_clear
  | .member span object property isOptional =>
    congrArg (Expression.member span · property isOptional) object.through_clear
  | .index span object index isOptional =>
    congrArg₂ (Expression.index span · · isOptional) object.through_clear index.through_clear
  | .call span callee brackets arguments isOptional => by
    rw [Expression.through, callee.through_clear, brackets.through_clear,
      Expression.allThrough_clear arguments]
    rfl
  | .update span operator isBefore operand =>
    congrArg (Expression.update span operator isBefore) operand.through_clear
  | .unary span operator operand => congrArg (Expression.unary span operator) operand.through_clear
  | .operation span operator operand => congrArg (Expression.operation span operator) operand.through_clear
  | .conditional span condition whenTrue whenFalse => by
    rw [Expression.through, condition.through_clear, whenTrue.through_clear, whenFalse.through_clear]
    rfl
  | .paren span inner => congrArg (Expression.paren span) inner.through_clear
  | .new span callee brackets arguments => by
    have hbrackets : brackets.map (Brackets.through .clear) = brackets := by
      cases brackets with
      | none => rfl
      | some b => exact congrArg some b.through_clear
    rw [Expression.through, callee.through_clear, hbrackets, Expression.allThrough_clear arguments]
    rfl
  | .yield span delegate value =>
    congrArg (Expression.yield span delegate) (Expression.throughOption_clear value)
  | .function span name isAsync isGenerator brackets parameters body => by
    rw [Expression.through, Lens.map_name_clear, brackets.through_clear,
      Parameter.allThrough_clear parameters, body.through_clear]
    rfl
  | .arrowBlock span isAsync brackets parameters body => by
    rw [Expression.through, brackets.through_clear, Parameter.allThrough_clear parameters, body.through_clear]
    rfl
  | .arrowValue span isAsync brackets parameters body => by
    rw [Expression.through, brackets.through_clear, Parameter.allThrough_clear parameters, body.through_clear]
    rfl
  | .spread span inner => congrArg (Expression.spread span) inner.through_clear

theorem Expression.throughOption_clear : (e : Option Expression) → Expression.throughOption .clear e = e
  | none => rfl
  | some e => congrArg some e.through_clear

theorem Expression.allThrough_clear : (es : List Expression) → Expression.allThrough .clear es = es
  | [] => rfl
  | e :: es => congrArg₂ List.cons e.through_clear (Expression.allThrough_clear es)

theorem TextPart.through_clear : (p : TextPart) → p.through .clear = p
  | .chunk .. => rfl
  | .splice span value => congrArg (TextPart.splice span) value.through_clear

theorem TextPart.allThrough_clear : (ps : List TextPart) → TextPart.allThrough .clear ps = ps
  | [] => rfl
  | p :: ps => congrArg₂ List.cons p.through_clear (TextPart.allThrough_clear ps)

theorem Property.through_clear : (p : Property) → p.through .clear = p
  | .named span name value => congrArg (Property.named span name) value.through_clear
  | .numbered span number value => congrArg (Property.numbered span number) value.through_clear
  | .quoted span key quote parts value =>
    congrArg₂ (Property.quoted span key quote) (TextPart.allThrough_clear parts) value.through_clear
  | .computed span key value => congrArg₂ (Property.computed span) key.through_clear value.through_clear
  | .spread span value => congrArg (Property.spread span) value.through_clear

theorem Property.allThrough_clear : (ps : List Property) → Property.allThrough .clear ps = ps
  | [] => rfl
  | p :: ps => congrArg₂ List.cons p.through_clear (Property.allThrough_clear ps)

theorem Parameter.through_clear : (p : Parameter) → p.through .clear = p
  | .named span name isRest value =>
    congrArg (Parameter.named span name isRest) (Expression.throughOption_clear value)

theorem Parameter.allThrough_clear : (ps : List Parameter) → Parameter.allThrough .clear ps = ps
  | [] => rfl
  | p :: ps => congrArg₂ List.cons p.through_clear (Parameter.allThrough_clear ps)

theorem Block.through_clear : (b : Block) → b.through .clear = b
  | .code span brackets statements isScoped =>
    congrArg₂ (Block.code span · · isScoped) brackets.through_clear (Statement.allThrough_clear statements)
  | .template span brackets lines =>
    congrArg₂ (Block.template span) brackets.through_clear (Line.allThrough_clear lines)

theorem Statement.through_clear : (s : Statement) → s.through .clear = s
  | .block body => congrArg Statement.block body.through_clear
  | .expression value => congrArg Statement.expression value.through_clear
  | .variable span kind declarators =>
    congrArg (Statement.variable span kind) (Declarator.allThrough_clear declarators)
  | .function span name isAsync isGenerator brackets parameters body => by
    rw [Statement.through, brackets.through_clear, Parameter.allThrough_clear parameters, body.through_clear]
    rfl
  | .ifElse span condition whenTrue whenFalse => by
    rw [Statement.through, condition.through_clear, whenTrue.through_clear,
      Statement.throughOption_clear whenFalse]
    rfl
  | .switch span value body => congrArg₂ (Statement.switch span) value.through_clear body.through_clear
  | .label span test => congrArg (Statement.label span) (Expression.throughOption_clear test)
  | .whileLoop span condition body =>
    congrArg₂ (Statement.whileLoop span) condition.through_clear body.through_clear
  | .doLoop span body condition => congrArg₂ (Statement.doLoop span) body.through_clear condition.through_clear
  | .forLoop span head condition update body => by
    rw [Statement.through, head.through_clear, Expression.throughOption_clear condition,
      Expression.throughOption_clear update, body.through_clear]
    rfl
  | .forIn span head value body => by
    rw [Statement.through, head.through_clear, value.through_clear, body.through_clear]
    rfl
  | .forOf span isAwait head value body => by
    rw [Statement.through, head.through_clear, value.through_clear, body.through_clear]
    rfl
  | .attempt span body clauses =>
    congrArg₂ (Statement.attempt span) body.through_clear (Clause.allThrough_clear clauses)
  | .throw span value => congrArg (Statement.throw span) value.through_clear
  | .imported value => congrArg Statement.imported value.through_clear
  | .leave span label => congrArg (Statement.leave span) (Lens.map_name_clear label)
  | .next span label => congrArg (Statement.next span) (Lens.map_name_clear label)
  | .result span value => congrArg (Statement.result span) (Expression.throughOption_clear value)
  | .debugger _ | .empty _ | .missing _ => rfl

theorem Statement.throughOption_clear : (s : Option Statement) → Statement.throughOption .clear s = s
  | none => rfl
  | some s => congrArg some s.through_clear

theorem Statement.allThrough_clear : (ss : List Statement) → Statement.allThrough .clear ss = ss
  | [] => rfl
  | s :: ss => congrArg₂ List.cons s.through_clear (Statement.allThrough_clear ss)

theorem Declarator.through_clear : (d : Declarator) → d.through .clear = d
  | .bind span name value => congrArg (Declarator.bind span name) (Expression.throughOption_clear value)

theorem Declarator.allThrough_clear : (ds : List Declarator) → Declarator.allThrough .clear ds = ds
  | [] => rfl
  | d :: ds => congrArg₂ List.cons d.through_clear (Declarator.allThrough_clear ds)

theorem LoopHead.through_clear : (h : LoopHead) → h.through .clear = h
  | .nothing => rfl
  | .variable span kind declarators =>
    congrArg (LoopHead.variable span kind) (Declarator.allThrough_clear declarators)
  | .expression value => congrArg LoopHead.expression value.through_clear

theorem Clause.through_clear : (c : Clause) → c.through .clear = c
  | .handler span parameter body =>
    congrArg₂ (Clause.handler span) (Lens.map_name_clear parameter) body.through_clear
  | .finalizer span body => congrArg (Clause.finalizer span) body.through_clear

theorem Clause.allThrough_clear : (cs : List Clause) → Clause.allThrough .clear cs = cs
  | [] => rfl
  | c :: cs => congrArg₂ List.cons c.through_clear (Clause.allThrough_clear cs)

theorem ObjectKey.through_clear : (k : ObjectKey) → k.through .clear = k
  | .word .. => rfl
  | .quoted span parts => congrArg (ObjectKey.quoted span) (TextPart.allThrough_clear parts)

theorem Tag.through_clear : (t : Tag) → t.through .clear = t
  | .tag span name value => congrArg (Tag.tag span name) (Expression.throughOption_clear value)

theorem Tag.allThrough_clear : (ts : List Tag) → Tag.allThrough .clear ts = ts
  | [] => rfl
  | t :: ts => congrArg₂ List.cons t.through_clear (Tag.allThrough_clear ts)

theorem Prototype.through_clear : (p : Prototype) → p.through .clear = p
  | .nothing => rfl
  | .inherits span value => congrArg (Prototype.inherits span) value.through_clear

theorem Line.through_clear : (x : Line) → x.through .clear = x
  | .object span indent body key proto tags value => by
    rw [Line.through, key.through_clear, proto.through_clear, Tag.allThrough_clear tags,
      Expression.throughOption_clear value]
    rfl
  | .delete span indent body key => congrArg (Line.delete span indent body) key.through_clear
  | .code span indent statement => congrArg (Line.code span indent) statement.through_clear
  | .text span indent parts => congrArg (Line.text span indent) (TextPart.allThrough_clear parts)
  | .comment .. => rfl

theorem Line.allThrough_clear : (xs : List Line) → Line.allThrough .clear xs = xs
  | [] => rfl
  | x :: xs => congrArg₂ List.cons x.through_clear (Line.allThrough_clear xs)

end

/-- What is seen of a story. -/
def Module.through (l : Lens) (m : Module) : Module :=
  ⟨m.span.through l, m.path, Line.allThrough l m.lines, m.imports.map (Import.through l)⟩

theorem Module.through_clear (m : Module) : m.through .clear = m := by
  rw [Module.through, Line.allThrough_clear, List.map_congr_left fun i _ => i.through_clear, List.map_id']
  rfl

/-! ### Values that look alike -/

/-- What can be seen through a lens. -/
class Through (α : Type) where
  /-- What is seen of a value. -/
  through : Lens → α → α

section

variable {α β : Type} [Through α] [Through β]

instance : Through Bool := ⟨fun _ => id⟩
instance : Through String := ⟨Lens.name⟩
instance : Through Position := ⟨Lens.position⟩
instance : Through Span := ⟨Span.through⟩
instance : Through Brackets := ⟨Brackets.through⟩
instance : Through Binding := ⟨Binding.through⟩
instance : Through Import := ⟨Import.through⟩
instance : Through Diagnostic := ⟨Diagnostic.through⟩
instance : Through Indent := ⟨Indent.through⟩
instance : Through Expression := ⟨Expression.through⟩
instance : Through TextPart := ⟨TextPart.through⟩
instance : Through Property := ⟨Property.through⟩
instance : Through Parameter := ⟨Parameter.through⟩
instance : Through Block := ⟨Block.through⟩
instance : Through Statement := ⟨Statement.through⟩
instance : Through Declarator := ⟨Declarator.through⟩
instance : Through LoopHead := ⟨LoopHead.through⟩
instance : Through Clause := ⟨Clause.through⟩
instance : Through ObjectKey := ⟨ObjectKey.through⟩
instance : Through Tag := ⟨Tag.through⟩
instance : Through Prototype := ⟨Prototype.through⟩
instance : Through Line := ⟨Line.through⟩
instance : Through (List α) := ⟨fun l => List.map (Through.through l)⟩
instance : Through (Option α) := ⟨fun l => Option.map (Through.through l)⟩
instance : Through (α × β) := ⟨fun l => Prod.map (Through.through l) (Through.through l)⟩

end

/-- How two readers may differ: each sees its text through a lens, and each started in a state of its
own. -/
structure Likeness where
  /-- What is seen of the first text. -/
  left : Lens
  /-- What is seen of the second text. -/
  right : Lens
  /-- Where the first reader started. -/
  first : State
  /-- Where the second reader started. -/
  second : State
  union {r s r' s' : Span} (h : r.through left = r'.through right)
    (h' : s.through left = s'.through right) : (r.union s).through left = (r'.union s').through right

/-- The values look the same. -/
def Alike (k : Likeness) {α : Type} [Through α] (x y : α) : Prop :=
  Through.through k.left x = Through.through k.right y

variable {k : Likeness} {α β : Type} [Through α] [Through β]

theorem alike_nil : Alike k ([] : List α) [] := rfl

theorem Alike.cons {x y : α} {xs ys : List α} (h : Alike k x y) (h' : Alike k xs ys) :
    Alike k (x :: xs) (y :: ys) := congrArg₂ List.cons h h'

theorem alike_cons_iff {x y : α} {xs ys : List α} :
    Alike k (x :: xs) (y :: ys) ↔ Alike k x y ∧ Alike k xs ys :=
  List.cons.injEq .. ▸ .rfl

theorem Alike.reverse {xs ys : List α} (h : Alike k xs ys) : Alike k xs.reverse ys.reverse := by
  change xs.reverse.map _ = ys.reverse.map _
  rw [List.map_reverse, List.map_reverse]
  exact congrArg List.reverse h

theorem Alike.append {xs xs' ys ys' : List α} (h : Alike k xs ys) (h' : Alike k xs' ys') :
    Alike k (xs ++ xs') (ys ++ ys') := by
  change (xs ++ xs').map _ = (ys ++ ys').map _
  rw [List.map_append, List.map_append]
  exact congrArg₂ (· ++ ·) h h'

theorem Alike.isEmpty_eq {xs ys : List α} (h : Alike k xs ys) : xs.isEmpty = ys.isEmpty := by
  cases xs <;> cases ys
  · rfl
  · cases h
  · cases h
  · rfl

theorem alike_none : Alike k (none : Option α) none := rfl

theorem Alike.some {x y : α} (h : Alike k x y) : Alike k (some x) (some y) := congrArg Option.some h

theorem Alike.pair {x y : α} {u v : β} (h : Alike k x y) (h' : Alike k u v) :
    Alike k (x, u) (y, v) := congrArg₂ Prod.mk h h'

theorem alike_pair_iff {x y : α} {u v : β} : Alike k (x, u) (y, v) ↔ Alike k x y ∧ Alike k u v :=
  Prod.mk.injEq .. ▸ .rfl

theorem alike_brackets {opening opening' : Span} {closing closing' : Option Span}
    (h : Alike k opening opening') (h' : Alike k closing closing') :
    Alike k (Brackets.mk opening closing) (Brackets.mk opening' closing') := congrArg₂ Brackets.mk h h'

theorem alike_span {p q : Position} {r s : Position} (h : Alike k p q) (h' : Alike k r s) :
    Alike k (Span.mk p r) (Span.mk q s) := congrArg₂ Span.mk h h'

end Story
